import Relay.Proofs.Workflow.Records

/-!
# What every step keeps

The invariant of the whole system: the queues are in order, every routine is where it
may be, and the records tell the truth.
-/

namespace Relay

namespace Stage

variable {script : Script} {routing : Routing} {settings : Dict QueueSettings}
  {world after : World} {stage later : Stage}

/-- What is true at a stage stays true while others act. -/
theorem Valid.grow (valid : stage.Valid world) (recorded : Recorded world)
    (grows : Grows world after)
    (stays : ∀ id record, world.system.records.get? id = some record →
      ∃ new, after.system.records.get? id = some new ∧ new.rootKey = record.rootKey)
    (watched : ∀ id, stage.watches? = some id →
      after.system.records.get? id = world.system.records.get? id) :
    stage.Valid after := by
  have concluded : ∀ id record text, world.system.records.get? id = some record →
      Concluded world.system.queues record.rootKey text →
      Concluded after.system.queues record.rootKey text := by
    intro id record text stored holds
    obtain ⟨added, accepted, root⟩ := recorded.rooted id record stored
    rw [root] at holds ⊢
    exact grows.concluded id added text accepted holds
  have due : ∀ id text, Due world id text → Due after id text := by
    intro id text holds
    obtain ⟨record, stored, ended⟩ := holds
    obtain ⟨new, isStored, root⟩ := stays id record stored
    exact ⟨new, isStored, root ▸ concluded id record text stored ended⟩
  have rooted : ∀ record, Rooted world record → Rooted after record := by
    intro record holds
    obtain ⟨owner, added, accepted, root⟩ := holds
    exact ⟨owner, added, grows.accepted owner added accepted, root⟩
  cases stage with
  | listening id tasks chain heard =>
      constructor
      · rw [watched id rfl]
        exact valid.1
      · exact fun queue member => grows.listeners queue (valid.2 queue member)
  | recording id tasks added => exact (watched id rfl).trans valid
  | finding queue event =>
      obtain ⟨more, events⟩ := grows.events queue
      show event ∈ (after.system.queues.lane queue).events
      rw [events]
      exact List.mem_append_left more valid
  | found record status => exact due _ _ valid
  | checking id status => exact due _ _ valid
  | writing id status => exact due _ _ valid
  | judging id record => exact ⟨(watched id rfl).trans valid.1, valid.2⟩
  | owing id record status =>
      obtain ⟨stored, isOpen, truth⟩ := valid
      refine ⟨(watched id rfl).trans stored, isOpen, ?_⟩
      exact fun final => concluded id record status stored (truth final)
  | rereading id record => exact rooted record valid
  | viewing id record => exact rooted record valid
  | expired id => exact valid
  | asking id => trivial
  | fetching id => trivial
  | leaving id => trivial
  | ended => trivial

theorem tree?_stored {queues : Queues} {key : JobKey} {job : Job}
    (stored : queues.job? key = some job) : ∃ tree, queues.tree? key = some tree := by
  have size : 0 < queues.jobs.size := by
    have one := Queues.length_le_size (List.nodup_singleton key) fun other member =>
      ⟨job, List.mem_singleton.1 member ▸ stored⟩
    exact one
  obtain ⟨depth, whole⟩ := Nat.exists_eq_succ_of_ne_zero (Nat.ne_of_gt size)
  unfold Queues.tree?
  rw [whole, Queues.treeWithin, stored]
  exact ⟨_, rfl⟩

/-- Where an action leads, what has to be true there is true. -/
theorem Moves.valid {action : Action} {reply : action.Reply}
    (moves : stage.Moves ⟨action, reply⟩ later)
    (answered : WorkflowSystem.answer action world.system = (reply, after.system))
    (orderly : Orderly script routing settings world) (recorded : Recorded world)
    (valid : stage.Valid world) (grows : Grows world after)
    (stays : ∀ id record, world.system.records.get? id = some record →
      ∃ new, after.system.records.get? id = some new ∧ new.rootKey = record.rootKey) :
    later.Valid after := by
  have still : world.system = after.system → later.Valid world → later.Valid after := by
    intro same holds
    apply holds.grow recorded grows stays
    intro id _
    rw [same]
  have rooted : ∀ id record, world.system.records.get? id = some record → Rooted world record := by
    intro id record stored
    obtain ⟨added, accepted, root⟩ := recorded.rooted id record stored
    exact ⟨id, added, accepted, root⟩
  have rootStored : ∀ record, Rooted world record →
      ∃ job, world.system.queues.job? record.rootKey = some job := by
    intro record isRooted
    obtain ⟨owner, added, accepted, root⟩ := isRooted
    rw [root]
    exact orderly.root_stored accepted
  cases moves with
  | hears id tasks chain heard queue =>
      have same : (world.system.listen queue).records = world.system.records :=
        @records_answer (.listen queue) world.system rfl
      have system : world.system.listen queue = after.system := congrArg Prod.snd answered
      constructor
      · rw [← system, same]
        exact valid.1
      · intro other member
        rcases List.mem_cons.1 member with rfl | before
        · rw [← system]
          unfold WorkflowSystem.listen
          split
          · next contains => exact contains
          · exact contains_insert (.inr rfl)
        · exact grows.listeners other (valid.2 other before)
  | refused id tasks chain heard problem => trivial
  | @accepted id tasks chain heard added follows =>
      have same := @records_answer (.addFlow chain) world.system rfl
      rw [answered] at same
      show after.system.records.get? id = none
      rw [show after.system.records = _ from same]
      exact valid.1
  | recorded id tasks added reply => trivial
  | finds queue event record =>
      apply still (congrArg Prod.snd answered)
      have found : world.system.records.findByRoot? queue event.jobId = some record :=
        Except.ok.inj (congrArg Prod.fst answered)
      obtain ⟨stored, root⟩ := recorded.keyed.findByRoot? found
      obtain ⟨job, isStored⟩ := rootStored record (rooted _ record stored)
      refine ⟨record, stored, ?_⟩
      rw [root] at isStored ⊢
      exact Concluded.of_event orderly.reached.announced valid isStored
  | findsNothing queue event nothing => trivial
  | locks record status => exact still (congrArg Prod.snd answered) valid
  | checks id status record => exact still (congrArg Prod.snd answered) valid
  | checksInVain id status nothing => trivial
  | writes id status reply => trivial
  | enters id => trivial
  | @fetchesFinal id record final =>
      apply still (congrArg Prod.snd answered)
      exact rooted id record (Except.ok.inj (congrArg Prod.fst answered))
  | fetchesOpen id isOpen =>
      apply still (congrArg Prod.snd answered)
      exact ⟨Except.ok.inj (congrArg Prod.fst answered), isOpen⟩
  | fetchesNothing id nothing => trivial
  | @agrees id record state same =>
      apply still (congrArg Prod.snd answered)
      exact rooted id record valid.1
  | differs id record state =>
      apply still (congrArg Prod.snd answered)
      refine ⟨valid.1, valid.2, ?_⟩
      intro final
      have told : world.system.queues.jobState? record.rootKey = some state :=
        Except.ok.inj (congrArg Prod.fst answered)
      obtain ⟨job, stored, rfl⟩ := Option.map_eq_some_iff.1 told
      rw [isTerminal_ofText] at final
      exact ⟨job, stored, final, rfl⟩
  | @judgesNothing id record reply nothing =>
      obtain ⟨job, stored⟩ := rootStored record (rooted id record valid.1)
      have told : Except.ok (world.system.queues.jobState? record.rootKey) = reply :=
        congrArg Prod.fst answered
      unfold Queues.jobState? at told
      rw [stored] at told
      exact absurd told.symm (nothing job.state)
  | pays id record status =>
      obtain ⟨owner, added, accepted, root⟩ := rooted id record valid.1
      exact ⟨owner, added, grows.accepted owner added accepted, root⟩
  | paysInVain id record status problem => trivial
  | rereads id record found =>
      apply still (congrArg Prod.snd answered)
      have told : world.system.records.get? record.id = found :=
        Except.ok.inj (congrArg Prod.fst answered)
      cases found with
      | none => exact valid
      | some seen => exact rooted _ seen told
  | rereadsInVain id record problem => trivial
  | views id record tree => trivial
  | @viewsNothing id record reply nothing =>
      obtain ⟨job, stored⟩ := rootStored record valid
      obtain ⟨tree, found⟩ := tree?_stored stored
      have told : Except.ok (world.system.queues.tree? record.rootKey) = reply :=
        congrArg Prod.fst answered
      rw [found] at told
      exact absurd told.symm (nothing tree)
  | deletes id reply => exact absurd valid not_false
  | leaves id => trivial

theorem Valid.grow_of_same (valid : stage.Valid world) (recorded : Recorded world)
    (grows : Grows world after) (same : after.system.records = world.system.records) :
    stage.Valid after := by
  apply valid.grow recorded grows
  · intro id record stored
    rw [same]
    exact ⟨record, stored, rfl⟩
  · intro id _
    rw [same]

/-- A submission stays where it is while others act. -/
theorem Placed.grow {agent : Agent} (placed : stage.Placed world agent) (grows : Grows world after)
    (submitted : ∀ id tasks, world.submitted id = some tasks → after.submitted id = some tasks)
    (routes : after.system.routing = world.system.routing)
    (own : ∀ id added, agent = .submitter id → Accepted after.journal id added →
      Accepted world.journal id added) : stage.Placed after agent := by
  cases stage with
  | listening id tasks chain heard =>
      obtain ⟨isOwn, found, compiled, fresh⟩ := placed
      refine ⟨isOwn, submitted id tasks found, routes ▸ compiled, ?_⟩
      exact fun added accepted => fresh added (own id added isOwn accepted)
  | recording id tasks added => exact ⟨placed.1, grows.accepted id added placed.2⟩
  | _ => trivial

end Stage

theorem Recorded.grow {world after : World} (recorded : Recorded world) (grows : Grows world after)
    (same : after.system.records = world.system.records) : Recorded after where
  keyed := same ▸ recorded.keyed
  rooted := by
    intro id record stored
    rw [same] at stored
    obtain ⟨added, accepted, root⟩ := recorded.rooted id record stored
    exact ⟨added, grows.accepted id added accepted, root⟩
  truth := by
    intro id record stored final
    rw [same] at stored
    obtain ⟨added, accepted, root⟩ := recorded.rooted id record stored
    have holds := recorded.truth id record stored final
    rw [root] at holds ⊢
    exact grows.concluded id added _ accepted holds

/-- What a subscriber receives is an event of the queue. -/
theorem Subscription.of_receive? {before after : Subscription} {events : List QueueEvent}
    {event : QueueEvent} (received : before.receive? events = some (.event event, after)) :
    events[before.position]? = some event ∧ after.position = before.position + 1 := by
  unfold Subscription.receive? at received
  dsimp only at received
  split at received
  · cases received
  · obtain ⟨found, isFound, same⟩ := Option.map_eq_some_iff.1 received
    cases same
    exact ⟨isFound, rfl⟩

/-- What is true of a world and the stages of its routines. -/
structure Kept (script : Script) (routing : Routing) (settings : Dict QueueSettings)
    (world : World) (stages : Agent → Stage) : Prop where
  orderly : Orderly script routing settings world
  recorded : Recorded world
  placed : ∀ agent, (stages agent).Placed world agent
  valid : ∀ agent, (stages agent).Valid world

namespace Kept

variable {script : Script} {routing : Routing} {settings : Dict QueueSettings}
  {world after : World} {stages later : Agent → Stage} {agent : Agent}

theorem start (script : Script) (routing : Routing) (settings : Dict QueueSettings) :
    Kept script routing settings (.start routing settings) fun _ => .ended := by
  have nothing : ∀ id added, ¬ Accepted (World.start routing settings).journal id added := by
    intro id added accepted
    obtain ⟨chain, member⟩ := accepted
    exact absurd member List.not_mem_nil
  constructor
  case orderly =>
    constructor
    case reached => exact .start
    case limits => rfl
    case routes => rfl
    case born => exact fun call started => absurd started List.not_mem_nil
    case enrolled => exact fun id added accepted => absurd accepted (nothing id added)
    case single => exact fun id first _ accepted => absurd accepted (nothing id first)
    case distinct => exact fun one _ first _ accepted => absurd accepted (nothing one first)
  case recorded =>
    have noRecord : ∀ id record,
        (World.start routing settings).system.records.get? id ≠ some record :=
      fun _ record found => Option.some_ne_none record found.symm
    constructor
    case keyed => exact RecordStore.keyed_empty
    case rooted => exact fun id record stored => absurd stored (noRecord id record)
    case truth => exact fun id record stored => absurd stored (noRecord id record)
  case placed => exact fun _ => trivial
  case valid => exact fun _ => trivial

/-- Before a workflow is submitted nothing is known of it. -/
theorem unknown (kept : Kept script routing settings world stages) {id : Uuid}
    (fresh : world.submitted id = none) :
    (∀ added, ¬ Accepted world.journal id added) ∧ world.system.records.get? id = none := by
  have unaccepted : ∀ added, ¬ Accepted world.journal id added := by
    intro added accepted
    obtain ⟨order, serial, enrolled⟩ := kept.orderly.enrolled id added accepted
    obtain ⟨tasks, submitted, -⟩ := enrolled.ordered
    cases fresh.symm.trans submitted
  refine ⟨unaccepted, ?_⟩
  cases stored : world.system.records.get? id with
  | none => rfl
  | some record =>
      obtain ⟨added, accepted, -⟩ := kept.recorded.rooted id record stored
      exact absurd accepted (unaccepted added)

/-- While an agent writes records, those that others watch do not change. -/
theorem watched (kept : Kept script routing settings world stages) {records : RecordStore}
    (exclusive : ∀ one other id, (stages one).lock? = some id → (stages other).lock? = some id →
      one = other)
    (keeping : Keeping world (stages agent) records) {other : Agent} (different : other ≠ agent)
    {id : Uuid} (watches : (stages other).watches? = some id) :
    records.get? id = world.system.records.get? id := by
  have valid := kept.valid other
  have placed := kept.placed other
  cases keeping with
  | same => rfl
  | @inserts owner tasks added record here named root isOpen =>
      have missing := kept.valid agent
      have own := kept.placed agent
      rw [here] at missing own
      rw [RecordStore.get?_insert, if_neg]
      intro same
      rw [named] at same
      subst same
      generalize stages other = stage at watches valid placed
      cases stage with
      | listening there others chain heard =>
          cases watches
          exact different (placed.1.trans own.1.symm)
      | recording there others added =>
          cases watches
          exact different (placed.1.trans own.1.symm)
      | judging there record =>
          cases watches
          cases missing.symm.trans valid.1
      | owing there record status =>
          cases watches
          cases missing.symm.trans valid.1
      | _ => cases watches
  | @updates owner old new holds stored named root final promised truth =>
      rw [RecordStore.get?_insert, if_neg]
      intro same
      rw [named] at same
      subst same
      have free : (stages other).lock? ≠ some id :=
        fun held => different (exclusive other agent id held holds)
      generalize stages other = stage at watches valid placed free
      cases stage with
      | listening there others chain heard =>
          cases watches
          cases stored.symm.trans valid.1
      | recording there others added =>
          cases watches
          cases stored.symm.trans valid
      | judging there record =>
          cases watches
          exact free rfl
      | owing there record status =>
          cases watches
          exact free rfl
      | _ => cases watches

/-- The workflow of a record is accepted before or when the record is written. -/
theorem origin (kept : Kept script routing settings world stages) {records : RecordStore}
    (keeping : Keeping world (stages agent) records) {id : Uuid} {record : WorkflowRecord}
    (stored : records.get? id = some record) :
    ∃ added, Accepted world.journal id added ∧ record.rootKey = added.rootKey := by
  rcases keeping.origin stored with ⟨old, before, root⟩ | ⟨tasks, added, here, root⟩
  · obtain ⟨added, accepted, same⟩ := kept.recorded.rooted id old before
    exact ⟨added, accepted, root.trans same⟩
  · have placed := kept.placed agent
    rw [here] at placed
    exact ⟨added, placed.2, root⟩

/-- An action keeps the records of a world as they should be. -/
theorem recorded_moves (kept : Kept script routing settings world stages)
    (keeping : Keeping world (stages agent) after.system.records) (grows : Grows world after) :
    Recorded after where
  keyed := keeping.keyed kept.recorded.keyed
  rooted := by
    intro id record stored
    obtain ⟨added, accepted, root⟩ := kept.origin keeping stored
    exact ⟨added, grows.accepted id added accepted, root⟩
  truth := by
    intro id record stored final
    obtain ⟨added, accepted, root⟩ := kept.origin keeping stored
    have holds := keeping.truth kept.recorded stored final
    rw [root] at holds ⊢
    exact grows.concluded id added _ accepted holds

/-- After an action an agent is where it may be. -/
theorem placed_moves {stage next : Stage} {action : Action} {reply : action.Reply}
    (moves : stage.Moves ⟨action, reply⟩ next) (placed : stage.Placed world agent)
    (submitted : after.submitted = world.submitted)
    (routes : after.system.routing = world.system.routing)
    (journal : after.journal = world.journal ++ [⟨agent, action, reply⟩]) :
    next.Placed after agent := by
  cases moves with
  | hears id tasks chain heard queue =>
      obtain ⟨isOwn, found, compiled, fresh⟩ := placed
      refine ⟨isOwn, submitted ▸ found, routes ▸ compiled, ?_⟩
      intro added accepted
      rw [journal] at accepted
      rcases accepted_concat accepted with before | ⟨flow, now⟩
      · exact fresh added before
      · cases now
  | @accepted id tasks chain heard added follows =>
      obtain ⟨rfl, -⟩ := placed
      exact ⟨rfl, chain, journal ▸ List.mem_append_right _ (List.mem_singleton_self _)⟩
  | _ => trivial

/-- A step that leaves the records alone keeps the invariant if every routine stays where it is
or comes to where it may be. -/
theorem of_same_records (kept : Kept script routing settings world stages)
    (orderly : Orderly script routing settings after) (grows : Grows world after)
    (same : after.system.records = world.system.records)
    (routes : after.system.routing = world.system.routing)
    (journal : after.journal = world.journal)
    (submitted : ∀ id tasks, world.submitted id = some tasks → after.submitted id = some tasks)
    (changes : ∀ agent, later agent = stages agent ∨
      (later agent).Placed after agent ∧ (later agent).Valid after) :
    Kept script routing settings after later where
  orderly := orderly
  recorded := kept.recorded.grow grows same
  placed := by
    intro agent
    rcases changes agent with stays | ⟨placed, -⟩
    · rw [stays]
      exact (kept.placed agent).grow grows submitted routes fun _ _ _ found => journal ▸ found
    · exact placed
  valid := by
    intro agent
    rcases changes agent with stays | ⟨-, valid⟩
    · rw [stays]
      exact (kept.valid agent).grow_of_same kept.recorded grows same
    · exact valid

/-- What is accepted with an action is accepted for the agent that acts. -/
theorem accepted_of_other {action : Action} {reply : action.Reply} {other : Agent}
    (different : other ≠ agent) {id : Uuid} {added : AddedFlow} (isOwn : other = .submitter id)
    (accepted : Accepted (world.journal ++ [⟨agent, action, reply⟩]) id added) :
    Accepted world.journal id added := by
  rcases accepted_concat accepted with before | ⟨chain, now⟩
  · exact before
  · exact absurd (isOwn.trans (congrArg Entry.agent now).symm) different

/-- Every step keeps the invariant. -/
theorem turn (kept : Kept script routing settings world stages)
    (exclusive : ∀ one other id, (stages one).lock? = some id → (stages other).lock? = some id →
      one = other)
    (turn : World.Turn script world stages after later) :
    Kept script routing settings after later := by
  have orderly := kept.orderly.turn kept.placed turn
  have grows := turn.grows kept.orderly orderly
  have moved : ∀ {mover : Agent} {stage : Stage}, stage.Placed after mover → stage.Valid after →
      ∀ agent, Function.update stages mover stage agent = stages agent ∨
        (Function.update stages mover stage agent).Placed after agent ∧
          (Function.update stages mover stage agent).Valid after := by
    intro mover stage placed valid agent
    by_cases here : agent = mover
    · subst here
      rw [Function.update_self]
      exact .inr ⟨placed, valid⟩
    · exact .inl (Function.update_of_ne here _ _)
  cases turn with
  | works step regular =>
      exact kept.of_same_records orderly grows rfl rfl rfl (fun _ _ => id) fun _ => .inl rfl
  | leaves threads =>
      exact kept.of_same_records orderly grows rfl rfl rfl (fun _ _ => id) fun _ => .inl rfl
  | @reads number id threads idle =>
      apply kept.of_same_records orderly grows rfl rfl rfl (fun _ _ found => found)
      exact moved trivial trivial
  | @receives queue event system threads idle received =>
      obtain ⟨before, subscription, -, next, rfl⟩ := Orderly.receive?_some received
      apply kept.of_same_records orderly grows rfl rfl rfl (fun _ _ => id)
      exact moved trivial (List.mem_of_getElem? (Subscription.of_receive? next).1)
  | @submits id tasks threads fresh idle =>
      obtain ⟨unaccepted, missing⟩ := kept.unknown fresh
      have submitted : ∀ other others, world.submitted other = some others →
          Function.update world.submitted id (some tasks) other = some others := by
        intro other others found
        rw [Function.update_apply, if_neg]
        · exact found
        · rintro rfl
          cases fresh.symm.trans found
      apply kept.of_same_records orderly grows rfl rfl rfl submitted
      unfold World.opening
      cases compiled : Submission.chainOf world.system.routing id tasks with
      | error problem => exact moved trivial trivial
      | ok chain =>
          apply moved
          · exact ⟨rfl, Function.update_self _ _ _, compiled, unaccepted⟩
          · exact ⟨missing, fun queue member => absurd member List.not_mem_nil⟩
  | @moves agent action reply system next threads moves answered =>
      have keeping := moves.keeping answered kept.recorded (kept.valid agent)
      have routes : system.routing = world.system.routing := by
        have same := routing_answer action world.system
        rwa [answered] at same
      have stays : ∀ id record, world.system.records.get? id = some record →
          ∃ new, system.records.get? id = some new ∧ new.rootKey = record.rootKey := by
        intro id record stored
        obtain ⟨new, isStored, root, -⟩ := keeping.stays (kept.valid agent) stored
        exact ⟨new, isStored, root⟩
      refine ⟨orderly, kept.recorded_moves keeping grows, fun other => ?_, fun other => ?_⟩
      · rw [Function.update_apply]
        split
        · next here =>
            rw [here]
            exact placed_moves moves (kept.placed agent) rfl routes rfl
        · next different =>
            apply (kept.placed other).grow grows (fun _ _ found => found) routes
            exact fun id added isOwn accepted => accepted_of_other different isOwn accepted
      · rw [Function.update_apply]
        split
        · exact moves.valid answered kept.orderly kept.recorded (kept.valid agent) grows stays
        · next different =>
            apply (kept.valid other).grow kept.recorded grows stays
            exact fun id watches => kept.watched exclusive keeping different watches

end Kept

end Relay
