import Relay.Proofs.Workflow.Notice

/-!
# Delivery

The events of the root jobs of accepted workflows reach their listeners: an event that is
behind a listener was looked up, or is being handled.
-/

namespace Relay

/-- A listener has looked for the record of a root job. -/
def LookedUp (journal : List Entry) (key : JobKey) : Prop :=
  ∃ entry ∈ journal, ∃ found, entry.exchange = ⟨.findRecord key.queue key.id, .ok found⟩

theorem LookedUp.mono {journal : List Entry} {key : JobKey} (lookedUp : LookedUp journal key)
    (more : List Entry) : LookedUp (journal ++ more) key := by
  obtain ⟨entry, member, found⟩ := lookedUp
  exact ⟨entry, List.mem_append_left _ member, found⟩

/-- The events of root jobs reach their listeners. -/
structure Delivered (world : World) (stages : Agent → Stage) : Prop where
  positions : ∀ queue subscription, world.system.listeners.get? queue = some subscription →
    subscription.position ≤ (world.system.queues.lane queue).events.length
  followed : ∀ id added, Accepted world.journal id added →
    world.system.listeners.contains added.queueName = true
  behind : ∀ id added, Accepted world.journal id added →
    ∀ subscription, world.system.listeners.get? added.queueName = some subscription →
    ∀ index event, (world.system.queues.lane added.queueName).events[index]? = some event →
    event.jobId = added.jobId → index < subscription.position →
    stages (.listener added.queueName) = .finding added.queueName event ∨
      LookedUp world.journal added.rootKey

namespace Delivered

variable {script : Script} {routing : Routing} {settings : Dict QueueSettings}
  {world after : World} {stages later : Agent → Stage}

theorem start (routing : Routing) (settings : Dict QueueSettings) :
    Delivered (.start routing settings) fun _ => .ended := by
  have nothing : ∀ id added, ¬ Accepted (World.start routing settings).journal id added := by
    intro id added accepted
    obtain ⟨chain, member⟩ := accepted
    exact absurd member List.not_mem_nil
  constructor
  case positions => exact fun _ subscription found => (Option.some_ne_none subscription found.symm).elim
  case followed => exact fun id added accepted => absurd accepted (nothing id added)
  case behind => exact fun id added accepted => absurd accepted (nothing id added)

/-- An event that stands before an old one among more events stood there before. -/
theorem getElem?_of_lt {events more : List QueueEvent} {index : Nat} {event : QueueEvent}
    (found : (events ++ more)[index]? = some event) (below : index < events.length) :
    events[index]? = some event := by
  rwa [List.getElem?_append_left below] at found

/-- Nothing is accepted, no listener moves, and no look-up ends. -/
theorem grow (delivered : Delivered world stages) (grows : Grows world after)
    (listeners : after.system.listeners = world.system.listeners)
    (accepted : ∀ id added, Accepted after.journal id added → Accepted world.journal id added)
    (journal : ∀ key, LookedUp world.journal key → LookedUp after.journal key)
    (finding : ∀ queue event, stages (.listener queue) = .finding queue event →
      later (.listener queue) = .finding queue event ∨ LookedUp after.journal ⟨queue, event.jobId⟩) :
    Delivered after later where
  positions := by
    intro queue subscription found
    rw [listeners] at found
    obtain ⟨more, events⟩ := grows.events queue
    rw [events, List.length_append]
    exact Nat.le_add_right_of_le (delivered.positions queue subscription found)
  followed := by
    intro id added isAccepted
    rw [listeners]
    exact delivered.followed id added (accepted id added isAccepted)
  behind := by
    intro id added isAccepted subscription found index event isEvent named below
    rw [listeners] at found
    obtain ⟨more, events⟩ := grows.events added.queueName
    have position := delivered.positions _ subscription found
    rw [events] at isEvent
    have before := getElem?_of_lt isEvent (Nat.lt_of_lt_of_le below position)
    rcases delivered.behind id added (accepted id added isAccepted) subscription found index event
      before named below with handled | lookedUp
    · rw [AddedFlow.rootKey, ← named]
      exact finding added.queueName event handled
    · exact .inr (journal _ lookedUp)

/-- A listener receives the next event. -/
theorem receive (delivered : Delivered world stages) {queue : String} {event : QueueEvent}
    {before subscription : Subscription} (threads : Agent → Option Thread)
    (idle : stages (.listener queue) = .ended)
    (found : world.system.listeners.get? queue = some before)
    (received : before.receive? (world.system.queues.lane queue).events =
      some (.event event, subscription)) :
    Delivered { world with
      system := { world.system with listeners := world.system.listeners.insert queue subscription }
      threads } (Function.update stages (.listener queue) (.finding queue event)) := by
  obtain ⟨next, moved⟩ := Subscription.of_receive? received
  constructor
  case positions =>
    intro other held isHeld
    dsimp only at isHeld
    rw [Dict.get?_insert] at isHeld
    split at isHeld
    · next same =>
        cases isHeld
        rw [same, moved]
        exact (List.getElem?_eq_some_iff.1 next).1
    · exact delivered.positions other held isHeld
  case followed =>
    intro id added accepted
    exact contains_insert (.inl (delivered.followed id added accepted))
  case behind =>
    intro id added accepted held isHeld index other isOther named below
    dsimp only at isHeld isOther
    rw [Dict.get?_insert] at isHeld
    split at isHeld
    · next same =>
        cases isHeld
        rw [same] at isOther ⊢
        rw [Function.update_self]
        rcases Nat.lt_succ_iff_lt_or_eq.1 (moved ▸ below) with earlier | now
        · rcases delivered.behind id added accepted before (same ▸ found) index other
            (same ▸ isOther) named earlier with handled | lookedUp
          · rw [same, idle] at handled
            cases handled
          · exact .inr lookedUp
        · rw [now, next] at isOther
          cases isOther
          exact .inl rfl
    · next different =>
        rw [Function.update_of_ne fun same => different (Agent.listener.inj same)]
        exact delivered.behind id added accepted held isHeld index other isOther named below

theorem events_listen (system : WorkflowSystem) (queue other : String) :
    ((system.listen queue).queues.lane other).events = (system.queues.lane other).events := by
  unfold WorkflowSystem.listen
  split
  · rfl
  · exact Queues.Quiet.events (Queues.quiet_setLane rfl) other

/-- A queue is followed from its next event on. -/
theorem listen (delivered : Delivered world stages) (queue : String) {threads : Agent → Option Thread}
    {entry : Entry} (unaccepted : ∀ id added, Accepted (world.journal ++ [entry]) id added →
      Accepted world.journal id added)
    (same : ∀ other, later (.listener other) = stages (.listener other)) :
    Delivered { world with
      system := world.system.listen queue, threads, journal := world.journal ++ [entry] } later := by
  have positions : ∀ other subscription,
      (world.system.listen queue).listeners.get? other = some subscription →
      world.system.listeners.get? other = some subscription ∨
        world.system.listeners.contains other = false ∧
          subscription.position = (world.system.queues.lane other).events.length := by
    intro other subscription found
    unfold WorkflowSystem.listen at found
    split at found
    · exact .inl found
    · next missing =>
        dsimp only at found
        rw [Dict.get?_insert] at found
        split at found
        · next here =>
            cases found
            exact .inr ⟨here ▸ Bool.eq_false_iff.2 missing, by rw [here]; rfl⟩
        · exact .inl found
  constructor
  case positions =>
    intro other subscription found
    show subscription.position ≤ ((world.system.listen queue).queues.lane other).events.length
    rw [events_listen]
    rcases positions other subscription found with before | ⟨-, now⟩
    · exact delivered.positions other subscription before
    · exact Nat.le_of_eq now
  case followed =>
    intro id added accepted
    exact listeners_answer (.listen queue) world.system
      (delivered.followed id added (unaccepted id added accepted))
  case behind =>
    intro id added accepted subscription found index event isEvent named below
    dsimp only at isEvent
    rw [events_listen] at isEvent
    rw [same]
    have before := unaccepted id added accepted
    rcases positions _ subscription found with held | ⟨missing, -⟩
    · rcases delivered.behind id added before subscription held index event isEvent named below with
        handled | lookedUp
      · exact .inl handled
      · exact .inr (lookedUp.mono _)
    · rw [delivered.followed id added before] at missing
      cases missing

/-- A workflow is accepted whose queue is followed and whose root is new. -/
theorem accept (delivered : Delivered world stages) {id : Uuid} {chain : Flow} {added : AddedFlow}
    (contains : world.system.listeners.contains added.queueName = true)
    (fresh : ∀ event ∈ (world.system.queues.lane added.queueName).events,
      event.jobId ≠ added.jobId)
    (same : ∀ other, later (.listener other) = stages (.listener other)) :
    Delivered { world with
      journal := world.journal ++ [⟨.submitter id, .addFlow chain, .ok added⟩] } later where
  positions := delivered.positions
  followed := by
    intro other first accepted
    rcases accepted_concat accepted with before | ⟨flow, now⟩
    · exact delivered.followed other first before
    · cases now
      exact contains
  behind := by
    intro other first accepted subscription found index event isEvent named below
    rw [same]
    rcases accepted_concat accepted with before | ⟨flow, now⟩
    · rcases delivered.behind other first before subscription found index event isEvent named
        below with handled | lookedUp
      · exact .inl handled
      · exact .inr (lookedUp.mono _)
    · cases now
      exact absurd named (fresh event (List.mem_of_getElem? isEvent))

theorem listeners_answer_eq (action : Action) (system : WorkflowSystem)
    (other : ∀ queue, action ≠ .listen queue) :
    (WorkflowSystem.answer action system).2.listeners = system.listeners := by
  cases action with
  | updateStatus id status =>
      unfold WorkflowSystem.answer
      dsimp only
      split <;> rfl
  | deleteRecord id =>
      unfold WorkflowSystem.answer
      dsimp only
      split <;> rfl
  | listen queue => exact absurd rfl (other queue)
  | _ => rfl

/-- A listener that handles an event looks for its record next. -/
theorem lookedUp_of_moves {queue : String} {event : QueueEvent} {action : Action}
    {reply : action.Reply} {system : WorkflowSystem} {next : Stage}
    (moves : (Stage.finding queue event).Moves ⟨action, reply⟩ next)
    (answered : WorkflowSystem.answer action world.system = (reply, system)) :
    ∃ found, (⟨action, reply⟩ : Exchange) = ⟨.findRecord queue event.jobId, .ok found⟩ := by
  cases moves with
  | finds queue event record => exact ⟨some record, rfl⟩
  | findsNothing queue event nothing =>
      cases answered
      exact ⟨_, rfl⟩

theorem added_queueName {queues after : Queues} {chain : Flow} {added : AddedFlow}
    (result : queues.add chain = (.ok added, after)) : added.queueName = chain.queueName := by
  unfold Queues.add Queues.addInOrder at result
  generalize Queues.reserve (Queues.countsOf chain) queues = reserved at result
  obtain ⟨_ | problem, between⟩ := reserved
  · cases result
    rfl
  · cases result

/-- The identifier of a new root was in no event before. -/
theorem fresh_of_add (orderly : Orderly script routing settings world) {queues : Queues}
    {chain : Flow} {added : AddedFlow}
    (result : world.system.queues.add chain = (.ok added, queues)) :
    ∀ event ∈ (queues.lane added.queueName).events, event.jobId ≠ added.jobId := by
  obtain ⟨problem, after, rejected, -⟩ | ⟨after, same, plants⟩ :=
    Queues.addInOrder_cases orderly.reached.steady (Queues.countsOf chain) chain
  · cases result.symm.trans rejected
  · have accepted := result.symm.trans same
    cases accepted
    intro event member named
    rw [plants.events] at member
    obtain ⟨number, below, isNumber⟩ := orderly.reached.announced.born _ event member
    have equal := jobIdOf_injective (isNumber.symm.trans named)
    exact absurd below (equal ▸ Nat.lt_irrefl _)

/-- Every step keeps the events of root jobs on their way. -/
theorem turn (delivered : Delivered world stages)
    (kept : Kept script routing settings world stages) (grows : Grows world after)
    (turn : World.Turn script world stages after later) : Delivered after later := by
  -- no agent but a listener changes the stage of a listener
  have still : ∀ agent stage, (∀ queue, agent ≠ .listener queue) →
      ∀ queue event, stages (.listener queue) = .finding queue event →
        Function.update stages agent stage (.listener queue) = .finding queue event ∨
          LookedUp after.journal ⟨queue, event.jobId⟩ := by
    intro agent stage different queue event handled
    rw [Function.update_of_ne (different queue).symm]
    exact .inl handled
  cases turn with
  | works step regular =>
      exact delivered.grow grows rfl (fun _ _ => id) (fun _ => id) fun _ _ => .inl
  | leaves threads =>
      exact delivered.grow grows rfl (fun _ _ => id) (fun _ => id) fun _ _ => .inl
  | submits tasks threads fresh idle =>
      apply delivered.grow grows rfl (fun _ _ => id) (fun _ => id)
      exact still _ _ fun _ => Agent.noConfusion
  | reads id threads idle =>
      apply delivered.grow grows rfl (fun _ _ found => found) (fun _ found => found)
      exact still _ _ fun _ => Agent.noConfusion
  | receives threads idle received =>
      obtain ⟨before, subscription, found, next, rfl⟩ := Orderly.receive?_some received
      exact delivered.receive threads idle found next
  | @moves agent action reply system next threads moves answered =>
      have placed := kept.placed agent
      have valid := kept.valid agent
      have submits : ∀ id, agent = .submitter id → ∀ queue,
          Function.update stages agent next (.listener queue) = stages (.listener queue) := by
        intro id isOwn queue
        rw [isOwn]
        exact Function.update_of_ne (fun same => by cases same) _ _
      by_cases listens : ∃ queue, action = .listen queue
      · obtain ⟨queue, rfl⟩ := listens
        obtain rfl : world.system.listen queue = system := congrArg Prod.snd answered
        apply delivered.listen queue
        · intro id added accepted
          rcases accepted_concat accepted with before | ⟨chain, now⟩
          · exact before
          · cases now
        · generalize stages agent = stage at moves placed
          cases moves
          exact submits _ placed.1
      · have listeners : system.listeners = world.system.listeners := by
          have same := listeners_answer_eq action world.system fun queue here =>
            listens ⟨queue, here⟩
          rwa [answered] at same
        by_cases accepts : ∃ id chain added, (⟨agent, action, reply⟩ : Entry) =
            ⟨.submitter id, .addFlow chain, .ok added⟩
        · obtain ⟨id, chain, added, same⟩ := accepts
          cases same
          have between : Delivered { world with system, threads } stages := by
            apply delivered.grow
            case grows =>
              exact ⟨fun _ _ found => found, grows.concluded, grows.events, grows.listeners⟩
            case listeners => exact listeners
            case accepted => exact fun _ _ found => found
            case journal => exact fun _ found => found
            case finding => exact fun _ _ => .inl
          have result := add_of_answer answered
          apply between.accept
          · generalize stages (.submitter id) = stage at moves valid
            cases moves with
            | accepted other tasks added follows =>
                apply grows.listeners
                rw [added_queueName result]
                exact valid.2 _ follows
          · exact fresh_of_add kept.orderly result
          · exact submits id rfl
        · apply delivered.grow grows listeners
          · intro id added accepted
            rcases accepted_concat accepted with before | ⟨chain, now⟩
            · exact before
            · exact absurd ⟨id, chain, added, now⟩ accepts
          · exact fun key lookedUp => lookedUp.mono _
          · intro queue event handled
            by_cases here : agent = .listener queue
            · subst here
              rw [handled] at moves
              obtain ⟨found, same⟩ := lookedUp_of_moves moves answered
              exact .inr ⟨_, List.mem_append_right _ (List.mem_singleton_self _), found, same⟩
            · rw [Function.update_of_ne (Ne.symm here)]
              exact .inl handled

end Delivered

end Relay
