import Relay.Proofs.Workflow.Circumstances
import Relay.Proofs.Workflow.Rules

/-!
# Traffic

Any number of routines are under way at once, and their actions follow each other in any
order, among whatever happens to the queues.  Nothing is left out here: jobs are evicted,
events are missed, and the locks, which would rule out some of the orders, are ignored.

A submitted workflow stays intact in all this until one of its jobs is gone.  The routines rely
on each other for that.  As long as the workflow is intact, the replies to a reader show it, so
the reader does not delete the record; and as long as nobody deletes the record, the workflow
is intact.
-/

namespace Relay

/-! ## Steps -/

/-- What comes of a routine: an answer to a reader, or something that nobody reads. -/
inductive Report where
  | answered (id : Uuid) (answer : Except WorkflowProblem (Option WorkflowView))
  | handled

/-- A system with the routines that are under way in it or have ended. -/
structure Traffic where
  system : WorkflowSystem
  /-- The identifiers that were given to workflows, accepted or not. -/
  given : List Uuid
  underway : List (Routine Report)

namespace Traffic

/-- A routine joins those under way. -/
def join (traffic : Traffic) {α : Type} (routine : Routine α) (report : α → Report) : Traffic :=
  { traffic with underway := (routine >>= fun value => return report value) :: traffic.underway }

/-- One step of the traffic.  Only those identifiers are asked for that may be known: the one of
a workflow is not told to anyone before its submission has succeeded. -/
inductive Step (known : Uuid → Prop) (traffic : Traffic) : Traffic → Prop where
  /-- Something happens to the queues. -/
  | works {act : Queues.Act} {queues : Queues}
      (step : Queues.Step traffic.system.queues act queues) :
      Step known traffic { traffic with system := { traffic.system with queues } }
  | listens : Step known traffic
      (traffic.join (Submission.listenAll traffic.system.routing.queueNames) fun _ => .handled)
  | requests {id : Uuid} (request : Submission.Request) (fresh : id ∉ traffic.given) :
      Step known traffic ({ traffic with given := id :: traffic.given }.join
        (request.routine traffic.system.routing id) fun _ => .handled)
  | reads {id : Uuid} (isKnown : known id) :
      Step known traffic (traffic.join (Inspection.read id) (.answered id))
  /-- The listener of a queue receives what comes next. -/
  | receives {queue : String} {delivery : Delivery} {system : WorkflowSystem}
      (received : traffic.system.receive? queue = some (delivery, system)) :
      Step known traffic ({ traffic with system }.join (WorkflowSystem.react queue delivery)
        fun _ => .handled)
  /-- One of the routines under way acts. -/
  | acts {before after : List (Routine Report)} {action : Action}
      {next : action.Reply → Routine Report}
      (here : traffic.underway = before ++ .step action next :: after) :
      Step known traffic { traffic with
        system := (WorkflowSystem.answer action traffic.system).2
        underway := before ++ next (WorkflowSystem.answer action traffic.system).1 :: after }

/-- Some steps lead from one state of the traffic to another. -/
def Leads (known : Uuid → Prop) : Traffic → Traffic → Prop := Relation.ReflTransGen (Step known)

/-- An action in the system in which it takes place. -/
structure Moment where
  action : Action
  system : WorkflowSystem

/-- The system after an action. -/
def Moment.after (moment : Moment) : WorkflowSystem :=
  (WorkflowSystem.answer moment.action moment.system).2

/-- A routine is carried out while the traffic goes on: other steps may take place before, between
and after its own actions, which are listed. -/
inductive Carries (known : Uuid → Prop) {α : Type} :
    Traffic → Routine α → List Moment → Traffic → α → Prop where
  | ends {traffic : Traffic} (value : α) : Carries known traffic (.done value) [] traffic value
  | acts {traffic after : Traffic} {action : Action} {next : action.Reply → Routine α}
      {moments : List Moment} {value : α}
      (rest : Carries known
        { traffic with system := (WorkflowSystem.answer action traffic.system).2 }
        (next (WorkflowSystem.answer action traffic.system).1) moments after value) :
      Carries known traffic (.step action next) (⟨action, traffic.system⟩ :: moments) after value
  | waits {traffic between after : Traffic} {routine : Routine α} {moments : List Moment}
      {value : α} (step : Step known traffic between)
      (rest : Carries known between routine moments after value) :
      Carries known traffic routine moments after value

/-- One of the routines under way is replaced by another. -/
theorem forall_underway {traffic : Traffic} {holds : Routine Report → Prop}
    {before after : List (Routine Report)} {old new : Routine Report}
    (here : traffic.underway = before ++ old :: after)
    (all : ∀ routine ∈ traffic.underway, holds routine) (isNew : holds new) :
    ∀ routine ∈ before ++ new :: after, holds routine := by
  intro routine isUnderway
  rw [List.mem_append, List.mem_cons] at isUnderway
  rcases isUnderway with left | rfl | right
  · exact all routine (by simp [here, left])
  · exact isNew
  · exact all routine (by simp [here, right])

section Carrying

variable {known : Uuid → Prop} {α : Type} {traffic after : Traffic} {moments : List Moment}
  {value : α}

/-- A routine can be carried out without interruption. -/
theorem carries_perform (known : Uuid → Prop) (traffic : Traffic) (routine : Routine α) :
    ∃ moments, Carries known traffic routine moments
      { traffic with system := (traffic.system.perform routine).2 }
      (traffic.system.perform routine).1 := by
  induction routine generalizing traffic with
  | done value => exact ⟨[], .ends value⟩
  | step action next ih =>
      obtain ⟨moments, rest⟩ := ih (WorkflowSystem.answer action traffic.system).1
        { traffic with system := (WorkflowSystem.answer action traffic.system).2 }
      exact ⟨_, .acts rest⟩

/-- A routine that has ended waits. -/
theorem Carries.of_done {result : α}
    (carries : Carries known traffic (.done result) moments after value) :
    value = result ∧ moments = [] ∧ Leads known traffic after := by
  generalize ended : Routine.done result = routine at carries
  induction carries with
  | ends value =>
      cases ended
      exact ⟨rfl, rfl, .refl⟩
  | acts rest ih => cases ended
  | waits step rest ih =>
      obtain ⟨same, nothing, leads⟩ := ih ended
      exact ⟨same, nothing, .head step leads⟩

/-- A routine waits before it acts. -/
theorem Carries.of_step {action : Action} {next : action.Reply → Routine α}
    (carries : Carries known traffic (.step action next) moments after value) :
    ∃ between rest, Leads known traffic between ∧ moments = ⟨action, between.system⟩ :: rest ∧
      Carries known
        { between with system := (WorkflowSystem.answer action between.system).2 }
        (next (WorkflowSystem.answer action between.system).1) rest after value := by
  generalize head : Routine.step action next = routine at carries
  induction carries with
  | ends value => cases head
  | @acts traffic _ _ _ moments _ rest ih =>
      cases head
      exact ⟨traffic, moments, .refl, rfl, rest⟩
  | waits step rest ih =>
      obtain ⟨between, moments, leads, same, more⟩ := ih head
      exact ⟨between, moments, .head step leads, same, more⟩

end Carrying

end Traffic

/-- A report that does not answer a reader of a workflow. -/
def Report.Spares (id : Uuid) (report : Report) : Prop := ∀ answer, report ≠ .answered id answer

/-- A routine that neither reads a workflow nor stores or deletes its record, whatever it is
told. -/
def Routine.Spares (id : Uuid) (routine : Routine Report) : Prop :=
  routine.Abides (fun _ _ => True) (Action.Spares id) (Report.Spares id)

section Spares

variable {id : Uuid}

theorem spares_of_follows {α : Type} {stage : Stage} {routine : Routine α}
    (follows : Follows (fun _ => .ended) stage routine) (apart : stage.subject? ≠ some id)
    {report : α → Report} (apartReport : ∀ value, (report value).Spares id) :
    (routine >>= fun value => return report value).Spares id :=
  (follows.spares apart).bind fun value _ => apartReport value

theorem spares_listenAll (queues : List String) :
    (Submission.listenAll queues >>= fun _ => return .handled).Spares id := by
  induction queues with
  | nil => exact fun _ => nofun
  | cons queue rest ih => exact ⟨trivial, fun _ _ => ih⟩

theorem spares_react (queue : String) (delivery : Delivery) :
    (WorkflowSystem.react queue delivery >>= fun _ => return .handled).Spares id := by
  cases delivery with
  | event event => exact spares_of_follows (follows_handle queue event) nofun fun _ _ => nofun
  | lagged missed => exact fun _ => nofun

theorem spares_request (routing : Routing) {other : Uuid} (request : Submission.Request)
    (different : other ≠ id) :
    (request.routine routing other >>= fun _ => return .handled).Spares id := by
  rw [Submission.Request.routine_eq]
  split
  · exact fun _ => nofun
  · next tasks chain planned =>
      exact spares_of_follows (follows_submitChain routing other tasks chain)
        (fun same => different (Option.some.inj same)) fun _ _ => nofun

theorem spares_read {other : Uuid} (different : other ≠ id) :
    (Inspection.read other >>= fun answer => return .answered other answer).Spares id :=
  spares_of_follows (follows_read other) (fun same => different (Option.some.inj same))
    fun _ _ same => different (Report.answered.inj same).1

/-- What a step means to a workflow with an identifier. -/
inductive Traffic.Turn (known : Uuid → Prop) (routing : Routing) (settings : Dict QueueSettings)
    (id : Uuid) (traffic : Traffic) : Traffic → Prop where
  /-- The queues or a listener move on, and routines may join that spare the workflow or read it. -/
  | moves {system : WorkflowSystem} {given : List Uuid} {joining : List (Routine Report)}
      (reached : WorkflowSystem.Reached routing settings system)
      (leads : traffic.system.queues.Leads system.queues)
      (records : system.records = traffic.system.records) (isGiven : id ∈ given)
      (joins : ∀ routine ∈ joining, routine.Spares id ∨ known id ∧ routine =
        (Inspection.read id >>= fun answer => return .answered id answer)) :
      Turn known routing settings id traffic ⟨system, given, joining ++ traffic.underway⟩
  | acts {before rest : List (Routine Report)} {action : Action}
      {next : action.Reply → Routine Report}
      (here : traffic.underway = before ++ .step action next :: rest) :
      Turn known routing settings id traffic { traffic with
        system := (WorkflowSystem.answer action traffic.system).2
        underway := before ++ next (WorkflowSystem.answer action traffic.system).1 :: rest }

theorem Traffic.Step.turn {known : Uuid → Prop} {routing : Routing}
    {settings : Dict QueueSettings} {traffic after : Traffic} (step : Step known traffic after)
    (reached : WorkflowSystem.Reached routing settings traffic.system)
    (given : id ∈ traffic.given) : Turn known routing settings id traffic after := by
  have joins : ∀ {routine : Routine Report}, routine.Spares id → ∀ joining ∈ [routine],
      joining.Spares id ∨ known id ∧ joining =
        (Inspection.read id >>= fun answer => return .answered id answer) := by
    intro routine spares joining member
    exact .inl (List.mem_singleton.1 member ▸ spares)
  cases step with
  | works step =>
      exact .moves (reached.works step) (.single ⟨_, step⟩) rfl given
        fun _ member => absurd member List.not_mem_nil
  | listens => exact .moves reached .refl rfl given (joins (spares_listenAll _))
  | @requests other request fresh =>
      have different : other ≠ id := fun same => fresh (same ▸ given)
      exact .moves reached .refl rfl (List.mem_cons_of_mem _ given)
        (joins (spares_request _ request different))
  | @reads other isKnown =>
      by_cases same : other = id
      · subst same
        exact .moves reached .refl rfl given fun _ member =>
          .inr ⟨isKnown, List.mem_singleton.1 member⟩
      · exact .moves reached .refl rfl given (joins (spares_read same))
  | receives received =>
      have moved := reached.receives received
      obtain ⟨before, subscription, -, -, rfl⟩ := Orderly.receive?_some received
      exact .moves moved .refl rfl given (joins (spares_react _ _))
  | acts here => exact .acts here

/-- Every step leads the queues on, or leaves them alone. -/
theorem Traffic.Step.queues {known : Uuid → Prop} {routing : Routing}
    {settings : Dict QueueSettings} {traffic after : Traffic} (step : Step known traffic after)
    (reached : WorkflowSystem.Reached routing settings traffic.system) :
    traffic.system.queues.Leads after.system.queues := by
  cases step with
  | works step => exact .single ⟨_, step⟩
  | receives received =>
      obtain ⟨before, subscription, -, -, rfl⟩ := Orderly.receive?_some received
      exact .refl
  | acts here => exact WorkflowSystem.leads_answer _ reached.sound.1.steady
  | _ => exact .refl

end Spares

/-! ## A workflow in the traffic -/

/-- A report that answers a reader of a workflow with a view of it. -/
def Report.Shows (id : Uuid) (root : JobKey) (links : List Link) (report : Report) : Prop :=
  ∀ answer, report = .answered id answer → ∃ view, answer = .ok (some view) ∧
    view.Lists id root links

/-- What a routine does to an intact workflow: it leaves its record there, and shows it if it
was asked for it. -/
def Routine.Attends (id : Uuid) (root : JobKey) (links : List Link) (routine : Routine Report) :
    Prop :=
  routine.Abides (WorkflowSystem.RepliesIntact id root links) (Action.Spares id)
    (Report.Shows id root links)

namespace Traffic

/-- A workflow is taken care of in the traffic since the queues have taken its chain. -/
structure Attended (routing : Routing) (settings : Dict QueueSettings) (id : Uuid) (root : JobKey)
    (links : List Link) (queues : Queues) (traffic : Traffic) : Prop where
  reached : WorkflowSystem.Reached routing settings traffic.system
  leads : queues.Leads traffic.system.queues
  given : id ∈ traffic.given
  /-- As long as the jobs are there, so is the record. -/
  recorded : traffic.system.queues.Stores links →
    ∃ record, traffic.system.records.get? id = some record ∧ record.Tells id root
  attends : traffic.system.queues.Stores links →
    ∀ routine ∈ traffic.underway, routine.Attends id root links

section Attending

variable {known : Uuid → Prop} {routing : Routing} {settings : Dict QueueSettings} {id : Uuid}
  {root : JobKey} {links : List Link} {queues : Queues} {system : WorkflowSystem}
  {traffic after : Traffic}

theorem attends_of_spares {routine : Routine Report} (spares : routine.Spares id) :
    routine.Attends id root links :=
  spares.expecting fun _ apart answer same => absurd same (apart answer)

theorem attends_read (id : Uuid) (root : JobKey) (links : List Link) :
    (Inspection.read id >>= fun answer => return .answered id answer).Attends id root links := by
  refine (Inspection.abides_read id root links).bind ?_
  rintro _ ⟨view, rfl, lists⟩ answer isAnswer
  cases isAnswer
  exact ⟨view, rfl, lists⟩

/-- An action that spares a record writes its status at most. -/
theorem record_answer {action : Action} (spares : action.Spares id)
    (keyed : system.records.Keyed) :
    (WorkflowSystem.answer action system).2.records.get? id = system.records.get? id ∨
      ∃ record status now, system.records.get? id = some record ∧
        (WorkflowSystem.answer action system).2.records.get? id =
          some (record.written status now) := by
  cases action with
  | insertRecord new =>
      exact .inl ((RecordStore.get?_insert _ _ id).trans (if_neg (Ne.symm spares)))
  | updateStatus other status =>
      rw [answer_updateStatus]
      cases found : system.records.get? other with
      | none => exact .inl rfl
      | some record =>
          have written := RecordStore.get?_insert system.records
            (record.written status system.time) id
          by_cases same : id = record.id
          · rw [keyed.id_eq found] at same
            exact .inr ⟨record, status, _, same ▸ found,
              written.trans (if_pos (same.trans (keyed.id_eq found).symm))⟩
          · exact .inl (written.trans (if_neg same))
  | deleteRecord other =>
      apply Or.inl
      unfold WorkflowSystem.answer
      dsimp only
      split
      · next records deleted =>
          exact (RecordStore.get?_of_delete deleted id).trans (if_neg (Ne.symm spares))
      · rfl
  | _ => exact .inl (by rw [records_answer system rfl])

theorem tells_answer {action : Action} (spares : action.Spares id)
    (keyed : system.records.Keyed) {record : WorkflowRecord}
    (stored : system.records.get? id = some record) (tells : record.Tells id root) :
    ∃ later, (WorkflowSystem.answer action system).2.records.get? id = some later ∧
      later.Tells id root := by
  rcases record_answer spares keyed with same | ⟨old, status, now, found, written⟩
  · exact ⟨record, same.trans stored, tells⟩
  · cases found.symm.trans stored
    exact ⟨_, written, tells.id, tells.root⟩

namespace Attended

variable (taken : Queues.HasTaken settings root links queues)
  (attended : Attended routing settings id root links queues traffic)

include taken attended

/-- As long as its jobs are there, the workflow is intact. -/
theorem intact (stores : traffic.system.queues.Stores links) :
    WorkflowSystem.Intact id root links traffic.system := by
  have taken := taken.leads attended.leads stores
  obtain ⟨job, stored⟩ := taken.root_stored
  obtain ⟨tree, found, shows⟩ := taken.reachable.shows_tree? stored
  exact ⟨attended.recorded stores, ⟨job.state, Queues.jobState?_of_stored stored⟩,
    ⟨tree, found, taken.lists shows⟩⟩

theorem act {before rest : List (Routine Report)} {action : Action}
    {next : action.Reply → Routine Report}
    (here : traffic.underway = before ++ .step action next :: rest) :
    Attended routing settings id root links queues { traffic with
      system := (WorkflowSystem.answer action traffic.system).2
      underway := before ++ next (WorkflowSystem.answer action traffic.system).1 :: rest } := by
  have leads := WorkflowSystem.leads_answer action attended.reached.sound.1.steady
  have earlier : (WorkflowSystem.answer action traffic.system).2.queues.Stores links →
      traffic.system.queues.Stores links := taken.stores_between attended.leads leads
  have member : Routine.step action next ∈ traffic.underway := by simp [here]
  constructor
  case reached => exact attended.reached.acts action
  case leads => exact attended.leads.trans leads
  case given => exact attended.given
  case recorded =>
    intro stores
    obtain ⟨record, stored, tells⟩ := attended.recorded (earlier stores)
    exact tells_answer (attended.attends (earlier stores) _ member).1 attended.reached.sound.2
      stored tells
  case attends =>
    intro stores
    have all := attended.attends (earlier stores)
    -- The reply is one that shows the workflow, so the routine goes on as it should.
    exact forall_underway here all
      ((all _ member).2 _ ⟨_, attended.intact taken (earlier stores), rfl⟩)

/-- Every step keeps the workflow attended. -/
theorem step (step : Step known traffic after) :
    Attended routing settings id root links queues after := by
  cases step.turn attended.reached attended.given with
  | moves reached leads records isGiven joins =>
      have earlier := taken.stores_between attended.leads leads
      constructor
      case reached => exact reached
      case leads => exact attended.leads.trans leads
      case given => exact isGiven
      case recorded =>
        intro stores
        rw [records]
        exact attended.recorded (earlier stores)
      case attends =>
        intro stores routine isUnderway
        rcases List.mem_append.1 isUnderway with isJoining | before
        · rcases joins routine isJoining with spares | ⟨-, rfl⟩
          · exact attends_of_spares spares
          · exact attends_read id root links
        · exact attended.attends (earlier stores) routine before
  | acts here => exact attended.act taken here

/-- A workflow is attended to however long the traffic goes on. -/
theorem of_leads (leads : Leads known traffic after) :
    Attended routing settings id root links queues after := by
  induction leads with
  | refl => exact attended
  | tail _ step ih => exact ih.step taken step

/-- As long as its jobs are there, the workflow can be read without interruption, too. -/
theorem read (stores : traffic.system.queues.Stores links) :
    ∃ view, (traffic.system.read id).1 = .ok (some view) ∧ view.Lists id root links := by
  have taken := taken.leads attended.leads stores
  obtain ⟨record, known, tells⟩ := attended.recorded stores
  obtain ⟨job, stored⟩ := taken.root_stored
  rw [← tells.root] at stored
  obtain ⟨view, after, answered, describes, -⟩ := attended.reached.reads_live known stored
  obtain ⟨tree, shows, steps⟩ := describes.steps
  rw [tells.root] at shows
  refine ⟨view, congrArg Prod.fst answered, describes.id.trans tells.id, ?_, ?_⟩
  · rw [describes.queueName, describes.rootJobId]
    exact tells.root
  · rw [steps]
    exact (taken.lists shows).steps

end Attended

end Attending

end Traffic

end Relay
