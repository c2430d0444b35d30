import Relay.Proofs.Queue.ChainTree
import Relay.Proofs.Workflow.Records

/-!
# Rules for routines

A routine is judged by what it does when the replies are such as may be expected.  Two sets of
rules matter to a workflow.  A routine that deals with other workflows spares its record,
whatever it is told.  A reader of the workflow itself spares the record, too, and comes to a
view of all jobs in their order, if all it is told comes from systems in which the workflow has
its record and its jobs, a different system each time.
-/

namespace Relay

namespace Routine

variable {α β : Type} {expected : (action : Action) → action.Reply → Prop}
  {allowed : Action → Prop} {middle result : α → Prop}

/-- A routine abides by rules: if all replies are as expected, it does nothing but what is
allowed, and it comes to a result of the given kind. -/
def Abides (expected : (action : Action) → action.Reply → Prop) (allowed : Action → Prop)
    (result : α → Prop) : Routine α → Prop
  | .done value => result value
  | .step action next =>
      allowed action ∧
        ∀ reply, expected action reply → (next reply).Abides expected allowed result

theorem Abides.bind {routine : Routine α} {next : α → Routine β} {result : β → Prop}
    (first : routine.Abides expected allowed middle)
    (second : ∀ value, middle value → (next value).Abides expected allowed result) :
    (routine >>= next).Abides expected allowed result := by
  change (routine.andThen next).Abides expected allowed result
  induction routine with
  | done value => exact second value first
  | step action rest ih => exact ⟨first.1, fun reply isReply => ih reply (first.2 reply isReply)⟩

/-- Rules that hold whatever is replied hold for the replies that are expected. -/
theorem Abides.expecting {routine : Routine α}
    (abides : routine.Abides (fun _ _ => True) allowed middle)
    (weaker : ∀ value, middle value → result value) : routine.Abides expected allowed result := by
  induction routine with
  | done value => exact weaker value abides
  | step action rest ih => exact ⟨abides.1, fun reply _ => ih reply (abides.2 reply trivial)⟩

end Routine

/-- An action neither stores nor deletes the record with an identifier. -/
def Action.Spares (id : Uuid) : Action → Prop
  | .insertRecord new => new.id ≠ id
  | .deleteRecord other => other ≠ id
  | _ => True

/-- The workflow whose record may be stored or deleted from a stage on. -/
def Stage.subject? : Stage → Option Uuid
  | .listening id _ _ _ | .recording id _ _ | .asking id | .fetching id | .judging id _
  | .owing id _ _ | .rereading id _ | .viewing id _ | .expired id => some id
  | .finding _ _ | .found _ _ | .checking _ _ | .writing _ _ | .leaving _ | .ended => none

section Sparing

variable {id : Uuid} {stage later : Stage}

/-- A routine keeps its subject, and stores or deletes no other record. -/
theorem Stage.Moves.spares {exchange : Exchange} (moves : stage.Moves exchange later)
    (apart : stage.subject? ≠ some id) :
    exchange.action.Spares id ∧ later.subject? ≠ some id := by
  cases moves
  case recorded => exact ⟨fun same => apart (congrArg some same), nofun⟩
  case deletes => exact ⟨fun same => apart (congrArg some same), nofun⟩
  all_goals first
    | exact ⟨trivial, apart⟩
    | exact ⟨trivial, nofun⟩

/-- So what keeps to the protocol spares the records of all workflows but its own. -/
theorem Follows.spares {α : Type} {ends : α → Stage} {routine : Routine α}
    (follows : Follows ends stage routine) (apart : stage.subject? ≠ some id) :
    routine.Abides (fun _ _ => True) (Action.Spares id) fun _ => True := by
  induction routine generalizing stage with
  | done value => trivial
  | step action next ih =>
      constructor
      · -- The protocol speaks of exchanges, and there is a reply to every action.
        obtain ⟨later, moves, -⟩ :=
          follows (WorkflowSystem.answer action (.start .standard .empty)).1
        exact (moves.spares apart).1
      · intro reply _
        obtain ⟨later, moves, more⟩ := follows reply
        exact ih reply more (moves.spares apart).2

end Sparing

/-! ## What a reader finds -/

/-- A view of a workflow names its root job and lists its jobs in order. -/
structure WorkflowView.Lists (view : WorkflowView) (id : Uuid) (root : JobKey)
    (links : List Link) : Prop where
  id : view.id = id
  root : (⟨view.queueName, view.rootJobId⟩ : JobKey) = root
  steps : view.steps.map (fun step => (step.jobId, step.jobName)) =
    links.map fun link => (link.key.id, link.seed.name)

/-- The steps that are read off a tree. -/
theorem JobTree.Lists.steps {tree : JobTree} {links : List Link} (lists : tree.Lists links) :
    (tree.postOrder.map StepStatus.ofSnapshot).map (fun step => (step.jobId, step.jobName)) =
      links.map fun link => (link.key.id, link.seed.name) := by
  unfold JobTree.Lists at lists
  rw [List.map_map, ← lists]
  rfl

/-- A record belongs to a workflow and points at its root job. -/
structure WorkflowRecord.Tells (record : WorkflowRecord) (id : Uuid) (root : JobKey) : Prop where
  id : record.id = id
  root : record.rootKey = root

namespace WorkflowSystem

/-- A system in which a workflow has its record and all its jobs. -/
structure Intact (id : Uuid) (root : JobKey) (links : List Link) (system : WorkflowSystem) :
    Prop where
  recorded : ∃ record, system.records.get? id = some record ∧ record.Tells id root
  alive : ∃ state, system.queues.jobState? root = some state
  listed : ∃ tree, system.queues.tree? root = some tree ∧ tree.Lists links

/-- A reply that some system gives in which a workflow is intact. -/
def RepliesIntact (id : Uuid) (root : JobKey) (links : List Link) (action : Action)
    (reply : action.Reply) : Prop :=
  ∃ system, Intact id root links system ∧ (answer action system).1 = reply

end WorkflowSystem

namespace Inspection

section Reading

variable {id : Uuid} {root : JobKey} {links : List Link} {record : WorkflowRecord}

open WorkflowSystem (RepliesIntact)

theorem abides_rootState (tells : record.Tells id root) :
    (rootState record).Abides (RepliesIntact id root links) (Action.Spares id)
      fun found => ∃ state, found = some state := by
  refine ⟨trivial, ?_⟩
  rintro _ ⟨system, intact, rfl⟩
  obtain ⟨state, known⟩ := intact.alive
  rw [← tells.root] at known
  have replied : (WorkflowSystem.answer (.jobState record.rootKey) system).1 = .ok (some state) :=
    congrArg Except.ok known
  rw [show (⟨record.queueName, record.rootJobId⟩ : JobKey) = record.rootKey from rfl, replied]
  exact ⟨state, rfl⟩

theorem abides_treeOf (tells : record.Tells id root) :
    (treeOf record).Abides (RepliesIntact id root links) (Action.Spares id)
      fun found => ∃ tree, found = some tree ∧ tree.Lists links := by
  refine ⟨trivial, ?_⟩
  rintro _ ⟨system, intact, rfl⟩
  obtain ⟨tree, shown, lists⟩ := intact.listed
  rw [← tells.root] at shown
  have replied : (WorkflowSystem.answer (.getFlow record.rootKey) system).1 = .ok (some tree) :=
    congrArg Except.ok shown
  rw [show (⟨record.queueName, record.rootJobId⟩ : JobKey) = record.rootKey from rfl, replied]
  exact ⟨tree, rfl, lists⟩

theorem abides_getRecord : (Routine.act (.getRecord id)).Abides (RepliesIntact id root links)
    (Action.Spares id) fun reply => ∃ record, reply = .ok (some record) ∧ record.Tells id root := by
  refine ⟨trivial, ?_⟩
  rintro _ ⟨system, intact, rfl⟩
  obtain ⟨record, known, tells⟩ := intact.recorded
  exact ⟨record, congrArg Except.ok known, tells⟩

theorem abides_updateStatus (status : String) : (Routine.act (.updateStatus id status)).Abides
    (RepliesIntact id root links) (Action.Spares id) fun reply => reply = .ok () := by
  refine ⟨trivial, ?_⟩
  rintro _ ⟨system, intact, rfl⟩
  obtain ⟨record, known, -⟩ := intact.recorded
  have answered := answer_updateStatus system id status
  rw [known] at answered
  exact congrArg Prod.fst answered

theorem abides_refresh (tells : record.Tells id root) (status : String) :
    (refresh record status).Abides (RepliesIntact id root links) (Action.Spares id)
      fun result => ∃ seen, result = .ok seen ∧ seen.Tells id root := by
  unfold refresh
  rw [tells.id]
  apply (abides_updateStatus status).bind
  rintro _ rfl
  apply abides_getRecord.bind
  rintro _ ⟨seen, rfl, seenTells⟩
  exact ⟨seen, rfl, seenTells⟩

theorem abides_reconcile (tells : record.Tells id root) :
    (reconcile record).Abides (RepliesIntact id root links) (Action.Spares id)
      fun result => ∃ seen, result = .ok (some seen) ∧ seen.Tells id root := by
  unfold reconcile
  split
  · exact ⟨record, rfl, tells⟩
  · apply (abides_rootState tells).bind
    rintro _ ⟨state, rfl⟩
    dsimp only
    split
    · exact ⟨record, rfl, tells⟩
    · apply (abides_refresh tells state.text).bind
      rintro _ ⟨seen, rfl, seenTells⟩
      exact ⟨seen, rfl, seenTells⟩

theorem abides_examine (tells : record.Tells id root) :
    (examine record).Abides (RepliesIntact id root links) (Action.Spares id)
      fun result => ∃ view, result = .ok (.live view) ∧ view.Lists id root links := by
  apply (abides_reconcile tells).bind
  rintro _ ⟨seen, rfl, seenTells⟩
  apply (abides_treeOf seenTells).bind
  rintro _ ⟨tree, rfl, lists⟩
  exact ⟨_, rfl, seenTells.id, seenTells.root, lists.steps⟩

/-- A reader of an intact workflow comes to a view of it and does not delete its record. -/
theorem abides_read (id : Uuid) (root : JobKey) (links : List Link) :
    (read id).Abides (RepliesIntact id root links) (Action.Spares id)
      fun answer => ∃ view, answer = .ok (some view) ∧ view.Lists id root links := by
  refine ⟨trivial, fun _ _ => ?_⟩
  have locked : (readLocked id).Abides (RepliesIntact id root links) (Action.Spares id)
      fun answer => ∃ view, answer = .ok (some view) ∧ view.Lists id root links := by
    apply abides_getRecord.bind
    rintro _ ⟨record, rfl, tells⟩
    apply (abides_examine tells).bind
    rintro _ ⟨view, rfl, lists⟩
    exact ⟨view, rfl, lists⟩
  apply locked.bind
  rintro _ ⟨view, rfl, lists⟩
  exact ⟨trivial, fun _ _ => ⟨view, rfl, lists⟩⟩

end Reading

end Inspection

end Relay
