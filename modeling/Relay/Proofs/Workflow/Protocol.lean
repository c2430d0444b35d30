import Relay.Workflow.System

/-!
# What routines do next

A routine under way is at one of a few stages, which say what it may do next.  The
actions of a routine and the replies to them lead from one stage to another.  The
three kinds of routines, submissions, reads and the handling of events, keep to this
protocol whatever they are told, so what other routines can rely on is said of the
stages and not of the programs.
-/

namespace Relay

/-- An action with what it gave back. -/
structure Exchange where
  action : Action
  reply : action.Reply

/-- The key of the root job of a record. -/
def WorkflowRecord.rootKey (record : WorkflowRecord) : JobKey :=
  ⟨record.queueName, record.rootJobId⟩

/-- The key of the root job of a submitted flow. -/
def AddedFlow.rootKey (added : AddedFlow) : JobKey := ⟨added.queueName, added.jobId⟩

/-- How far a routine has come. -/
inductive Stage where
  /-- A submission follows queues, then hands its chain to them. -/
  | listening (id : Uuid) (tasks : List Task) (chain : Flow) (heard : List String)
  /-- A submission stores a record of its chain. -/
  | recording (id : Uuid) (tasks : List Task) (added : AddedFlow)
  /-- A listener looks for the record whose root job an event is about. -/
  | finding (queue : String) (event : QueueEvent)
  /-- A listener has found a record that is to get a final status. -/
  | found (record : WorkflowRecord) (status : WorkflowStatus)
  /-- A listener that holds the lock looks whether the record is still there. -/
  | checking (id : Uuid) (status : WorkflowStatus)
  /-- A listener that holds the lock writes a final status. -/
  | writing (id : Uuid) (status : WorkflowStatus)
  /-- A reader waits for the lock. -/
  | asking (id : Uuid)
  /-- A reader that holds the lock looks for the record. -/
  | fetching (id : Uuid)
  /-- A reader asks for the state of the root job of a record that is not final. -/
  | judging (id : Uuid) (record : WorkflowRecord)
  /-- A reader writes the state that it was told. -/
  | owing (id : Uuid) (record : WorkflowRecord) (status : String)
  /-- A reader looks at the record that it has written. -/
  | rereading (id : Uuid) (record : WorkflowRecord)
  /-- A reader asks for the jobs of a record. -/
  | viewing (id : Uuid) (record : WorkflowRecord)
  /-- A reader deletes an expired record. -/
  | expired (id : Uuid)
  /-- A routine gives its lock back. -/
  | leaving (id : Uuid)
  | ended

namespace Stage

/-- The record whose lock is held at a stage. -/
def lock? : Stage → Option Uuid
  | checking id _ | writing id _ | fetching id | judging id _ | owing id _ _ | rereading id _
  | viewing id _ | expired id | leaving id => some id
  | listening _ _ _ _ | recording _ _ _ | finding _ _ | found _ _ | asking _ | ended => none

/-- From one stage to another. -/
inductive Moves : Stage → Exchange → Stage → Prop
  | hears (id : Uuid) (tasks : List Task) (chain : Flow) (heard : List String) (queue : String) :
      Moves (.listening id tasks chain heard) ⟨.listen queue, ()⟩
        (.listening id tasks chain (queue :: heard))
  | refused (id : Uuid) (tasks : List Task) (chain : Flow) (heard : List String)
      (problem : QueueError) :
      Moves (.listening id tasks chain heard) ⟨.addFlow chain, .error problem⟩ .ended
  | accepted (id : Uuid) (tasks : List Task) {chain : Flow} {heard : List String}
      (added : AddedFlow) (follows : chain.queueName ∈ heard) :
      Moves (.listening id tasks chain heard) ⟨.addFlow chain, .ok added⟩
        (.recording id tasks added)
  | recorded (id : Uuid) (tasks : List Task) (added : AddedFlow)
      (reply : Except StoreError WorkflowRecord) :
      Moves (.recording id tasks added)
        ⟨.insertRecord (Submission.newRecord id added tasks), reply⟩ .ended
  | finds (queue : String) (event : QueueEvent) (record : WorkflowRecord) :
      Moves (.finding queue event) ⟨.findRecord queue event.jobId, .ok (some record)⟩
        (.found record (Tracking.statusOf event))
  | findsNothing (queue : String) (event : QueueEvent)
      {reply : Except StoreError (Option WorkflowRecord)}
      (nothing : ∀ record, reply ≠ .ok (some record)) :
      Moves (.finding queue event) ⟨.findRecord queue event.jobId, reply⟩ .ended
  | locks (record : WorkflowRecord) (status : WorkflowStatus) :
      Moves (.found record status) ⟨.lock record.id, ()⟩ (.checking record.id status)
  | checks (id : Uuid) (status : WorkflowStatus) (record : WorkflowRecord) :
      Moves (.checking id status) ⟨.getRecord id, .ok (some record)⟩ (.writing id status)
  | checksInVain (id : Uuid) (status : WorkflowStatus)
      {reply : Except StoreError (Option WorkflowRecord)}
      (nothing : ∀ record, reply ≠ .ok (some record)) :
      Moves (.checking id status) ⟨.getRecord id, reply⟩ (.leaving id)
  | writes (id : Uuid) (status : WorkflowStatus) (reply : Except StoreError Unit) :
      Moves (.writing id status) ⟨.updateStatus id status.text, reply⟩ (.leaving id)
  | enters (id : Uuid) : Moves (.asking id) ⟨.lock id, ()⟩ (.fetching id)
  | fetchesFinal (id : Uuid) {record : WorkflowRecord} (final : record.isTerminal = true) :
      Moves (.fetching id) ⟨.getRecord id, .ok (some record)⟩ (.viewing id record)
  | fetchesOpen (id : Uuid) {record : WorkflowRecord} (isOpen : record.isTerminal = false) :
      Moves (.fetching id) ⟨.getRecord id, .ok (some record)⟩ (.judging id record)
  | fetchesNothing (id : Uuid) {reply : Except StoreError (Option WorkflowRecord)}
      (nothing : ∀ record, reply ≠ .ok (some record)) :
      Moves (.fetching id) ⟨.getRecord id, reply⟩ (.leaving id)
  | agrees (id : Uuid) {record : WorkflowRecord} {state : JobState}
      (same : state.text = record.status) :
      Moves (.judging id record) ⟨.jobState record.rootKey, .ok (some state)⟩ (.viewing id record)
  | differs (id : Uuid) (record : WorkflowRecord) (state : JobState) :
      Moves (.judging id record) ⟨.jobState record.rootKey, .ok (some state)⟩
        (.owing id record state.text)
  | judgesNothing (id : Uuid) (record : WorkflowRecord)
      {reply : Except QueueError (Option JobState)} (nothing : ∀ state, reply ≠ .ok (some state)) :
      Moves (.judging id record) ⟨.jobState record.rootKey, reply⟩ (.expired id)
  | pays (id : Uuid) (record : WorkflowRecord) (status : String) :
      Moves (.owing id record status) ⟨.updateStatus record.id status, .ok ()⟩
        (.rereading id { record with status })
  | paysInVain (id : Uuid) (record : WorkflowRecord) (status : String) (problem : StoreError) :
      Moves (.owing id record status) ⟨.updateStatus record.id status, .error problem⟩ (.leaving id)
  | rereads (id : Uuid) (record : WorkflowRecord) (found : Option WorkflowRecord) :
      Moves (.rereading id record) ⟨.getRecord record.id, .ok found⟩
        (.viewing id (found.getD record))
  | rereadsInVain (id : Uuid) (record : WorkflowRecord) (problem : StoreError) :
      Moves (.rereading id record) ⟨.getRecord record.id, .error problem⟩ (.leaving id)
  | views (id : Uuid) (record : WorkflowRecord) (tree : JobTree) :
      Moves (.viewing id record) ⟨.getFlow record.rootKey, .ok (some tree)⟩ (.leaving id)
  | viewsNothing (id : Uuid) (record : WorkflowRecord)
      {reply : Except QueueError (Option JobTree)} (nothing : ∀ tree, reply ≠ .ok (some tree)) :
      Moves (.viewing id record) ⟨.getFlow record.rootKey, reply⟩ (.expired id)
  | deletes (id : Uuid) (reply : Except StoreError Unit) :
      Moves (.expired id) ⟨.deleteRecord id, reply⟩ (.leaving id)
  | leaves (id : Uuid) : Moves (.leaving id) ⟨.unlock id, ()⟩ .ended

end Stage

/-- A routine keeps to the protocol from a stage on, up to a stage that depends on what
it comes to. -/
def Follows {α : Type} (ends : α → Stage) : Stage → Routine α → Prop
  | stage, .done value => stage = ends value
  | stage, .step action next =>
      ∀ reply, ∃ later, stage.Moves ⟨action, reply⟩ later ∧ Follows ends later (next reply)

/-- A routine goes on where its first part ends. -/
theorem Follows.bind {α β : Type} {middle : α → Stage} {ends : β → Stage} {stage : Stage}
    {routine : Routine α} {next : α → Routine β} (first : Follows middle stage routine)
    (second : ∀ value, Follows ends (middle value) (next value)) :
    Follows ends stage (routine >>= next) := by
  change Follows ends stage (routine.andThen next)
  induction routine generalizing stage with
  | done value => exact first ▸ second value
  | step action rest ih =>
      intro reply
      obtain ⟨later, moves, follows⟩ := first reply
      exact ⟨later, moves, ih reply follows⟩

/-! ## Submissions -/

theorem follows_listenAll (id : Uuid) (tasks : List Task) (chain : Flow) (heard queues : List String) :
    Follows (fun _ => .listening id tasks chain (queues.reverse ++ heard))
      (.listening id tasks chain heard) (Submission.listenAll queues) := by
  induction queues generalizing heard with
  | nil => rfl
  | cons queue rest ih =>
      intro reply
      refine ⟨.listening id tasks chain (queue :: heard), .hears id tasks chain heard queue, ?_⟩
      rw [List.reverse_cons, List.append_assoc]
      exact ih (queue :: heard)

/-- A submission that follows the queue of its chain before it hands the chain over. -/
theorem follows_submitChain (routing : Routing) (id : Uuid) (tasks : List Task) (chain : Flow) :
    Follows (fun _ => .ended) (.listening id tasks chain [])
      (Submission.submitChain routing id tasks chain) := by
  apply Follows.bind (follows_listenAll id tasks chain [] _)
  intro _ reply
  cases reply with
  | error problem => exact ⟨_, .refused _ _ _ _ problem, rfl⟩
  | ok added =>
      refine ⟨_, .accepted id tasks added (by simp), ?_⟩
      intro reply
      refine ⟨_, .recorded id tasks added reply, ?_⟩
      cases reply <;> rfl

/-! ## Events -/

/-- A listener that handles an event. -/
theorem follows_handle (queue : String) (event : QueueEvent) :
    Follows (fun _ => .ended) (.finding queue event) (Tracking.handle queue event) := by
  intro reply
  have nothing : (∀ record, reply ≠ .ok (some record)) →
      ∃ later, Stage.Moves (.finding queue event) ⟨.findRecord queue event.jobId, reply⟩ later ∧
        Follows (fun _ => .ended) later (.done ()) :=
    fun nothing => ⟨_, .findsNothing queue event nothing, rfl⟩
  match reply with
  | .error problem => exact nothing fun _ same => by cases same
  | .ok none => exact nothing fun _ same => by cases same
  | .ok (some record) =>
      refine ⟨_, .finds queue event record, fun _ => ⟨_, .locks record _, ?_⟩⟩
      intro reply
      match reply with
      | .error problem =>
          refine ⟨_, .checksInVain _ _ (fun _ same => by cases same), fun _ => ⟨_, .leaves _, rfl⟩⟩
      | .ok none =>
          refine ⟨_, .checksInVain _ _ (fun _ same => by cases same), fun _ => ⟨_, .leaves _, rfl⟩⟩
      | .ok (some again) =>
          refine ⟨_, .checks _ _ again, fun reply => ⟨_, .writes _ _ reply, ?_⟩⟩
          exact fun _ => ⟨_, .leaves _, rfl⟩

/-! ## Reads -/

section Reads

variable (id : Uuid) (record : WorkflowRecord)

theorem follows_rootState :
    Follows (fun
      | some state => if state.text = record.status then .viewing id record
          else .owing id record state.text
      | none => .expired id) (.judging id record) (Inspection.rootState record) := by
  intro reply
  match reply with
  | .error problem => exact ⟨_, .judgesNothing id record (fun _ same => by cases same), rfl⟩
  | .ok none => exact ⟨_, .judgesNothing id record (fun _ same => by cases same), rfl⟩
  | .ok (some state) =>
      by_cases same : state.text = record.status
      · exact ⟨_, .agrees id same, (if_pos same).symm⟩
      · exact ⟨_, .differs id record state, (if_neg same).symm⟩

theorem follows_refresh (status : String) :
    Follows (fun
      | .ok seen => .viewing id seen
      | .error _ => .leaving id) (.owing id record status) (Inspection.refresh record status) := by
  intro reply
  cases reply with
  | error problem => exact ⟨_, .paysInVain id record status problem, rfl⟩
  | ok written =>
      refine ⟨_, .pays id record status, fun reply => ?_⟩
      cases reply with
      | error problem => exact ⟨_, .rereadsInVain id { record with status } problem, rfl⟩
      | ok found => exact ⟨_, .rereads id { record with status } found, rfl⟩

/-- Where a reader stands that has fetched a record. -/
def Stage.fetched : Stage :=
  if record.isTerminal then .viewing id record else .judging id record

theorem follows_reconcile :
    Follows (fun
      | .ok (some seen) => .viewing id seen
      | .ok none => .expired id
      | .error _ => .leaving id) (Stage.fetched id record) (Inspection.reconcile record) := by
  unfold Inspection.reconcile Stage.fetched
  split
  · rfl
  · apply Follows.bind (follows_rootState id record)
    intro state
    cases state with
    | none => rfl
    | some state =>
        dsimp only
        split
        · rfl
        · apply Follows.bind (follows_refresh id record state.text)
          intro seen
          cases seen <;> rfl

theorem follows_treeOf :
    Follows (fun
      | some _ => .leaving id
      | none => .expired id) (.viewing id record) (Inspection.treeOf record) := by
  intro reply
  match reply with
  | .error problem => exact ⟨_, .viewsNothing id record (fun _ same => by cases same), rfl⟩
  | .ok none => exact ⟨_, .viewsNothing id record (fun _ same => by cases same), rfl⟩
  | .ok (some tree) => exact ⟨_, .views id record tree, rfl⟩

theorem follows_examine :
    Follows (fun
      | .ok .expired => .expired id
      | .ok (.live _) | .error _ => .leaving id) (Stage.fetched id record)
      (Inspection.examine record) := by
  apply Follows.bind (follows_reconcile id record)
  intro reconciled
  match reconciled with
  | .error problem => rfl
  | .ok none => rfl
  | .ok (some seen) =>
      apply Follows.bind (follows_treeOf id seen)
      intro tree
      cases tree <;> rfl

theorem follows_expire :
    Follows (fun _ => .leaving id) (.expired id) (Inspection.expire id) := by
  intro reply
  refine ⟨_, .deletes id reply, ?_⟩
  match reply with
  | .error .poolTimeout => rfl
  | .error .notFound => rfl
  | .ok () => rfl

theorem follows_readLocked :
    Follows (fun _ => .leaving id) (.fetching id) (Inspection.readLocked id) := by
  intro reply
  match reply with
  | .error problem => exact ⟨_, .fetchesNothing id (fun _ same => by cases same), rfl⟩
  | .ok none => exact ⟨_, .fetchesNothing id (fun _ same => by cases same), rfl⟩
  | .ok (some record) =>
      refine ⟨Stage.fetched id record, ?_, ?_⟩
      · unfold Stage.fetched
        split
        · next final => exact .fetchesFinal id final
        · next notFinal => exact .fetchesOpen id (Bool.eq_false_iff.2 notFinal)
      · apply Follows.bind (follows_examine id record)
        intro finding
        match finding with
        | .error problem => rfl
        | .ok (.live view) => rfl
        | .ok .expired =>
            apply Follows.bind (follows_expire id)
            intro deleted
            rfl

/-- A reader that holds the lock of the record while it looks at it. -/
theorem follows_read : Follows (fun _ => .ended) (.asking id) (Inspection.read id) := by
  intro _
  refine ⟨_, .enters id, ?_⟩
  apply Follows.bind (follows_readLocked id)
  intro answer _
  exact ⟨_, .leaves id, rfl⟩

end Reads

end Relay
