import Relay.Proofs.Workflow.Acceptance

/-!
# Records and root jobs

A record tells the truth: a final status of a record is the end to which the root job of
its workflow has come.  Two things carry this invariant.  The root of an accepted
workflow stays stored, and stays as it ended.  And whoever writes a record holds its
lock, so what a reader has seen of the record is still so when it writes.
-/

namespace Relay

theorem Uuid.text_injective : Function.Injective Uuid.text := by
  intro left right same
  have read := Uuid.ofText?_text left
  rw [same, Uuid.ofText?_text right] at read
  exact (Option.some.inj read).symm

/-- A state is final as a status if the job is finished. -/
theorem isTerminal_ofText (state : JobState) :
    (WorkflowStatus.ofText state.text).isTerminal = state.isFinished := by
  cases state <;> decide

namespace RecordStore

variable {store : RecordStore} {record other : WorkflowRecord} {id : Uuid}

theorem get?_insert (store : RecordStore) (record : WorkflowRecord) (id : Uuid) :
    (store.insert record).get? id = if id = record.id then some record else store.get? id := by
  unfold RecordStore.insert get?
  rw [Dict.get?_insert]
  by_cases same : id = record.id
  · rw [if_pos same, if_pos (congrArg Uuid.text same)]
  · rw [if_neg same, if_neg fun equal => same (Uuid.text_injective equal)]

/-- Records stand under their identifiers. -/
def Keyed (store : RecordStore) : Prop :=
  ∀ key record, store.records.get? key = some record → key = record.id.text

theorem keyed_empty : Keyed .empty := fun _ _ found => (Option.some_ne_none _ found.symm).elim

theorem Keyed.insert (keyed : Keyed store) (record : WorkflowRecord) :
    Keyed (store.insert record) := by
  intro key found isFound
  unfold RecordStore.insert at isFound
  rw [Dict.get?_insert] at isFound
  split at isFound
  · next same =>
      cases isFound
      exact same
  · exact keyed key found isFound

theorem Keyed.id_eq (keyed : Keyed store) (found : store.get? id = some record) :
    record.id = id :=
  (Uuid.text_injective (keyed _ _ found)).symm

theorem get?_of_delete {records : RecordStore} (deleted : store.delete id = .ok records)
    (other : Uuid) : records.get? other = if other = id then none else store.get? other := by
  unfold RecordStore.delete at deleted
  split at deleted
  · cases deleted
    unfold get?
    rw [Dict.get?_erase]
    by_cases same : other = id
    · rw [if_pos same, if_pos (congrArg Uuid.text same)]
    · rw [if_neg same, if_neg fun equal => same (Uuid.text_injective equal)]
  · cases deleted

theorem Keyed.delete {records : RecordStore} (keyed : Keyed store)
    (deleted : store.delete id = .ok records) : Keyed records := by
  intro key found isFound
  unfold RecordStore.delete at deleted
  split at deleted
  · cases deleted
    rw [Dict.get?_erase] at isFound
    split at isFound
    · cases isFound
    · exact keyed key found isFound
  · cases deleted

/-- A record that is found by its root job is stored. -/
theorem Keyed.findByRoot? (keyed : Keyed store) {queueName rootJobId : String}
    (found : store.findByRoot? queueName rootJobId = some record) :
    store.get? record.id = some record ∧ record.rootKey = ⟨queueName, rootJobId⟩ := by
  unfold RecordStore.findByRoot? at found
  have member := (Dict.mem_values_iff _ _).1 (List.mem_of_find?_eq_some found)
  have test := List.find?_some found
  simp only [Bool.and_eq_true, beq_iff_eq] at test
  obtain ⟨key, stored⟩ := member
  constructor
  · unfold get?
    rw [← keyed key record stored]
    exact stored
  · unfold WorkflowRecord.rootKey
    rw [test.1, test.2]

end RecordStore

/-! ## Finished jobs -/

/-- A job is stored and finished, in a state of a given name. -/
def Concluded (queues : Queues) (key : JobKey) (text : String) : Prop :=
  ∃ job, queues.job? key = some job ∧ job.state.isFinished = true ∧ job.state.text = text

theorem Concluded.terminal {queues : Queues} {key : JobKey} {text : String}
    (concluded : Concluded queues key text) :
    (WorkflowStatus.ofText text).isTerminal = true := by
  obtain ⟨job, -, finished, rfl⟩ := concluded
  rw [isTerminal_ofText]
  exact finished

/-- What is announced of a stored job is that it is finished. -/
theorem Concluded.of_event {queues : Queues} (announced : queues.Announced) {queue : String}
    {event : QueueEvent} (member : event ∈ (queues.lane queue).events) {job : Job}
    (stored : queues.job? ⟨queue, event.jobId⟩ = some job) :
    Concluded queues ⟨queue, event.jobId⟩ (Tracking.statusOf event).text := by
  have announces := announced.told queue event member job stored
  refine ⟨job, stored, announces.finished, ?_⟩
  cases event with
  | completed jobId => rw [show job.state = .completed from announces]; rfl
  | failed jobId reason => rw [announces.1]; rfl

/-! ## What stays -/

/-- What stays true of a world whatever happens. -/
structure Grows (world after : World) : Prop where
  accepted : ∀ id added, Accepted world.journal id added → Accepted after.journal id added
  concluded : ∀ id added text, Accepted world.journal id added →
    Concluded world.system.queues added.rootKey text →
    Concluded after.system.queues added.rootKey text
  events : ∀ queue, ∃ more, (after.system.queues.lane queue).events =
    (world.system.queues.lane queue).events ++ more
  listeners : ∀ queue, world.system.listeners.contains queue = true →
    after.system.listeners.contains queue = true

theorem contains_insert {α : Type} {dict : Dict α} {key other : String} {value : α}
    (contains : dict.contains other = true ∨ other = key) :
    (dict.insert key value).contains other = true := by
  unfold Dict.contains at contains ⊢
  rw [Dict.get?_insert]
  split
  · rfl
  · next different => exact contains.resolve_right different

theorem listeners_answer (action : Action) (system : WorkflowSystem) {queue : String}
    (contains : system.listeners.contains queue = true) :
    (WorkflowSystem.answer action system).2.listeners.contains queue = true := by
  cases action with
  | updateStatus id status =>
      unfold WorkflowSystem.answer
      dsimp only
      split <;> exact contains
  | deleteRecord id =>
      unfold WorkflowSystem.answer
      dsimp only
      split <;> exact contains
  | listen other =>
      show (system.listen other).listeners.contains queue = true
      unfold WorkflowSystem.listen
      split
      · exact contains
      · exact contains_insert (.inl contains)
  | _ => exact contains

namespace World

variable {script : Script} {routing : Routing} {settings : Dict QueueSettings}
  {world after : World} {stages later : Agent → Stage}

/-- The queues do nothing, or one step. -/
theorem Turn.queues (turn : Turn script world stages after later)
    (steady : world.system.queues.Steady none []) :
    after.system.queues = world.system.queues ∨
      ∃ act, Queues.Step world.system.queues act after.system.queues := by
  cases turn with
  | works step regular => exact .inr ⟨_, step⟩
  | submits tasks threads fresh idle => exact .inl rfl
  | reads threads idle => exact .inl rfl
  | leaves threads => exact .inl rfl
  | receives threads idle received =>
      obtain ⟨before, subscription, -, -, rfl⟩ := Orderly.receive?_some received
      exact .inl rfl
  | @moves agent action reply system next threads moves answered =>
      obtain rfl : (WorkflowSystem.answer action world.system).2 = system :=
        congrArg Prod.snd answered
      rcases queues_answer action world.system script steady with same | ⟨act, step, -, -⟩
      · exact .inl same
      · exact .inr ⟨act, step⟩

theorem Turn.grows (turn : Turn script world stages after later)
    (orderly : Orderly script routing settings world)
    (orderlyAfter : Orderly script routing settings after) : Grows world after := by
  have accepted : ∀ id added, Accepted world.journal id added → Accepted after.journal id added := by
    intro id added isAccepted
    cases turn with
    | moves threads moves answered => exact isAccepted.mono _
    | _ => exact isAccepted
  have steady := orderly.reached.steady
  constructor
  case accepted => exact accepted
  case concluded =>
    intro id added text isAccepted concluded
    rcases turn.queues steady with same | ⟨act, step⟩
    · rw [same]
      exact concluded
    · obtain ⟨old, before, finished, named⟩ := concluded
      obtain ⟨new, stored⟩ := orderlyAfter.root_stored (accepted id added isAccepted)
      obtain ⟨state, -, -⟩ := ((step.effect steady).endures steady before stored).ended finished
      exact ⟨new, stored, state ▸ finished, state ▸ named⟩
  case events =>
    intro queue
    rcases turn.queues steady with same | ⟨act, step⟩
    · exact ⟨[], by rw [same, List.append_nil]⟩
    · obtain ⟨more, reports⟩ := (step.effect steady).reports queue
      exact ⟨more, reports.events⟩
  case listeners =>
    intro queue contains
    cases turn with
    | receives threads idle received =>
        obtain ⟨before, subscription, -, -, rfl⟩ := Orderly.receive?_some received
        exact contains_insert (.inl contains)
    | @moves agent action reply system next threads moves answered =>
        obtain rfl : (WorkflowSystem.answer action world.system).2 = system :=
          congrArg Prod.snd answered
        exact listeners_answer action world.system contains
    | _ => exact contains

end World

/-! ## Records and stages -/

/-- Every record belongs to an accepted workflow and tells the truth. -/
structure Recorded (world : World) : Prop where
  keyed : world.system.records.Keyed
  rooted : ∀ id record, world.system.records.get? id = some record →
    ∃ added, Accepted world.journal id added ∧ record.rootKey = added.rootKey
  truth : ∀ id record, world.system.records.get? id = some record → record.isTerminal = true →
    Concluded world.system.queues record.rootKey record.status

/-- A record is to get a final status that is true of its root job. -/
def Due (world : World) (id : Uuid) (status : String) : Prop :=
  ∃ record, world.system.records.get? id = some record ∧
    Concluded world.system.queues record.rootKey status

/-- The root job of a record is that of an accepted workflow. -/
def Rooted (world : World) (record : WorkflowRecord) : Prop :=
  ∃ owner added, Accepted world.journal owner added ∧ record.rootKey = added.rootKey

namespace Stage

/-- What is true at a stage. -/
def Valid (world : World) : Stage → Prop
  | .listening id _ _ heard => world.system.records.get? id = none ∧
      ∀ queue ∈ heard, world.system.listeners.contains queue = true
  | .recording id _ _ => world.system.records.get? id = none
  | .finding queue event => event ∈ (world.system.queues.lane queue).events
  | .found record status => Due world record.id status.text
  | .checking id status | .writing id status => Due world id status.text
  | .judging id record => world.system.records.get? id = some record ∧ record.isTerminal = false
  | .owing id record status => world.system.records.get? id = some record ∧
      record.isTerminal = false ∧ ((WorkflowStatus.ofText status).isTerminal = true →
        Concluded world.system.queues record.rootKey status)
  | .rereading _ record | .viewing _ record => Rooted world record
  | .expired _ => False
  | .asking _ | .fetching _ | .leaving _ | .ended => True

/-- The record that does not change while others act. -/
def watches? : Stage → Option Uuid
  | .listening id _ _ _ | .recording id _ _ | .judging id _ | .owing id _ _ => some id
  | .finding _ _ | .found _ _ | .checking _ _ | .writing _ _ | .asking _ | .fetching _
  | .rereading _ _ | .viewing _ _ | .expired _ | .leaving _ | .ended => none

/-- The record that is about to get a final status. -/
def promises? : Stage → Option Uuid
  | .found record _ => some record.id
  | .checking id _ | .writing id _ => some id
  | .owing id _ status => if (WorkflowStatus.ofText status).isTerminal then some id else none
  | .listening _ _ _ _ | .recording _ _ _ | .finding _ _ | .asking _ | .fetching _ | .judging _ _
  | .rereading _ _ | .viewing _ _ | .expired _ | .leaving _ | .ended => none

end Stage

/-- How an agent treats the records. -/
inductive Keeping (world : World) (stage : Stage) : RecordStore → Prop
  | same : Keeping world stage world.system.records
  | inserts {id : Uuid} {tasks : List Task} {added : AddedFlow} {record : WorkflowRecord}
      (here : stage = .recording id tasks added) (named : record.id = id)
      (root : record.rootKey = added.rootKey) (isOpen : record.isTerminal = false) :
      Keeping world stage (world.system.records.insert record)
  | updates {id : Uuid} {old new : WorkflowRecord} (holds : stage.lock? = some id)
      (stored : world.system.records.get? id = some old) (named : new.id = id)
      (root : new.rootKey = old.rootKey) (final : old.isTerminal = true → new.isTerminal = true)
      (promised : new.isTerminal = true → stage.promises? = some id)
      (truth : new.isTerminal = true → Concluded world.system.queues new.rootKey new.status) :
      Keeping world stage (world.system.records.insert new)

/-- Whether an action can change a record. -/
def Action.writesRecords : Action → Bool
  | .insertRecord _ | .updateStatus _ _ | .deleteRecord _ => true
  | .getRecord _ | .findRecord _ _ | .addFlow _ | .jobState _ | .getFlow _ | .listen _ | .lock _
  | .unlock _ => false

section Keeping

variable {world : World} {stage later : Stage} {system : WorkflowSystem}

/-- An action that cannot change a record leaves all of them alone. -/
theorem records_answer {action : Action} (system : WorkflowSystem)
    (reads : action.writesRecords = false) :
    (WorkflowSystem.answer action system).2.records = system.records := by
  cases action with
  | insertRecord new => cases reads
  | updateStatus id status => cases reads
  | deleteRecord id => cases reads
  | listen queue =>
      show (system.listen queue).records = system.records
      unfold WorkflowSystem.listen
      split <;> rfl
  | _ => rfl

/-- A status is written to a record that is there. -/
theorem answer_updateStatus (system : WorkflowSystem) (id : Uuid) (status : String) :
    WorkflowSystem.answer (.updateStatus id status) system =
      match system.records.get? id with
      | some record => (.ok (), { system with
          records := system.records.insert { record with status, updatedAt := system.time } })
      | none => (.error .notFound, system) := by
  unfold WorkflowSystem.answer RecordStore.updateStatus
  dsimp only
  cases system.records.get? id <;> rfl

theorem keeping_updateStatus (recorded : Recorded world) {id : Uuid} {status : String}
    {reply : Except StoreError Unit}
    (answered : WorkflowSystem.answer (.updateStatus id status) world.system = (reply, system))
    (holds : stage.lock? = some id)
    (final : ∀ record, world.system.records.get? id = some record → record.isTerminal = true →
      (WorkflowStatus.ofText status).isTerminal = true)
    (promised : (WorkflowStatus.ofText status).isTerminal = true → stage.promises? = some id)
    (truth : ∀ record, world.system.records.get? id = some record →
      (WorkflowStatus.ofText status).isTerminal = true →
      Concluded world.system.queues record.rootKey status) :
    Keeping world stage system.records := by
  rw [answer_updateStatus] at answered
  cases stored : world.system.records.get? id with
  | none =>
      rw [stored] at answered
      cases answered
      exact .same
  | some record =>
      rw [stored] at answered
      cases answered
      have named : record.id = id := recorded.keyed.id_eq stored
      exact .updates holds stored named rfl (final record stored) promised (truth record stored)

/-- Whoever holds no lock writes no record but that of its own submission. -/
theorem Stage.Moves.keeping {action : Action} {reply : action.Reply}
    (moves : stage.Moves ⟨action, reply⟩ later)
    (answered : WorkflowSystem.answer action world.system = (reply, system))
    (recorded : Recorded world) (valid : stage.Valid world) :
    Keeping world stage system.records := by
  have unchanged : action.writesRecords = false → Keeping world stage system.records := by
    intro reads
    obtain rfl : (WorkflowSystem.answer action world.system).2 = system :=
      congrArg Prod.snd answered
    rw [records_answer world.system reads]
    exact .same
  cases moves with
  | recorded id tasks added reply =>
      cases answered
      exact .inserts rfl rfl rfl rfl
  | writes id status reply =>
      have terminal : (WorkflowStatus.ofText status.text).isTerminal = true := by
        obtain ⟨record, -, concluded⟩ := valid
        exact concluded.terminal
      apply keeping_updateStatus recorded answered rfl
      · exact fun _ _ _ => terminal
      · exact fun _ => rfl
      · intro record stored _
        obtain ⟨found, isFound, concluded⟩ := valid
        cases stored.symm.trans isFound
        exact concluded
  | pays id record status =>
      obtain ⟨stored, isOpen, truth⟩ := valid
      have named := recorded.keyed.id_eq stored
      rw [named] at answered
      apply keeping_updateStatus recorded answered rfl
      · intro found isFound final
        cases stored.symm.trans isFound
        rw [isOpen] at final
        cases final
      · exact fun terminal => if_pos terminal
      · intro found isFound terminal
        cases stored.symm.trans isFound
        exact truth terminal
  | paysInVain id record status problem =>
      obtain ⟨stored, isOpen, truth⟩ := valid
      have named := recorded.keyed.id_eq stored
      rw [named] at answered
      apply keeping_updateStatus recorded answered rfl
      · intro found isFound final
        cases stored.symm.trans isFound
        rw [isOpen] at final
        cases final
      · exact fun terminal => if_pos terminal
      · intro found isFound terminal
        cases stored.symm.trans isFound
        exact truth terminal
  | deletes id reply => exact absurd valid not_false
  | _ => exact unchanged rfl

namespace Keeping

variable {records : RecordStore} {id : Uuid} {record : WorkflowRecord}

theorem keyed (keeping : Keeping world stage records) (keyed : world.system.records.Keyed) :
    records.Keyed := by
  cases keeping with
  | same => exact keyed
  | inserts here named root isOpen => exact keyed.insert _
  | updates holds stored named root final promised truth => exact keyed.insert _

/-- A record stays, with its root job, and a final status stays final. -/
theorem stays (keeping : Keeping world stage records) (valid : stage.Valid world)
    (stored : world.system.records.get? id = some record) :
    ∃ new, records.get? id = some new ∧ new.rootKey = record.rootKey ∧
      (record.isTerminal = true → new.isTerminal = true) := by
  cases keeping with
  | same => exact ⟨record, stored, rfl, fun final => final⟩
  | @inserts owner tasks added new here named root isOpen =>
      rw [here] at valid
      have different : id ≠ new.id := by
        intro same
        rw [same, named] at stored
        exact (Option.some_ne_none _ (stored.symm.trans valid)).elim
      refine ⟨record, ?_, rfl, fun final => final⟩
      rw [RecordStore.get?_insert, if_neg different]
      exact stored
  | @updates owner old new holds found named root final promised truth =>
      rw [RecordStore.get?_insert]
      by_cases same : id = new.id
      · rw [if_pos same]
        rw [same, named] at stored
        cases found.symm.trans stored
        exact ⟨new, rfl, root, final⟩
      · rw [if_neg same]
        exact ⟨record, stored, rfl, fun final => final⟩

/-- Where a record comes from. -/
theorem origin (keeping : Keeping world stage records) {new : WorkflowRecord}
    (stored : records.get? id = some new) :
    (∃ old, world.system.records.get? id = some old ∧ new.rootKey = old.rootKey) ∨
      ∃ tasks added, stage = .recording id tasks added ∧ new.rootKey = added.rootKey := by
  cases keeping with
  | same => exact .inl ⟨new, stored, rfl⟩
  | @inserts owner tasks added inserted here named root isOpen =>
      rw [RecordStore.get?_insert] at stored
      split at stored
      · next same =>
          cases stored
          exact .inr ⟨tasks, added, same.trans named ▸ here, root⟩
      · exact .inl ⟨new, stored, rfl⟩
  | @updates owner old written holds found named root final promised truth =>
      rw [RecordStore.get?_insert] at stored
      split at stored
      · next same =>
          cases stored
          exact .inl ⟨old, same.trans named ▸ found, root⟩
      · exact .inl ⟨new, stored, rfl⟩

/-- What a record says is true if it was so before. -/
theorem truth (keeping : Keeping world stage records) (recorded : Recorded world)
    (stored : records.get? id = some record) (final : record.isTerminal = true) :
    Concluded world.system.queues record.rootKey record.status := by
  cases keeping with
  | same => exact recorded.truth id record stored final
  | @inserts owner tasks added inserted here named root isOpen =>
      rw [RecordStore.get?_insert] at stored
      split at stored
      · cases stored
        rw [isOpen] at final
        cases final
      · exact recorded.truth id record stored final
  | @updates owner old written holds found named root _ _ truth =>
      rw [RecordStore.get?_insert] at stored
      split at stored
      · cases stored
        exact truth final
      · exact recorded.truth id record stored final

end Keeping

end Keeping

end Relay
