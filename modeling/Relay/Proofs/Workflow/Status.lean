import Relay.Proofs.Queue.Finality
import Relay.Proofs.Workflow.Service

/-!
# The status of a record is the end of its root job

Two writers give a record its status, the listener of a queue and whoever reads the
workflow.  That they never contradict each other rests on the queues announcing every job
once.  That no end is missed rests on the listener: a queue is followed before the root job
of a record is accepted there, and whatever the listener has passed has left its mark.
-/

namespace Relay

namespace Service

variable {settings : Dict QueueSettings} {service between after later : Service}

/-! ## Listeners leave their mark -/

/-- The queue of a record is followed, and what its listener has passed left its mark. -/
structure Attentive (service : Service) : Prop where
  followed : ∀ id record, service.record? id = some record →
    ∃ listener, service.listener? record.queueName = some listener
  within : ∀ queue listener, service.listener? queue = some listener →
    listener.position ≤ (service.events queue).length
  heard : ∀ id record, service.record? id = some record →
    ∀ listener, service.listener? record.queueName = some listener →
      ∀ index event, index < listener.position →
        (service.events record.queueName)[index]? = some event →
          event.jobId = record.rootJobId → record.isTerminal = true

theorem Attentive.start (routing : Routing) (settings : Dict QueueSettings) :
    Attentive (.start routing settings) where
  followed _ record stored := (Option.some_ne_none record stored.symm).elim
  within _ listener found := (Option.some_ne_none listener found.symm).elim
  heard _ record stored := (Option.some_ne_none record stored.symm).elim

/-- Where listeners and events stay, only records that are new or have changed matter. -/
theorem Attentive.of_records (attentive : Attentive service) {records : RecordStore}
    (given : List Uuid) (origin : ∀ id record, records.get? id = some record →
      (∃ before, service.record? id = some before ∧ record.rootKey = before.rootKey ∧
        (before.isTerminal = true → record.isTerminal = true)) ∨
      (∃ listener, service.listener? record.queueName = some listener) ∧
        ∀ event ∈ service.events record.queueName, event.jobId ≠ record.rootJobId) :
    Attentive ⟨{ service.system with records }, given⟩ where
  followed id record stored := by
    rcases origin id record stored with ⟨before, wasStored, root, -⟩ | ⟨followed, -⟩
    · rw [show record.queueName = before.queueName from congrArg JobKey.queue root]
      exact attentive.followed id before wasStored
    · exact followed
  within := attentive.within
  heard id record stored listener found index event passed isEvent named := by
    rcases origin id record stored with ⟨before, wasStored, root, final⟩ | ⟨-, silent⟩
    · have queue : record.queueName = before.queueName := congrArg JobKey.queue root
      have job : record.rootJobId = before.rootJobId := congrArg JobKey.id root
      rw [queue] at found isEvent
      exact final (attentive.heard id before wasStored listener found index event passed isEvent
        (named.trans job))
    · exact absurd named (silent event (List.mem_of_getElem? isEvent))

/-- Events are only added behind those that listeners have passed. -/
theorem Attentive.works (attentive : Attentive service) {queues : Queues}
    (grows : ∀ queue, ∃ more, (queues.lane queue).events = service.events queue ++ more) :
    Attentive { service with system := { service.system with queues } } where
  followed := attentive.followed
  within queue listener found := by
    obtain ⟨more, events⟩ := grows queue
    show _ ≤ (queues.lane queue).events.length
    rw [events, List.length_append]
    exact Nat.le_trans (attentive.within queue listener found) (Nat.le_add_right _ _)
  heard id record stored listener found index event passed isEvent named := by
    obtain ⟨more, events⟩ := grows record.queueName
    have isEvent : (queues.lane record.queueName).events[index]? = some event := isEvent
    rw [events] at isEvent
    have old := Delivered.getElem?_of_lt isEvent
      (Nat.lt_of_lt_of_le passed (attentive.within _ listener found))
    exact attentive.heard id record stored listener found index event passed old named

/-- A listener begins or moves on. -/
theorem Attentive.moves (attentive : Attentive service) {queue : String} {listener : Subscription}
    (within : listener.position ≤ (service.events queue).length)
    (heard : ∀ id record, service.record? id = some record → record.queueName = queue →
      ∀ index event, index < listener.position → (service.events queue)[index]? = some event →
        event.jobId = record.rootJobId → record.isTerminal = true) :
    Attentive { service with system := { service.system with
      listeners := service.system.listeners.insert queue listener } } := by
  have look : ∀ other, (service.system.listeners.insert queue listener).get? other =
      if other = queue then some listener else service.listener? other :=
    fun other => Dict.get?_insert _ _ _ _
  constructor
  case followed =>
    intro id record stored
    show ∃ found, (service.system.listeners.insert queue listener).get? _ = some found
    rw [look]
    split
    · exact ⟨listener, rfl⟩
    · exact attentive.followed id record stored
  case within =>
    intro other found isFound
    have isFound : (service.system.listeners.insert queue listener).get? other = some found :=
      isFound
    rw [look] at isFound
    split at isFound
    · next same =>
        cases isFound
        exact same ▸ within
    · exact attentive.within other found isFound
  case heard =>
    intro id record stored found isFound index event passed isEvent named
    have isFound : (service.system.listeners.insert queue listener).get? record.queueName =
      some found := isFound
    rw [look] at isFound
    split at isFound
    · next same =>
        cases isFound
        exact heard id record stored same index event passed (same ▸ isEvent) named
    · exact attentive.heard id record stored found isFound index event passed isEvent named

theorem Attentive.edit (attentive : Attentive service) (consistent : Consistent settings service)
    (edit : Edit service after) : Attentive after := by
  cases edit with
  | works step =>
      apply attentive.works
      intro queue
      obtain ⟨more, reports⟩ := (step.effect consistent.reached.steady).reports queue
      exact ⟨more, reports.events⟩
  | @follows queue unknown =>
      apply attentive.moves (Nat.le_refl _)
      intro id record stored same
      obtain ⟨listener, found⟩ := attentive.followed id record stored
      rw [same, unknown] at found
      cases found
  | gives id => exact ⟨attentive.followed, attentive.within, attentive.heard⟩
  | enters enters =>
      apply attentive.of_records
      intro id record stored
      rcases new_or_stored stored with ⟨-, rfl⟩ | before
      · exact .inr ⟨enters.followed, enters.silent⟩
      · exact .inl ⟨record, before, rfl, fun final => final⟩
  | rewrites stored rewrites =>
      apply attentive.of_records
      exact fun id record isStored => .inl (consistent.stored_of_rewrite stored rewrites isStored)
  | deletes deleted =>
      apply attentive.of_records
      exact fun id record stored =>
        .inl ⟨record, stored_of_delete deleted stored, rfl, fun final => final⟩
  | @passes queue listener event followed next noted =>
      have below : listener.position < (service.events queue).length :=
        (List.getElem?_eq_some_iff.1 next).1
      apply attentive.moves below
      intro id record stored same index other passed isEvent named
      -- Of what is passed only the last event is new, and its record was written.
      rcases Nat.lt_succ_iff_lt_or_eq.1 passed with earlier | rfl
      · exact attentive.heard id record stored listener (same ▸ followed) index other earlier
          (same ▸ isEvent) named
      · cases next.symm.trans isEvent
        apply noted id record stored
        unfold WorkflowRecord.rootKey
        rw [same, named]

theorem Attentive.edits (attentive : Attentive service) (consistent : Consistent settings service)
    (edits : Edits service after) : Attentive after := by
  induction edits with
  | refl => exact attentive
  | tail before edit ih => exact ih.edit (consistent.edits before) edit

/-! ## Final statuses stay -/

/-- An identifier belongs to the same record as before, or to none, and a final status is
still the same. -/
structure Evolves (service after : Service) : Prop where
  given : ∀ id ∈ service.given, id ∈ after.given
  origin : ∀ id ∈ service.given, ∀ new, after.record? id = some new →
    ∃ old, service.record? id = some old ∧ (old.isTerminal = true → new.status = old.status)

theorem Evolves.refl (service : Service) : Evolves service service :=
  ⟨fun _ member => member, fun _ _ new stored => ⟨new, stored, fun _ => rfl⟩⟩

theorem Evolves.trans (first : Evolves service between) (second : Evolves between after) :
    Evolves service after where
  given id member := second.given id (first.given id member)
  origin id member new stored := by
    obtain ⟨middle, storedBetween, sameLater⟩ := second.origin id (first.given id member) new stored
    obtain ⟨old, before, same⟩ := first.origin id member middle storedBetween
    refine ⟨old, before, fun final => ?_⟩
    have status := same final
    have finalBetween : middle.isTerminal = true := by
      unfold WorkflowRecord.isTerminal
      rw [status]
      exact final
    exact (sameLater finalBetween).trans status

/-- What was announced of a job is one thing only. -/
theorem Told.unique {queues : Queues} (once : queues.AnnouncedOnce) {key : JobKey}
    {text other : String} (told : Told queues key text) (again : Told queues key other) :
    text = other := by
  obtain ⟨event, member, named, rfl⟩ := told
  obtain ⟨second, memberAgain, namedAgain, rfl⟩ := again
  have injective := List.inj_on_of_nodup_map (once key.queue)
  rw [injective member memberAgain (named.trans namedAgain.symm)]

theorem Evolves.edit (consistent : Consistent settings service) (edit : Edit service after) :
    Evolves service after := by
  have same := Evolves.refl service
  cases edit with
  | works step => exact ⟨same.given, same.origin⟩
  | follows unknown => exact ⟨same.given, same.origin⟩
  | gives id => exact ⟨fun _ member => List.mem_cons_of_mem _ member, same.origin⟩
  | enters enters =>
      refine ⟨fun _ member => List.mem_cons_of_mem _ member, fun id member new stored => ?_⟩
      rcases new_or_stored stored with ⟨rfl, -⟩ | before
      · exact absurd member enters.fresh
      · exact same.origin id member new before
  | @rewrites id old new stored rewrites =>
      refine ⟨same.given, fun other member found isStored => ?_⟩
      have isStored : (service.system.records.insert new).get? other = some found := isStored
      rw [consistent.rewritten stored rewrites.id] at isStored
      split at isStored
      · next here =>
          cases isStored
          refine ⟨old, here ▸ stored, fun final => ?_⟩
          -- Both statuses were announced of the root job, and it is announced once.
          have told := rewrites.told (rewrites.final final)
          rw [rewrites.root] at told
          exact told.unique consistent.reached.announcedOnce (consistent.truth id old stored final)
      · exact same.origin other member found isStored
  | deletes deleted =>
      exact ⟨same.given, fun id member new stored =>
        same.origin id member new (stored_of_delete deleted stored)⟩
  | passes followed next noted => exact ⟨same.given, same.origin⟩

theorem Evolves.edits (consistent : Consistent settings service) (edits : Edits service after) :
    Evolves service after := by
  induction edits with
  | refl => exact .refl service
  | tail before edit ih => exact ih.trans (.edit (consistent.edits before) edit)

theorem Evolves.step (consistent : Consistent settings service) (step : Step service after) :
    Evolves service after := by
  rcases step.edits consistent with edits | ⟨behind, listener⟩
  · exact .edits consistent edits
  · exact ⟨(Evolves.refl service).given, (Evolves.refl service).origin⟩

/-! ## Runs -/

theorem Leads.consistent (leads : service.Leads later) (consistent : Consistent settings service) :
    Consistent settings later := by
  induction leads with
  | refl => exact consistent
  | tail _ step ih => exact ih.step step

theorem Leads.evolves (leads : service.Leads later) (consistent : Consistent settings service) :
    Evolves service later := by
  induction leads with
  | refl => exact .refl service
  | tail before step ih => exact ih.trans (.step (Leads.consistent before consistent) step)

namespace Reachable

variable {routing : Routing}

theorem keepsUp (reached : Reachable routing settings service) : service.KeepsUp := by
  cases reached with
  | start => exact fun _ listener found => (Option.some_ne_none listener found.symm).elim
  | step _ _ keepsUp => exact keepsUp

theorem consistent (reached : Reachable routing settings service) :
    Consistent settings service := by
  induction reached with
  | start => exact .start routing settings
  | step _ step _ ih => exact ih.step step

theorem attentive (reached : Reachable routing settings service) : Attentive service := by
  induction reached with
  | start => exact .start routing settings
  | step before step _ ih =>
      rcases step.edits before.consistent with edits | ⟨behind, listener⟩
      · exact ih.edits before.consistent edits
      · exact absurd before.keepsUp behind

end Reachable

/-! ## The status of a record -/

/-- A listener that receives nothing has passed all events. -/
theorem passed_of_receive?_none {queue : String} {listener : Subscription}
    (followed : service.listener? queue = some listener)
    (nothing : service.system.receive? queue = none) :
    (service.events queue).length ≤ listener.position := by
  have found : service.system.listeners.get? queue = some listener := followed
  unfold WorkflowSystem.receive? at nothing
  rw [found, Option.bind_some, Option.map_eq_none_iff] at nothing
  unfold Subscription.receive? at nothing
  dsimp only at nothing
  split at nothing
  · cases nothing
  · exact List.getElem?_eq_none_iff.1 (Option.map_eq_none_iff.1 nothing)

/-- When all events are delivered, the record of a finished root job has its state. -/
theorem current_of_delivered (consistent : Consistent settings service)
    (attentive : Attentive service) (delivered : ∀ queue, service.system.receive? queue = none)
    {id : Uuid} {record : WorkflowRecord} (stored : service.record? id = some record) {job : Job}
    (isJob : service.system.queues.job? record.rootKey = some job)
    (finished : job.state.isFinished = true) : record.status = job.state.text := by
  obtain ⟨event, member, named, text⟩ := told_of_finished consistent.reached.announced isJob finished
  obtain ⟨index, below, isEvent⟩ := List.mem_iff_getElem.1 member
  obtain ⟨listener, followed⟩ := attentive.followed id record stored
  have passed := passed_of_receive?_none followed (delivered record.queueName)
  have final := attentive.heard id record stored listener followed index event
    (Nat.lt_of_lt_of_le below passed) (isEvent ▸ List.getElem?_eq_getElem below) named
  exact (consistent.truth id record stored final).unique consistent.reached.announcedOnce
    ⟨event, member, named, text⟩

/-- Handling an event changes no record but the one of the job that it is about. -/
theorem root_of_changed (consistent : Consistent settings service) {queue : String}
    {event : QueueEvent} {moved system : WorkflowSystem}
    (received : service.system.receive? queue = some (.event event, moved))
    (delivered : service.system.deliver? queue = some system) {id : Uuid}
    (changed : system.records.get? id ≠ service.record? id) :
    ∃ record, service.record? id = some record ∧ record.rootKey = ⟨queue, event.jobId⟩ := by
  unfold WorkflowSystem.deliver? at delivered
  rw [received, Option.map_some] at delivered
  obtain ⟨listener, subscription, followed, -, rfl⟩ := Orderly.receive?_some received
  have handled := run_handle { service.system with
    listeners := service.system.listeners.insert queue subscription } consistent.keyed queue event
  obtain rfl := Option.some.inj delivered
  dsimp only at handled changed
  rw [WorkflowSystem.perform, WorkflowSystem.react, handled] at changed
  cases found : service.system.records.findByRoot? queue event.jobId with
  | none =>
      rw [found] at changed
      exact absurd rfl changed
  | some record =>
      rw [found] at changed
      obtain ⟨stored, root⟩ := consistent.keyed.findByRoot? found
      have look := RecordStore.get?_insert service.system.records { record with
        status := (Tracking.statusOf event).text, updatedAt := service.system.time } id
      by_cases same : id = record.id
      · exact ⟨record, same ▸ stored, root⟩
      · rw [if_neg same] at look
        exact absurd look changed

/-- The status of every record follows the end of its root job. -/
structure Tracked (service : Service) : Prop where
  /-- When all events are delivered, the record of a finished root job has its state. -/
  current : (∀ queue, service.system.receive? queue = none) →
    ∀ id record, service.record? id = some record →
      ∀ job, service.system.queues.job? record.rootKey = some job →
        job.state.isFinished = true → record.status = job.state.text
  /-- A final status never changes. -/
  final : ∀ id record, service.record? id = some record → record.isTerminal = true →
    ∀ later, service.Leads later → ∀ new, later.record? id = some new →
      new.status = record.status
  /-- An event changes no record but the one of the job that it is about. -/
  own : ∀ queue event moved, service.system.receive? queue = some (.event event, moved) →
    ∀ system, service.system.deliver? queue = some system →
      ∀ id, system.records.get? id ≠ service.record? id →
        ∃ record, service.record? id = some record ∧ record.rootKey = ⟨queue, event.jobId⟩
  /-- A deleted record never comes back. -/
  gone : ∀ id record, service.record? id = some record → ∀ after, Step service after →
    after.record? id = none → ∀ later, after.Leads later → later.record? id = none

/-- The status of every record follows the end of its root job, in every run in which the
listeners keep up. -/
theorem status_tracks_root {routing : Routing} (reached : Reachable routing settings service) :
    Tracked service := by
  have consistent := reached.consistent
  have attentive := reached.attentive
  constructor
  case current =>
    intro delivered id record stored job isJob finished
    exact current_of_delivered consistent attentive delivered stored isJob finished
  case final =>
    intro id record stored final later leads new storedLater
    obtain ⟨old, before, same⟩ := (leads.evolves consistent).origin id
      (consistent.given id record stored) new storedLater
    cases stored.symm.trans before
    exact same final
  case own =>
    intro queue event moved received system delivered id changed
    exact root_of_changed consistent received delivered changed
  case gone =>
    intro id record stored after step deleted later leads
    have given := (Evolves.step consistent step).given id (consistent.given id record stored)
    rw [Option.eq_none_iff_forall_ne_some]
    intro new storedLater
    obtain ⟨old, before, -⟩ := (leads.evolves (consistent.step step)).origin id given new storedLater
    cases deleted.symm.trans before

/-- A workflow of a single step. -/
def Sample.tasks : List Task := [Task.plain "only" "work"]

/-- The call for the single step. -/
def Sample.call : Call :=
  { key := ⟨"default", jobIdOf 0⟩, name := "only"
    data := (StepData.ofTask (Task.plain "only" "work") (Uuid.ofNat 7)).toJson, attempt := 1
    maxAttempts := 3, children := .empty, startedAt := 0 }

/-- The step fails for good, and its event is delivered. -/
def Sample.moves : List Move :=
  .submit (Uuid.ofNat 7) Sample.tasks :: .work (.startWorker "default") ::
    .replicate 3 (.work (.advance "default")) ++
    [.work (.finish Sample.call (.error (.unrecoverable "broken"))), .deliver "default"]

/-- The service before the workflow is submitted. -/
def Sample.before : Service := .start { queues := .empty, defaultQueue := "default" } .empty

theorem status_tracks_root_failed : ∃ service, follow? Sample.moves Sample.before = some service ∧
    (service.record? (Uuid.ofNat 7)).map WorkflowRecord.status = some "failed" ∧
      Tracked service := by
  have status : (follow? Sample.moves Sample.before).map
      (fun service => (service.record? (Uuid.ofNat 7)).map WorkflowRecord.status) =
        some (some "failed") := by decide +kernel
  obtain ⟨service, followed, same⟩ := Option.map_eq_some_iff.1 status
  exact ⟨service, followed, same, status_tracks_root (reachable_follow? .start followed)⟩

end Service

end Relay
