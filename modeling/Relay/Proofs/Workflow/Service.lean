import Mathlib.Logic.Relation
import Relay.Proofs.Workflow.Delivery

/-!
# Runs of the workflow system

Requests, listeners and the queues act one after another, each without interruption and in
any order.  Whatever a step does can be done by a few simple edits of the records, the
listeners and the queues, one after another, so an invariant has to be checked for the
edits only.
-/

namespace Relay

/-- A workflow system with the identifiers that were given to workflows, accepted or not. -/
structure Service where
  system : WorkflowSystem
  given : List Uuid

namespace Service

/-- The record with an identifier. -/
def record? (service : Service) (id : Uuid) : Option WorkflowRecord :=
  service.system.records.get? id

/-- The events of a queue. -/
def events (service : Service) (queue : String) : List QueueEvent :=
  (service.system.queues.lane queue).events

/-- How far the listener of a queue has read. -/
def listener? (service : Service) (queue : String) : Option Subscription :=
  service.system.listeners.get? queue

/-- A service before anything is submitted. -/
def start (routing : Routing) (settings : Dict QueueSettings) : Service :=
  ⟨.start routing settings, []⟩

/-- No listener is further behind than a queue holds events for. -/
def KeepsUp (service : Service) : Prop :=
  ∀ queue listener, service.listener? queue = some listener →
    (service.events queue).length ≤ listener.position + Subscription.capacity

/-- One step of a service. -/
inductive Step (service : Service) : Service → Prop where
  /-- Something happens to the queues. -/
  | works {act : Queues.Act} {queues : Queues}
      (step : Queues.Step service.system.queues act queues) :
      Step service { service with system := { service.system with queues } }
  /-- All queues that tasks are routed to are followed. -/
  | listens : Step service { service with system := service.system.listenToRouted }
  | submits {id : Uuid} (tasks : List Task) (fresh : id ∉ service.given) :
      Step service ⟨(service.system.submit id tasks).2, id :: service.given⟩
  | submitsTemplate {id : Uuid} (name : String) (parameters : Json) (fresh : id ∉ service.given) :
      Step service ⟨(service.system.submitTemplate id name parameters).2, id :: service.given⟩
  | reads (id : Uuid) : Step service { service with system := (service.system.read id).2 }
  /-- The listener of a queue receives what comes next and handles it. -/
  | delivers {queue : String} {system : WorkflowSystem}
      (delivered : service.system.deliver? queue = some system) :
      Step service { service with system }

/-- The services that can be reached while all listeners keep up. -/
inductive Reachable (routing : Routing) (settings : Dict QueueSettings) : Service → Prop where
  | start : Reachable routing settings (.start routing settings)
  | step {service after : Service} (reached : Reachable routing settings service)
      (step : Step service after) (keepsUp : after.KeepsUp) : Reachable routing settings after

/-- Some steps lead from one service to another. -/
def Leads : Service → Service → Prop := Relation.ReflTransGen Step

/-! ## Records that tell the truth -/

/-- The end of a job was announced, and it was an end of the given name. -/
def Told (queues : Queues) (key : JobKey) (text : String) : Prop :=
  ∃ event ∈ (queues.lane key.queue).events, event.jobId = key.id ∧
    (Tracking.statusOf event).text = text

/-- Every record belongs to a root job of its own, and a final status of it was announced. -/
structure Consistent (settings : Dict QueueSettings) (service : Service) : Prop where
  reached : Queues.Reachable settings service.system.queues
  keyed : service.system.records.Keyed
  given : ∀ id record, service.record? id = some record → id ∈ service.given
  born : ∀ id record, service.record? id = some record →
    service.system.queues.view.Born record.rootKey
  distinct : ∀ id other record otherRecord, service.record? id = some record →
    service.record? other = some otherRecord → record.rootKey = otherRecord.rootKey → id = other
  truth : ∀ id record, service.record? id = some record → record.isTerminal = true →
    Told service.system.queues record.rootKey record.status

/-! ## Edits -/

/-- A record may be stored for a new workflow whose root job was just accepted. -/
structure Enters (service : Service) (record : WorkflowRecord) : Prop where
  fresh : record.id ∉ service.given
  born : service.system.queues.view.Born record.rootKey
  own : ∀ id other, service.record? id = some other → other.rootKey ≠ record.rootKey
  /-- Nothing was announced of the root job yet. -/
  silent : ∀ event ∈ service.events record.queueName, event.jobId ≠ record.rootJobId
  followed : ∃ listener, service.listener? record.queueName = some listener
  active : record.isTerminal = false

/-- A record may be stored in the place of another. -/
structure Rewrites (queues : Queues) (old new : WorkflowRecord) : Prop where
  id : new.id = old.id
  root : new.rootKey = old.rootKey
  final : old.isTerminal = true → new.isTerminal = true
  told : new.isTerminal = true → Told queues new.rootKey new.status

/-- What steps are made of. -/
inductive Edit (service : Service) : Service → Prop where
  | works {act : Queues.Act} {queues : Queues}
      (step : Queues.Step service.system.queues act queues) :
      Edit service { service with system := { service.system with queues } }
  | follows {queue : String} (unknown : service.listener? queue = none) :
      Edit service { service with system := { service.system with
        listeners := service.system.listeners.insert queue (.after (service.events queue)) } }
  | gives (id : Uuid) : Edit service { service with given := id :: service.given }
  | enters {record : WorkflowRecord} (enters : Enters service record) :
      Edit service ⟨{ service.system with records := service.system.records.insert record },
        record.id :: service.given⟩
  | rewrites {id : Uuid} {old new : WorkflowRecord} (stored : service.record? id = some old)
      (rewrites : Rewrites service.system.queues old new) :
      Edit service { service with system := { service.system with
        records := service.system.records.insert new } }
  | deletes {id : Uuid} {records : RecordStore}
      (deleted : service.system.records.delete id = .ok records) :
      Edit service { service with system := { service.system with records } }
  /-- A listener moves past an event that it has handled. -/
  | passes {queue : String} {listener : Subscription} {event : QueueEvent}
      (followed : service.listener? queue = some listener)
      (next : (service.events queue)[listener.position]? = some event)
      (noted : ∀ id record, service.record? id = some record →
        record.rootKey = ⟨queue, event.jobId⟩ → record.isTerminal = true) :
      Edit service { service with system := { service.system with
        listeners := service.system.listeners.insert queue ⟨listener.position + 1⟩ } }

/-- A listener that is too far behind passes over what is no longer held. -/
inductive Lags (service : Service) : Service → Prop where
  | skips {queue : String} (behind : ¬ service.KeepsUp) (listener : Subscription) :
      Lags service { service with system := { service.system with
        listeners := service.system.listeners.insert queue listener } }

/-- Several edits. -/
def Edits : Service → Service → Prop := Relation.ReflTransGen Edit

section Running

variable {settings : Dict QueueSettings} {service between after : Service}

theorem Edit.edits (edit : Edit service after) : Edits service after := .single edit

theorem Edits.trans (first : Edits service between) (second : Edits between after) :
    Edits service after := Relation.ReflTransGen.trans first second

/-! ### Following queues -/

theorem edits_listen (service : Service) (queue : String) :
    Edits service { service with system := service.system.listen queue } := by
  unfold WorkflowSystem.listen
  split
  · exact .refl
  · next absent =>
      have unknown : service.listener? queue = none := by
        unfold Dict.contains at absent
        exact Option.not_isSome_iff_eq_none.1 absent
      exact (Edit.follows unknown).edits.trans (Edit.works (.touch queue)).edits

theorem edits_listenAll (service : Service) (queues : List String) :
    Edits service { service with system := queues.foldl WorkflowSystem.listen service.system } := by
  induction queues generalizing service with
  | nil => exact .refl
  | cons queue rest ih => exact (edits_listen service queue).trans (ih _)

theorem listener_listen (system : WorkflowSystem) {queue other : String}
    (followed : system.listeners.contains other = true ∨ other = queue) :
    (system.listen queue).listeners.contains other = true := by
  unfold WorkflowSystem.listen
  split
  · next already =>
      rcases followed with before | rfl
      · exact before
      · exact already
  · exact contains_insert followed

theorem listener_listenAll (system : WorkflowSystem) {queues : List String} {queue : String}
    (followed : system.listeners.contains queue = true ∨ queue ∈ queues) :
    (queues.foldl WorkflowSystem.listen system).listeners.contains queue = true := by
  induction queues generalizing system with
  | nil => exact followed.resolve_right List.not_mem_nil
  | cons head rest ih =>
      apply ih
      rcases followed with before | member
      · exact .inl (listener_listen system (.inl before))
      · rcases List.mem_cons.1 member with rfl | later
        · exact .inl (listener_listen system (.inr rfl))
        · exact .inr later

theorem run_listenAll (queues : List String) (system : WorkflowSystem) :
    (Submission.listenAll queues).run WorkflowSystem.answer system =
      ((), queues.foldl WorkflowSystem.listen system) := by
  induction queues generalizing system with
  | nil => rfl
  | cons queue rest ih => exact ih _

/-! ### Edits keep records consistent -/

theorem Told.mono {queues later : Queues} {act : Queues.Act} {key : JobKey} {text : String}
    (told : Told queues key text) (effect : Queues.Effect queues later act) :
    Told later key text := by
  obtain ⟨event, member, named, same⟩ := told
  obtain ⟨more, reports⟩ := effect.reports key.queue
  refine ⟨event, ?_, named, same⟩
  rw [reports.events]
  exact List.mem_append_left more member

theorem Consistent.start (routing : Routing) (settings : Dict QueueSettings) :
    Consistent settings (.start routing settings) where
  reached := .start
  keyed := RecordStore.keyed_empty
  given _ record stored := (Option.some_ne_none record stored.symm).elim
  born _ record stored := (Option.some_ne_none record stored.symm).elim
  distinct _ _ record _ stored := (Option.some_ne_none record stored.symm).elim
  truth _ record stored := (Option.some_ne_none record stored.symm).elim

/-- What is stored beside a new record was stored before. -/
theorem new_or_stored {record found : WorkflowRecord} {id : Uuid}
    (stored : (service.system.records.insert record).get? id = some found) :
    id = record.id ∧ found = record ∨ service.record? id = some found := by
  rw [RecordStore.get?_insert] at stored
  split at stored
  · next same => exact .inl ⟨same, (Option.some.inj stored).symm⟩
  · exact .inr stored

theorem stored_of_delete {records : RecordStore} {id other : Uuid} {found : WorkflowRecord}
    (deleted : service.system.records.delete id = .ok records)
    (stored : records.get? other = some found) : service.record? other = some found := by
  rw [RecordStore.get?_of_delete deleted] at stored
  split at stored
  · cases stored
  · exact stored

theorem Consistent.enters {record : WorkflowRecord} (consistent : Consistent settings service)
    (enters : Enters service record) :
    Consistent settings ⟨{ service.system with records := service.system.records.insert record },
      record.id :: service.given⟩ := by
  constructor
  case reached => exact consistent.reached
  case keyed => exact consistent.keyed.insert record
  case given =>
    intro id found stored
    rcases new_or_stored stored with ⟨rfl, -⟩ | before
    · exact List.mem_cons_self
    · exact List.mem_cons_of_mem _ (consistent.given id found before)
  case born =>
    intro id found stored
    rcases new_or_stored stored with ⟨-, rfl⟩ | before
    · exact enters.born
    · exact consistent.born id found before
  case distinct =>
    intro id other found otherFound stored otherStored same
    rcases new_or_stored stored with ⟨rfl, rfl⟩ | before
    · rcases new_or_stored otherStored with ⟨rfl, -⟩ | otherBefore
      · rfl
      · exact absurd same.symm (enters.own other otherFound otherBefore)
    · rcases new_or_stored otherStored with ⟨-, rfl⟩ | otherBefore
      · exact absurd same (enters.own id found before)
      · exact consistent.distinct id other found otherFound before otherBefore same
  case truth =>
    intro id found stored final
    rcases new_or_stored stored with ⟨-, rfl⟩ | before
    · cases enters.active.symm.trans final
    · exact consistent.truth id found before final

/-- What is stored after a record was replaced. -/
theorem Consistent.rewritten {id : Uuid} {old new : WorkflowRecord}
    (consistent : Consistent settings service) (stored : service.record? id = some old)
    (same : new.id = old.id) (other : Uuid) :
    (service.system.records.insert new).get? other =
      if other = id then some new else service.record? other := by
  rw [RecordStore.get?_insert, same, consistent.keyed.id_eq stored]
  rfl

/-- What is stored beside a rewritten record was stored before, with the same root job, and a
final status is still final. -/
theorem Consistent.stored_of_rewrite {id other : Uuid} {old new found : WorkflowRecord}
    (consistent : Consistent settings service) (stored : service.record? id = some old)
    (rewrites : Rewrites service.system.queues old new)
    (isStored : (service.system.records.insert new).get? other = some found) :
    ∃ before, service.record? other = some before ∧ found.rootKey = before.rootKey ∧
      (before.isTerminal = true → found.isTerminal = true) := by
  rw [consistent.rewritten stored rewrites.id] at isStored
  split at isStored
  · next same =>
      cases isStored
      exact ⟨old, same ▸ stored, rewrites.root, rewrites.final⟩
  · exact ⟨found, isStored, rfl, fun final => final⟩

theorem Consistent.rewrites {id : Uuid} {old new : WorkflowRecord}
    (consistent : Consistent settings service) (stored : service.record? id = some old)
    (rewrites : Rewrites service.system.queues old new) :
    Consistent settings { service with system := { service.system with
      records := service.system.records.insert new } } := by
  have origin : ∀ other found, (service.system.records.insert new).get? other = some found →
      ∃ before, service.record? other = some before ∧ found.rootKey = before.rootKey ∧
        (before.isTerminal = true → found.isTerminal = true) :=
    fun _ _ isStored => consistent.stored_of_rewrite stored rewrites isStored
  constructor
  case reached => exact consistent.reached
  case keyed => exact consistent.keyed.insert new
  case given =>
    intro other found isStored
    obtain ⟨before, wasStored, -⟩ := origin other found isStored
    exact consistent.given other before wasStored
  case born =>
    intro other found isStored
    obtain ⟨before, wasStored, root, -⟩ := origin other found isStored
    exact root ▸ consistent.born other before wasStored
  case distinct =>
    intro one other found otherFound isStored otherStored same
    obtain ⟨before, wasStored, root, -⟩ := origin one found isStored
    obtain ⟨otherBefore, otherWas, otherRoot, -⟩ := origin other otherFound otherStored
    exact consistent.distinct one other before otherBefore wasStored otherWas
      (root.symm.trans (same.trans otherRoot))
  case truth =>
    intro other found isStored final
    have isStored : (service.system.records.insert new).get? other = some found := isStored
    rw [consistent.rewritten stored rewrites.id] at isStored
    split at isStored
    · cases isStored
      exact rewrites.told final
    · exact consistent.truth other found isStored final

theorem Consistent.deletes {id : Uuid} {records : RecordStore}
    (consistent : Consistent settings service)
    (deleted : service.system.records.delete id = .ok records) :
    Consistent settings { service with system := { service.system with records } } := by
  have before : ∀ other found, records.get? other = some found →
      service.record? other = some found := fun _ _ stored => stored_of_delete deleted stored
  constructor
  case reached => exact consistent.reached
  case keyed => exact consistent.keyed.delete deleted
  case given => exact fun other found stored => consistent.given other found (before _ _ stored)
  case born => exact fun other found stored => consistent.born other found (before _ _ stored)
  case distinct =>
    exact fun one other found otherFound stored otherStored =>
      consistent.distinct one other found otherFound (before _ _ stored) (before _ _ otherStored)
  case truth => exact fun other found stored => consistent.truth other found (before _ _ stored)

theorem Consistent.edit (consistent : Consistent settings service) (edit : Edit service after) :
    Consistent settings after := by
  cases edit with
  | works step =>
      have effect := step.effect consistent.reached.steady
      constructor
      case reached => exact consistent.reached.step step
      case keyed => exact consistent.keyed
      case given => exact consistent.given
      case born => exact fun id record stored => effect.born (consistent.born id record stored)
      case distinct => exact consistent.distinct
      case truth =>
        exact fun id record stored final => (consistent.truth id record stored final).mono effect
  | follows unknown =>
      exact ⟨consistent.reached, consistent.keyed, consistent.given, consistent.born,
        consistent.distinct, consistent.truth⟩
  | gives id =>
      exact ⟨consistent.reached, consistent.keyed,
        fun other record stored => List.mem_cons_of_mem _ (consistent.given other record stored),
        consistent.born, consistent.distinct, consistent.truth⟩
  | enters enters => exact consistent.enters enters
  | rewrites stored rewrites => exact consistent.rewrites stored rewrites
  | deletes deleted => exact consistent.deletes deleted
  | passes followed next noted =>
      exact ⟨consistent.reached, consistent.keyed, consistent.given, consistent.born,
        consistent.distinct, consistent.truth⟩

theorem Consistent.edits (consistent : Consistent settings service)
    (edits : Edits service after) : Consistent settings after := by
  induction edits with
  | refl => exact consistent
  | tail _ edit ih => exact ih.edit edit

/-! ### Submissions -/

/-- The root job of an accepted flow is new. -/
theorem root_of_accepted {queues later : Queues} (steady : queues.Steady none [])
    {flow : Flow} {added : AddedFlow} (accepted : queues.add flow = (.ok added, later)) :
    added.queueName = flow.queueName ∧ ¬ queues.view.Born added.rootKey ∧
      later.view.Born added.rootKey ∧
      ∀ queue, (later.lane queue).events = (queues.lane queue).events := by
  obtain ⟨problem, other, refused, -⟩ | ⟨other, same, plants⟩ :=
    Queues.addInOrder_cases steady (Queues.countsOf flow) flow
  · cases accepted.symm.trans refused
  cases accepted.symm.trans same
  have isRoot : (⟨flow.queueName, jobIdOf queues.nextSerial⟩ : JobKey) ∈
      (Planting.ofFlow none queues.nextSerial flow).roots := by
    cases flow
    exact List.mem_singleton_self _
  obtain ⟨job, holds, -⟩ := plants.grown.roots _ isRoot
  obtain ⟨number, -, below, equal⟩ := plants.grown.id_eq holds
  have bornAfter := Nat.lt_of_lt_of_eq below plants.serial.symm
  exact ⟨rfl, plants.unborn holds, ⟨number, bornAfter, equal⟩, plants.events⟩

/-- The record of an accepted workflow may be stored. -/
theorem enters_of_accepted {id : Uuid} {chain : Flow} {added : AddedFlow} {queues : Queues}
    (consistent : Consistent settings service) (fresh : id ∉ service.given)
    (followed : service.system.listeners.contains chain.queueName = true)
    (accepted : service.system.queues.add chain = (.ok added, queues)) (now : Timestamp)
    (tasks : List Task) :
    Enters { service with system := { service.system with queues } }
      (RecordStore.recordOf now (Submission.newRecord id added tasks)) := by
  obtain ⟨queueName, unborn, born, events⟩ :=
    root_of_accepted consistent.reached.steady accepted
  constructor
  case fresh => exact fresh
  case born => exact born
  case own =>
    intro other record stored same
    have root : record.rootKey = added.rootKey := same
    exact unborn (root ▸ consistent.born other record stored)
  case silent =>
    intro event member named
    have member : event ∈ (queues.lane added.queueName).events := member
    rw [events] at member
    have told := consistent.reached.announced.born _ event member
    rw [named] at told
    exact unborn told
  case followed =>
    have isFollowed : service.system.listeners.contains added.queueName = true :=
      queueName ▸ followed
    exact Option.isSome_iff_exists.1 isFollowed
  case active => rfl

theorem edits_submit {id : Uuid} (consistent : Consistent settings service)
    (fresh : id ∉ service.given) (tasks : List Task) :
    Edits service ⟨(service.system.submit id tasks).2, id :: service.given⟩ := by
  unfold WorkflowSystem.submit WorkflowSystem.perform Submission.submit
  split
  · exact (Edit.gives id).edits
  · next chain compiled =>
      have listens := edits_listenAll service (service.system.routing.queueNames ++ [chain.queueName])
      have followed := @listener_listenAll service.system
        (service.system.routing.queueNames ++ [chain.queueName]) chain.queueName (.inr (by simp))
      unfold Submission.submitChain
      rw [Routine.run_bind, run_listenAll]
      dsimp only
      generalize (service.system.routing.queueNames ++ [chain.queueName]).foldl
        WorkflowSystem.listen service.system = heard at listens followed ⊢
      simp only [Routine.run_bind, Routine.act, Routine.run_step, Routine.run_done]
      have answered : WorkflowSystem.answer (.addFlow chain) heard =
          ((heard.queues.add chain).1, { heard with queues := (heard.queues.add chain).2 }) := rfl
      have adds : Edit ⟨heard, service.given⟩
          ⟨{ heard with queues := (heard.queues.add chain).2 }, service.given⟩ :=
        .works (.add (.refl (Queues.countsOf chain)))
      rw [answered]
      cases result : heard.queues.add chain with
      | mk reply queues =>
          rw [result] at adds
          cases reply with
          | error problem => exact listens.trans (adds.edits.trans (Edit.gives id).edits)
          | ok added =>
              -- The queue has been followed since before the root job existed.
              have enters := enters_of_accepted (consistent.edits listens) fresh followed result
                (WorkflowSystem.time { heard with queues }) tasks
              exact listens.trans (adds.edits.trans (Edit.enters enters).edits)

theorem edits_submitTemplate {id : Uuid} (consistent : Consistent settings service)
    (fresh : id ∉ service.given) (name : String) (parameters : Json) :
    Edits service ⟨(service.system.submitTemplate id name parameters).2, id :: service.given⟩ := by
  unfold WorkflowSystem.submitTemplate WorkflowSystem.perform Submission.submitTemplate
  split
  · exact (Edit.gives id).edits
  · next tasks built => exact edits_submit consistent fresh tasks

/-! ### Reads -/

theorem run_treeOf (record : WorkflowRecord) (system : WorkflowSystem) :
    (Inspection.treeOf record).run WorkflowSystem.answer system =
      (system.queues.tree? record.rootKey, system) := rfl

theorem run_rootState (record : WorkflowRecord) (system : WorkflowSystem) :
    (Inspection.rootState record).run WorkflowSystem.answer system =
      (system.queues.jobState? record.rootKey, system) := rfl

theorem run_refresh (record : WorkflowRecord) (status : String) (system : WorkflowSystem) :
    ((Inspection.refresh record status).run WorkflowSystem.answer system).2 =
      (WorkflowSystem.answer (.updateStatus record.id status) system).2 := by
  unfold Inspection.refresh
  simp only [Routine.run_bind, Routine.act, Routine.run_step, Routine.run_done]
  split
  · rfl
  · simp only [Routine.run_bind, Routine.run_step, Routine.run_done]
    rfl

/-- The end of a job that is stored was announced. -/
theorem told_of_finished {queues : Queues} (announced : queues.Announced) {key : JobKey} {job : Job}
    (stored : queues.job? key = some job) (finished : job.state.isFinished = true) :
    Told queues key job.state.text := by
  obtain ⟨event, member, named⟩ := announced.complete key job stored finished
  have isStored : queues.job? ⟨key.queue, event.jobId⟩ = some job := named ▸ stored
  obtain ⟨found, isFound, -, same⟩ := Concluded.of_event announced member isStored
  cases isStored.symm.trans isFound
  exact ⟨event, member, named, same.symm⟩

/-- A reader writes the state of the root job to a record without final status. -/
theorem rewrites_of_state {queues : Queues} (announced : queues.Announced)
    {record : WorkflowRecord} {state : JobState} (isOpen : record.isTerminal = false)
    (known : queues.jobState? record.rootKey = some state) (now : Timestamp) :
    Rewrites queues record { record with status := state.text, updatedAt := now } where
  id := rfl
  root := rfl
  final finished := by cases isOpen.symm.trans finished
  told final := by
    obtain ⟨job, stored, rfl⟩ := Option.map_eq_some_iff.1 known
    have terminal : (WorkflowStatus.ofText job.state.text).isTerminal = true := final
    rw [isTerminal_ofText] at terminal
    exact told_of_finished announced stored terminal

theorem edits_reconcile {id : Uuid} {record : WorkflowRecord}
    (consistent : Consistent settings service) (stored : service.record? id = some record) :
    Edits service { service with system :=
      ((Inspection.reconcile record).run WorkflowSystem.answer service.system).2 } := by
  unfold Inspection.reconcile
  split
  · exact .refl
  · next isOpen =>
      rw [Routine.run_bind, run_rootState]
      dsimp only
      cases known : service.system.queues.jobState? record.rootKey with
      | none => exact .refl
      | some state =>
          dsimp only
          split
          · exact .refl
          · have named := consistent.keyed.id_eq stored
            have isStored : service.system.records.get? id = some record := stored
            rw [Routine.run_bind, Routine.run_pure, run_refresh, answer_updateStatus, named,
              isStored]
            exact (Edit.rewrites stored (rewrites_of_state consistent.reached.announced
              (Bool.eq_false_iff.2 isOpen) known _)).edits

theorem run_examine (record : WorkflowRecord) (system : WorkflowSystem) :
    ((Inspection.examine record).run WorkflowSystem.answer system).2 =
      ((Inspection.reconcile record).run WorkflowSystem.answer system).2 := by
  unfold Inspection.examine
  rw [Routine.run_bind]
  split
  · rfl
  · rfl
  · next live _ =>
      have looked := congrArg Prod.snd (run_treeOf live
        ((Inspection.reconcile record).run WorkflowSystem.answer system).2)
      rw [Routine.run_bind]
      split <;> exact looked

theorem run_expire (id : Uuid) (system : WorkflowSystem) :
    ((Inspection.expire id).run WorkflowSystem.answer system).2 =
      (WorkflowSystem.answer (.deleteRecord id) system).2 := by
  unfold Inspection.expire
  simp only [Routine.run_bind, Routine.act, Routine.run_step, Routine.run_done]
  split <;> rfl

theorem edits_delete (service : Service) (id : Uuid) :
    Edits service { service with system :=
      (WorkflowSystem.answer (.deleteRecord id) service.system).2 } := by
  unfold WorkflowSystem.answer
  dsimp only
  split
  · next records deleted => exact (Edit.deletes deleted).edits
  · exact .refl

/-- Reading takes a lock around what it does. -/
theorem read_eq (system : WorkflowSystem) (id : Uuid) :
    system.read id =
      (((Inspection.readLocked id).run WorkflowSystem.answer system).1.mapError .store,
        ((Inspection.readLocked id).run WorkflowSystem.answer system).2) := by
  unfold WorkflowSystem.read WorkflowSystem.perform Inspection.read
  simp only [Routine.run_bind, Routine.act, Routine.run_step, Routine.run_done, Routine.run_pure]
  rfl

theorem edits_read (consistent : Consistent settings service) (id : Uuid) :
    Edits service { service with system := (service.system.read id).2 } := by
  have found : (Routine.act (.getRecord id)).run WorkflowSystem.answer service.system =
      (.ok (service.record? id), service.system) := rfl
  rw [read_eq, Inspection.readLocked, Routine.run_bind, found]
  dsimp only
  cases stored : service.record? id with
  | none => exact .refl
  | some record =>
      have reconciles := edits_reconcile consistent stored
      rw [← run_examine] at reconciles
      dsimp only
      rw [Routine.run_bind]
      generalize (Inspection.examine record).run WorkflowSystem.answer service.system = examined
        at reconciles ⊢
      obtain ⟨finding, system⟩ := examined
      rcases finding with problem | live | expired
      · exact reconciles
      · exact reconciles
      · dsimp only
        rw [Routine.run_bind, Routine.run_pure, run_expire]
        exact reconciles.trans (edits_delete ⟨system, service.given⟩ id)

/-! ### Deliveries -/

/-- A record that an event is about is found, if there is one. -/
theorem not_rooted_of_findByRoot? {queue jobId : String}
    (nothing : service.system.records.findByRoot? queue jobId = none) (id : Uuid)
    (record : WorkflowRecord) (stored : service.record? id = some record) :
    record.rootKey ≠ ⟨queue, jobId⟩ := by
  intro root
  unfold RecordStore.findByRoot? at nothing
  have member := (Dict.mem_values_iff service.system.records.records record).2 ⟨_, stored⟩
  have test := List.find?_eq_none.1 nothing record member
  cases root
  simp at test

/-- What handling an event does to the records. -/
theorem run_handle (system : WorkflowSystem) (keyed : system.records.Keyed) (queue : String)
    (event : QueueEvent) :
    ((Tracking.handle queue event).run WorkflowSystem.answer system).2 =
      match system.records.findByRoot? queue event.jobId with
      | some record => { system with
          records := system.records.insert
            { record with status := (Tracking.statusOf event).text, updatedAt := system.time } }
      | none => system := by
  have found : (Routine.act (.findRecord queue event.jobId)).run WorkflowSystem.answer system =
      (.ok (system.records.findByRoot? queue event.jobId), system) := rfl
  rw [Tracking.handle, Routine.run_bind, found]
  dsimp only
  cases isFound : system.records.findByRoot? queue event.jobId with
  | none => rfl
  | some record =>
      have stored := (keyed.findByRoot? isFound).1
      have locked : ∀ id, (Routine.act (.lock id)).run WorkflowSystem.answer system = ((), system) :=
        fun _ => rfl
      have unlocked : ∀ id system,
          ((Routine.act (.unlock id)).run WorkflowSystem.answer system).2 = system := fun _ _ => rfl
      have read : (Routine.act (.getRecord record.id)).run WorkflowSystem.answer system =
          (.ok (some record), system) := by rw [← stored]; rfl
      have written : ∀ status, (Routine.act (.updateStatus record.id status)).run
          WorkflowSystem.answer system = (.ok (), { system with
            records := system.records.insert { record with status, updatedAt := system.time } }) := by
        intro status
        have answered := answer_updateStatus system record.id status
        rw [stored] at answered
        exact answered
      dsimp only
      rw [Routine.run_bind, locked, Routine.run_bind, unlocked, Tracking.writeLocked,
        Routine.run_bind, read]
      dsimp only
      rw [Routine.run_bind, written, Routine.run_pure]

theorem terminal_of_event (event : QueueEvent) :
    (WorkflowStatus.ofText (Tracking.statusOf event).text).isTerminal = true := by
  cases event <;> rfl

/-- The listener writes what an event says to the record that it is about. -/
theorem rewrites_of_event {queues : Queues} {record : WorkflowRecord} {queue : String}
    {event : QueueEvent} (member : event ∈ (queues.lane queue).events)
    (root : record.rootKey = ⟨queue, event.jobId⟩) (now : Timestamp) :
    Rewrites queues record
      { record with status := (Tracking.statusOf event).text, updatedAt := now } where
  id := rfl
  root := rfl
  final _ := terminal_of_event event
  told _ := by
    have same : ({ record with status := (Tracking.statusOf event).text, updatedAt := now } :
        WorkflowRecord).rootKey = ⟨queue, event.jobId⟩ := root
    rw [same]
    exact ⟨event, member, rfl, rfl⟩

theorem behind_of_lagged {queue : String} {listener later : Subscription} {missed : Nat}
    (followed : service.listener? queue = some listener)
    (received : listener.receive? (service.events queue) = some (.lagged missed, later)) :
    ¬ service.KeepsUp := by
  intro keepsUp
  have close := keepsUp queue listener followed
  unfold Subscription.receive? at received
  dsimp only at received
  split at received
  · omega
  · obtain ⟨event, -, same⟩ := Option.map_eq_some_iff.1 received
    cases same

theorem edits_deliver {queue : String} {system : WorkflowSystem}
    (consistent : Consistent settings service)
    (delivered : service.system.deliver? queue = some system) :
    Edits service { service with system } ∨ Lags service { service with system } := by
  obtain ⟨⟨delivery, between⟩, received, rfl⟩ := Option.map_eq_some_iff.1 delivered
  obtain ⟨listener, later, followed, moved, rfl⟩ := Orderly.receive?_some received
  cases delivery with
  | lagged missed => exact .inr (.skips (behind_of_lagged followed moved) later)
  | event event =>
      left
      obtain ⟨next, position⟩ := Subscription.of_receive? moved
      obtain rfl : later = ⟨listener.position + 1⟩ := congrArg Subscription.mk position
      have handled := run_handle { service.system with
        listeners := service.system.listeners.insert queue ⟨listener.position + 1⟩ }
        consistent.keyed queue event
      dsimp only at handled ⊢
      rw [WorkflowSystem.perform, WorkflowSystem.react, handled]
      cases found : service.system.records.findByRoot? queue event.jobId with
      | none =>
          refine (Edit.passes followed next fun id record stored root => ?_).edits
          exact absurd root (not_rooted_of_findByRoot? found id record stored)
      | some record =>
          obtain ⟨stored, root⟩ := consistent.keyed.findByRoot? found
          -- First the record is written, so that the event has left its mark when the
          -- listener moves past it.
          have rewrites := rewrites_of_event (List.mem_of_getElem? next) root service.system.time
          have writes := Edit.rewrites stored rewrites
          refine writes.edits.trans (Edit.edits (.passes followed next fun id other isStored same => ?_))
          have isStored : (service.system.records.insert _).get? id = some other := isStored
          rw [consistent.rewritten stored rewrites.id] at isStored
          split at isStored
          · cases isStored
            exact terminal_of_event event
          · next different =>
              exact absurd (consistent.distinct id record.id other record isStored stored
                (same.trans root.symm)) different

/-- A step is made of edits, or a listener passes over what it has missed. -/
theorem Step.edits (step : Step service after) (consistent : Consistent settings service) :
    Edits service after ∨ Lags service after := by
  cases step with
  | works step => exact .inl (Edit.works step).edits
  | listens => exact .inl (edits_listenAll service _)
  | submits tasks fresh => exact .inl (edits_submit consistent fresh tasks)
  | submitsTemplate name parameters fresh =>
      exact .inl (edits_submitTemplate consistent fresh name parameters)
  | reads id => exact .inl (edits_read consistent id)
  | delivers delivered => exact edits_deliver consistent delivered

/-- Every step keeps records consistent. -/
theorem Consistent.step (consistent : Consistent settings service) (step : Step service after) :
    Consistent settings after := by
  rcases step.edits consistent with edits | ⟨behind, listener⟩
  · exact consistent.edits edits
  · exact ⟨consistent.reached, consistent.keyed, consistent.given, consistent.born,
      consistent.distinct, consistent.truth⟩

end Running

/-! ## Computed runs -/

/-- What happens next. -/
inductive Move where
  | work (act : Queues.Act)
  | listen
  | submit (id : Uuid) (tasks : List Task)
  | submitTemplate (id : Uuid) (name : String) (parameters : Json)
  | read (id : Uuid)
  | deliver (queue : String)

/-- The service after a move, if it can be made. -/
def next? (service : Service) : Move → Option Service
  | .work act => (service.system.queues.next? act).map fun queues =>
      { service with system := { service.system with queues } }
  | .listen => some { service with system := service.system.listenToRouted }
  | .submit id tasks =>
      if id ∈ service.given then none
      else some ⟨(service.system.submit id tasks).2, id :: service.given⟩
  | .submitTemplate id name parameters =>
      if id ∈ service.given then none
      else some ⟨(service.system.submitTemplate id name parameters).2, id :: service.given⟩
  | .read id => some { service with system := (service.system.read id).2 }
  | .deliver queue => (service.system.deliver? queue).map fun system => { service with system }

/-- Whether all listeners keep up. -/
def keepingUp (service : Service) : Bool :=
  service.system.listeners.entries.all fun (queue, listener) =>
    (service.events queue).length ≤ listener.position + Subscription.capacity

/-- The service after several moves, if they can be made and all listeners keep up. -/
def follow? : List Move → Service → Option Service
  | [], service => some service
  | move :: rest, service => ((service.next? move).filter keepingUp).bind (follow? rest)

section Computing

variable {routing : Routing} {settings : Dict QueueSettings} {service after : Service}

theorem keepsUp_of_keepingUp (keeping : service.keepingUp = true) : service.KeepsUp := by
  intro queue listener found
  have test := List.all_eq_true.1 keeping (queue, listener) (Dict.mem_of_lookup found)
  exact of_decide_eq_true test

theorem step_of_next? {move : Move} (next : service.next? move = some after) :
    Step service after := by
  cases move with
  | work act =>
      obtain ⟨queues, moved, rfl⟩ := Option.map_eq_some_iff.1 next
      exact .works (Queues.step_iff_next?.2 moved)
  | listen => exact Option.some.inj next ▸ .listens
  | submit id tasks =>
      obtain ⟨fresh, same⟩ := Option.ite_none_left_eq_some.1 next
      exact Option.some.inj same ▸ .submits tasks fresh
  | submitTemplate id name parameters =>
      obtain ⟨fresh, same⟩ := Option.ite_none_left_eq_some.1 next
      exact Option.some.inj same ▸ .submitsTemplate name parameters fresh
  | read id => exact Option.some.inj next ▸ .reads id
  | deliver queue =>
      obtain ⟨system, delivered, rfl⟩ := Option.map_eq_some_iff.1 next
      exact .delivers delivered

theorem reachable_follow? {moves : List Move} (reached : Reachable routing settings service)
    (followed : follow? moves service = some after) : Reachable routing settings after := by
  induction moves generalizing service with
  | nil => exact Option.some.inj followed ▸ reached
  | cons move rest ih =>
      obtain ⟨between, filtered, others⟩ := Option.bind_eq_some_iff.1 followed
      obtain ⟨next, keeping⟩ := Option.filter_eq_some_iff.1 filtered
      exact ih (reached.step (step_of_next? next) (keepsUp_of_keepingUp keeping)) others

end Computing

end Service

end Relay
