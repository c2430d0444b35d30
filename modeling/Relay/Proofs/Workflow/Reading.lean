import Relay.Proofs.Queue.Tree
import Relay.Proofs.Workflow.Service

/-!
# What a reader sees and leaves behind

A reader compares the record of a workflow with the queues.  What it reports is the state
of the queues at that moment, unless the record has a final status; the record then says
the same, and a second reader finds nothing left to do.  A record whose root job is gone is
deleted, final or not.  Nothing else is touched.
-/

namespace Relay

theorem WorkflowStatus.isTerminal_ofText_iff (text : String) :
    (WorkflowStatus.ofText text).isTerminal = true ↔ text = "completed" ∨ text = "failed" := by
  unfold WorkflowStatus.ofText
  split
  · next active => simp [active, WorkflowStatus.isTerminal]
  · split
    · next completed => simp [completed, WorkflowStatus.isTerminal]
    · split
      · next failed => simp [failed, WorkflowStatus.isTerminal]
      · next neither nor => simp [neither, nor, WorkflowStatus.isTerminal]

/-- A view tells of a record and of the jobs at and below its root job as they are. -/
structure WorkflowView.Describes (view : WorkflowView) (queues : Queues) (record : WorkflowRecord)
    (root : Job) : Prop where
  id : view.id = record.id
  rootJobId : view.rootJobId = record.rootJobId
  queueName : view.queueName = record.queueName
  createdAt : view.createdAt = record.createdAt
  /-- A final status is believed; otherwise the root job is asked. -/
  status : view.status =
    if record.status = "completed" ∨ record.status = "failed" then record.status
    else root.state.text
  steps : ∃ tree, queues.Shows record.rootKey tree ∧
    view.steps = tree.postOrder.map StepStatus.ofSnapshot

namespace WorkflowSystem

/-- The systems that can be reached.  Requests and listeners touch a system by their actions
only, so this leaves open how many of them are under way and in which order they act. -/
inductive Reached (routing : Routing) (settings : Dict QueueSettings) : WorkflowSystem → Prop where
  | start : Reached routing settings (.start routing settings)
  | works {system : WorkflowSystem} {act : Queues.Act} {queues : Queues}
      (reached : Reached routing settings system) (step : Queues.Step system.queues act queues) :
      Reached routing settings { system with queues }
  | acts {system : WorkflowSystem} (reached : Reached routing settings system)
      (action : Action) : Reached routing settings (answer action system).2
  | receives {system after : WorkflowSystem} {queue : String} {delivery : Delivery}
      (reached : Reached routing settings system)
      (received : system.receive? queue = some (delivery, after)) :
      Reached routing settings after

/-- A system differs from another in the record with an identifier at most. -/
structure Beside (system : WorkflowSystem) (id : Uuid) (after : WorkflowSystem) : Prop where
  routing : after.routing = system.routing
  queues : after.queues = system.queues
  listeners : after.listeners = system.listeners
  records : ∀ other, other ≠ id → after.records.get? other = system.records.get? other

/-- What it means to read the workflow with an identifier. -/
structure ReadsExactly (system : WorkflowSystem) (id : Uuid) : Prop where
  /-- Where there is no record, nothing is found and nothing happens. -/
  unknown : system.records.get? id = none → system.read id = (.ok none, system)
  /-- A stored root job is described together with its record, which has the described
  status afterwards. -/
  live : ∀ record root, system.records.get? id = some record →
    system.queues.job? record.rootKey = some root →
    ∃ view after, system.read id = (.ok (some view), after) ∧
      view.Describes system.queues record root ∧
      after.records.get? id =
        some { record with status := view.status, updatedAt := view.updatedAt } ∧
      system.Beside id after ∧ after.read id = (.ok (some view), after)
  /-- A record whose root job is gone is deleted. -/
  expired : ∀ record, system.records.get? id = some record →
    system.queues.job? record.rootKey = none →
    ∃ after, system.read id = (.ok none, after) ∧ after.records.get? id = none ∧
      system.Beside id after ∧ after.read id = (.ok none, after)

/-! ## Reachable systems -/

section Reaching

variable {routing : Routing} {settings : Dict QueueSettings} {system : WorkflowSystem}

theorem keyed_answer (action : Action) (keyed : system.records.Keyed) :
    (answer action system).2.records.Keyed := by
  cases reads : action.writesRecords with
  | false => rwa [records_answer system reads]
  | true =>
      cases action with
      | insertRecord new => exact keyed.insert _
      | updateStatus id status =>
          rw [answer_updateStatus]
          split
          · exact keyed.insert _
          · exact keyed
      | deleteRecord id =>
          unfold answer
          dsimp only
          split
          · next deleted => exact keyed.delete deleted
          · exact keyed
      | _ => cases reads

/-- An action leads the queues on, or leaves them alone. -/
theorem leads_answer (action : Action) (steady : system.queues.Steady none []) :
    system.queues.Leads (answer action system).2.queues := by
  -- An action is a step of the queues whatever the handlers would answer.
  let silent : Script := ⟨fun _ => false, fun _ _ => .error (.fatal "")⟩
  rcases queues_answer action system silent steady with same | ⟨act, step, -, -⟩
  · rw [same]
    exact .refl
  · exact .single ⟨act, step⟩

/-- Every reachable system has queues that can be reached, and records under their identifiers. -/
theorem Reached.sound (reached : Reached routing settings system) :
    Queues.Reachable settings system.queues ∧ system.records.Keyed := by
  induction reached with
  | start => exact ⟨.start, RecordStore.keyed_empty⟩
  | works reached step ih => exact ⟨ih.1.step step, ih.2⟩
  | acts reached action ih =>
      exact ⟨(leads_answer action ih.1.steady).reachable ih.1, keyed_answer action ih.2⟩
  | receives reached received ih =>
      obtain ⟨before, subscription, -, -, rfl⟩ := Orderly.receive?_some received
      exact ih

/-- A routine leads to what its actions lead to. -/
theorem Reached.perform {α : Type} (reached : Reached routing settings system)
    (routine : Routine α) : Reached routing settings (system.perform routine).2 := by
  induction routine generalizing system with
  | done value => exact reached
  | step action next ih => exact ih _ (reached.acts action)

theorem Reached.listen (reached : Reached routing settings system) (queues : List String) :
    Reached routing settings (queues.foldl WorkflowSystem.listen system) := by
  induction queues generalizing system with
  | nil => exact reached
  | cons queue rest ih => exact ih (reached.acts (.listen queue))

end Reaching

end WorkflowSystem

/-- The system of a service that can be reached. -/
theorem Service.Reachable.reached {routing : Routing} {settings : Dict QueueSettings}
    {service : Service} (reached : Service.Reachable routing settings service) :
    WorkflowSystem.Reached routing settings service.system := by
  induction reached with
  | start => exact .start
  | step reached step keepsUp ih =>
      cases step with
      | works step => exact ih.works step
      | listens => exact ih.listen _
      | submits tasks fresh => exact ih.perform _
      | submitsTemplate name parameters fresh => exact ih.perform _
      | reads id => exact ih.perform _
      | delivers delivered =>
          obtain ⟨⟨delivery, between⟩, received, rfl⟩ := Option.map_eq_some_iff.1 delivered
          exact (ih.receives received).perform _

/-- The system of a world that can be reached, with any number of routines under way. -/
theorem World.Reachable.reached {script : Script} {routing : Routing}
    {settings : Dict QueueSettings} {world : World}
    (reached : World.Reachable script routing settings world) :
    WorkflowSystem.Reached routing settings world.system := by
  induction reached with
  | start => exact .start
  | step reached step ih =>
      cases step with
      | work step regular => exact ih.works step
      | submit tasks fresh idle => exact ih
      | read id idle => exact ih
      | receive idle received => exact ih.receives received
      | perform here head permitted => exact ih.acts _
      | leave here finished => exact ih

/-! ## Comparing a record with the queues -/

/-- A record after a status was written to it. -/
def WorkflowRecord.written (record : WorkflowRecord) (status : String) (now : Timestamp) :
    WorkflowRecord := { record with status, updatedAt := now }

namespace WorkflowSystem

section Comparing

variable {system after : WorkflowSystem} {id : Uuid} {record current : WorkflowRecord}
  {root : Job} {tree : JobTree}

theorem run_getRecord (system : WorkflowSystem) (id : Uuid) :
    (Routine.act (.getRecord id)).run answer system = (.ok (system.records.get? id), system) := rfl

/-- A record that agrees with the queues is left as it is. -/
theorem run_reconcile_of_settled (stored : system.queues.job? record.rootKey = some root)
    (settled : record.isTerminal = true ∨ root.state.text = record.status) :
    (Inspection.reconcile record).run answer system = (.ok (some record), system) := by
  unfold Inspection.reconcile
  split
  · rfl
  · next isOpen =>
      rw [Routine.run_bind, Service.run_rootState, Queues.jobState?_of_stored stored]
      dsimp only
      rw [if_pos (settled.resolve_left isOpen)]
      rfl

/-- Any other record gets the state of the root job. -/
theorem run_reconcile_of_unsettled (known : system.records.get? record.id = some record)
    (stored : system.queues.job? record.rootKey = some root) (isOpen : record.isTerminal = false)
    (differs : root.state.text ≠ record.status) :
    let current := record.written root.state.text system.time
    (Inspection.reconcile record).run answer system =
      (.ok (some current), { system with records := system.records.insert current }) := by
  intro current
  have written : (Routine.act (.updateStatus record.id root.state.text)).run answer system =
      (.ok (), { system with records := system.records.insert current }) := by
    have answered := answer_updateStatus system record.id root.state.text
    rw [known] at answered
    exact answered
  have rewritten : (system.records.insert current).get? record.id = some current :=
    (RecordStore.get?_insert system.records current record.id).trans (if_pos rfl)
  have reread : (Routine.act (.getRecord record.id)).run answer
      { system with records := system.records.insert current } =
        (.ok (some current), { system with records := system.records.insert current }) := by
    rw [run_getRecord, rewritten]
  have refreshed : (Inspection.refresh record root.state.text).run answer system =
      (.ok current, { system with records := system.records.insert current }) := by
    rw [Inspection.refresh, Routine.run_bind, written]
    dsimp only
    rw [Routine.run_bind, reread]
    rfl
  unfold Inspection.reconcile
  rw [if_neg (Bool.eq_false_iff.1 isOpen), Routine.run_bind, Service.run_rootState,
    Queues.jobState?_of_stored stored]
  dsimp only
  rw [if_neg differs, Routine.run_bind, refreshed]
  rfl

/-- A record whose root job is stored is found alive, with the tree of the job. -/
theorem run_examine_of_live
    (reconciled : (Inspection.reconcile record).run answer system = (.ok (some current), after))
    (shown : after.queues.tree? current.rootKey = some tree) :
    (Inspection.examine record).run answer system =
      (.ok (.live (.ofRecord current tree)), after) := by
  rw [Inspection.examine, Routine.run_bind, reconciled]
  dsimp only
  rw [Routine.run_bind, Service.run_treeOf, shown]
  rfl

/-- Only a final status stands without the root job. -/
theorem run_reconcile_of_gone (gone : system.queues.job? record.rootKey = none) :
    (Inspection.reconcile record).run answer system =
      (.ok (if record.isTerminal then some record else none), system) := by
  have nothing : system.queues.jobState? record.rootKey = none := by
    rw [Queues.jobState?, gone, Option.map_none]
  unfold Inspection.reconcile
  cases record.isTerminal with
  | true => rfl
  | false =>
      rw [if_neg (by decide), Routine.run_bind, Service.run_rootState, nothing]
      rfl

/-- A record whose root job is gone is expired, whatever its status is. -/
theorem run_examine_of_gone (gone : system.queues.job? record.rootKey = none) :
    (Inspection.examine record).run answer system = (.ok .expired, system) := by
  have nothing : system.queues.tree? record.rootKey = none := Queues.treeWithin_of_gone gone _
  rw [Inspection.examine, Routine.run_bind, run_reconcile_of_gone gone]
  cases record.isTerminal with
  | true =>
      rw [if_pos rfl]
      dsimp only
      rw [Routine.run_bind, Service.run_treeOf, nothing]
      rfl
  | false => rfl

/-! ## Reading -/

theorem read_of_unknown (unknown : system.records.get? id = none) :
    system.read id = (.ok none, system) := by
  rw [Service.read_eq, Inspection.readLocked, Routine.run_bind, run_getRecord, unknown]
  rfl

theorem read_of_live (known : system.records.get? id = some record) {view : WorkflowView}
    (examined : (Inspection.examine record).run answer system = (.ok (.live view), after)) :
    system.read id = (.ok (some view), after) := by
  rw [Service.read_eq, Inspection.readLocked, Routine.run_bind, run_getRecord, known]
  dsimp only
  rw [Routine.run_bind, examined]
  rfl

theorem read_of_expired (known : system.records.get? id = some record)
    (examined : (Inspection.examine record).run answer system = (.ok .expired, system)) :
    ∃ records, system.records.delete id = .ok records ∧
      system.read id = (.ok none, { system with records }) := by
  have deletes : system.records.delete id = .ok ⟨system.records.records.erase id.text⟩ := by
    rw [RecordStore.delete, known]
  have deleted : (Routine.act (.deleteRecord id)).run answer system =
      (.ok (), { system with records := ⟨system.records.records.erase id.text⟩ }) := by
    rw [Routine.act, Routine.run_step, answer, deletes]
    rfl
  refine ⟨_, deletes, ?_⟩
  rw [Service.read_eq, Inspection.readLocked, Routine.run_bind, run_getRecord, known]
  dsimp only
  rw [Routine.run_bind, examined]
  dsimp only
  rw [Routine.run_bind, Inspection.expire, Routine.run_bind, deleted]
  rfl

/-- A record that agrees with the queues is described, and nothing happens. -/
theorem read_of_settled (known : system.records.get? id = some record)
    (stored : system.queues.job? record.rootKey = some root)
    (settled : record.isTerminal = true ∨ root.state.text = record.status)
    (shown : system.queues.tree? record.rootKey = some tree) :
    system.read id = (.ok (some (.ofRecord record tree)), system) :=
  read_of_live known (run_examine_of_live (run_reconcile_of_settled stored settled) shown)

end Comparing

section Reading

variable {routing : Routing} {settings : Dict QueueSettings} {system : WorkflowSystem}
  {id : Uuid} {record : WorkflowRecord} {root : Job}

/-- The view of a record describes it once the record has the status that is to be reported. -/
theorem describes_ofRecord {tree : JobTree} (shown : system.queues.Shows record.rootKey tree)
    (status : String) (now : Timestamp)
    (reported : status = if record.isTerminal then record.status else root.state.text) :
    (WorkflowView.ofRecord (record.written status now) tree).Describes system.queues record
      root where
  id := rfl
  rootJobId := rfl
  queueName := rfl
  createdAt := rfl
  status := by
    refine reported.trans (if_congr ?_ rfl rfl)
    exact WorkflowStatus.isTerminal_ofText_iff record.status
  steps := ⟨tree, shown, rfl⟩

/-- Reading a workflow whose root job is stored. -/
theorem Reached.reads_live (reached : Reached routing settings system)
    (known : system.records.get? id = some record)
    (stored : system.queues.job? record.rootKey = some root) :
    ∃ view after, system.read id = (.ok (some view), after) ∧
      view.Describes system.queues record root ∧
      after.records.get? id =
        some { record with status := view.status, updatedAt := view.updatedAt } ∧
      system.Beside id after ∧ after.read id = (.ok (some view), after) := by
  obtain ⟨reachable, keyed⟩ := reached.sound
  obtain ⟨tree, found, shown⟩ := reachable.shows_tree? stored
  by_cases settled : record.isTerminal = true ∨ root.state.text = record.status
  · have read := read_of_settled known stored settled found
    refine ⟨_, _, read, describes_ofRecord shown record.status record.updatedAt ?_, known,
      ⟨rfl, rfl, rfl, fun _ _ => rfl⟩, read⟩
    split
    · rfl
    · next isOpen => exact (settled.resolve_left isOpen).symm
  · obtain ⟨notFinal, differs⟩ := not_or.1 settled
    have named := keyed.id_eq known
    let current := record.written root.state.text system.time
    let after : WorkflowSystem := { system with records := system.records.insert current }
    have looked := RecordStore.get?_insert system.records current
    have rewritten : after.records.get? id = some current := (looked id).trans (if_pos named.symm)
    have reconciled := run_reconcile_of_unsettled (named.symm ▸ known) stored
      (Bool.eq_false_iff.2 notFinal) differs
    have read : system.read id = (.ok (some (.ofRecord current tree)), after) :=
      read_of_live known (run_examine_of_live reconciled found)
    have again : after.read id = (.ok (some (.ofRecord current tree)), after) :=
      read_of_settled rewritten stored (.inr rfl) found
    have reported : (WorkflowView.ofRecord current tree).Describes system.queues record root :=
      describes_ofRecord shown root.state.text system.time (if_neg notFinal).symm
    exact ⟨_, after, read, reported, rewritten, ⟨rfl, rfl, rfl, fun other different =>
      (looked other).trans (if_neg fun same => different (same.trans named))⟩, again⟩

end Reading

/-- Reading is exact.  In every system that can be reached, reading a workflow gives what the
record and the queues say at that moment: nothing if there is no record, and nothing but the
deletion of the record if its root job is gone; otherwise a view of all jobs that are left
under the root job.  Nothing else changes, and reading again gives the same. -/
theorem reads_exactly {routing : Routing} {settings : Dict QueueSettings}
    {system : WorkflowSystem} (reached : Reached routing settings system) (id : Uuid) :
    system.ReadsExactly id := by
  obtain ⟨reachable, keyed⟩ := reached.sound
  constructor
  case unknown => exact read_of_unknown
  case live => exact fun record root known stored => reached.reads_live known stored
  case expired =>
    intro record known gone
    obtain ⟨records, deleted, read⟩ := read_of_expired known (run_examine_of_gone gone)
    have removed := RecordStore.get?_of_delete deleted
    have absent : records.get? id = none := (removed id).trans (if_pos rfl)
    exact ⟨_, read, absent, ⟨rfl, rfl, rfl, fun other different =>
      (removed other).trans (if_neg different)⟩, read_of_unknown absent⟩

/-- A workflow of two steps whose first job is removed before it runs. -/
def Sample.torn : List Service.Move :=
  [.submit (Uuid.ofNat 7)
      [Task.plain "inner" "work", { Task.plain "outer" "work" with fathers := ["inner"] }],
    .work (.remove ⟨"default", jobIdOf 1⟩)]

theorem reads_exactly_torn : ∃ service,
    Service.follow? Sample.torn (.start .standard .empty) = some service ∧
    (service.system.read (Uuid.ofNat 7)).1.toOption.map
        (Option.map fun view => (view.status, view.steps.map StepStatus.jobName)) =
      some (some ("waiting-children", ["outer"])) ∧
    service.system.ReadsExactly (Uuid.ofNat 7) := by
  have seen : (Service.follow? Sample.torn (.start .standard .empty)).map (fun service =>
      (service.system.read (Uuid.ofNat 7)).1.toOption.map
        (Option.map fun view => (view.status, view.steps.map StepStatus.jobName))) =
      some (some (some ("waiting-children", ["outer"]))) := by decide +kernel
  obtain ⟨service, followed, same⟩ := Option.map_eq_some_iff.1 seen
  exact ⟨service, followed, same,
    reads_exactly (Service.reachable_follow? .start followed).reached (Uuid.ofNat 7)⟩

end WorkflowSystem

end Relay
