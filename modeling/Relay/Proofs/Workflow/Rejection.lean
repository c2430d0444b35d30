import Relay.Proofs.Workflow.Circumstances
import Relay.Proofs.Workflow.Validation

/-!
# What a failed submission leaves behind

What is rejected because of the tasks has not touched anything.  What the queues reject has
touched them: the places may be missing on the last queue only, after all the others have given
theirs, and some queues may be followed now, or exist at all.  But no job, no number and no
record is another than before.

A store that refuses the record comes too late for that.  By then the queues have taken the
chain, and nobody takes it back: its jobs will run, and no record tells of them.
-/

namespace Relay

namespace WorkflowSystem

/-- What has to be left of a submission that was rejected because of the queues. -/
structure LeavesNoTrace (system after : WorkflowSystem) : Prop extends
    OnlyFollowed system after where
  jobs : after.queues.jobs = system.queues.jobs
  ready : ∀ queue, (after.queues.lane queue).ready = (system.queues.lane queue).ready
  unfinished : ∀ queue, after.queues.unfinishedCount queue = system.queues.unfinishedCount queue

theorem OnlyFollowed.leavesNoTrace {system after : WorkflowSystem}
    (followed : OnlyFollowed system after) : LeavesNoTrace system after where
  toOnlyFollowed := followed
  jobs := followed.queues.jobs
  ready queue := by rw [followed.queues.lane]
  unfinished := followed.queues.unfinishedCount

/-- A rejected submission leaves no trace, whichever state the system is in, in whichever order
the chain claims its places, and over however many queues they are spread.  If the tasks or the
template are rejected, the system is the same as before.  If a queue is full, the jobs, what is
ready, all numbers of unfinished jobs and all records are the same, and at most some idle
queues and some listeners are new.  There is no other reason than these but a store that
refuses the record. -/
theorem rejected_without_trace {circumstances : Circumstances} {system : WorkflowSystem}
    {id : Uuid} {request : Submission.Request} {problem : WorkflowProblem}
    (rejected : (system.submitUnder circumstances id request).1 = .error problem) :
    (problem.isValidation = true ∧ (system.submitUnder circumstances id request).2 = system) ∨
      (∃ queue limit, problem = .queue (.queueFull queue limit) ∧
        LeavesNoTrace system (system.submitUnder circumstances id request).2) ∨
      ∃ refusal, circumstances.refusal = some refusal ∧ problem = .store refusal := by
  have ends := system.submitUnder_ends circumstances id request
  generalize system.submitUnder circumstances id request = outcome at rejected ends ⊢
  cases ends with
  | invalid unplanned =>
      cases rejected
      exact .inl ⟨Submission.Request.isValidation_of_plan unplanned, rfl⟩
  | @refused tasks chain _ _ planned refused =>
      cases rejected
      obtain ⟨⟨queue, limit, rfl⟩, touched⟩ := Queues.touched_of_addInOrder refused
      exact .inr (.inl ⟨queue, limit, rfl,
        ((OnlyFollowed.listening system chain).touched touched).leavesNoTrace⟩)
  | unrecorded planned accepted refusal =>
      cases rejected
      exact .inr (.inr ⟨_, refusal, rfl⟩)
  | recorded => cases rejected

/-- A system with room for a single job on one of its queues. -/
def Sample.narrow : WorkflowSystem :=
  .start .standard (Dict.empty.insert "narrow" { QueueSettings.standard with maxQueueLength := 1 })

/-- Two tasks that belong to a queue with room for one, and one task that does not. -/
def Sample.crowd : List Task :=
  [{ Task.plain "first" "work" with queueName := some "broad" },
    { Task.plain "second" "work" with queueName := some "narrow" },
    { Task.plain "third" "work" with queueName := some "narrow" }]

/-- The place on the one queue is claimed before it turns out that the other one is full. -/
theorem rejected_without_trace_crowd :
    let outcome := Sample.narrow.submitUnder .usual (Uuid.ofNat 7) (.list Sample.crowd)
    outcome.1 = .error (.queue (.queueFull "narrow" 1)) ∧
    ((WorkflowProblem.queue (.queueFull "narrow" 1)).isValidation = true ∧
      outcome.2 = Sample.narrow ∨
      (∃ queue limit, WorkflowProblem.queue (.queueFull "narrow" 1) =
        .queue (.queueFull queue limit) ∧ LeavesNoTrace Sample.narrow outcome.2) ∨
      ∃ refusal, Circumstances.usual.refusal = some refusal ∧
        WorkflowProblem.queue (.queueFull "narrow" 1) = .store refusal) := by
  have rejected : (Sample.narrow.submitUnder .usual (Uuid.ofNat 7) (.list Sample.crowd)).1 =
      .error (.queue (.queueFull "narrow" 1)) := by decide +kernel
  exact ⟨rejected, rejected_without_trace rejected⟩

end WorkflowSystem

/-! ## Jobs that no record tells of -/

/-- The queues hold the jobs of a chain as they were submitted. -/
def Queues.Holds (queues : Queues) (links : List Link) : Prop :=
  ∀ link ∈ links, link.Untouched queues.job?

/-- The store holds the record of a workflow, and it points at the given root job. -/
def RecordStore.PointsAt (store : RecordStore) (id : Uuid) (root : JobKey) : Prop :=
  ∃ record, store.get? id = some record ∧ record.rootKey = root

namespace WorkflowSystem

/-- What the submission of a chain leaves in the queues and in the store. -/
structure LeavesBehind (circumstances : Circumstances) (system : WorkflowSystem) (id : Uuid)
    (tasks : List Task) (links : List Link) (root : JobKey)
    (reply : Except WorkflowProblem SubmittedWorkflow) (after : WorkflowSystem) : Prop where
  /-- The jobs are there unless the queues reject them. -/
  queued : after.queues.Holds links ↔ ∀ problem, reply ≠ .error (.queue problem)
  /-- The record is there if the submission succeeds. -/
  recorded : after.records.PointsAt id root ↔ ∃ submitted, reply = .ok submitted
  /-- So the jobs are there without a record exactly if the store refuses. -/
  tracked : (after.queues.Holds links ↔ after.records.PointsAt id root) ↔
    ∀ problem, reply ≠ .error (.store problem)
  /-- That comes to light when the queues have taken the jobs. -/
  refused : ∀ problem, reply = .error (.store problem) ↔
    circumstances.refusal = some problem ∧ after.queues.Holds links
  /-- The jobs of all tasks are then left behind, and take up places on their queues. -/
  abandoned : ∀ problem, reply = .error (.store problem) → after.records = system.records ∧
    after.queues.jobCount = system.queues.jobCount + tasks.length ∧
    ∀ queue, after.queues.unfinishedCount queue = system.queues.unfinishedCount queue +
      (tasks.map system.routing.queueFor).count queue

section LeavesBehind

variable {routing : Routing} {settings : Dict QueueSettings} {system : WorkflowSystem}
  {id : Uuid} {order : List Task} {chain : Flow} {queues : Queues}

/-- The key of the next root job is free. -/
theorem Reached.root_free (reached : Reached routing settings system) (queue : String) :
    system.queues.job? ⟨queue, jobIdOf system.queues.nextSerial⟩ = none := by
  rw [Option.eq_none_iff_forall_ne_some]
  intro job stored
  obtain ⟨number, below, same⟩ := reached.sound.1.steady.sound.born stored
  have : system.queues.nextSerial = number := jobIdOf_injective same
  exact Nat.lt_irrefl number (this ▸ below)

/-- Where the jobs are those from before, a chain is not among them. -/
theorem Reached.not_holds (reached : Reached routing settings system)
    (member : chain ∈ Chain.wrapAll id system.routing order)
    (jobs : queues.jobs = system.queues.jobs) :
    ¬ queues.Holds (Chain.links id system.routing system.queues.nextSerial order) := by
  intro holds
  have isRoot := @Chain.root_links id system.routing system.queues.nextSerial order chain member
  obtain ⟨link, last, key⟩ := Option.map_eq_some_iff.1 isRoot
  have stored := holds link (List.mem_of_getLast? last)
  rw [Link.Untouched, key, Queues.job?, jobs] at stored
  exact absurd (stored.symm.trans (reached.root_free chain.queueName)) (Option.some_ne_none _)

theorem not_pointsAt (fresh : system.records.get? id = none) (root : JobKey) :
    ¬ system.records.PointsAt id root := by
  rintro ⟨record, stored, -⟩
  rw [fresh] at stored
  cases stored

end LeavesBehind

/-- No flow goes untracked unless the store refuses its record.  In every reachable state, for
every list of valid tasks and a fresh identifier, in whichever order places are claimed: the
jobs are in the queues unless the queues reject them, and the record is in the store if the
submission succeeds.  These are the same except when the store refuses the record of a chain
that the queues have taken; then all the jobs are left in the queues, with their places, and
there is no record of them. -/
theorem tracked_unless_refused {routing : Routing} {settings : Dict QueueSettings}
    {circumstances : Circumstances} {system : WorkflowSystem} {id : Uuid} {tasks : List Task}
    (reached : Reached routing settings system) (fresh : system.records.get? id = none)
    (places : ∀ flow, (circumstances.places flow).Perm (Queues.countsOf flow))
    (valid : Graph.validate tasks = .ok ()) :
    ∃ order chain, Graph.order tasks = .ok order ∧
      Submission.chainOf system.routing id tasks = .ok chain ∧
      LeavesBehind circumstances system id tasks
        (Chain.links id system.routing system.queues.nextSerial order)
        ⟨chain.queueName, jobIdOf system.queues.nextSerial⟩
        (system.submitUnder circumstances id (.list tasks)).1
        (system.submitUnder circumstances id (.list tasks)).2 := by
  obtain ⟨order, ordered, perm, -, nonempty⟩ := Graph.order_of_validate valid
  obtain ⟨chain, compiled, -⟩ := @Chain.compile_ok id system.routing order nonempty
  have member := Chain.mem_wrapAll_of_compile compiled
  have compiled := (Submission.chainOf_eq_compile system.routing id valid ordered).trans compiled
  have planned : Submission.Request.plan system.routing id (.list tasks) = .ok (tasks, chain) := by
    simp [Submission.Request.plan, Submission.Request.tasks, compiled]
  refine ⟨order, chain, ordered, compiled, ?_⟩
  have heard := OnlyFollowed.listening system chain
  have unrecorded := not_pointsAt fresh ⟨chain.queueName, jobIdOf system.queues.nextSerial⟩
  rw [← heard.records] at unrecorded
  have ends := system.submitUnder_ends circumstances id (.list tasks)
  generalize system.submitUnder circumstances id (.list tasks) = outcome at ends ⊢
  cases ends with
  | invalid unplanned => cases unplanned.symm.trans planned
  | refused again refused =>
      cases planned.symm.trans again
      obtain ⟨-, touched⟩ := Queues.touched_of_addInOrder refused
      have unqueued := reached.not_holds member (heard.queues.trans touched).jobs
      constructor <;> simp [unqueued, unrecorded]
  | @unrecorded _ _ _ queues _ again accepted refusal =>
      cases planned.symm.trans again
      obtain ⟨-, plants, jobCount, unfinished⟩ := admits_of_accepted reached (places chain) accepted
      have queued : queues.Holds (Chain.links id system.routing system.queues.nextSerial order) :=
        Chain.untouched_of_plants plants member
      rw [Chain.jobCount_of_mem member, perm.length_eq] at jobCount
      constructor
      case abandoned =>
        refine fun _ _ => ⟨heard.records, jobCount, fun queue => ?_⟩
        rw [unfinished, Chain.queueList_of_mem member, List.count_reverse,
          (perm.map system.routing.queueFor).count_eq]
      all_goals simp [queued, unrecorded, refusal]
  | @recorded _ _ _ queues record again accepted unhindered isRecord =>
      cases planned.symm.trans again
      obtain ⟨rfl, plants, -, -⟩ := admits_of_accepted reached (places chain) accepted
      have queued : queues.Holds (Chain.links id system.routing system.queues.nextSerial order) :=
        Chain.untouched_of_plants plants member
      have recorded : ((system.listening chain).records.insert record).PointsAt id
          ⟨chain.queueName, jobIdOf system.queues.nextSerial⟩ := by
        refine ⟨record, ?_, by rw [isRecord]; rfl⟩
        rw [RecordStore.get?_insert, if_pos (by rw [isRecord]; rfl)]
      constructor <;> simp [queued, recorded, unhindered]

/-- A store without connections. -/
def Sample.offline : Circumstances := ⟨Queues.countsOf, some .poolTimeout⟩

theorem tracked_unless_refused_offline :
    ∃ order chain, Graph.order Sample.crowd = .ok order ∧
      Submission.chainOf .standard (Uuid.ofNat 7) Sample.crowd = .ok chain ∧
      LeavesBehind Sample.offline (.start .standard .empty) (Uuid.ofNat 7) Sample.crowd
        (Chain.links (Uuid.ofNat 7) .standard 0 order) ⟨chain.queueName, jobIdOf 0⟩
        ((start .standard .empty).submitUnder Sample.offline (Uuid.ofNat 7)
          (.list Sample.crowd)).1
        ((start .standard .empty).submitUnder Sample.offline (Uuid.ofNat 7)
          (.list Sample.crowd)).2 :=
  tracked_unless_refused (@Reached.start .standard .empty) rfl (fun _ => .refl _) (by decide)

/-- A chain of a single task is left in the queues when the store has no connection, without a
record and at the cost of a place. -/
theorem untracked_offline :
    let tasks := [Task.plain "only" "plain"]
    let links := Chain.links (Uuid.ofNat 7) .standard 0 tasks
    let outcome := (start .standard .empty).submitUnder Sample.offline (Uuid.ofNat 7) (.list tasks)
    outcome.1 = .error (.store .poolTimeout) ∧ outcome.2.queues.Holds links ∧
      outcome.2.queues.jobCount = 1 ∧ outcome.2.queues.unfinishedCount "default" = 1 ∧
      outcome.2.records = .empty ∧
      ¬ (outcome.2.queues.Holds links ↔
        outcome.2.records.PointsAt (Uuid.ofNat 7) ⟨"default", jobIdOf 0⟩) := by
  intro tasks links outcome
  have holds : outcome.2.queues.Holds links := by
    change ∀ link ∈ links, outcome.2.queues.job? link.key = some link.seed
    decide +kernel
  have records : outcome.2.records = .empty := by decide +kernel
  refine ⟨by decide +kernel, holds, by decide +kernel, by decide +kernel, records, fun same => ?_⟩
  obtain ⟨record, stored, -⟩ := same.1 holds
  rw [records] at stored
  cases stored

end WorkflowSystem

end Relay
