import Relay.Proofs.Queue.Jobs

/-!
# No job is lost and none is scheduled twice

What the invariant of the scheduler says in terms of the queues themselves, in every
state that any order of steps leads to.
-/

namespace Relay

namespace Queues

/-- Every stored job is scheduled exactly as its state asks for, counts its open children
exactly, and belongs to a family that is stored from the root down. -/
structure Conserved (queues : Queues) : Prop where
  /-- A waiting job has one pending start, a delayed one has one timer, an active one has one
  running call, and apart from that nothing is pending for a job. -/
  agenda : ∀ key job, queues.job? key = some job → queues.agenda key = job.state.agenda
  /-- The pending children are those whose completion was not announced, stored or evicted. -/
  pending : ∀ key job, queues.job? key = some job →
    job.pendingChildren = job.children.countP fun child => !queues.hasCompleted child
  /-- The completion of a stored job was announced if and only if it has completed. -/
  announced : ∀ key job, queues.job? key = some job →
    (queues.hasCompleted key = true ↔ job.state = .completed)
  /-- A job that waits for its children has an open one. -/
  waitsForSome : ∀ key job, queues.job? key = some job → job.state = .waitingChildren →
    1 ≤ job.pendingChildren
  /-- A job that is ready, under way or done has no open child. -/
  waitsForNone : ∀ key job, queues.job? key = some job →
    job.state ∈ [.waiting, .active, .delayed, .completed] → job.pendingChildren = 0
  /-- When a completion is told to a parent, the parent counts at least that child. -/
  neverSaturates : ∀ call ∈ queues.running, ∀ job, queues.job? call.key = some job →
    ∀ above, job.parent = some above → ∀ value, ∃ aboveJob,
      (({ queues with running := queues.running.erase call } : Queues).noteCompleted
        call.key job value).job? above = some aboveJob ∧ 1 ≤ aboveJob.pendingChildren
  /-- The parent of a job is stored and lists the job once. -/
  parent : ∀ key job, queues.job? key = some job → ∀ above, job.parent = some above →
    ∃ aboveJob, queues.job? above = some aboveJob ∧ aboveJob.children.count key = 1
  /-- A stored child knows its parent. -/
  child : ∀ key job, queues.job? key = some job → ∀ child ∈ job.children, ∀ childJob,
    queues.job? child = some childJob → childJob.parent = some key

/-- No job is lost and none is scheduled twice, whatever the order of steps. -/
theorem no_job_lost_or_doubled {settings : Dict QueueSettings} {queues : Queues}
    (reached : Reachable settings queues) : Conserved queues := by
  have steady := reached.steady
  constructor
  case agenda => exact fun key job stored => steady.agenda_eq stored
  case pending => exact steady.sound.pending
  case announced => exact steady.sound.completed
  case waitsForSome =>
    intro key job stored waiting
    have blocked := steady.sound.blocked key job stored
    rwa [Job.Blocked, waiting] at blocked
  case waitsForNone =>
    intro key job stored state
    have blocked := steady.sound.blocked key job stored
    simp only [List.mem_cons, List.not_mem_nil, or_false] at state
    rcases state with state | state | state | state <;> rwa [Job.Blocked, state] at blocked
  case neverSaturates =>
    intro call isRunning job stored above parent value
    obtain ⟨active, ended⟩ := steady.endCall isRunning stored
    obtain ⟨aboveJob, aboveStored, -, positive, waiting⟩ :=
      ended.sound.above_open stored (by rw [active]; decide) parent
    have different : above ≠ call.key := by
      rintro rfl
      cases stored.symm.trans aboveStored
      rw [active] at waiting
      exact waiting.elim (by decide) (by decide)
    have jobs := @job?_noteCompleted { queues with running := queues.running.erase call } _ _
      stored value
    refine ⟨aboveJob, ?_, positive⟩
    rw [jobs, Function.update_of_ne different]
    exact aboveStored
  case parent =>
    intro key job stored above parent
    have lineage := @View.lineage_of_stored queues.view key job stored
    rw [parent] at lineage
    obtain ⟨grand, siblings, found, listed⟩ :=
      (steady.sound.family.parent _ _ _ lineage).resolve_left List.not_mem_nil
    obtain ⟨aboveJob, aboveStored, same⟩ := Option.map_eq_some_iff.1 found
    cases same
    exact ⟨aboveJob, aboveStored, List.count_eq_one_of_mem
      (steady.sound.family.distinct _ _ _ (View.lineage_of_stored aboveStored)) listed⟩
  case child =>
    intro key job stored child member childJob childStored
    exact steady.sound.parent_of_listed childStored stored member

/-- Two jobs, one above the other. -/
def Sample.pair : Flow :=
  ⟨"above", "default", .null, .standard, [⟨"below", "default", .null, .standard, []⟩]⟩

theorem no_job_lost_or_doubled_pair :
    Conserved ((start .empty).addInOrder (countsOf Sample.pair) Sample.pair).2 :=
  no_job_lost_or_doubled (.step (@Reachable.start .empty) (.add (.refl _)))

end Queues

end Relay
