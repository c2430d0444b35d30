import Relay.Proofs.Queue.Conservation
import Relay.Proofs.Queue.Finality

/-!
# No job is stuck without a cause

When nothing is pending any more, a job that has not finished waits for a child that will
never complete: one that was evicted, or has failed and keeps that to itself, or waits for
such a child in turn.  Two invariants lie behind this.  A failure that binds the job above
is never left alone.  And a child is always younger than its parent, so looking for the
cause further and further down comes to an end.
-/

namespace Relay

namespace Queues

variable {queues after : Queues} {act : Act} {key : JobKey} {job : Job} {idle : Option JobKey}
  {settings : Dict QueueSettings}

/-! ## Children are younger than their parents -/

/-- The children of a stored job were given their identifiers after it. -/
def Descending (queues : Queues) : Prop :=
  ∀ key job, queues.job? key = some job → ∀ child ∈ job.children, key.Before child

theorem Descending.step (descending : Descending queues) (effect : Effect queues after act) :
    Descending after := by
  intro key job stored child isChild
  rcases effect.origin stored with ⟨old, before, endures⟩ | ⟨planting, plants, holds⟩
  · exact descending key old before child (endures.stems.children ▸ isChild)
  · exact (plants.grown.seedling key job holds).younger child isChild

theorem Reachable.descending (reached : Reachable settings queues) : Descending queues := by
  induction reached with
  | start => exact fun _ job stored => (Option.some_ne_none job stored.symm).elim
  | step reached step ih => exact ih.step (step.effect reached.steady)

/-! ## Jobs that fail together -/

/-- A job has failed in a way that binds the job above. -/
structure Binds (job : Job) (above : JobKey) : Prop where
  failed : job.state = .failed
  binding : job.options.failParentOnFailure = true
  parent : job.parent = some above

/-- The job above a failure that binds it has failed, with one exception at most. -/
def FailTogether (queues : Queues) (exception : Option JobKey) : Prop :=
  ∀ key job above, queues.job? key = some job → Binds job above →
    exception = some above ∨ queues.jobState? above = some .failed

theorem jobState?_of_stored (stored : queues.job? key = some job) :
    queues.jobState? key = some job.state := by
  rw [jobState?, stored, Option.map_some]

/-- The exception is none if its job is finished or gone. -/
theorem FailTogether.settle (together : FailTogether queues (some key))
    (steady : Steady queues idle [])
    (ended : ∀ job, queues.job? key = some job → job.state.isFinished = true) :
    FailTogether queues none := by
  intro other job above stored binds
  rcases together other job above stored binds with same | failed
  · cases same
    have isOpen : job.state ≠ .completed := by rw [binds.failed]; decide
    obtain ⟨aboveJob, aboveStored, -, -, waiting | failed⟩ :=
      steady.sound.above_open stored isOpen binds.parent
    · have finished := ended aboveJob aboveStored
      rw [waiting] at finished
      cases finished
    · exact .inr (failed ▸ jobState?_of_stored aboveStored)
  · exact .inr failed

/-- When the job of the exception fails, the job above it is the only exception left. -/
theorem FailTogether.noteFailed {exception : Option JobKey}
    (together : FailTogether queues (some key)) (stored : queues.job? key = some job)
    (reason : String) (above : ∀ parent, job.options.failParentOnFailure = true →
      job.parent = some parent → exception = some parent) :
    FailTogether (queues.noteFailed key job reason) exception := by
  have jobs := job?_noteFailed stored reason
  have failed : ∀ other, other = key ∨ queues.jobState? other = some .failed →
      (queues.noteFailed key job reason).jobState? other = some .failed := by
    intro other known
    rw [jobState?, jobs, Function.update_apply]
    split
    · rfl
    · next different => exact known.resolve_left different
  intro other found parent isFound binds
  rw [jobs, Function.update_apply] at isFound
  split at isFound
  · cases isFound
    exact .inl (above parent binds.binding binds.parent)
  · rcases together other found parent isFound binds with same | already
    · exact .inr (failed parent (.inl (Option.some.inj same).symm))
    · exact .inr (failed parent (.inr already))

/-- Number of stored jobs that are not finished. -/
def unfinishedJobs (queues : Queues) : Nat :=
  queues.jobs.entries.countP fun entry => !entry.2.state.isFinished

theorem unfinishedJobs_noteFailed (stored : queues.job? key = some job)
    (unfinished : job.state.isFinished = false) (reason : String) :
    (queues.noteFailed key job reason).unfinishedJobs + 1 = queues.unfinishedJobs := by
  have counted := Dict.countP_insert (fun entry => !entry.2.state.isFinished) queues.jobs key.id
    (queues.failedJob job reason)
  have finished : (queues.failedJob job reason).state.isFinished = true := rfl
  simp only [((job?_eq_some_iff _ _ _).1 stored).1, Option.elim_some, unfinished, finished,
    Bool.not_false, Bool.not_true, Bool.false_eq_true, if_true, if_false, Nat.add_zero] at counted
  exact counted

/-- A job that fails takes the jobs above it along as far as its failure binds them. -/
theorem failTogether_failUpward (inherited : String) {height : Nat} (reason : String)
    (steady : Steady queues idle []) (only : ∀ other, idle = some other → other = key)
    (nothing : ∀ job, queues.job? key = some job → queues.view.agenda key = .nothing)
    (enough : queues.unfinishedJobs ≤ height) (together : FailTogether queues (some key)) :
    FailTogether (failUpward inherited height queues key reason) none := by
  -- Every job that fails leaves one unfinished job less, so the height is never used up
  -- before the failure has come to its end.
  induction height generalizing queues idle key reason with
  | zero =>
      apply together.settle steady
      intro job stored
      by_contra unfinished
      have counted := unfinishedJobs_noteFailed stored (Bool.eq_false_iff.2 unfinished) reason
      omega
  | succ height ih =>
      unfold failUpward
      split
      · next job stored =>
          split
          · next finished =>
              apply together.settle steady
              intro found isFound
              exact Option.some.inj (stored.symm.trans isFound) ▸ finished
          · next unfinished =>
              have isOpen : job.state ≠ .completed := fun done => unfinished (by rw [done]; rfl)
              have noted := (steady.noteFailed only stored (nothing job stored) isOpen reason).1
              split
              · next parent _ isParent =>
                  have counted :=
                    unfinishedJobs_noteFailed stored (Bool.eq_false_iff.2 unfinished) reason
                  apply ih _ noted (only_none parent)
                  · exact fun _ _ =>
                      steady.nothing_above only stored (nothing job stored) isOpen reason isParent
                  · omega
                  · exact together.noteFailed stored reason
                      fun _ _ same => isParent.symm.trans same
              · next alone =>
                  exact together.noteFailed stored reason
                    fun parent binding isParent => (alone parent binding isParent).elim
      · next missing =>
          apply together.settle steady
          intro found isFound
          cases missing.symm.trans isFound

/-- Every step keeps failures together. -/
theorem FailTogether.step (together : FailTogether queues none) (steady : Steady queues none [])
    (step : Step queues act after) : FailTogether after none := by
  have failedAbove : ∀ key job above, queues.job? key = some job → Binds job above →
      queues.jobState? above = some .failed :=
    fun key job above stored binds => (together key job above stored binds).resolve_left nofun
  have effect := step.effect steady
  cases step.course steady with
  | spares spares =>
      intro key new above stored binds
      obtain ⟨old, before, failed⟩ := spares.failed key new stored binds.failed
      have endures := effect.endures steady before stored
      have boundBefore : Binds old above :=
        { failed
          binding := endures.stems.options ▸ binds.binding
          parent := endures.stems.parent ▸ binds.parent }
      obtain ⟨aboveJob, aboveStored, aboveFailed⟩ :=
        Option.map_eq_some_iff.1 (failedAbove key old above before boundBefore)
      obtain ⟨aboveNow, aboveLater⟩ := spares.stored above aboveJob aboveStored
      have finished : aboveJob.state.isFinished = true := by rw [aboveFailed]; rfl
      have state := ((effect.endures steady aboveStored aboveLater).ended finished).1
      exact .inr ((jobState?_of_stored aboveLater).trans (by rw [state, aboveFailed]))
  | evicts evicts =>
      intro key job above stored binds
      have isOpen : job.state ≠ .completed := by rw [binds.failed]; decide
      obtain ⟨aboveJob, aboveStored, -⟩ :=
        (steady.step step).sound.above_open stored isOpen binds.parent
      have failed := failedAbove key job above (evicts.jobs key job stored) binds
      rw [jobState?_of_stored (evicts.jobs above aboveJob aboveStored)] at failed
      exact .inr ((jobState?_of_stored aboveStored).trans failed)
  | @fails call isRunning reason whole =>
      have enough : queues.unfinishedJobs ≤ queues.jobs.size := List.countP_le_length
      -- The job of the call is about to fail, so it may be the exception.
      have loose : FailTogether { queues with running := queues.running.erase call }
          (some call.key) :=
        fun key job above stored binds => .inr (failedAbove key job above stored binds)
      rw [whole]
      cases stored : queues.job? call.key with
      | some job =>
          have ended := (steady.endCall isRunning stored).2
          refine failTogether_failUpward _ reason ended
            (fun other same => (Option.some.inj same).symm) (fun found isFound => ?_) enough loose
          exact (ended.sound.agenda _ found isFound).trans (if_pos rfl)
      | none =>
          refine failTogether_failUpward _ reason (steady.endCall_of_missing isRunning stored)
            (only_none call.key) (fun found isFound => ?_) enough loose
          cases stored.symm.trans isFound

theorem Reachable.failTogether (reached : Reachable settings queues) :
    FailTogether queues none := by
  induction reached with
  | start => exact fun _ job _ stored => (Option.some_ne_none job stored.symm).elim
  | step reached step ih => exact ih.step reached.steady step

/-! ## Queues at rest -/

/-- Every queue with a job has a worker, and nothing is pending. -/
structure AtRest (queues : Queues) : Prop where
  staffed : ∀ key job, queues.job? key = some job → queues.hasWorker key.queue = true
  /-- No worker has anything to start or waits for a token or a place. -/
  workers : ∀ queue, queues.hasWorker queue = true →
    (queues.lane queue).worker = .idle ∧ (queues.lane queue).ready = []
  running : queues.running = []
  timers : queues.timers = []

/-- A job waits for a child that will never complete. -/
inductive Stuck (queues : Queues) : JobKey → Prop where
  /-- The child was evicted before it had completed. -/
  | evicted {key child : JobKey} {job : Job} (stored : queues.job? key = some job)
      (waiting : job.state = .waitingChildren) (isChild : child ∈ job.children)
      (gone : queues.job? child = none) (incomplete : queues.hasCompleted child = false) :
      Stuck queues key
  /-- The child has failed and keeps that to itself. -/
  | failed {key child : JobKey} {job childJob : Job} (stored : queues.job? key = some job)
      (waiting : job.state = .waitingChildren) (isChild : child ∈ job.children)
      (childStored : queues.job? child = some childJob) (childFailed : childJob.state = .failed)
      (alone : childJob.options.failParentOnFailure = false) : Stuck queues key
  /-- The child waits for such a child in turn. -/
  | behind {key child : JobKey} {job : Job} (stored : queues.job? key = some job)
      (waiting : job.state = .waitingChildren) (isChild : child ∈ job.children)
      (childStuck : Stuck queues child) : Stuck queues key

/-- One job is another or stands somewhere below it. -/
def Descends (queues : Queues) : JobKey → JobKey → Prop :=
  Relation.ReflTransGen fun above child =>
    ∃ job, queues.job? above = some job ∧ child ∈ job.children

theorem AtRest.agenda (rest : AtRest queues) (stored : queues.job? key = some job) :
    queues.agenda key = .nothing := by
  obtain ⟨idle, ready⟩ := rest.workers key.queue (rest.staffed key job stored)
  unfold Queues.agenda starts
  rw [idle, ready, rest.running, rest.timers]
  rfl

/-- At rest a job is finished or waits for a child. -/
theorem AtRest.state (rest : AtRest queues) (steady : Steady queues none [])
    (stored : queues.job? key = some job) :
    job.state = .completed ∨ job.state = .failed ∨ job.state = .waitingChildren := by
  have nothing : job.state.agenda = .nothing :=
    (steady.agenda_eq stored).symm.trans (rest.agenda stored)
  cases state : job.state with
  | completed => exact .inl rfl
  | failed => exact .inr (.inl rfl)
  | waitingChildren => exact .inr (.inr rfl)
  | waiting | delayed | active =>
      rw [state] at nothing
      cases nothing

/-- A job that waits for its children has one that has not completed. -/
theorem Steady.open_child (steady : Steady queues none []) (stored : queues.job? key = some job)
    (waiting : job.state = .waitingChildren) :
    ∃ child ∈ job.children, queues.hasCompleted child = false := by
  have blocked := steady.sound.blocked key job stored
  rw [Job.Blocked, waiting] at blocked
  have positive : 0 < job.pendingChildren := blocked
  rw [steady.sound.pending key job stored] at positive
  obtain ⟨child, isChild, incomplete⟩ := List.countP_pos_iff.1 positive
  exact ⟨child, isChild, by simpa using incomplete⟩

/-- At rest a job that waits for its children is stuck.  The induction is on the number of
jobs that are younger than the job. -/
theorem AtRest.stuck (rest : AtRest queues) (reached : Reachable settings queues) {number : Nat}
    (younger : Nat) (isNumber : key.id = jobIdOf number)
    (bound : queues.nextSerial ≤ number + younger) (stored : queues.job? key = some job)
    (waiting : job.state = .waitingChildren) : Stuck queues key := by
  have steady := reached.steady
  induction younger generalizing key job number with
  | zero =>
      obtain ⟨own, below, same⟩ := steady.sound.born stored
      have := jobIdOf_injective (isNumber.symm.trans same)
      have below : own < queues.nextSerial := below
      omega
  | succ younger ih =>
      obtain ⟨child, isChild, incomplete⟩ := steady.open_child stored waiting
      cases childStored : queues.job? child with
      | none => exact .evicted stored waiting isChild childStored incomplete
      | some childJob =>
          have parent := steady.sound.parent_of_listed childStored stored isChild
          rcases rest.state steady childStored with completed | failed | blocked
          · rw [← Bool.not_eq_true] at incomplete
            exact absurd ((steady.sound.completed child childJob childStored).2 completed) incomplete
          · cases binding : childJob.options.failParentOnFailure with
            | false => exact .failed stored waiting isChild childStored failed binding
            | true =>
                have above := (reached.failTogether child childJob key childStored
                  ⟨failed, binding, parent⟩).resolve_left nofun
                rw [jobState?_of_stored stored, waiting] at above
                cases above
          · obtain ⟨own, later, isOwn, isLater, less⟩ :=
              reached.descending key job stored child isChild
            have := jobIdOf_injective (isNumber.symm.trans isOwn)
            exact .behind stored waiting isChild
              (ih isLater (by omega) childStored blocked)

/-- Nothing below a job that is stuck is both complete and bound to fail together. -/
theorem Stuck.exists_below {root : JobKey} (stuck : Stuck queues key)
    (below : queues.Descends root key) :
    ¬ ∀ other, queues.Descends root other →
      ∃ job, queues.job? other = some job ∧ job.options.failParentOnFailure = true := by
  intro whole
  induction stuck with
  | evicted stored waiting isChild gone incomplete =>
      obtain ⟨job, found, -⟩ := whole _ (below.tail ⟨_, stored, isChild⟩)
      cases gone.symm.trans found
  | failed stored waiting isChild childStored childFailed alone =>
      obtain ⟨job, found, binding⟩ := whole _ (below.tail ⟨_, stored, isChild⟩)
      cases childStored.symm.trans found
      cases alone.symm.trans binding
  | behind stored waiting isChild childStuck ih => exact ih (below.tail ⟨_, stored, isChild⟩)

/-- What is left when nothing is pending. -/
structure Rested (queues : Queues) : Prop where
  /-- A job that is not finished waits for a child that will never complete. -/
  accounted : ∀ key job, queues.job? key = some job →
    job.state = .completed ∨ job.state = .failed ∨
      job.state = .waitingChildren ∧ Stuck queues key
  /-- The jobs of a tree that is stored as a whole and fails together are finished. -/
  trees : ∀ root, (∀ key, queues.Descends root key →
      ∃ job, queues.job? key = some job ∧ job.options.failParentOnFailure = true) →
    ∀ key, queues.Descends root key →
      ∃ job, queues.job? key = some job ∧ job.state.isFinished = true

/-- When nothing is pending, no job is stuck without a cause. -/
theorem none_stuck_silently (reached : Reachable settings queues) (rest : AtRest queues) :
    Rested queues := by
  have steady := reached.steady
  have accounted : ∀ key job, queues.job? key = some job →
      job.state = .completed ∨ job.state = .failed ∨
        job.state = .waitingChildren ∧ Stuck queues key := by
    intro key job stored
    rcases rest.state steady stored with completed | failed | waiting
    · exact .inl completed
    · exact .inr (.inl failed)
    · obtain ⟨number, -, isNumber⟩ := steady.sound.born stored
      have stuck := rest.stuck reached queues.nextSerial isNumber (Nat.le_add_left _ _) stored waiting
      exact .inr (.inr ⟨waiting, stuck⟩)
  constructor
  case accounted => exact accounted
  case trees =>
    intro root whole key below
    obtain ⟨job, stored, -⟩ := whole key below
    refine ⟨job, stored, ?_⟩
    rcases accounted key job stored with completed | failed | ⟨-, stuck⟩
    · rw [completed]; rfl
    · rw [failed]; rfl
    · exact absurd whole (stuck.exists_below below)

/-! ## Looking for rest -/

/-- A worker is idle if no lane has one that is not. -/
theorem worker_idle (lanes : (queues.lanes.entries.all fun (_, lane) =>
      lane.worker = .absent || lane.worker = .idle && lane.ready.isEmpty) = true)
    {queue : String} (staffed : queues.hasWorker queue = true) :
    (queues.lane queue).worker = .idle ∧ (queues.lane queue).ready = [] := by
  have shape : (queues.lane queue).worker = .absent ∨
      (queues.lane queue).worker = .idle ∧ (queues.lane queue).ready = [] := by
    unfold lane
    cases found : queues.lanes.get? queue with
    | none => exact .inl rfl
    | some lane =>
        have test := List.all_eq_true.1 lanes (queue, lane) (Dict.mem_of_lookup found)
        simpa using test
  unfold hasWorker at staffed
  rcases shape with absent | idle
  · rw [absent] at staffed
    cases staffed
  · exact idle

/-- Whether every queue with a job has a worker and nothing is pending. -/
def resting (queues : Queues) : Bool :=
  (queues.jobs.entries.all fun (_, job) => queues.hasWorker job.queue) &&
    (queues.lanes.entries.all fun (_, lane) =>
      lane.worker = .absent || lane.worker = .idle && lane.ready.isEmpty) &&
    queues.running.isEmpty && queues.timers.isEmpty

/-- Queues are at rest if a look at their jobs, lanes, calls and timers says so. -/
theorem atRest_of_resting (resting : queues.resting = true) : AtRest queues := by
  unfold Queues.resting at resting
  simp only [Bool.and_eq_true, List.isEmpty_iff] at resting
  obtain ⟨⟨⟨jobs, lanes⟩, running⟩, timers⟩ := resting
  constructor
  case staffed =>
    intro key job stored
    obtain ⟨found, queue⟩ := (job?_eq_some_iff _ _ _).1 stored
    exact queue ▸ List.all_eq_true.1 jobs (key.id, job) (Dict.mem_of_lookup found)
  case workers => exact fun queue staffed => worker_idle lanes staffed
  case running => exact running
  case timers => exact timers

/-- The lower one of two jobs fails for good, and keeps that to itself. -/
def Sample.contained : List Act :=
  [.add Sample.pair (countsOf Sample.pair), .startWorker "default", .advance "default",
    .advance "default", .advance "default",
    .finish Sample.callBelow (.error (.unrecoverable "broken"))]

theorem none_stuck_silently_contained : ∃ queues,
    follow? Sample.contained (.start .empty) = some queues ∧ AtRest queues ∧
      queues.jobState? ⟨"default", jobIdOf 0⟩ = some .waitingChildren ∧ Rested queues := by
  have end_ : (follow? Sample.contained (.start .empty)).map
      (fun queues => (queues.resting, queues.jobState? ⟨"default", jobIdOf 0⟩)) =
        some (true, some .waitingChildren) := by decide +kernel
  obtain ⟨queues, followed, same⟩ := Option.map_eq_some_iff.1 end_
  have rest := atRest_of_resting (congrArg Prod.fst same)
  exact ⟨queues, followed, rest, congrArg Prod.snd same,
    none_stuck_silently ((leads_of_follow? followed).reachable .start) rest⟩

end Queues

end Relay
