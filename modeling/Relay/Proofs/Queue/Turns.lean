import Relay.Proofs.Queue.History
import Relay.Proofs.Queue.Pace

/-!
# What becomes of a single job

In a step a stored job takes a few turns at most: an attempt of it is started, it is delayed or
wakes up, it is told of a child, it completes or it fails.  What none of these turns breaks is
true of every stored job, whatever happens to the jobs around it.
-/

namespace Relay

namespace Job

/-- One turn of a job, at some time, if a value may have been returned to it. -/
inductive Turn (now : Nat) (returned : Option Json) : Job → Job → Prop where
  | start {job : Job} (waiting : job.state = .waiting) :
      Turn now returned job { job with state := .active, attemptsMade := job.attemptsMade + 1 }
  | delay {job : Job} (unfinished : job.state.isFinished = false) :
      Turn now returned job { job with state := .delayed }
  | wake {job : Job} (delayed : job.state = .delayed) :
      Turn now returned job { job with state := .waiting }
  | tell {job : Job} : Turn now returned job (Queues.afterChild job)
  | complete {job : Job} {value : Json} (isReturned : returned = some value)
      (unfinished : job.state.isFinished = false) :
      Turn now returned job
        { job with state := .completed, returnValue := some value, finishedAt := some now }
  | fail {job : Job} (reason : String) (unfinished : job.state.isFinished = false) :
      Turn now returned job
        { job with state := .failed, failedReason := some reason, finishedAt := some now }

/-- Turns of a job, one after another. -/
def Turns (now : Nat) (returned : Option Json) : Job → Job → Prop :=
  Relation.ReflTransGen (Turn now returned)

end Job

namespace Queues

/-- The stored jobs take turns, and no time passes. -/
structure Turns (returned : JobKey → Option Json) (queues after : Queues) : Prop where
  now : after.now = queues.now
  jobs : ∀ key new, after.job? key = some new →
    ∃ old, queues.job? key = some old ∧ old.Turns queues.now (returned key) new

variable {queues between after : Queues} {returned : JobKey → Option Json} {act : Act}
  {key : JobKey} {old new job : Job}

/-! ## Single operations -/

theorem Turns.trans (first : Turns returned queues between) (second : Turns returned between after) :
    Turns returned queues after where
  now := second.now.trans first.now
  jobs key new stored := by
    obtain ⟨middle, before, later⟩ := second.jobs key new stored
    obtain ⟨old, start, earlier⟩ := first.jobs key middle before
    rw [first.now] at later
    exact ⟨old, start, earlier.trans later⟩

theorem turns_of_same (now : after.now = queues.now) (same : after.job? = queues.job?) :
    Turns returned queues after :=
  ⟨now, fun _ new stored => ⟨new, same ▸ stored, .refl⟩⟩

theorem turns_of_update (now : after.now = queues.now) (stored : queues.job? key = some old)
    (jobs : after.job? = Function.update queues.job? key (some new))
    (turn : old.Turn queues.now (returned key) new) : Turns returned queues after where
  now := now
  jobs other found isFound := by
    rw [jobs, Function.update_apply] at isFound
    split at isFound
    · next here =>
        cases isFound
        exact ⟨old, here ▸ stored, .single (here ▸ turn)⟩
    · exact ⟨found, isFound, .refl⟩

theorem turns_childCompleted (queues : Queues) (parent : JobKey) :
    Turns returned queues (queues.childCompleted parent) := by
  have now := (keepsPace_childCompleted queues parent).now
  cases stored : queues.job? parent with
  | none =>
      refine turns_of_same now ?_
      simp only [childCompleted, stored]
  | some job => exact turns_of_update now stored (job?_childCompleted stored) .tell

theorem turns_complete {value : Json} (isReturned : returned key = some value)
    (unfinished : ∀ job, queues.job? key = some job → job.state.isFinished = false) :
    Turns returned queues (queues.complete key value) := by
  unfold complete
  split
  · next job stored =>
      have noted : Turns returned queues (queues.noteCompleted key job value) :=
        turns_of_update (keepsPace_noteCompleted queues key job value).now stored
          (job?_noteCompleted stored value) (.complete isReturned (unfinished job stored))
      split
      · exact noted.trans (turns_childCompleted _ _)
      · exact noted
  · exact turns_of_same rfl rfl

theorem turns_retryLater
    (unfinished : ∀ job, queues.job? key = some job → job.state.isFinished = false)
    (attempt : Nat) : Turns returned queues (queues.retryLater key attempt) := by
  have now := (keepsPace_retryLater queues key attempt).now
  cases stored : queues.job? key with
  | none => exact turns_of_same now (job?_retryLater_of_missing stored attempt)
  | some job =>
      exact turns_of_update now stored (job?_retryLater stored attempt)
        (.delay (unfinished job stored))

theorem turns_failUpward (inherited : String) (height : Nat) (key : JobKey) (reason : String) :
    Turns returned queues (failUpward inherited height queues key reason) :=
  failUpward_relates (fun _ => turns_of_same rfl rfl) Turns.trans
    (fun reason stored unfinished => turns_of_update rfl stored (job?_noteFailed stored reason)
      (.fail reason unfinished))
    inherited height queues key reason

theorem turns_timerFires (queues : Queues) (timer : RetryTimer) :
    Turns returned queues (queues.timerFires timer) := by
  have now := (keepsPace_timerFires queues timer).now
  rcases job?_timerFires_cases queues timer with same | ⟨job, stored, delayed, change⟩
  · exact turns_of_same now same
  · exact turns_of_update now stored change (.wake delayed)

/-! ## All steps -/

/-- What is returned to a job, if it is a value. -/
def Act.value? (key : JobKey) : Act → Option Json
  | .finish call (.ok value) => if call.key = key then some value else none
  | .finish _ (.error _) | .tick _ | .touch _ | .add _ _ | .startWorker _ | .advance _ | .fire _
  | .remove _ | .prune _ _ => none

theorem turns_callReturns {call : Call} (steady : Steady queues none [])
    (isRunning : call ∈ queues.running) (outcome : Except JobError Json) :
    Turns (Act.finish call outcome).value? queues (queues.callReturns call outcome) := by
  let ended : Queues := { queues with running := queues.running.erase call }
  have withdrawn : ∀ {returned}, Turns returned queues ended := turns_of_same rfl rfl
  have unfinished : ∀ job, ended.job? call.key = some job → job.state.isFinished = false := by
    intro job stored
    rw [(steady.endCall isRunning stored).1]
    rfl
  cases outcome with
  | ok value => exact withdrawn.trans (turns_complete (if_pos rfl) unfinished)
  | error error =>
      cases error with
      | retryable message =>
          unfold callReturns
          dsimp only
          split
          · exact withdrawn.trans (turns_retryLater unfinished _)
          · exact withdrawn.trans (turns_failUpward _ _ _ _)
      | unrecoverable message => exact withdrawn.trans (turns_failUpward _ _ _ _)

/-- A stored job was stored before the step and has taken turns, or is new. -/
theorem Step.turns (step : Step queues act after) (steady : Steady queues none [])
    (stored : after.job? key = some new) :
    (∃ old, queues.job? key = some old ∧ old.Turns queues.now (act.value? key) new) ∨
      ¬ queues.view.Born key ∧ new.Fresh ∧ new.state.isFinished = false := by
  have kept : ∀ between : Queues, between.job? = queues.job? → between.job? key = some new →
      ∃ old, queues.job? key = some old ∧ old.Turns queues.now (act.value? key) new :=
    fun between same found => ⟨new, same ▸ found, .refl⟩
  cases step with
  | tick later => exact .inl (kept _ rfl stored)
  | touch queue => exact .inl (kept _ rfl stored)
  | @add flow counts claimed =>
      rcases quiet_or_plants steady counts flow with quiet | plants
      · exact .inl (kept _ quiet.jobs stored)
      · rcases (plants.jobs key new).1 stored with holds | before
        · refine .inr ⟨plants.unborn holds, holds.fresh, ?_⟩
          rw [(plants.grown.seedling key new holds).state]
          split <;> rfl
        · exact .inl ⟨new, before, .refl⟩
  | startWorker queue =>
      refine .inl (kept _ ?_ stored)
      unfold Queues.startWorker
      split <;> rfl
  | @advance queue _ moved =>
      rcases advanceWorker?_some moved with ⟨next, rfl, moves⟩ | ⟨jobId, -, -, rfl⟩
      · exact .inl (kept _ rfl stored)
      · rcases quiet_or_starts queues queue ⟨queue, jobId⟩ with quiet | ⟨job, starts⟩
        · exact .inl (kept _ quiet.jobs stored)
        · rw [starts.jobs, Function.update_apply] at stored
          split at stored
          · next here =>
              cases stored
              exact .inl ⟨job, here ▸ starts.stored, .single (.start starts.waiting)⟩
          · exact .inl ⟨new, stored, .refl⟩
  | finish outcome isRunning =>
      exact .inl ((turns_callReturns steady isRunning outcome).jobs key new stored)
  | @fire timer pending due =>
      have fired : Turns (fun _ => none) queues (queues.timerFires timer) :=
        turns_timerFires queues timer
      exact .inl (fired.jobs key new stored)
  | remove jobKey =>
      exact .inl ⟨new, (evicts_removeAll queues [jobKey]).jobs key new stored, .refl⟩
  | prune found => exact .inl ⟨new, (evicts_removeAll queues _).jobs key new stored, .refl⟩

end Queues

end Relay
