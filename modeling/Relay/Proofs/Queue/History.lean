import Mathlib.Logic.Relation
import Relay.Proofs.Queue.Chain

/-!
# Later states

What stays true of the queues whatever happens from some state on.  No key is given away
twice, a stored job keeps what it was submitted with, and what has ended stays as it
ended.  Apart from evictions every job stays stored, and jobs fail only when a call
returns an error after which its job is not tried again.
-/

namespace Relay

/-! ## What a job keeps -/

theorem Job.Stems.refl (job : Job) : job.Stems job := ⟨rfl, rfl, rfl, rfl, rfl, rfl⟩

/-- What a job keeps as long as it is stored. -/
structure Job.Endures (old new : Job) : Prop where
  stems : old.Stems new
  /-- A finished job stays as it ended. -/
  ended : old.state.isFinished = true → new.state = old.state ∧
    new.returnValue = old.returnValue ∧ new.failedReason = old.failedReason

namespace Job

variable {old between new : Job}

theorem Endures.refl (job : Job) : job.Endures job := ⟨.refl job, fun _ => ⟨rfl, rfl, rfl⟩⟩

theorem Endures.trans (first : old.Endures between) (second : between.Endures new) :
    old.Endures new where
  stems := first.stems.congr second.stems.queue second.stems.name second.stems.data
    second.stems.options second.stems.parent second.stems.children
  ended := by
    intro finished
    obtain ⟨state, value, reason⟩ := first.ended finished
    obtain ⟨stateLater, valueLater, reasonLater⟩ := second.ended (state ▸ finished)
    exact ⟨stateLater.trans state, valueLater.trans value, reasonLater.trans reason⟩

theorem Continues.endures (continues : old.Continues new) : old.Endures new where
  stems := ⟨continues.queue, continues.name, continues.data, continues.options, continues.parent,
    continues.children⟩
  ended := continues.ended

end Job

namespace Queues

variable {queues between after later : Queues} {act : Act} {key : JobKey} {old new job : Job}

/-! ## Single steps -/

theorem Effect.serial (effect : Effect queues after act) : queues.nextSerial ≤ after.nextSerial := by
  cases effect with
  | carries carries => exact Nat.le_of_eq carries.serial.symm
  | returns isRunning carries => exact Nat.le_of_eq carries.serial.symm
  | starts starts => exact Nat.le_of_eq starts.serial.symm
  | plants plants => exact plants.serial ▸ plants.grown.later

theorem Effect.born (effect : Effect queues after act) (born : queues.view.Born key) :
    after.view.Born key := by
  obtain ⟨number, below, same⟩ := born
  exact ⟨number, Nat.lt_of_lt_of_le below effect.serial, same⟩

/-- The limits are those that were given at the start. -/
theorem Effect.settings (effect : Effect queues after act) : after.settings = queues.settings := by
  cases effect with
  | carries carries => exact carries.settings
  | returns isRunning carries => exact carries.settings
  | starts starts => exact starts.settings
  | plants plants => exact plants.settings

/-- What a step announces are jobs that finish. -/
theorem Effect.reports (effect : Effect queues after act) (queue : String) :
    ∃ more, Reports queues after queue more := by
  cases effect with
  | carries carries => exact carries.reports queue
  | returns isRunning carries =>
      obtain ⟨more, reports⟩ := carries.reports queue
      exact ⟨more, reports.events, reports.once, reports.unfinished, reports.announces⟩
  | starts starts => exact ⟨[], reports_nothing (starts.events queue)⟩
  | plants plants => exact ⟨[], reports_nothing (plants.events queue)⟩

/-- A stored job was stored before the step and has kept what it keeps, or it is planted. -/
theorem Effect.origin (effect : Effect queues after act) (stored : after.job? key = some new) :
    (∃ old, queues.job? key = some old ∧ old.Endures new) ∨
      ∃ planting, Plants queues after planting ∧ planting.Holds key new := by
  cases effect with
  | carries carries =>
      obtain ⟨old, before, continues⟩ := carries.jobs key new stored
      exact .inl ⟨old, before, continues.endures⟩
  | returns isRunning carries =>
      obtain ⟨old, before, continues⟩ := carries.jobs key new stored
      exact .inl ⟨old, before, continues.endures⟩
  | @starts queue started job starts =>
      rw [starts.jobs, Function.update_apply] at stored
      split at stored
      · next same =>
          obtain rfl := Option.some.inj stored
          refine .inl ⟨job, same ▸ starts.stored, ⟨rfl, rfl, rfl, rfl, rfl, rfl⟩, fun finished => ?_⟩
          rw [starts.waiting] at finished
          cases finished
      · exact .inl ⟨new, stored, .refl new⟩
  | plants plants =>
      rcases (plants.jobs key new).1 stored with holds | before
      · exact .inr ⟨_, plants, holds⟩
      · exact .inl ⟨new, before, .refl new⟩

/-- No key is given away twice. -/
theorem Effect.origin_of_born (effect : Effect queues after act) (born : queues.view.Born key)
    (stored : after.job? key = some new) : ∃ old, queues.job? key = some old ∧ old.Endures new := by
  rcases effect.origin stored with before | ⟨planting, plants, holds⟩
  · exact before
  · exact absurd born (plants.unborn holds)

theorem Effect.endures (effect : Effect queues after act) (steady : Steady queues none [])
    (before : queues.job? key = some old) (stored : after.job? key = some new) :
    old.Endures new := by
  obtain ⟨found, isFound, endures⟩ :=
    effect.origin_of_born (steady.sound.born before) stored
  cases before.symm.trans isFound
  exact endures

/-! ## Several steps -/

/-- Some steps lead from one state to another. -/
def Leads : Queues → Queues → Prop :=
  Relation.ReflTransGen fun queues after => ∃ act, Step queues act after

namespace Leads

variable {settings : Dict QueueSettings}

theorem reachable (leads : queues.Leads later) (reached : Reachable settings queues) :
    Reachable settings later := by
  induction leads with
  | refl => exact reached
  | tail _ step ih =>
      obtain ⟨act, step⟩ := step
      exact ih.step step

/-- What is true of a state and kept by every step is true of all later states. -/
theorem keeps (leads : queues.Leads later) (holds : Queues → Prop)
    (reached : Reachable settings queues) (now : holds queues)
    (step : ∀ queues after act, Steady queues none [] → Effect queues after act →
      holds queues → holds after) : holds later := by
  induction leads with
  | refl => exact now
  | @tail between after before more ih =>
      obtain ⟨act, more⟩ := more
      have steady := (reachable before reached).steady
      exact step between after act steady (more.effect steady) ih

theorem born (leads : queues.Leads later) (reached : Reachable settings queues)
    (born : queues.view.Born key) : later.view.Born key :=
  leads.keeps (·.view.Born key) reached born fun _ _ _ _ effect => effect.born

/-- A job whose key is not new was stored all the time. -/
theorem origin (leads : queues.Leads later) (reached : Reachable settings queues)
    (born : queues.view.Born key) (stored : later.job? key = some new) :
    ∃ old, queues.job? key = some old ∧ old.Endures new := by
  induction leads generalizing new with
  | refl => exact ⟨new, stored, .refl new⟩
  | @tail between after before more ih =>
      obtain ⟨act, more⟩ := more
      -- The key was given away before, so the last step cannot have planted the job.
      have bornBetween := Leads.born before reached born
      have effect := more.effect (reachable before reached).steady
      obtain ⟨middle, storedBetween, endures⟩ := effect.origin_of_born bornBetween stored
      obtain ⟨old, earlier, enduresBefore⟩ := ih storedBetween
      exact ⟨old, earlier, enduresBefore.trans endures⟩

theorem endures (leads : queues.Leads later) (reached : Reachable settings queues)
    (before : queues.job? key = some old) (stored : later.job? key = some new) :
    old.Endures new := by
  have born := reached.steady.sound.born before
  obtain ⟨found, isFound, endures⟩ := leads.origin reached born stored
  cases before.symm.trans isFound
  exact endures

end Leads

/-! ## Computed runs -/

/-- The state after something happens, if it can happen. -/
def next? (queues : Queues) : Act → Option Queues
  | .tick time => if queues.now ≤ time then some { queues with now := time } else none
  | .touch queue => some (queues.touch queue)
  | .add flow counts =>
      if counts.Perm (countsOf flow) then some (addInOrder counts queues flow).2 else none
  | .startWorker queue => some (queues.startWorker queue).2
  | .advance queue => queues.advanceWorker? queue
  | .finish call outcome =>
      if call ∈ queues.running then some (queues.callReturns call outcome) else none
  | .fire timer =>
      if timer ∈ queues.timers ∧ timer.due ≤ queues.now then some (queues.timerFires timer) else none
  | .remove key => some (queues.remove key).2
  | .prune olderThan keys =>
      if keys.Perm (queues.expired olderThan) then some (queues.removeAll keys).1 else none

/-- A step can be computed from what happens. -/
theorem step_iff_next? : Step queues act after ↔ queues.next? act = some after := by
  constructor
  · intro step
    cases step with
    | tick later => exact if_pos later
    | add claimed => exact if_pos claimed
    | advance moved => exact moved
    | finish outcome isRunning => exact if_pos isRunning
    | fire pending due => exact if_pos ⟨pending, due⟩
    | prune found => exact if_pos found
    | _ => rfl
  · intro next
    cases act with
    | tick time =>
        obtain ⟨later, same⟩ := Option.ite_none_right_eq_some.1 next
        exact Option.some.inj same ▸ .tick later
    | touch queue => exact Option.some.inj next ▸ .touch queue
    | add flow counts =>
        obtain ⟨claimed, same⟩ := Option.ite_none_right_eq_some.1 next
        exact Option.some.inj same ▸ .add claimed
    | startWorker queue => exact Option.some.inj next ▸ .startWorker queue
    | advance queue => exact .advance next
    | finish call outcome =>
        obtain ⟨isRunning, same⟩ := Option.ite_none_right_eq_some.1 next
        exact Option.some.inj same ▸ .finish outcome isRunning
    | fire timer =>
        obtain ⟨⟨pending, due⟩, same⟩ := Option.ite_none_right_eq_some.1 next
        exact Option.some.inj same ▸ .fire pending due
    | remove key => exact Option.some.inj next ▸ .remove key
    | prune olderThan keys =>
        obtain ⟨found, same⟩ := Option.ite_none_right_eq_some.1 next
        exact Option.some.inj same ▸ .prune found

/-- The state after several things happen, if they can happen one after another. -/
def follow? : List Act → Queues → Option Queues
  | [], queues => some queues
  | act :: rest, queues => (queues.next? act).bind (follow? rest)

theorem follow?_concat (acts : List Act) (act : Act) (queues : Queues) :
    follow? (acts ++ [act]) queues = (follow? acts queues).bind fun between => between.next? act := by
  induction acts generalizing queues with
  | nil => exact Option.bind_fun_some _
  | cons first rest ih => simp only [List.cons_append, follow?, Option.bind_assoc, ih]

theorem leads_of_follow? {acts : List Act} (followed : follow? acts queues = some later) :
    queues.Leads later := by
  induction acts generalizing queues with
  | nil => exact Option.some.inj followed ▸ .refl
  | cons act rest ih =>
      obtain ⟨between, next, others⟩ := Option.bind_eq_some_iff.1 followed
      exact .head ⟨act, step_iff_next?.2 next⟩ (ih others)

/-! ## The course of a step -/

/-- Stored jobs stay stored, and none of them fails. -/
structure Spares (queues after : Queues) : Prop where
  stored : ∀ key old, queues.job? key = some old → ∃ new, after.job? key = some new
  failed : ∀ key new, after.job? key = some new → new.state = .failed →
    ∃ old, queues.job? key = some old ∧ old.state = .failed

/-- Stored jobs stay stored and none fails, or some jobs are evicted and nothing else
happens, or a call returns an error after which its job is not tried again. -/
inductive Course (queues after : Queues) : Prop where
  | spares (spares : Spares queues after)
  | evicts (evicts : Evicts queues after)
  | fails {call : Call} (isRunning : call ∈ queues.running) (reason : String)
      (whole : after = ({ queues with running := queues.running.erase call } : Queues).fail
        call.key call.name reason)

theorem Spares.trans (first : Spares queues between) (second : Spares between after) :
    Spares queues after where
  stored key old before := by
    obtain ⟨middle, stored⟩ := first.stored key old before
    exact second.stored key middle stored
  failed key new stored failed := by
    obtain ⟨middle, before, already⟩ := second.failed key new stored failed
    exact first.failed key middle before already

theorem spares_of_same (same : after.job? = queues.job?) : Spares queues after where
  stored _ old before := ⟨old, same ▸ before⟩
  failed _ new stored failed := ⟨new, same ▸ stored, failed⟩

theorem spares_of_update (stored : queues.job? key = some old)
    (jobs : after.job? = Function.update queues.job? key (some new))
    (calm : new.state = .failed → old.state = .failed) : Spares queues after where
  stored other found isFound := by
    rw [jobs, Function.update_apply]
    split
    · exact ⟨new, rfl⟩
    · exact ⟨found, isFound⟩
  failed other found isFound failed := by
    rw [jobs, Function.update_apply] at isFound
    split at isFound
    · next same =>
        cases isFound
        exact ⟨old, same ▸ stored, calm failed⟩
    · exact ⟨found, isFound, failed⟩

theorem spares_childCompleted (queues : Queues) (parent : JobKey) :
    Spares queues (queues.childCompleted parent) := by
  cases stored : queues.job? parent with
  | none =>
      simp only [childCompleted, stored]
      exact spares_of_same rfl
  | some job =>
      apply spares_of_update stored (job?_childCompleted stored)
      intro failed
      simp only [afterChild] at failed
      split at failed
      · cases failed
      · exact failed

theorem spares_complete (queues : Queues) (key : JobKey) (value : Json) :
    Spares queues (queues.complete key value) := by
  unfold complete
  split
  · next job stored =>
      have noted : Spares queues (queues.noteCompleted key job value) :=
        spares_of_update stored (job?_noteCompleted stored value) nofun
      split
      · exact noted.trans (spares_childCompleted _ _)
      · exact noted
  · exact spares_of_same rfl

theorem spares_retryLater (queues : Queues) (key : JobKey) (attempt : Nat) :
    Spares queues (queues.retryLater key attempt) := by
  cases stored : queues.job? key with
  | none => exact spares_of_same (job?_retryLater_of_missing stored attempt)
  | some job =>
      exact spares_of_update stored (job?_retryLater stored attempt) nofun

theorem spares_timerFires (queues : Queues) (timer : RetryTimer) :
    Spares queues (queues.timerFires timer) := by
  rcases job?_timerFires_cases queues timer with same | ⟨job, stored, -, change⟩
  · exact spares_of_same same
  · exact spares_of_update stored change nofun

theorem Starts.spares (starts : Starts queues after key job) : Spares queues after :=
  spares_of_update starts.stored starts.jobs nofun

theorem Plants.spares {planting : Planting} (plants : Plants queues after planting) :
    Spares queues after where
  stored key old before := ⟨old, (plants.jobs key old).2 (.inr before)⟩
  failed key new stored failed := by
    rcases (plants.jobs key new).1 stored with holds | before
    · rw [(plants.grown.seedling key new holds).state] at failed
      split at failed <;> cases failed
    · exact ⟨new, before, failed⟩

/-- A call returns. -/
theorem course_callReturns {call : Call} (isRunning : call ∈ queues.running)
    (outcome : Except JobError Json) : Course queues (queues.callReturns call outcome) := by
  have ended : Spares queues { queues with running := queues.running.erase call } :=
    spares_of_same rfl
  unfold callReturns
  dsimp only
  split
  · exact .spares (ended.trans (spares_complete _ _ _))
  · split
    · exact .spares (ended.trans (spares_retryLater _ _ _))
    · exact .fails isRunning _ rfl
  · exact .fails isRunning _ rfl

theorem Step.course (steady : Steady queues none []) (step : Step queues act after) :
    Course queues after := by
  cases step with
  | tick later => exact .spares (spares_of_same rfl)
  | touch queue => exact .spares (spares_of_same rfl)
  | @add flow counts claimed =>
      rcases quiet_or_plants steady counts flow with quiet | plants
      · exact .spares (spares_of_same quiet.jobs)
      · exact .spares plants.spares
  | startWorker queue =>
      apply Course.spares
      unfold Queues.startWorker
      split <;> exact spares_of_same rfl
  | @advance queue _ moved =>
      rcases advanceWorker?_some moved with ⟨next, rfl, moves⟩ | ⟨jobId, -, -, rfl⟩
      · exact .spares (spares_of_same rfl)
      · rcases quiet_or_starts queues queue ⟨queue, jobId⟩ with quiet | ⟨job, starts⟩
        · exact .spares (spares_of_same quiet.jobs)
        · exact .spares starts.spares
  | finish outcome isRunning => exact course_callReturns isRunning outcome
  | fire pending due => exact .spares (spares_timerFires queues _)
  | remove key => exact .evicts (evicts_removeAll queues [key])
  | prune found => exact .evicts (evicts_removeAll queues _)

/-! ### Failing upward -/

/-- What fails stays stored. -/
theorem stored_failUpward (inherited : String) (height : Nat) (reason : String) {other : JobKey}
    (before : queues.job? other = some old) :
    ∃ new, (failUpward inherited height queues key reason).job? other = some new := by
  induction height generalizing queues key reason old with
  | zero => exact ⟨old, before⟩
  | succ height ih =>
      unfold failUpward
      split
      · next job stored =>
          have noted : ∃ new, (queues.noteFailed key job reason).job? other = some new := by
            rw [job?_noteFailed stored, Function.update_apply]
            split
            · exact ⟨_, rfl⟩
            · exact ⟨old, before⟩
          split
          · exact ⟨old, before⟩
          · split
            · obtain ⟨middle, isStored⟩ := noted
              exact ih _ isStored
            · exact noted
      · exact ⟨old, before⟩

/-- Every job stays stored, or some jobs are evicted and nothing else happens. -/
theorem Course.stored_or_evicts (course : Course queues after) :
    (∀ key old, queues.job? key = some old → ∃ new, after.job? key = some new) ∨
      Evicts queues after := by
  cases course with
  | spares spares => exact .inl spares.stored
  | evicts evicts => exact .inr evicts
  | @fails call isRunning reason whole =>
      left
      intro key old before
      have ended : ({ queues with running := queues.running.erase call } : Queues).job? key =
          some old := before
      rw [whole]
      exact stored_failUpward _ _ reason ended

end Queues

end Relay
