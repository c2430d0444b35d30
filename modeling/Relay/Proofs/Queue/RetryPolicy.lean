import Relay.Proofs.Queue.Fairness
import Relay.Proofs.Queue.Finality

/-!
# The retry policy

What the log of a run tells of a job is what the limits of its queue ask for: its attempts are
numbered one after another, each but the last one returned an error that allows another one and
was followed by it after a delay, and the last one decides what becomes of the job.  Nothing is
logged any more of a job that is done, and nothing at all of one that has failed from below.  Along
a fair run another attempt is made whenever the last one allows it, and a job that was tried, or
whose children have completed, comes to its end.
-/

namespace Relay

namespace Queues

/-! ## Rounds -/

section Steps

variable {queues after : Queues} {act : Act} {key : JobKey} {job old new : Job}
  {attempt : Attempt} {settings : Dict QueueSettings}

/-- An attempt that has ended finished its job or is followed by another one. -/
theorem Standing.finished_or_again (standing : Standing queues key job (some attempt) none) :
    job.state.isFinished = true ∨
      attempt.Again ∧ (job.state = .delayed ∨ job.state = .waiting) := by
  cases standing with
  | completed _ completed => exact .inl (by rw [completed]; rfl)
  | failed _ _ failed => exact .inl (by rw [failed]; rfl)
  | delayed again delayed => exact .inr ⟨again, .inl delayed⟩
  | ready again waiting => exact .inr ⟨again, .inr waiting⟩

/-- A worker that may start a job that waits starts it. -/
theorem starts_of_waiting (stored : queues.job? key = some job) (waiting : job.state = .waiting) :
    Starts queues ((queues.setLane key.queue
      { queues.lane key.queue with worker := .idle }).startJob key) key job := by
  rcases quiet_or_starts queues key.queue key with quiet | ⟨found, starts⟩
  · -- The call that is started is one more than were running before.
    have running := quiet.running
    have kept : (queues.setLane key.queue { queues.lane key.queue with worker := .idle }).job? key =
        some job := stored
    rw [startJob, kept] at running
    dsimp only at running
    rw [if_pos waiting] at running
    exact absurd (congrArg List.length running) (by simp [setLane])
  · cases stored.symm.trans starts.stored
    exact starts

/-- The number of attempts of a job does not decrease. -/
theorem Effect.attemptsMade_le (effect : Effect queues after act) (steady : Steady queues none [])
    (before : queues.job? key = some old) (stored : after.job? key = some new) :
    old.attemptsMade ≤ new.attemptsMade := by
  by_cases started : ∃ job, Starts queues after key job
  · obtain ⟨job, starts⟩ := started
    cases before.symm.trans starts.stored
    rw [starts.jobs, Function.update_self] at stored
    rw [← Option.some.inj stored]
    exact Nat.le_succ _
  · have continues := effect.continues steady (not_exists.1 started) before stored
    exact Nat.le_of_eq continues.attemptsMade.symm

/-- How often a job may be tried is settled once and for all. -/
theorem Leads.allowance_eq (leads : queues.Leads after) (reached : Reachable settings queues)
    (before : queues.job? key = some old) (stored : after.job? key = some new) :
    after.allowance new = queues.allowance old := by
  have stems := (leads.endures reached before stored).stems
  unfold allowance settingsOf
  rw [stems.options, stems.queue, reached.settings_eq, (leads.reachable reached).settings_eq]

end Steps

/-- A fair run from a state on along which a job is not evicted. -/
structure Spared (queues : Queues) (key : JobKey) (states : Nat → Queues) (acts : Nat → Act) :
    Prop where
  fair : Fair states acts
  start : states 0 = queues
  stays : ∀ index, ((states index).job? key).isSome = true

/-- From some time on a job is going to finish. -/
def ComesToEnd (states : Nat → Queues) (key : JobKey) (first : Nat) : Prop :=
  ∃ later final, first ≤ later ∧ (states later).job? key = some final ∧
    final.state.isFinished = true

theorem ComesToEnd.mono {states : Nat → Queues} {key : JobKey} {first later : Nat}
    (ends : ComesToEnd states key later) (after : first ≤ later) : ComesToEnd states key first := by
  obtain ⟨last, final, afterLater, isFinal, finished⟩ := ends
  exact ⟨last, final, Nat.le_trans after afterLater, isFinal, finished⟩

namespace Spared

variable {queues : Queues} {states : Nat → Queues} {acts : Nat → Act} {key : JobKey}
  {old new job : Job} {settings : Dict QueueSettings} {first last : Nat}

theorem stored (spared : Spared queues key states acts) (index : Nat) :
    ∃ job, (states index).job? key = some job := Option.isSome_iff_exists.1 (spared.stays index)

theorem reachable (spared : Spared queues key states acts) (reached : Reachable settings queues)
    (index : Nat) : Reachable settings (states index) :=
  spared.fair.reachable (spared.start ▸ reached) index

theorem present (spared : Spared queues key states acts) (later : first ≤ last)
    (present : ((states first).lane key.queue).worker ≠ .absent) :
    ((states last).lane key.queue).worker ≠ .absent := by
  induction last, later using Nat.le_induction with
  | base => exact present
  | succ index _ ih => exact (spared.fair.step index).present ih

theorem attemptsMade_le (spared : Spared queues key states acts)
    (reached : Reachable settings queues) (later : first ≤ last)
    (before : (states first).job? key = some old) (stored : (states last).job? key = some new) :
    old.attemptsMade ≤ new.attemptsMade := by
  induction last, later using Nat.le_induction generalizing new with
  | base =>
      cases before.symm.trans stored
      exact Nat.le_refl _
  | succ index _ ih =>
      obtain ⟨between, isBetween⟩ := spared.stored index
      have steady := (spared.reachable reached index).steady
      have more := ((spared.fair.step index).effect steady).attemptsMade_le steady isBetween stored
      exact Nat.le_trans (ih isBetween) more

/-- As long as no attempt is started the number of attempts stays the same. -/
theorem attemptsMade_eq (spared : Spared queues key states acts)
    (reached : Reachable settings queues) (later : first ≤ last)
    (unstarted : ∀ index, first ≤ index → index < last →
      ∀ job, ¬ Starts (states index) (states (index + 1)) key job)
    (before : (states first).job? key = some old) (stored : (states last).job? key = some new) :
    new.attemptsMade = old.attemptsMade := by
  induction last, later using Nat.le_induction generalizing new with
  | base =>
      cases before.symm.trans stored
      rfl
  | succ index after ih =>
      obtain ⟨between, isBetween⟩ := spared.stored index
      have steady := (spared.reachable reached index).steady
      have continues := ((spared.fair.step index).effect steady).continues steady
        (unstarted index after (Nat.lt_succ_self _)) isBetween stored
      refine continues.attemptsMade.trans (ih (fun other after before => ?_) isBetween)
      exact unstarted other after (Nat.lt_succ_of_lt before)

/-- The next attempt that is started has the next number. -/
theorem first_starts (spared : Spared queues key states acts) (reached : Reachable settings queues)
    (stored : (states first).job? key = some job)
    (isStarted : ∃ turn, first ≤ turn ∧
      ∃ started, Starts (states turn) (states (turn + 1)) key started) :
    ∃ turn started, first ≤ turn ∧ Starts (states turn) (states (turn + 1)) key started ∧
      started.attemptsMade = job.attemptsMade := by
  classical
  obtain ⟨after, started, starts⟩ := Nat.find_spec isStarted
  refine ⟨Nat.find isStarted, started, after, starts, ?_⟩
  refine spared.attemptsMade_eq reached after (fun index after before job starts => ?_) stored
    starts.stored
  exact Nat.find_min isStarted before ⟨after, job, starts⟩

/-- A job that waits is started. -/
theorem exists_starts (spared : Spared queues key states acts) (reached : Reachable settings queues)
    (present : ((states first).lane key.queue).worker ≠ .absent)
    (stored : (states first).job? key = some job) (waiting : job.state = .waiting) :
    ∃ turn, first ≤ turn ∧
      ∃ started, Starts (states turn) (states (turn + 1)) key started := by
  have pending : 0 < (states first).starts key := by
    have agenda := (spared.reachable reached first).steady.agenda_eq stored
    rw [view_agenda, waiting] at agenda
    exact Nat.lt_of_lt_of_eq Nat.one_pos (congrArg Agenda.starts agenda).symm
  obtain ⟨turn, after, serves⟩ :=
    spared.fair.serves_of_starts (spared.start ▸ reached) present pending
  obtain ⟨found, isFound⟩ := spared.stored turn
  -- The worker holds the job, so it waits.
  have waits : found.state = .waiting := by
    apply JobState.eq_waiting
    rw [← (spared.reachable reached turn).steady.agenda_eq isFound, view_agenda]
    show 0 < (states turn).starts key
    rw [Queues.starts, serves.holding]
    exact Nat.lt_of_lt_of_le (by simp [Worker.holds]) (Nat.le_add_left _ _)
  refine ⟨turn, after, found, ?_⟩
  cases spared.fair.turn serves.own with
  | takes idle => cases serves.holding.symm.trans idle
  | asks asking => cases serves.holding.symm.trans asking
  | sleeps asking => cases serves.holding.symm.trans asking
  | starts holding _ whole =>
      cases serves.holding.symm.trans holding
      rw [whole]
      exact starts_of_waiting isFound waits

/-- The call of an active job returns, and finishes the job or delays it. -/
theorem returns (spared : Spared queues key states acts) (reached : Reachable settings queues)
    (stored : (states first).job? key = some job) (active : job.state = .active) :
    ∃ later final, first ≤ later ∧ (states later).job? key = some final ∧
      (final.state.isFinished = true ∨ job.attemptsMade < (states first).allowance job ∧
        (final.state = .delayed ∨ final.state = .waiting)) := by
  have calls := (spared.reachable reached first).steady.length_callsOf stored
  rw [active] at calls
  obtain ⟨call, isCall⟩ := List.exists_mem_of_length_pos (Nat.lt_of_lt_of_eq Nat.one_pos calls.symm)
  obtain ⟨isRunning, rfl⟩ := mem_callsOf.1 isCall
  obtain ⟨turn, outcome, after, own⟩ := spared.fair.returns first call isRunning
  obtain ⟨final, isFinal⟩ := spared.stored (turn + 1)
  obtain ⟨found, isFound⟩ := spared.stored turn
  have step := spared.fair.step turn
  rw [own] at step
  have standing : Standing (states (turn + 1)) call.key final
      (some ⟨call, outcome, (states turn).now⟩) none := by
    generalize states (turn + 1) = ended at step isFinal
    cases step with
    | finish _ returned =>
        exact standing_callReturns outcome (spared.reachable reached turn) returned isFound isFinal
  refine ⟨turn + 1, final, Nat.le_succ_of_le after, isFinal, ?_⟩
  rcases standing.finished_or_again with finished | ⟨again, state⟩
  · exact .inl finished
  · have serves := (spared.reachable reached first).attended call isRunning job stored
    have below := again.2
    rw [serves.attempt, serves.limit] at below
    exact .inr ⟨below, state⟩

/-- A delayed job becomes ready when its timer fires. -/
theorem wakes (spared : Spared queues key states acts) (reached : Reachable settings queues)
    (stored : (states first).job? key = some job) (delayed : job.state = .delayed) :
    ∃ later woken, first ≤ later ∧ (states later).job? key = some woken ∧
      woken.state = .waiting := by
  have timers := (spared.reachable reached first).steady.length_timersOf stored
  rw [delayed] at timers
  obtain ⟨timer, isTimer⟩ :=
    List.exists_mem_of_length_pos (Nat.lt_of_lt_of_eq Nat.one_pos timers.symm)
  obtain ⟨pending, rfl⟩ := mem_timersOf.1 isTimer
  obtain ⟨turn, after, own⟩ := spared.fair.exists_fire pending
  obtain ⟨found, isFound⟩ := spared.stored turn
  obtain ⟨woken, isWoken⟩ := spared.stored (turn + 1)
  refine ⟨turn + 1, woken, Nat.le_succ_of_le after, isWoken, ?_⟩
  have step := spared.fair.step turn
  rw [own] at step
  generalize states (turn + 1) = later at step isWoken
  cases step with
  | fire pending due =>
      have delayed := (spared.reachable reached turn).steady.delayed_of_timer pending isFound
      rw [job?_timerFires isFound delayed, Function.update_self] at isWoken
      exact Option.some.inj isWoken ▸ rfl

/-- A job that waits is tried, and if that does not finish it, it waits for another attempt. -/
theorem round (spared : Spared queues key states acts) (reached : Reachable settings queues)
    (present : ((states first).lane key.queue).worker ≠ .absent)
    (stored : (states first).job? key = some job) (waiting : job.state = .waiting) :
    ∃ later next, first ≤ later ∧ (states later).job? key = some next ∧
      (next.state.isFinished = true ∨ next.state = .waiting ∧
        job.attemptsMade < next.attemptsMade ∧
        job.attemptsMade + 1 < (states first).allowance job) := by
  have isStarted := spared.exists_starts reached present stored waiting
  obtain ⟨turn, started, after, starts, same⟩ := spared.first_starts reached stored isStarted
  let tried : Job := { started with state := .active, attemptsMade := started.attemptsMade + 1 }
  have isTried : (states (turn + 1)).job? key = some tried := by
    rw [starts.jobs, Function.update_self]
  have allowance := (spared.fair.leads (Nat.le_succ_of_le after)).allowance_eq
    (spared.reachable reached first) stored isTried
  obtain ⟨ended, final, afterTurn, isFinal, finished | ⟨below, state⟩⟩ :=
    spared.returns reached isTried rfl
  · exact ⟨ended, final, by omega, isFinal, .inl finished⟩
  · have made : job.attemptsMade + 1 = tried.attemptsMade := congrArg (· + 1) same.symm
    rw [allowance, ← made] at below
    have more := spared.attemptsMade_le reached afterTurn isTried isFinal
    rcases state with delayed | waiting
    · obtain ⟨later, woken, afterEnd, isWoken, waiting⟩ := spared.wakes reached isFinal delayed
      have evenMore := spared.attemptsMade_le reached afterEnd isFinal isWoken
      exact ⟨later, woken, by omega, isWoken, .inr ⟨waiting, by omega, below⟩⟩
    · exact ⟨ended, final, by omega, isFinal, .inr ⟨waiting, by omega, below⟩⟩

/-- A job that waits comes to its end.  The induction is on the number of attempts that are left
after the next one. -/
theorem ends_of_waiting (spared : Spared queues key states acts)
    (reached : Reachable settings queues) {left : Nat}
    (present : ((states first).lane key.queue).worker ≠ .absent)
    (stored : (states first).job? key = some job) (waiting : job.state = .waiting)
    (bound : (states first).allowance job ≤ job.attemptsMade + 1 + left) :
    ComesToEnd states key first := by
  induction left generalizing first job with
  | zero =>
      obtain ⟨later, next, after, isNext, finished | ⟨-, -, below⟩⟩ :=
        spared.round reached present stored waiting
      · exact ⟨later, next, after, isNext, finished⟩
      · omega
  | succ left ih =>
      obtain ⟨later, next, after, isNext, finished | ⟨waiting, more, -⟩⟩ :=
        spared.round reached present stored waiting
      · exact ⟨later, next, after, isNext, finished⟩
      · have allowance := (spared.fair.leads after).allowance_eq (spared.reachable reached first)
          stored isNext
        exact (ih (spared.present after present) isNext waiting (by omega)).mono after

/-- A job that is tried again comes to its end. -/
theorem ends_of_again (spared : Spared queues key states acts) (reached : Reachable settings queues)
    (present : ((states first).lane key.queue).worker ≠ .absent)
    (stored : (states first).job? key = some job)
    (again : job.state = .delayed ∨ job.state = .waiting) : ComesToEnd states key first := by
  rcases again with delayed | waiting
  · obtain ⟨later, woken, after, isWoken, waiting⟩ := spared.wakes reached stored delayed
    exact (spared.ends_of_waiting reached (spared.present after present) isWoken waiting
      (Nat.le_add_left _ _)).mono after
  · exact spared.ends_of_waiting reached present stored waiting (Nat.le_add_left _ _)

/-- A job that does not wait for children comes to its end. -/
theorem ends (spared : Spared queues key states acts) (reached : Reachable settings queues)
    (present : ((states first).lane key.queue).worker ≠ .absent)
    (stored : (states first).job? key = some job) (unblocked : job.state ≠ .waitingChildren) :
    ComesToEnd states key first := by
  cases state : job.state with
  | waitingChildren => exact absurd state unblocked
  | completed | failed => exact ⟨first, job, Nat.le_refl _, stored, by rw [state]; rfl⟩
  | waiting => exact spared.ends_of_again reached present stored (.inr state)
  | delayed => exact spared.ends_of_again reached present stored (.inl state)
  | active =>
      obtain ⟨later, next, after, isNext, finished | ⟨-, again⟩⟩ :=
        spared.returns reached stored state
      · exact ⟨later, next, after, isNext, finished⟩
      · exact (spared.ends_of_again reached (spared.present after present) isNext again).mono after

/-- After an attempt that allows another one the next one is made. -/
theorem starts_again {log : List CallEvent} {ended : List Attempt} {attempt : Attempt}
    (spared : Spared queues key states acts) (reached : Reachable settings queues)
    (tried : Tried queues key job log ended none) (stored : queues.job? key = some job)
    (isLast : attempt ∈ ended.getLast?) (again : attempt.Again) :
    ∃ turn started, Starts (states turn) (states (turn + 1)) key started ∧
      started.attemptsMade = attempt.call.attempt := by
  have start : (states 0).job? key = some job := spared.start ▸ stored
  obtain ⟨before, split⟩ := List.getLast?_eq_some_iff.1 isLast
  have present : ((states 0).lane key.queue).worker ≠ .absent := by
    rw [spared.start]
    exact tried.staffed (by simp [split])
  have made : attempt.call.attempt = job.attemptsMade := by
    rw [tried.number split, ← tried.length_eq, split, List.length_append]
    rfl
  have isStarted : ∃ turn, 0 ≤ turn ∧
      ∃ started, Starts (states turn) (states (turn + 1)) key started := by
    have standing := tried.standing
    rw [Option.mem_def.1 isLast] at standing
    obtain ⟨⟨message, outcome⟩, below⟩ := again
    cases standing with
    | completed returned => cases outcome.symm.trans returned
    | failed returned final =>
        cases outcome.symm.trans returned
        exact absurd below (Nat.not_lt.2 (final message rfl))
    | ready _ waiting => exact spared.exists_starts reached present start waiting
    | delayed _ delayed =>
        obtain ⟨later, woken, after, isWoken, waiting⟩ := spared.wakes reached start delayed
        obtain ⟨turn, -, starts⟩ :=
          spared.exists_starts reached (spared.present after present) isWoken waiting
        exact ⟨turn, Nat.zero_le _, starts⟩
  obtain ⟨turn, started, -, starts, same⟩ := spared.first_starts reached start isStarted
  exact ⟨turn, started, starts, same.trans made.symm⟩

end Spared

/-- A run that comes to rest without evicting a job can go on fairly. -/
theorem exists_spared {queues later : Queues} {key : JobKey} {job : Job} {made : List Act}
    {settings : Dict QueueSettings} (reached : Reachable settings queues)
    (stored : queues.job? key = some job) (followed : follow? made queues = some later)
    (rest : AtRest later) (kept : (later.job? key).isSome = true) :
    ∃ states acts, Spared queues key states acts := by
  obtain ⟨states, acts, fair, rfl, since, same⟩ := exists_fair_of_follow? reached followed rest
  refine ⟨states, acts, fair, rfl, fun index => ?_⟩
  obtain ⟨final, isFinal⟩ := Option.isSome_iff_exists.1 kept
  rw [← same (max index since) (Nat.le_max_right _ _)] at isFinal
  have born := (fair.leads (Nat.zero_le index)).born reached (reached.steady.sound.born stored)
  obtain ⟨old, before, -⟩ := (fair.leads (Nat.le_max_left index since)).origin
    (fair.reachable reached index) born isFinal
  rw [before]
  rfl

/-! ## Jobs that are not tried any more -/

section Silence

variable {queues after : Queues} {act : Act} {key child : JobKey} {job : Job}
  {log : List CallEvent} {ended : List Attempt} {current : Option Call}
  {settings : Dict QueueSettings}

/-- No call is started for a job that is done, and none returns. -/
theorem Retired.silent (retired : Retired queues key) (step : Step queues act after)
    (steady : Steady queues none []) : logOf key (queues.callEvents act after) = [] := by
  have unstarted : (queues.startedCalls after).filter (fun call => call.key == key) = [] := by
    refine List.filter_eq_nil_iff.2 fun call started here => ?_
    obtain ⟨other, job, starts, rfl⟩ := (step.effect steady).starts_of_started started
    have same : other = key := by simpa [callOf] using here
    have finished := retired.finished job (same ▸ starts.stored)
    rw [starts.waiting] at finished
    cases finished
  cases step with
  | finish outcome isRunning => exact logOf_callEvents (retired.uncalled _ isRunning) unstarted
  | _ => exact (logOf_started _).trans (by rw [unstarted]; rfl)

/-- Nothing is logged any more of a job that is done, whatever happens. -/
theorem Retired.logOf_callLog (retired : Retired queues key) (reached : Reachable settings queues)
    (more : List Act) : logOf key (callLog more queues) = [] := by
  induction more generalizing queues with
  | nil => rfl
  | cons act rest ih =>
      unfold callLog
      split
      · next after next =>
          have step := step_iff_next?.2 next
          rw [logOf_append, retired.silent step reached.steady, List.nil_append]
          exact ih (retired.step (step.effect reached.steady)) (reached.step step)
      · rfl

/-- What has completed has completed for good. -/
theorem Effect.hasCompleted (effect : Effect queues after act)
    (complete : queues.hasCompleted key = true) : after.hasCompleted key = true := by
  obtain ⟨more, reports⟩ := effect.reports key.queue
  simp only [Queues.hasCompleted, reports.events, List.contains_eq_mem, List.mem_append,
    decide_eq_true_eq] at complete ⊢
  exact .inl complete

/-- All children of the jobs that were tried have completed. -/
def TriedLast (queues : Queues) : Prop :=
  ∀ key job, queues.job? key = some job → 0 < job.attemptsMade →
    ∀ child ∈ job.children, queues.hasCompleted child = true

theorem TriedLast.step (triedLast : TriedLast queues) (steady : Steady queues none [])
    (step : Step queues act after) : TriedLast after := by
  intro key new stored made child isChild
  have effect := step.effect steady
  refine effect.hasCompleted ?_
  rcases step.turns steady stored with ⟨old, before, -⟩ | ⟨-, fresh, -⟩
  · by_cases started : ∃ job, Starts queues after key job
    · -- A job that is started has waited, so none of its children is open.
      obtain ⟨job, starts⟩ := started
      rw [starts.jobs, Function.update_self] at stored
      rw [← Option.some.inj stored] at isChild
      exact steady.completed_of_waiting starts.stored starts.waiting isChild
    · have continues := effect.continues steady (not_exists.1 started) before stored
      exact triedLast key old before (continues.attemptsMade ▸ made) child
        (continues.children ▸ isChild)
  · exact absurd fresh.attemptsMade (Nat.ne_of_gt made)

theorem Reachable.triedLast (reached : Reachable settings queues) : TriedLast queues := by
  induction reached with
  | start => exact fun _ job stored => (Option.some_ne_none job stored.symm).elim
  | step reached step ih => exact ih.step reached.steady step

/-- Nothing was logged of a job with a child that has not completed. -/
theorem Tried.log_eq_nil (tried : Tried queues key job log ended current)
    (reached : Reachable settings queues) (stored : queues.job? key = some job)
    (isChild : child ∈ job.children) (incomplete : queues.hasCompleted child = false) :
    log = [] := by
  have total := tried.length_eq
  have untried : job.attemptsMade = 0 := by
    refine Nat.eq_zero_of_not_pos fun made => ?_
    rw [reached.triedLast key job stored made child isChild] at incomplete
    cases incomplete
  have noneEnded : ended = [] := List.eq_nil_of_length_eq_zero (by omega)
  have noneRunning : current.toList = [] := List.eq_nil_of_length_eq_zero (by omega)
  rw [tried.log, noneEnded, noneRunning]
  rfl

end Silence

/-! ## The policy -/

/-- What the policy asks for a stored job, of which the log of the run tells. -/
structure FollowsPolicy (queues : Queues) (key : JobKey) (job : Job) (log : List CallEvent)
    (ended : List Attempt) (current : Option Call) : Prop where
  tried : Tried queues key job log ended current
  /-- There are not more attempts than allowed, and one is always allowed. -/
  atMost : job.attemptsMade ≤ max 1 (queues.allowance job)
  /-- A job that has finished was tried, unless one of its children has not completed. -/
  atLeast : job.state.isFinished = true →
    (∀ child ∈ job.children, queues.hasCompleted child = true) → 0 < job.attemptsMade
  /-- A job that has finished is not tried again, whatever happens. -/
  silent : job.state.isFinished = true → ∀ more, logOf key (callLog more queues) = []
  /-- A failed job with a child that has not completed has failed from below.  It is never tried,
  neither before nor later. -/
  neverTried : job.state = .failed → ∀ child ∈ job.children, queues.hasCompleted child = false →
    log = [] ∧ ∀ more, logOf key (callLog more queues) = []
  /-- The number of attempts fits 32 bits if the limit does. -/
  fits : queues.allowance job < UInt32.size → job.attemptsMade < UInt32.size
  /-- Along a fair run an attempt that allows another one is followed by it. -/
  goesOn : ∀ states acts, Spared queues key states acts → current = none →
    ∀ attempt ∈ ended.getLast?, attempt.Again → ∃ turn call,
      (states turn).callEvents (acts turn) (states (turn + 1)) = [.started call] ∧
        call.key = key ∧ call.attempt = attempt.call.attempt + 1
  /-- Along a fair run a job comes to its end if it was tried before, or if its queue has a
  worker and its children have completed. -/
  comesToEnd : ∀ states acts, Spared queues key states acts →
    (0 < job.attemptsMade ∨ queues.hasWorker key.queue = true ∧
      ∀ child ∈ job.children, queues.hasCompleted child = true) → ComesToEnd states key 0

section Policy

variable {queues : Queues} {acts : List Act} {key : JobKey} {job : Job} {log : List CallEvent}
  {ended : List Attempt} {current : Option Call} {settings : Dict QueueSettings}

theorem present_of_hasWorker {queue : String} (staffed : queues.hasWorker queue = true) :
    (queues.lane queue).worker ≠ .absent := by
  intro absent
  rw [hasWorker, absent] at staffed
  cases staffed

/-- Where a job was tried there is a worker, and the job does not wait for its children. -/
theorem Tried.able (tried : Tried queues key job log ended current)
    (made : 0 < job.attemptsMade) :
    (queues.lane key.queue).worker ≠ .absent ∧ job.state ≠ .waitingChildren := by
  refine ⟨tried.staffed fun nothing => ?_, tried.state_ne made⟩
  have total := tried.length_eq
  obtain ⟨noneEnded, noneRunning⟩ := List.append_eq_nil_iff.1 nothing
  rw [List.map_eq_nil_iff.1 noneEnded, noneRunning] at total
  exact absurd total (Nat.ne_of_lt made)

/-- A job whose children have completed does not wait for them. -/
theorem Steady.unblocked (steady : Steady queues none []) (stored : queues.job? key = some job)
    (complete : ∀ child ∈ job.children, queues.hasCompleted child = true) :
    job.state ≠ .waitingChildren := by
  intro waiting
  obtain ⟨child, isChild, incomplete⟩ := steady.open_child stored waiting
  rw [complete child isChild] at incomplete
  cases incomplete

/-- Jobs are tried as the policy asks for, whatever their attempts return and whatever else
happens meanwhile. -/
theorem follows_policy (followed : follow? acts (.start settings) = some queues)
    (stored : queues.job? key = some job) :
    ∃ ended current,
      FollowsPolicy queues key job (logOf key (callLog acts (.start settings))) ended current := by
  have reached := (leads_of_follow? followed).reachable .start
  obtain ⟨ended, current, tried⟩ := (recorded_of_follow? followed).tried key job stored
  have silent : job.state.isFinished = true → ∀ more, logOf key (callLog more queues) = [] :=
    fun finished => (reached.steady.retired stored finished).logOf_callLog reached
  refine ⟨ended, current, ?_⟩
  constructor
  case tried => exact tried
  case atMost => exact tried.attemptsMade_le
  case atLeast => exact tried.attemptsMade_pos
  case silent => exact silent
  case neverTried =>
    intro failed child isChild incomplete
    exact ⟨tried.log_eq_nil reached stored isChild incomplete, silent (by rw [failed]; rfl)⟩
  case fits =>
    intro limit
    exact Nat.lt_of_le_of_lt tried.attemptsMade_le (Nat.max_lt.2 ⟨by decide, limit⟩)
  case goesOn =>
    rintro states acts spared rfl attempt isLast again
    obtain ⟨turn, started, starts, same⟩ := spared.starts_again reached tried stored isLast again
    have own := starts.act_eq (spared.fair.step turn) (spared.reachable reached turn).steady
    refine ⟨turn, (states turn).callOf key started, ?_, rfl, congrArg (· + 1) same⟩
    rw [own]
    exact starts.callEvents_eq
  case comesToEnd =>
    intro states acts spared able
    have start : (states 0).job? key = some job := spared.start ▸ stored
    obtain ⟨present, unblocked⟩ :
        (queues.lane key.queue).worker ≠ .absent ∧ job.state ≠ .waitingChildren := by
      rcases able with made | ⟨staffed, complete⟩
      · exact tried.able made
      · exact ⟨present_of_hasWorker staffed, reached.steady.unblocked stored complete⟩
    exact spared.ends reached (spared.start ▸ present) start unblocked

/-- An attempt returns an error that allows another one. -/
def Sample.busy : List Act :=
  [.add ⟨"only", "default", .null, .standard, []⟩ [("default", 1)], .startWorker "default",
    .advance "default", .advance "default", .advance "default",
    .finish Sample.callOnly (.error (.retryable "busy"))]

/-- The attempt that follows it returns a value. -/
def Sample.busyNoMore : List Act :=
  [.tick 1000, .fire ⟨⟨"default", jobIdOf 0⟩, 100⟩, .advance "default", .advance "default",
    .advance "default",
    .finish { Sample.callOnly with attempt := 2, startedAt := 1000 } (.ok .null)]

theorem follows_policy_busy : ∃ queues job ended current,
    follow? Sample.busy (.start Sample.tight) = some queues ∧
      queues.job? ⟨"default", jobIdOf 0⟩ = some job ∧ job.state = .delayed ∧
      FollowsPolicy queues ⟨"default", jobIdOf 0⟩ job
        [.started Sample.callOnly,
          .returned Sample.callOnly (.error (.retryable "busy")) 0] ended current ∧
      ∃ states acts, Spared queues ⟨"default", jobIdOf 0⟩ states acts ∧
        ComesToEnd states ⟨"default", jobIdOf 0⟩ 0 := by
  have log : logOf ⟨"default", jobIdOf 0⟩ (callLog Sample.busy (.start Sample.tight)) =
      [.started Sample.callOnly, .returned Sample.callOnly (.error (.retryable "busy")) 0] := by
    decide +kernel
  have delayed : (follow? Sample.busy (.start Sample.tight)).bind (fun queues =>
      (queues.job? ⟨"default", jobIdOf 0⟩).map fun job => (job.state, job.attemptsMade)) =
        some (.delayed, 1) := by decide +kernel
  have ends : ((follow? Sample.busy (.start Sample.tight)).bind (follow? Sample.busyNoMore)).map
      (fun queues => (queues.resting, (queues.job? ⟨"default", jobIdOf 0⟩).isSome)) =
        some (true, true) := by decide +kernel
  obtain ⟨queues, followed, found⟩ := Option.bind_eq_some_iff.1 delayed
  obtain ⟨job, stored, same⟩ := Option.map_eq_some_iff.1 found
  obtain ⟨state, made⟩ := Prod.mk.inj same
  obtain ⟨later, ended, isLast⟩ := Option.map_eq_some_iff.1 ends
  obtain ⟨resting, kept⟩ := Prod.mk.inj isLast
  rw [followed, Option.bind_some] at ended
  have reached := (leads_of_follow? followed).reachable .start
  obtain ⟨states, others, spared⟩ :=
    exists_spared reached stored ended (atRest_of_resting resting) kept
  obtain ⟨attempts, current, follows⟩ := follows_policy followed stored
  rw [log] at follows
  exact ⟨queues, job, attempts, current, followed, stored, state, follows, states, others, spared,
    follows.comesToEnd states others spared (.inl (made ▸ Nat.one_pos))⟩

/-- The upper one of two jobs fails together with the lower one, and is never tried. -/
theorem untried_broken : ∃ queues job,
    follow? Sample.broken (.start .empty) = some queues ∧
      queues.job? ⟨"default", jobIdOf 0⟩ = some job ∧ job.state = .failed ∧
      0 < queues.allowance job ∧
      ∀ more later, follow? more queues = some later →
        logOf ⟨"default", jobIdOf 0⟩ (callLog (Sample.broken ++ more) (.start .empty)) = [] := by
  have failed : (follow? Sample.broken (.start .empty)).bind (fun queues =>
      (queues.job? ⟨"default", jobIdOf 0⟩).map fun job => (job.state, queues.allowance job)) =
        some (.failed, 3) := by decide +kernel
  have log : logOf ⟨"default", jobIdOf 0⟩ (callLog Sample.broken (.start .empty)) = [] := by
    decide +kernel
  obtain ⟨queues, followed, found⟩ := Option.bind_eq_some_iff.1 failed
  obtain ⟨job, stored, same⟩ := Option.map_eq_some_iff.1 found
  obtain ⟨state, allowance⟩ := Prod.mk.inj same
  have reached := (leads_of_follow? followed).reachable .start
  have retired := reached.steady.retired stored (by rw [state]; rfl)
  refine ⟨queues, job, followed, stored, state, by rw [allowance]; decide, ?_⟩
  intro more later goesOn
  rw [callLog_append followed, logOf_append, log, retired.logOf_callLog reached]
  rfl

end Policy

end Queues

end Relay
