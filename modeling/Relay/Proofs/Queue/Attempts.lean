import Relay.Proofs.Queue.CallLog
import Relay.Proofs.Queue.Failure
import Relay.Proofs.Queue.Results

/-!
# The attempts of a job

For a job that is stored, the log of the calls consists of attempts that have ended, one after
another, and perhaps of one that is running.  Every attempt but the last one has returned an
error that allows another one, and the last one tells how the job stands: it is running, it has
ended the job, or the job waits for its next attempt.  A job without an attempt waits for its
first one or for its children, or has failed with one of them.
-/

namespace Relay

/-- An attempt of a job that has ended. -/
structure Attempt where
  call : Call
  outcome : Except JobError Json
  endedAt : Nat
  deriving DecidableEq

namespace Attempt

/-- The log of a single attempt. -/
def events (attempt : Attempt) : List CallEvent :=
  [.started attempt.call, .returned attempt.call attempt.outcome attempt.endedAt]

/-- An attempt allows another one. -/
def Again (attempt : Attempt) : Prop :=
  (∃ message, attempt.outcome = .error (.retryable message)) ∧
    attempt.call.attempt < attempt.call.maxAttempts

/-- An attempt allows the one that a call makes, after a delay. -/
structure Precedes (limits : QueueSettings) (attempt : Attempt) (next : Call) : Prop where
  again : attempt.Again
  rested : attempt.endedAt + limits.backoff attempt.call.attempt ≤ next.startedAt

end Attempt

namespace Queues

variable {queues after : Queues} {act : Act} {key : JobKey} {old new job : Job}
  {settings : Dict QueueSettings} {log : List CallEvent} {ended : List Attempt}
  {last : Option Attempt} {current : Option Call}

/-! ## Jobs without an attempt -/

/-- A job that was given its key will never complete any more. -/
structure Lost (queues : Queues) (key : JobKey) : Prop where
  born : queues.view.Born key
  incomplete : queues.hasCompleted key = false
  failed : ∀ job, queues.job? key = some job → job.state = .failed

/-- A stored job that has failed is lost. -/
theorem Steady.lost (steady : Steady queues none []) (stored : queues.job? key = some job)
    (failed : job.state = .failed) : Lost queues key where
  born := steady.sound.born stored
  incomplete := by
    by_contra complete
    have completed := (steady.sound.completed key job stored).1 (by simpa using complete)
    rw [failed] at completed
    cases completed
  failed found isFound := Option.some.inj (stored.symm.trans isFound) ▸ failed

theorem Lost.step (lost : Lost queues key) (effect : Effect queues after act) : Lost after key where
  born := effect.born lost.born
  incomplete := by
    obtain ⟨more, reports⟩ := effect.reports key.queue
    have silent : QueueEvent.completed key.id ∉ more := by
      intro member
      obtain ⟨found, isFound, unfinished⟩ := reports.unfinished _ member
      rw [lost.failed found isFound] at unfinished
      cases unfinished
    have before := lost.incomplete
    unfold hasCompleted at before ⊢
    simp only [reports.events, List.contains_eq_mem, List.mem_append, silent, or_false] at before ⊢
    exact before
  failed new stored := by
    obtain ⟨old, before, endures⟩ := effect.origin_of_born lost.born stored
    have failed := lost.failed old before
    exact (endures.ended (by rw [failed]; rfl)).1.trans failed

/-- How a job stands of which no attempt was made. -/
inductive Untried (queues : Queues) (job : Job) : Prop where
  | ready (waiting : job.state = .waiting)
  | blocked (waiting : job.state = .waitingChildren)
  /-- The job has failed with a child, which keeps it from ever being tried. -/
  | lost {child : JobKey} (failed : job.state = .failed) (isChild : child ∈ job.children)
      (lost : Lost queues child)

/-- A failure that takes along a job above the one at which it starts takes along a child of the
job. -/
theorem Takes.exists_child {above : JobKey} (takes : queues.Takes key above)
    (different : above ≠ key) : ∃ child childJob, queues.Takes key child ∧
      queues.job? child = some childJob ∧ childJob.parent = some above := by
  induction takes with
  | self => exact absurd rfl different
  | @above key parent other job stored unfinished binding isParent further ih =>
      by_cases direct : other = parent
      · exact ⟨key, job, .self stored unfinished, stored, direct ▸ isParent⟩
      · obtain ⟨child, childJob, taken, childStored, below⟩ := ih direct
        exact ⟨child, childJob, .above stored unfinished binding isParent taken, childStored, below⟩

/-- A job that fails while it waits for its children has lost one of them. -/
theorem Step.exists_lost (step : Step queues act after) (reached : Reachable settings queues)
    (before : queues.job? key = some old) (stored : after.job? key = some new)
    (waiting : old.state = .waitingChildren) (failed : new.state = .failed) :
    ∃ child ∈ old.children, Lost after child := by
  have steady := reached.steady
  cases step.course steady with
  | spares spares =>
      obtain ⟨found, isFound, already⟩ := spares.failed key new stored failed
      cases before.symm.trans isFound
      cases waiting.symm.trans already
  | evicts evicts =>
      cases before.symm.trans (evicts.jobs key new stored)
      cases waiting.symm.trans failed
  | @fails call isRunning reason whole =>
      let ended : Queues := { queues with running := queues.running.erase call }
      have ascending : ended.Ascending := reached.ascending
      have enough : ended.unfinishedJobs ≤ ended.jobs.size := List.countP_le_length
      have spreads : Spreads ended after call.key reason (inheritedReason call.name reason) :=
        whole ▸ spreads_failUpward _ reason ascending enough
      have takes : ended.Takes call.key key := by
        by_contra spared
        have same : after.job? key = queues.job? key := spreads.kept key spared
        cases before.symm.trans (same.symm.trans stored)
        cases waiting.symm.trans failed
      have different : key ≠ call.key := by
        intro same
        have active := (steady.endCall isRunning (same ▸ before)).1
        cases waiting.symm.trans active
      obtain ⟨child, childJob, taken, childStored, parent⟩ := takes.exists_child different
      have childBefore : queues.job? child = some childJob := childStored
      obtain ⟨aboveJob, aboveStored, listed⟩ :=
        steady.sound.listed_by_parent childBefore parent
      cases before.symm.trans aboveStored
      have lost := spreads.taken child childJob taken childStored
      exact ⟨child, listed, (steady.step step).lost lost rfl⟩

/-- What is returned to a job is returned by a call for it. -/
theorem value?_of_aside (aside : ¬ act.IsAbout key) : act.value? key = none := by
  rw [Option.eq_none_iff_forall_ne_some]
  intro value returned
  obtain ⟨call, rfl, here⟩ := Act.value?_eq_some returned
  exact aside here

theorem Untried.passes (untried : Untried queues old) (passes : Passes queues after act key)
    (step : Step queues act after) (reached : Reachable settings queues)
    (before : queues.job? key = some old) (stored : after.job? key = some new) :
    Untried after new := by
  have steady := reached.steady
  have effect := step.effect steady
  have continues := effect.continues steady passes.unstarted before stored
  cases untried with
  | ready waiting =>
      have state := passes.state step steady before stored (by rw [waiting]; decide)
      exact .ready (state.trans waiting)
  | lost failed isChild lost =>
      have state := passes.state step steady before stored (by rw [failed]; decide)
      exact .lost (state.trans failed) (continues.children ▸ isChild) (lost.step effect)
  | blocked waiting =>
      have later := steady.step step
      have uncalled := later.length_callsOf stored
      have untimed := later.length_timersOf stored
      rw [passes.calls, steady.length_callsOf before, waiting] at uncalled
      rw [passes.timers, steady.length_timersOf before, waiting] at untimed
      cases state : new.state with
      | waiting => exact .ready state
      | waitingChildren => exact .blocked state
      | active => cases state ▸ uncalled
      | delayed => cases state ▸ untimed
      | failed =>
          obtain ⟨child, isChild, lost⟩ := step.exists_lost reached before stored waiting state
          exact .lost state (continues.children ▸ isChild) lost
      | completed =>
          cases step.credits steady stored with
          | completes _ _ returned => cases (value?_of_aside passes.aside).symm.trans returned
          | keeps again same =>
              cases before.symm.trans again
              cases waiting.symm.trans (same.completed.1 state)
          | planted unborn => exact absurd (steady.sound.born before) unborn

/-! ## Jobs with attempts -/

/-- How a job stands after the last attempt that has ended, if there is one, and with the call
that is running, if there is one. -/
inductive Standing (queues : Queues) (key : JobKey) (job : Job) :
    Option Attempt → Option Call → Prop where
  | untried (untried : Untried queues job) : Standing queues key job none none
  | active {last : Option Attempt} {call : Call} (active : job.state = .active) :
      Standing queues key job last (some call)
  | completed {attempt : Attempt} {value : Json} (returned : attempt.outcome = .ok value)
      (completed : job.state = .completed) (result : job.returnValue = some value) :
      Standing queues key job (some attempt) none
  | failed {attempt : Attempt} {error : JobError} (returned : attempt.outcome = .error error)
      (final : attempt.call.Final error) (failed : job.state = .failed)
      (reason : job.failedReason = some error.message) : Standing queues key job (some attempt) none
  | delayed {attempt : Attempt} (again : attempt.Again) (delayed : job.state = .delayed)
      (timer : queues.timersOf key = [⟨key, attempt.endedAt +
        (queues.settingsOf key.queue).backoff attempt.call.attempt⟩]) :
      Standing queues key job (some attempt) none
  | ready {attempt : Attempt} (again : attempt.Again) (waiting : job.state = .waiting)
      (rested : attempt.endedAt + (queues.settingsOf key.queue).backoff attempt.call.attempt ≤
        queues.now) : Standing queues key job (some attempt) none

/-- The log of a stored job: attempts that have ended and perhaps one that is running. -/
structure Tried (queues : Queues) (key : JobKey) (job : Job) (log : List CallEvent)
    (ended : List Attempt) (current : Option Call) : Prop where
  /-- One attempt after the other is started and returns. -/
  log : log = ended.flatMap Attempt.events ++ current.toList.map .started
  numbered : (ended.map Attempt.call ++ current.toList).map Call.attempt =
    List.range' 1 job.attemptsMade
  limited : ∀ call ∈ ended.map Attempt.call ++ current.toList,
    call.maxAttempts = queues.allowance job
  spaced : ended.IsChain fun attempt next =>
    attempt.Precedes (queues.settingsOf key.queue) next.call
  resumed : ∀ attempt ∈ ended.getLast?, ∀ call ∈ current,
    attempt.Precedes (queues.settingsOf key.queue) call
  running : queues.callsOf key = current.toList
  standing : Standing queues key job ended.getLast? current
  /-- Where calls were made there is a worker. -/
  staffed : ended.map Attempt.call ++ current.toList ≠ [] →
    (queues.lane key.queue).worker ≠ .absent

/-! ### Numbers of attempts -/

theorem Tried.length_eq (tried : Tried queues key job log ended current) :
    ended.length + current.toList.length = job.attemptsMade := by
  have lengths := congrArg List.length tried.numbered
  rw [List.length_map, List.length_append, List.length_map, List.length_range'] at lengths
  exact lengths

variable {attempt : Attempt} {before rest : List Attempt}

theorem Tried.number (tried : Tried queues key job log ended current)
    (split : ended = before ++ attempt :: rest) : attempt.call.attempt = before.length + 1 := by
  have total := tried.length_eq
  have numbers := congrArg (fun numbers => numbers[before.length]?) tried.numbered
  subst split
  rw [List.length_append, List.length_cons] at total
  simp only [List.map_append, List.map_cons, List.append_assoc, List.cons_append,
    List.getElem?_range' (show before.length < job.attemptsMade by omega)] at numbers
  rw [List.getElem?_append_right (by simp)] at numbers
  simp only [List.length_map, Nat.sub_self, List.getElem?_cons_zero, Option.some.injEq] at numbers
  omega

/-- Every attempt but the last one allows another one. -/
theorem Tried.again (tried : Tried queues key job log ended current)
    (split : ended = before ++ attempt :: rest) (more : rest ≠ [] ∨ current ≠ none) :
    attempt.Again := by
  cases rest with
  | cons next rest =>
      exact (List.isChain_iff_forall_rel_of_append_cons_cons.1 tried.spaced split).again
  | nil =>
      obtain ⟨call, isCurrent⟩ := Option.ne_none_iff_exists'.1 (more.resolve_left (absurd rfl))
      refine (tried.resumed attempt ?_ call isCurrent).again
      rw [split, List.getLast?_concat]
      rfl

/-- There are no more attempts than allowed, and one is always allowed. -/
theorem Tried.attemptsMade_le (tried : Tried queues key job log ended current) :
    job.attemptsMade ≤ max 1 (queues.allowance job) := by
  rcases Nat.lt_or_ge 1 job.attemptsMade with several | few
  · -- The last attempt but one allows another one, so its number is below the limit.
    have total := tried.length_eq
    have one : current.toList.length ≤ 1 := by cases current <;> simp
    have within : job.attemptsMade - 2 < ended.length := by omega
    have split : ended = ended.take (job.attemptsMade - 2) ++
        ended[job.attemptsMade - 2] :: ended.drop (job.attemptsMade - 2 + 1) := by
      rw [List.getElem_cons_drop, List.take_append_drop]
    have more : ended.drop (job.attemptsMade - 2 + 1) ≠ [] ∨ current ≠ none := by
      cases current with
      | some call => exact .inr nofun
      | none =>
          refine .inl (List.ne_nil_of_length_pos ?_)
          rw [List.length_drop]
          have total : ended.length + 0 = job.attemptsMade := total
          omega
    have below := (tried.again split more).2
    have number := tried.number split
    have limit := tried.limited ended[job.attemptsMade - 2].call
      (List.mem_append_left _ (List.mem_map_of_mem (List.getElem_mem within)))
    rw [List.length_take] at number
    omega
  · exact Nat.le_trans few (Nat.le_max_left _ _)

/-- A job is tried only after all its children have completed. -/
theorem Tried.state_ne (tried : Tried queues key job log ended current)
    (made : 0 < job.attemptsMade) : job.state ≠ .waitingChildren := by
  intro waiting
  have total := tried.length_eq
  have standing := tried.standing
  generalize isLast : ended.getLast? = last at standing
  cases standing with
  | untried untried =>
      rw [List.getLast?_eq_none_iff.1 isLast] at total
      exact absurd total (Nat.ne_of_lt made)
  | active active => cases waiting.symm.trans active
  | completed _ completed => cases waiting.symm.trans completed
  | failed _ _ failed => cases waiting.symm.trans failed
  | delayed _ delayed => cases waiting.symm.trans delayed
  | ready _ ready => cases waiting.symm.trans ready

/-- A job that has finished was tried, unless one of its children will never complete. -/
theorem Tried.attemptsMade_pos (tried : Tried queues key job log ended current)
    (finished : job.state.isFinished = true)
    (complete : ∀ child ∈ job.children, queues.hasCompleted child = true) :
    0 < job.attemptsMade := by
  have total := tried.length_eq
  have standing := tried.standing
  have made : ∀ attempt, ended.getLast? = some attempt → 0 < job.attemptsMade := by
    intro attempt isLast
    have := List.length_pos_of_mem (List.mem_of_getLast? isLast)
    omega
  generalize isLast : ended.getLast? = last at standing
  cases standing with
  | untried untried =>
      cases untried with
      | ready waiting => rw [waiting] at finished; cases finished
      | blocked waiting => rw [waiting] at finished; cases finished
      | lost _ isChild lost =>
          have incomplete := lost.incomplete
          rw [complete _ isChild] at incomplete
          cases incomplete
  | active active => rw [active] at finished; cases finished
  | completed | failed | delayed | ready => exact made _ isLast

/-! ### A step that passes by -/

theorem Effect.settingsOf (effect : Effect queues after act) :
    after.settingsOf = queues.settingsOf := by
  funext queue
  rw [Queues.settingsOf, effect.settings, Queues.settingsOf]

theorem Standing.passes (standing : Standing queues key old last current)
    (passes : Passes queues after act key) (step : Step queues act after)
    (reached : Reachable settings queues) (before : queues.job? key = some old)
    (stored : after.job? key = some new) : Standing after key new last current := by
  have steady := reached.steady
  have effect := step.effect steady
  have continues := effect.continues steady passes.unstarted before stored
  have state : ∀ {state : JobState}, old.state = state → state ≠ .waitingChildren →
      new.state = state := fun same ready =>
    (passes.state step steady before stored (same ▸ ready)).trans same
  cases standing with
  | untried untried => exact .untried (untried.passes passes step reached before stored)
  | active active => exact .active (state active nofun)
  | completed returned completed result =>
      have kept := continues.ended (by rw [completed]; rfl)
      exact .completed returned (state completed nofun) (kept.2.1.trans result)
  | failed returned final failed reason =>
      have kept := continues.ended (by rw [failed]; rfl)
      exact .failed returned final (state failed nofun) (kept.2.2.trans reason)
  | delayed again delayed timer =>
      refine .delayed again (state delayed nofun) ?_
      rw [passes.timers, effect.settingsOf]
      exact timer
  | ready again waiting rested =>
      refine .ready again (state waiting nofun) ?_
      rw [effect.settingsOf]
      exact Nat.le_trans rested step.now_le

/-- As long as no call for a job is started or returns, its log stays as it is. -/
theorem Tried.goesOn (tried : Tried queues key old log ended current)
    (step : Step queues act after) (steady : Steady queues none []) (continues : old.Continues new)
    (calls : after.callsOf key = queues.callsOf key)
    (standing : Standing after key new ended.getLast? current) :
    Tried after key new log ended current := by
  have effect := step.effect steady
  have limits := effect.settingsOf
  constructor
  case log => exact tried.log
  case numbered => rw [continues.attemptsMade]; exact tried.numbered
  case limited =>
    rw [allowance_continues continues effect.settings]
    exact tried.limited
  case spaced => rw [limits]; exact tried.spaced
  case resumed => rw [limits]; exact tried.resumed
  case running => rw [calls]; exact tried.running
  case standing => exact standing
  case staffed => exact fun some => step.present (tried.staffed some)

theorem Tried.passes (tried : Tried queues key old log ended current)
    (passes : Passes queues after act key) (step : Step queues act after)
    (reached : Reachable settings queues) (before : queues.job? key = some old)
    (stored : after.job? key = some new) : Tried after key new log ended current :=
  tried.goesOn step reached.steady
    ((step.effect reached.steady).continues reached.steady passes.unstarted before stored)
    passes.calls (tried.standing.passes passes step reached before stored)

/-! ### A call is started -/

/-- Only the worker of its queue starts a job. -/
theorem Starts.act_eq (starts : Starts queues after key job) (step : Step queues act after)
    (steady : Steady queues none []) : act = .advance key.queue := by
  have grown : queues.running.length < after.running.length := by
    rw [starts.running, List.length_append]
    exact Nat.lt_succ_self _
  cases step.effect steady with
  | carries carries =>
      rw [carries.running] at grown
      exact absurd grown (Nat.lt_irrefl _)
  | returns isRunning carries =>
      rw [carries.running] at grown
      exact absurd grown (Nat.not_lt.2 List.length_erase_le)
  | plants plants =>
      rw [plants.running] at grown
      exact absurd grown (Nat.lt_irrefl _)
  | @starts queue _ _ _ =>
      cases step with
      | advance moved =>
          rcases advanceWorker?_some moved with ⟨next, rfl, moves⟩ | ⟨jobId, -, -, rfl⟩
          · exact absurd grown (Nat.lt_irrefl _)
          · rcases quiet_or_starts queues queue ⟨queue, jobId⟩ with quiet | ⟨found, own⟩
            · rw [quiet.running] at grown
              exact absurd grown (Nat.lt_irrefl _)
            · have same := List.append_cancel_left (own.running.symm.trans starts.running)
              have key_eq := congrArg Call.key (List.cons.inj same).1
              exact congrArg (fun key : JobKey => Act.advance key.queue) key_eq

/-- The log tells of the call that is started. -/
theorem Starts.callEvents_eq (starts : Starts queues after key job) :
    queues.callEvents (.advance key.queue) after = [.started (queues.callOf key job)] := by
  have call : queues.startedCalls after = [queues.callOf key job] := by
    rw [startedCalls, starts.running, List.drop_left]
  rw [callEvents, call]
  rfl

/-- An attempt of a job is started after the attempts that have ended. -/
theorem Tried.starts (tried : Tried queues key old log ended current)
    (starts : Starts queues after key old) (step : Step queues act after)
    (reached : Reachable settings queues) :
    Tried after key { old with state := .active, attemptsMade := old.attemptsMade + 1 }
      (log ++ [.started (queues.callOf key old)]) ended (some (queues.callOf key old)) := by
  have steady := reached.steady
  have effect := step.effect steady
  have limits := effect.settingsOf
  -- No call is running for a job that waits, and if there was an attempt, its delay is over.
  have idle : current = none := by
    have uncalled := steady.length_callsOf starts.stored
    rw [tried.running, starts.waiting] at uncalled
    cases current with
    | none => rfl
    | some call => cases uncalled
  subst idle
  have rested : ∀ attempt ∈ ended.getLast?,
      attempt.Precedes (queues.settingsOf key.queue) (queues.callOf key old) := by
    intro attempt isLast
    have standing := tried.standing
    rw [Option.mem_def.1 isLast] at standing
    cases standing with
    | completed _ completed => cases starts.waiting.symm.trans completed
    | failed _ _ failed => cases starts.waiting.symm.trans failed
    | delayed _ delayed => cases starts.waiting.symm.trans delayed
    | ready again _ rested => exact ⟨again, rested⟩
  have allowance : (queues.callOf key old).maxAttempts = queues.allowance old := by
    show queues.attemptLimit old = queues.allowance old
    rw [attemptLimit, allowance, reached.counted.settings]
  have same : after.allowance { old with state := .active, attemptsMade := old.attemptsMade + 1 } =
      queues.allowance old := by
    rw [Queues.allowance, limits]
    rfl
  have act_eq := starts.act_eq step steady
  subst act_eq
  constructor
  case log => simp [tried.log]
  case numbered =>
    have numbered := tried.numbered
    rw [Option.toList_none, List.append_nil] at numbered
    rw [List.map_append, numbered, List.range'_1_concat, Nat.add_comm 1]
    rfl
  case limited =>
    intro call member
    rw [same]
    rcases List.mem_append.1 member with earlier | isNew
    · exact tried.limited call (List.mem_append_left _ earlier)
    · rw [List.mem_singleton.1 isNew, allowance]
  case spaced => rw [limits]; exact tried.spaced
  case resumed =>
    intro attempt isLast call isNew
    rw [limits, ← Option.some.inj isNew]
    exact rested attempt isLast
  case running =>
    have before := tried.running
    rw [callsOf] at before
    rw [callsOf, starts.running, List.filter_append, before, Option.toList_none, List.nil_append]
    exact List.filter_cons_of_pos (beq_self_eq_true (queues.callOf key old).key)
  case standing => exact .active rfl
  case staffed =>
    intro _
    cases step with
    | advance moved => exact (works_of_advance moved).present

/-! ### A timer fires -/

/-- A delayed job has one timer, which tells when the delay is over. -/
theorem Standing.timer (standing : Standing queues key job last current)
    (delayed : job.state = .delayed) : current = none ∧ ∃ attempt, last = some attempt ∧
      attempt.Again ∧ queues.timersOf key = [⟨key, attempt.endedAt +
        (queues.settingsOf key.queue).backoff attempt.call.attempt⟩] := by
  cases standing with
  | untried untried =>
      cases untried with
      | ready waiting => cases delayed.symm.trans waiting
      | blocked waiting => cases delayed.symm.trans waiting
      | lost failed => cases delayed.symm.trans failed
  | active active => cases delayed.symm.trans active
  | completed _ completed => cases delayed.symm.trans completed
  | failed _ _ failed => cases delayed.symm.trans failed
  | ready _ waiting => cases delayed.symm.trans waiting
  | @delayed attempt again _ timer => exact ⟨rfl, attempt, rfl, again, timer⟩

/-- A timer that fires makes its job ready for the next attempt. -/
theorem Tried.fires {timer : RetryTimer} (tried : Tried queues timer.key old log ended current)
    (step : Step queues (.fire timer) after) (reached : Reachable settings queues)
    (before : queues.job? timer.key = some old) (stored : after.job? timer.key = some new) :
    Tried after timer.key new log ended current := by
  have steady := reached.steady
  have effect := step.effect steady
  have unstarted : ∀ job, ¬ Starts queues after timer.key job := fun job starts =>
    nomatch starts.act_eq step steady
  have continues := effect.continues steady unstarted before stored
  have running : after.running = queues.running := by
    cases effect with
    | carries carries => exact carries.running
  refine tried.goesOn step steady continues (by rw [callsOf, running]; rfl) ?_
  have later := step.now_le
  have limits := effect.settingsOf
  cases step with
  | fire pending due =>
      have mine : timer ∈ queues.timersOf timer.key := mem_timersOf.2 ⟨pending, rfl⟩
      have delayed := steady.delayed_of_timer pending before
      have woken : new.state = .waiting := by
        rw [job?_timerFires before delayed, Function.update_self] at stored
        exact Option.some.inj stored ▸ rfl
      obtain ⟨rfl, attempt, isLast, again, only⟩ := tried.standing.timer delayed
      rw [only, List.mem_singleton] at mine
      have isDue : timer.due = attempt.endedAt + _ := congrArg RetryTimer.due mine
      rw [isLast]
      refine .ready again woken ?_
      rw [limits, ← isDue]
      exact Nat.le_trans due later

/-! ### A call returns -/

/-- A job without a running call is not active. -/
theorem Standing.uncalled (standing : Standing queues key job last none) :
    job.state.agenda.calls = 0 := by
  cases standing with
  | untried untried =>
      cases untried with
      | ready waiting => rw [waiting]; rfl
      | blocked waiting => rw [waiting]; rfl
      | lost failed => rw [failed]; rfl
  | completed _ completed => rw [completed]; rfl
  | failed _ _ failed => rw [failed]; rfl
  | delayed _ delayed => rw [delayed]; rfl
  | ready _ waiting => rw [waiting]; rfl

/-- An error after which there is another attempt delays the job. -/
theorem standing_delayed {call : Call} {message : String} (reached : Reachable settings queues)
    (isRunning : call ∈ queues.running) (allowed : call.attempt < call.maxAttempts)
    (before : queues.job? call.key = some old)
    (stored : (queues.callReturns call (.error (.retryable message))).job? call.key = some new) :
    Standing (queues.callReturns call (.error (.retryable message))) call.key new
      (some ⟨call, .error (.retryable message), queues.now⟩) none := by
  have steady := reached.steady
  let ended : Queues := { queues with running := queues.running.erase call }
  have whole : queues.callReturns call (.error (.retryable message)) =
      ended.retryLater call.key call.attempt := if_pos allowed
  have untimed : queues.timersOf call.key = [] := by
    apply List.eq_nil_of_length_eq_zero
    rw [steady.length_timersOf before, (steady.endCall isRunning before).1]
    rfl
  have limits := (Step.finish (.error (.retryable message)) isRunning).effect steady |>.settingsOf
  refine .delayed ⟨⟨message, rfl⟩, allowed⟩ ?_ ?_
  · rw [whole, job?_retryLater (show ended.job? call.key = some old from before),
      Function.update_self] at stored
    exact Option.some.inj stored ▸ rfl
  · have lane : (ended.lane call.key.queue).settings = queues.settingsOf call.key.queue :=
      reached.counted.settings call.key.queue
    have others : ended.timers.filter (fun timer => timer.key == call.key) = [] := untimed
    rw [limits, whole, timersOf, timers_retryLater, List.filter_append, lane, others,
      List.nil_append]
    exact List.filter_cons_of_pos (beq_self_eq_true call.key)

/-- A call that returns tells how its job stands. -/
theorem standing_callReturns {call : Call} (outcome : Except JobError Json)
    (reached : Reachable settings queues) (isRunning : call ∈ queues.running)
    (before : queues.job? call.key = some old)
    (stored : (queues.callReturns call outcome).job? call.key = some new) :
    Standing (queues.callReturns call outcome) call.key new
      (some ⟨call, outcome, queues.now⟩) none := by
  have fails : ∀ error, outcome = .error error → call.Final error →
      Standing (queues.callReturns call outcome) call.key new
        (some ⟨call, outcome, queues.now⟩) none := by
    rintro error rfl final
    rw [(failsAlong_callReturns reached isRunning final before).own] at stored
    obtain rfl := Option.some.inj stored
    exact .failed rfl final rfl rfl
  cases outcome with
  | ok value =>
      obtain ⟨result, completed⟩ := job?_callReturns_ok before stored
      exact .completed rfl completed result
  | error error =>
      cases error with
      | unrecoverable message => exact fails _ rfl fun _ => nofun
      | retryable message =>
          by_cases allowed : call.attempt < call.maxAttempts
          · exact standing_delayed reached isRunning allowed before stored
          · exact fails _ rfl fun _ _ => Nat.not_lt.1 allowed

/-- The running attempt of a job ends. -/
theorem Tried.returns {call : Call} {outcome : Except JobError Json}
    (tried : Tried queues call.key old log ended current)
    (step : Step queues (.finish call outcome) after) (reached : Reachable settings queues)
    (before : queues.job? call.key = some old) (stored : after.job? call.key = some new) :
    Tried after call.key new (log ++ [.returned call outcome queues.now])
      (ended ++ [⟨call, outcome, queues.now⟩]) none := by
  have steady := reached.steady
  have effect := step.effect steady
  have limits := effect.settingsOf
  have unstarted : ∀ job, ¬ Starts queues after call.key job := fun job starts =>
    nomatch starts.act_eq step steady
  have continues := effect.continues steady unstarted before stored
  have later := steady.step step
  have present := @Step.present _ _ _ call.key.queue step
  cases step with
  | finish outcome isRunning =>
      have isCurrent : current = some call := by
        have mine : call ∈ queues.callsOf call.key := mem_callsOf.2 ⟨isRunning, rfl⟩
        rw [tried.running] at mine
        exact Option.mem_toList.1 mine
      subst isCurrent
      have standing := standing_callReturns outcome reached isRunning before stored
      let attempt : Attempt := ⟨call, outcome, queues.now⟩
      have calls : (ended ++ [attempt]).map Attempt.call ++ none.toList =
          ended.map Attempt.call ++ (some call).toList := by simp [attempt]
      constructor
      case log => simp [tried.log, Attempt.events]
      case numbered => rw [calls, continues.attemptsMade]; exact tried.numbered
      case limited =>
        rw [calls, allowance_continues continues effect.settings]
        exact tried.limited
      case spaced =>
        rw [limits]
        refine tried.spaced.append (.singleton _) fun attempt isLast next isNext => ?_
        rw [← Option.some.inj isNext]
        exact tried.resumed attempt isLast call rfl
      case resumed => exact fun _ _ _ => nofun
      case running =>
        apply List.eq_nil_of_length_eq_zero
        rw [later.length_callsOf stored, standing.uncalled]
      case standing =>
        rw [List.getLast?_concat]
        exact standing
      case staffed =>
        exact fun _ => present (tried.staffed (by simp))

/-! ## Runs -/

/-- The log of a run tells of every stored job what was tried. -/
structure Recorded (queues : Queues) (log : List CallEvent) : Prop where
  tried : ∀ key job, queues.job? key = some job →
    ∃ ended current, Tried queues key job (logOf key log) ended current
  /-- Nothing is known of keys that were given to no job. -/
  born : ∀ key, logOf key log ≠ [] → queues.view.Born key

theorem recorded_start (settings : Dict QueueSettings) : Recorded (.start settings) [] where
  tried _ job stored := (Option.some_ne_none job stored.symm).elim
  born _ something := absurd rfl something

/-- A job that is just planted is untried. -/
theorem tried_of_unborn (step : Step queues act after) (steady : Steady queues none [])
    (passes : Passes queues after act key) (unborn : ¬ queues.view.Born key)
    (stored : after.job? key = some new) : Tried after key new [] [] none := by
  have later := steady.step step
  have nothing : queues.view.agenda key = .nothing := by
    by_contra something
    exact unborn (steady.sound.bornAgenda key something)
  have uncalled : after.callsOf key = [] := by
    rw [passes.calls]
    apply List.eq_nil_of_length_eq_zero
    rw [length_callsOf, ← view_agenda, nothing]
    rfl
  have untimed : after.timersOf key = [] := by
    rw [passes.timers]
    apply List.eq_nil_of_length_eq_zero
    rw [length_timersOf, ← view_agenda, nothing]
    rfl
  rcases step.turns steady stored with ⟨old, before, -⟩ | ⟨-, fresh, unfinished⟩
  · exact absurd (steady.sound.born before) unborn
  · constructor
    case log => rfl
    case numbered => rw [fresh.attemptsMade]; rfl
    case limited => exact fun _ member => absurd member List.not_mem_nil
    case spaced => exact .nil
    case resumed => exact fun _ => nofun
    case running => exact uncalled
    case staffed => exact fun some => absurd rfl some
    case standing =>
      have calls := later.length_callsOf stored
      have timers := later.length_timersOf stored
      rw [uncalled] at calls
      rw [untimed] at timers
      apply Standing.untried
      cases state : new.state with
      | waiting => exact .ready state
      | waitingChildren => exact .blocked state
      | active => cases state ▸ calls
      | delayed => cases state ▸ timers
      | completed | failed =>
          rw [state] at unfinished
          cases unfinished

/-- What a step is about was given its key. -/
theorem born_of_isAbout (about : act.IsAbout key) (step : Step queues act after)
    (steady : Steady queues none []) : queues.view.Born key := by
  cases step with
  | finish outcome isRunning =>
      obtain rfl := about
      exact steady.born_of_call isRunning
  | fire pending due =>
      obtain rfl := about
      have pending := (view_endTimer pending).1
      exact steady.born_of_agenda (by omega)
  | _ => exact absurd about not_false

theorem Step.passes_of_unborn (step : Step queues act after) (steady : Steady queues none [])
    (unborn : ¬ queues.view.Born key) : Passes queues after act key :=
  step.passes steady (fun about => unborn (born_of_isAbout about step steady))
    fun _ starts => unborn (steady.sound.born starts.stored)

/-- Of a job that was stored before a step the log tells what was tried after it. -/
theorem Tried.step (tried : Tried queues key old (logOf key log) ended current)
    (step : Step queues act after) (reached : Reachable settings queues)
    (before : queues.job? key = some old) (stored : after.job? key = some new) :
    ∃ ended current,
      Tried after key new (logOf key (log ++ queues.callEvents act after)) ended current := by
  have steady := reached.steady
  rw [logOf_append]
  by_cases started : ∃ job, Starts queues after key job
  · obtain ⟨job, starts⟩ := started
    obtain rfl := starts.act_eq step steady
    cases before.symm.trans starts.stored
    have event : logOf key (queues.callEvents (.advance key.queue) after) =
        [.started (queues.callOf key old)] := by
      rw [starts.callEvents_eq]
      exact List.filter_cons_of_pos (beq_self_eq_true (queues.callOf key old).key)
    rw [starts.jobs, Function.update_self] at stored
    rw [event, ← Option.some.inj stored]
    exact ⟨ended, _, tried.starts starts step reached⟩
  · have unstarted := not_exists.1 started
    by_cases about : act.IsAbout key
    · cases act with
      | finish call outcome =>
          obtain rfl := about
          have event : logOf call.key (queues.callEvents (.finish call outcome) after) =
              [.returned call outcome queues.now] :=
            List.filter_cons_of_pos (beq_self_eq_true call.key)
          rw [event]
          exact ⟨_, none, tried.returns step reached before stored⟩
      | fire timer =>
          obtain rfl := about
          have silent : queues.callEvents (.fire timer) after = [] := by
            cases step.effect steady with
            | carries carries =>
                exact congrArg (List.map _) (startedCalls_of_running carries.running)
          have event : logOf timer.key (queues.callEvents (.fire timer) after) = [] :=
            congrArg (logOf timer.key) silent
          rw [event, List.append_nil]
          exact ⟨ended, current, tried.fires step reached before stored⟩
      | _ => exact absurd about not_false
    · have passes := step.passes steady about unstarted
      rw [passes.silent, List.append_nil]
      exact ⟨ended, current, tried.passes passes step reached before stored⟩

/-- A step adds to the log what it does to the jobs. -/
theorem Recorded.step (recorded : Recorded queues log) (reached : Reachable settings queues)
    (step : Step queues act after) : Recorded after (log ++ queues.callEvents act after) where
  tried key new stored := by
    have steady := reached.steady
    by_cases born : queues.view.Born key
    · obtain ⟨old, before, -⟩ := (step.effect steady).origin_of_born born stored
      obtain ⟨ended, current, tried⟩ := recorded.tried key old before
      exact tried.step step reached before stored
    · have passes := step.passes_of_unborn steady born
      refine ⟨[], none, ?_⟩
      rw [logOf_append, not_imp_comm.1 (recorded.born key) born, passes.silent]
      exact tried_of_unborn step steady passes born stored
  born key something := by
    have steady := reached.steady
    by_contra unborn
    have before : ¬ queues.view.Born key := mt (step.effect steady).born unborn
    refine something ?_
    rw [logOf_append, not_imp_comm.1 (recorded.born key) before,
      (step.passes_of_unborn steady before).silent]
    rfl

theorem recorded_of_follow? {acts : List Act}
    (followed : follow? acts (.start settings) = some queues) :
    Recorded queues (callLog acts (.start settings)) := by
  induction acts using List.reverseRecOn generalizing queues with
  | nil => exact Option.some.inj followed ▸ recorded_start settings
  | append_singleton acts act ih =>
      have whole := followed
      rw [follow?_concat] at followed
      obtain ⟨between, before, next⟩ := Option.bind_eq_some_iff.1 followed
      have reached := (leads_of_follow? before).reachable .start
      rw [callLog_concat before next]
      exact (ih before).step reached (step_iff_next?.2 next)

end Queues

end Relay
