import Relay.Proofs.Queue.ChainRun
import Relay.Proofs.Queue.Places

/-!
# The log of the calls

What the processors are asked and what they return is kept as a log along a run.  For a single
job only those steps matter that start a call for it, let one return or fire a timer of it.  All
others pass the job by: they say nothing of it in the log, and change its state only if it waits
for its children.
-/

namespace Relay

/-- What a processor is asked or returns. -/
inductive CallEvent where
  | started (call : Call)
  | returned (call : Call) (outcome : Except JobError Json) (time : Nat)
  deriving DecidableEq

/-- The job that a call is about. -/
def CallEvent.key : CallEvent → JobKey
  | .started call => call.key
  | .returned call _ _ => call.key

namespace Queues

variable {queues after : Queues} {act : Act} {key : JobKey} {old new job : Job}

/-! ## The log -/

/-- What a step adds to the log. -/
def callEvents (queues : Queues) (act : Act) (after : Queues) : List CallEvent :=
  match act with
  | .finish call outcome => [.returned call outcome queues.now]
  | .tick _ | .touch _ | .add _ _ | .startWorker _ | .advance _ | .fire _ | .remove _
  | .prune _ _ => (queues.startedCalls after).map .started

/-- The log of a run. -/
def callLog : List Act → Queues → List CallEvent
  | [], _ => []
  | act :: rest, queues =>
      match queues.next? act with
      | some after => queues.callEvents act after ++ callLog rest after
      | none => []

/-- The part of a log that is about a job. -/
def logOf (key : JobKey) (events : List CallEvent) : List CallEvent :=
  events.filter fun event => event.key == key

theorem logOf_append (key : JobKey) (first second : List CallEvent) :
    logOf key (first ++ second) = logOf key first ++ logOf key second := List.filter_append ..

theorem callLog_append {acts : List Act} {start : Queues}
    (followed : follow? acts start = some queues) (more : List Act) :
    callLog (acts ++ more) start = callLog acts start ++ callLog more queues := by
  induction acts generalizing start with
  | nil =>
      obtain rfl := Option.some.inj followed
      rfl
  | cons first rest ih =>
      obtain ⟨between, moved, others⟩ := Option.bind_eq_some_iff.1 followed
      simp only [List.cons_append, callLog, moved, ih others, List.append_assoc]

theorem callLog_concat {acts : List Act} {start : Queues}
    (followed : follow? acts start = some queues) (next : queues.next? act = some after) :
    callLog (acts ++ [act]) start = callLog acts start ++ queues.callEvents act after := by
  rw [callLog_append followed]
  simp only [callLog, next, List.append_nil]

/-! ## What is pending for a job -/

/-- The running calls for a job. -/
def callsOf (queues : Queues) (key : JobKey) : List Call :=
  queues.running.filter fun call => call.key == key

/-- The timers of a job. -/
def timersOf (queues : Queues) (key : JobKey) : List RetryTimer :=
  queues.timers.filter fun timer => timer.key == key

theorem length_callsOf (queues : Queues) (key : JobKey) :
    (queues.callsOf key).length = (queues.agenda key).calls :=
  List.countP_eq_length_filter.symm

theorem length_timersOf (queues : Queues) (key : JobKey) :
    (queues.timersOf key).length = (queues.agenda key).timers :=
  List.countP_eq_length_filter.symm

theorem mem_callsOf {call : Call} : call ∈ queues.callsOf key ↔
    call ∈ queues.running ∧ call.key = key := by
  rw [callsOf, List.mem_filter, beq_iff_eq]

theorem mem_timersOf {timer : RetryTimer} : timer ∈ queues.timersOf key ↔
    timer ∈ queues.timers ∧ timer.key = key := by
  rw [timersOf, List.mem_filter, beq_iff_eq]

theorem Steady.length_callsOf (steady : Steady queues none [])
    (stored : queues.job? key = some job) :
    (queues.callsOf key).length = job.state.agenda.calls := by
  rw [Queues.length_callsOf, ← steady.agenda_eq stored, view_agenda]

theorem Steady.length_timersOf (steady : Steady queues none [])
    (stored : queues.job? key = some job) :
    (queues.timersOf key).length = job.state.agenda.timers := by
  rw [Queues.length_timersOf, ← steady.agenda_eq stored, view_agenda]

/-- Timers are those of delayed jobs. -/
theorem Steady.delayed_of_timer {timer : RetryTimer} (steady : Steady queues none [])
    (pending : timer ∈ queues.timers) (stored : queues.job? timer.key = some job) :
    job.state = .delayed := by
  have mine : timer ∈ queues.timersOf timer.key := mem_timersOf.2 ⟨pending, rfl⟩
  apply JobState.eq_delayed
  rw [← steady.length_timersOf stored]
  exact List.length_pos_of_mem mine

/-- What belongs to another job may as well be erased. -/
theorem filter_erase_of_ne {α : Type} [BEq α] [LawfulBEq α] (keyOf : α → JobKey) {element : α}
    (other : keyOf element ≠ key) (elements : List α) :
    ((elements.erase element).filter fun element => keyOf element == key) =
      elements.filter fun element => keyOf element == key := by
  induction elements with
  | nil => rfl
  | cons head rest ih =>
      by_cases same : head = element
      · rw [same, List.erase_cons_head, List.filter_cons_of_neg (by simpa using other)]
      · rw [List.erase_cons_tail (by simpa using same), List.filter_cons, List.filter_cons, ih]

/-! ## Steps that pass a job by -/

/-- A call for a job returns, or a timer of it fires. -/
def Act.IsAbout (key : JobKey) : Act → Prop
  | .finish call _ => call.key = key
  | .fire timer => timer.key = key
  | .tick _ | .touch _ | .add _ _ | .startWorker _ | .advance _ | .remove _ | .prune _ _ => False

/-- A step does nothing to the attempts of a job. -/
structure Passes (queues after : Queues) (act : Act) (key : JobKey) : Prop where
  aside : ¬ act.IsAbout key
  unstarted : ∀ job, ¬ Starts queues after key job
  silent : logOf key (queues.callEvents act after) = []
  calls : after.callsOf key = queues.callsOf key
  timers : after.timersOf key = queues.timersOf key

theorem logOf_started (calls : List Call) : logOf key (calls.map .started) =
    (calls.filter fun call => call.key == key).map .started := List.filter_map

theorem logOf_callEvents (aside : ¬ act.IsAbout key)
    (none : (queues.startedCalls after).filter (fun call => call.key == key) = []) :
    logOf key (queues.callEvents act after) = [] := by
  cases act with
  | finish call outcome =>
      have other : call.key ≠ key := aside
      exact List.filter_cons_of_neg (by simpa [CallEvent.key] using other)
  | _ => exact (logOf_started _).trans (by rw [none]; rfl)

theorem Timing.timersOf (timing : Timing queues after act) (aside : ¬ act.IsAbout key) :
    after.timersOf key = queues.timersOf key := by
  cases timing with
  | leaves same => rw [Queues.timersOf, same]; rfl
  | @sets call message allowed set =>
      have other : call.key ≠ key := aside
      rw [Queues.timersOf, set, List.filter_append, List.filter_cons_of_neg (by simpa using other)]
      exact List.append_nil _
  | @fires timer fired =>
      have other : timer.key ≠ key := aside
      rw [Queues.timersOf, fired, filter_erase_of_ne RetryTimer.key other]
      rfl

/-- A step that neither starts a call for a job nor is about the job passes it by. -/
theorem Step.passes (step : Step queues act after) (steady : Steady queues none [])
    (aside : ¬ act.IsAbout key) (unstarted : ∀ job, ¬ Starts queues after key job) :
    Passes queues after act key := by
  have timers := step.timing.timersOf aside
  have ofRunning : after.running = queues.running → Passes queues after act key := by
    intro same
    refine ⟨aside, unstarted, logOf_callEvents aside ?_, ?_, timers⟩
    · rw [startedCalls_of_running same]
      rfl
    · rw [callsOf, same]
      rfl
  cases step.effect steady with
  | carries carries => exact ofRunning carries.running
  | plants plants => exact ofRunning plants.running
  | @returns call outcome isRunning carries =>
      have other : call.key ≠ key := aside
      refine ⟨aside, unstarted, logOf_callEvents aside ?_, ?_, timers⟩
      · rw [startedCalls, carries.running, List.drop_of_length_le List.length_erase_le]
        rfl
      · rw [callsOf, carries.running, filter_erase_of_ne Call.key other]
        rfl
  | @starts queue startedKey job starts =>
      have other : (queues.callOf startedKey job).key ≠ key := by
        rintro rfl
        exact unstarted job starts
      refine ⟨aside, unstarted, logOf_callEvents aside ?_, ?_, timers⟩
      · rw [startedCalls, starts.running, List.drop_left,
          List.filter_cons_of_neg (by simpa using other)]
        rfl
      · rw [callsOf, starts.running, List.filter_append,
          List.filter_cons_of_neg (by simpa using other)]
        exact List.append_nil _

/-- A job goes on if no attempt of it is started. -/
theorem Effect.continues (effect : Effect queues after act) (steady : Steady queues none [])
    (unstarted : ∀ job, ¬ Starts queues after key job) (before : queues.job? key = some old)
    (stored : after.job? key = some new) : old.Continues new := by
  cases effect with
  | carries carries =>
      obtain ⟨found, isFound, continues⟩ := carries.jobs key new stored
      cases before.symm.trans isFound
      exact continues
  | returns isRunning carries =>
      obtain ⟨found, isFound, continues⟩ := carries.jobs key new stored
      cases before.symm.trans isFound
      exact continues
  | @starts queue startedKey job starts =>
      have other : key ≠ startedKey := by
        rintro rfl
        exact unstarted job starts
      rw [starts.jobs, Function.update_of_ne other, before] at stored
      exact Option.some.inj stored ▸ .refl old
  | plants plants =>
      rcases (plants.jobs key new).1 stored with holds | again
      · exact absurd (steady.sound.born before) (plants.unborn holds)
      · exact Option.some.inj (before.symm.trans again) ▸ .refl old

/-- Whatever waits in a lane still waits after a step of somebody else. -/
theorem starts_le (keeps : (queues.lane key.queue).Keeps (after.lane key.queue)) :
    queues.starts key ≤ after.starts key := by
  unfold starts
  have ready := keeps.ready.sublist.count_le key.id
  by_cases absent : (queues.lane key.queue).worker = .absent
  · rw [absent]
    exact Nat.le_trans ready (Nat.le_add_right _ _)
  · rw [keeps.worker absent]
    exact Nat.add_le_add_right ready _

/-- A worker changes no stored job but the one that it starts. -/
theorem job?_of_advance {queue : String} (moved : queues.advanceWorker? queue = some after)
    (unstarted : ∀ job, ¬ Starts queues after key job) : after.job? key = queues.job? key := by
  rcases advanceWorker?_some moved with ⟨next, rfl, moves⟩ | ⟨jobId, -, -, rfl⟩
  · rfl
  · rcases quiet_or_starts queues queue ⟨queue, jobId⟩ with quiet | ⟨job, starts⟩
    · exact congrFun quiet.jobs key
    · have other : key ≠ ⟨queue, jobId⟩ := by
        rintro rfl
        exact unstarted job starts
      rw [starts.jobs, Function.update_of_ne other]

/-- A step that passes a job by changes its state only if the job waits for its children. -/
theorem Passes.state (passes : Passes queues after act key) (step : Step queues act after)
    (steady : Steady queues none []) (before : queues.job? key = some old)
    (stored : after.job? key = some new) (ready : old.state ≠ .waitingChildren) :
    new.state = old.state := by
  have later := steady.step step
  have continues := (step.effect steady).continues steady passes.unstarted before stored
  cases state : old.state with
  | waitingChildren => exact absurd state ready
  | completed | failed => exact (continues.ended (by rw [state]; rfl)).1.trans state
  | active =>
      apply JobState.eq_active
      rw [← later.length_callsOf stored, passes.calls, steady.length_callsOf before, state]
      exact Nat.one_pos
  | delayed =>
      apply JobState.eq_delayed
      rw [← later.length_timersOf stored, passes.timers, steady.length_timersOf before, state]
      exact Nat.one_pos
  | waiting =>
      by_cases own : act = .advance key.queue
      · subst own
        cases step with
        | advance moved =>
            rw [job?_of_advance moved passes.unstarted, before] at stored
            exact Option.some.inj stored ▸ state
      · apply JobState.eq_waiting
        have pending : 0 < (queues.view.agenda key).starts := by
          rw [steady.agenda_eq before, state]
          exact Nat.one_pos
        rw [← later.agenda_eq stored]
        exact Nat.lt_of_lt_of_le pending (starts_le (step.keeps own))

end Queues

end Relay
