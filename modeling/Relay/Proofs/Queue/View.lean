import Mathlib.Data.List.Count
import Mathlib.Logic.Function.Basic
import Relay.Proofs.Dict
import Relay.Queue.Finish
import Relay.Queue.Submit
import Relay.Queue.Worker

/-!
# What the scheduler amounts to

The state of a job is spread over the table of jobs, the lanes, the running calls
and the timers.  A `View` gathers for every key the stored job, what is pending for
it and whether it has completed, and every elementary operation on the queues is
described once as an update of the view.
-/

namespace Relay

/-! ## Elementary operations on lanes -/

namespace Queues

@[simp] theorem lane_setLane (queues : Queues) (queue other : String) (lane : Lane) :
    (queues.setLane queue lane).lane other = if other = queue then lane else queues.lane other := by
  simp only [Queues.lane, setLane, Dict.get?_insert]
  split <;> rfl

@[simp] theorem lane_changeLane (queues : Queues) (queue other : String) (change : Lane → Lane) :
    (queues.changeLane queue change).lane other =
      if other = queue then change (queues.lane queue) else queues.lane other :=
  lane_setLane queues queue other _

@[simp] theorem lane_touch (queues : Queues) (queue other : String) :
    (queues.touch queue).lane other = queues.lane other := by
  rw [touch, lane_setLane]
  split
  · next same => rw [same]
  · rfl

@[simp] theorem lane_setJob (queues : Queues) (key : JobKey) (job : Job) (queue : String) :
    (queues.setJob key job).lane queue = queues.lane queue := rfl

/-! ## Elementary operations on jobs -/

@[simp] theorem job?_setLane (queues : Queues) (queue : String) (lane : Lane) (key : JobKey) :
    (queues.setLane queue lane).job? key = queues.job? key := rfl

theorem job?_eq_some_iff (queues : Queues) (key : JobKey) (job : Job) :
    queues.job? key = some job ↔ queues.jobs.get? key.id = some job ∧ job.queue = key.queue := by
  simp [job?, Option.filter_eq_some_iff]

/-- Two jobs never share an identifier. -/
theorem job?_eq_none_of_id {queues : Queues} {key other : JobKey} {old : Job}
    (stored : queues.job? key = some old) (sameId : other.id = key.id) (different : other ≠ key) :
    queues.job? other = none := by
  obtain ⟨found, sameQueue⟩ := (job?_eq_some_iff _ _ _).1 stored
  rw [Option.eq_none_iff_forall_ne_some]
  intro job again
  obtain ⟨foundAgain, sameOther⟩ := (job?_eq_some_iff _ _ _).1 again
  rw [sameId, found] at foundAgain
  cases foundAgain
  refine different ?_
  cases other
  cases key
  simp_all

/-- A job may be replaced by one on the same queue. -/
theorem job?_setJob {queues : Queues} {key : JobKey} {old job : Job}
    (stored : queues.job? key = some old) (same : job.queue = key.queue) (other : JobKey) :
    (queues.setJob key job).job? other = if other = key then some job else queues.job? other := by
  have now : (queues.setJob key job).job? key = some job :=
    (job?_eq_some_iff _ _ _).2 ⟨Dict.get?_insert_self _ _ _, same⟩
  split
  · next equal => rw [equal, now]
  · next different =>
      by_cases sameId : other.id = key.id
      · rw [job?_eq_none_of_id stored sameId different, job?_eq_none_of_id now sameId different]
      · simp [job?, setJob, Dict.get?_insert, sameId]

/-- Dropping a job drops nothing else. -/
theorem job?_erase {queues : Queues} {key : JobKey} {old : Job}
    (stored : queues.job? key = some old) (other : JobKey) :
    ({ queues with jobs := queues.jobs.erase key.id } : Queues).job? other =
      if other = key then none else queues.job? other := by
  split
  · next equal => simp [job?, Dict.get?_erase, equal]
  · next different =>
      by_cases sameId : other.id = key.id
      · rw [job?_eq_none_of_id stored sameId different]
        simp [job?, Dict.get?_erase, sameId]
      · simp [job?, Dict.get?_erase, sameId]

end Queues

/-! ## What is pending for a job -/

/-- What is going to happen to a job: pending starts, retry timers and running calls. -/
structure Agenda where
  starts : Nat
  timers : Nat
  calls : Nat
  deriving DecidableEq, Repr

namespace Agenda

/-- Nothing is going to happen. -/
def nothing : Agenda := ⟨0, 0, 0⟩

end Agenda

/-- How often a worker holds a job: once or not at all. -/
def Worker.holds (worker : Worker) (jobId : String) : Nat :=
  match worker with
  | .awaitingToken held _ | .awaitingSlot held => if held = jobId then 1 else 0
  | .absent | .idle | .stopped => 0

/-- What has to be pending for a job in a state. -/
def JobState.agenda : JobState → Agenda
  | .waiting => ⟨1, 0, 0⟩
  | .delayed => ⟨0, 1, 0⟩
  | .active => ⟨0, 0, 1⟩
  | .waitingChildren | .completed | .failed => .nothing

theorem JobState.eq_waiting {state : JobState} (pending : 0 < state.agenda.starts) :
    state = .waiting := by
  cases state <;> first | rfl | exact absurd pending (by decide)

theorem JobState.eq_delayed {state : JobState} (pending : 0 < state.agenda.timers) :
    state = .delayed := by
  cases state <;> first | rfl | exact absurd pending (by decide)

theorem JobState.eq_active {state : JobState} (pending : 0 < state.agenda.calls) :
    state = .active := by
  cases state <;> first | rfl | exact absurd pending (by decide)

namespace Queues

/-- How often a job is in the ready channel of its queue or in the hand of its worker. -/
def starts (queues : Queues) (key : JobKey) : Nat :=
  (queues.lane key.queue).ready.count key.id + (queues.lane key.queue).worker.holds key.id

/-- What is pending for a job. -/
def agenda (queues : Queues) (key : JobKey) : Agenda :=
  { starts := queues.starts key
    timers := queues.timers.countP fun timer => timer.key == key
    calls := queues.running.countP fun call => call.key == key }

/-- Whether the completion of a job was announced, be the job still stored or not. -/
def hasCompleted (queues : Queues) (key : JobKey) : Bool :=
  (queues.lane key.queue).events.contains (.completed key.id)

/-- No worker was stopped. -/
def Working (queues : Queues) : Prop := ∀ queue, (queues.lane queue).worker ≠ .stopped

end Queues

/-! ## Views -/

/-- What the scheduler amounts to, key by key. -/
@[ext]
structure View where
  job? : JobKey → Option Job
  agenda : JobKey → Agenda
  completed : JobKey → Bool
  /-- The serial number of the next job. -/
  serial : Nat

namespace View

/-- Replace what is stored under a key. -/
def setJob (view : View) (key : JobKey) (job : Option Job) : View :=
  { view with job? := Function.update view.job? key job }

/-- Replace what is pending for a job. -/
def setAgenda (view : View) (key : JobKey) (agenda : Agenda) : View :=
  { view with agenda := Function.update view.agenda key agenda }

/-- Note the completion of a job. -/
def complete (view : View) (key : JobKey) : View :=
  { view with completed := Function.update view.completed key true }

section Updates

variable (view : View) (key other : JobKey) (job : Option Job) (pending : Agenda)

@[simp] theorem setJob_job? :
    (view.setJob key job).job? other = if other = key then job else view.job? other :=
  Function.update_apply _ _ _ _

@[simp] theorem setJob_agenda : (view.setJob key job).agenda = view.agenda := rfl

@[simp] theorem setJob_completed : (view.setJob key job).completed = view.completed := rfl

@[simp] theorem setJob_serial : (view.setJob key job).serial = view.serial := rfl

@[simp] theorem setAgenda_job? : (view.setAgenda key pending).job? = view.job? := rfl

@[simp] theorem setAgenda_agenda : (view.setAgenda key pending).agenda other =
    if other = key then pending else view.agenda other :=
  Function.update_apply _ _ _ _

@[simp] theorem setAgenda_completed :
    (view.setAgenda key pending).completed = view.completed := rfl

@[simp] theorem setAgenda_serial : (view.setAgenda key pending).serial = view.serial := rfl

@[simp] theorem setAgenda_setAgenda (later : Agenda) :
    (view.setAgenda key pending).setAgenda key later = view.setAgenda key later := by
  simp [setAgenda]

/-- What is stored and what is pending are told apart. -/
theorem setAgenda_setJob :
    (view.setAgenda other pending).setJob key job = (view.setJob key job).setAgenda other pending :=
  rfl

@[simp] theorem setAgenda_self : view.setAgenda key (view.agenda key) = view := by
  simp [setAgenda]

@[simp] theorem complete_job? : (view.complete key).job? = view.job? := rfl

@[simp] theorem complete_agenda : (view.complete key).agenda = view.agenda := rfl

@[simp] theorem complete_completed : (view.complete key).completed other =
    if other = key then true else view.completed other :=
  Function.update_apply _ _ _ _

@[simp] theorem complete_serial : (view.complete key).serial = view.serial := rfl

end Updates

end View

namespace Queues

/-- The view of the queues. -/
def view (queues : Queues) : View :=
  { job? := queues.job?, agenda := queues.agenda, completed := queues.hasCompleted
    serial := queues.nextSerial }

@[simp] theorem view_job? (queues : Queues) : queues.view.job? = queues.job? := rfl

@[simp] theorem view_agenda (queues : Queues) : queues.view.agenda = queues.agenda := rfl

@[simp] theorem view_completed (queues : Queues) : queues.view.completed = queues.hasCompleted := rfl

@[simp] theorem view_serial (queues : Queues) : queues.view.serial = queues.nextSerial := rfl

/-! ## Operations that change nothing but numbers -/

theorem hasCompleted_setLane {queues : Queues} {queue : String} {lane : Lane}
    (events : lane.events = (queues.lane queue).events) :
    (queues.setLane queue lane).hasCompleted = queues.hasCompleted := by
  funext key
  simp only [hasCompleted, lane_setLane]
  split
  · next same => rw [events, same]
  · rfl

/-- A change of a lane goes unnoticed if it keeps the pending starts and the events. -/
theorem view_setLane {queues : Queues} {queue : String} {lane : Lane}
    (starts : ∀ jobId, lane.ready.count jobId + lane.worker.holds jobId =
      (queues.lane queue).ready.count jobId + (queues.lane queue).worker.holds jobId)
    (events : lane.events = (queues.lane queue).events) :
    (queues.setLane queue lane).view = queues.view := by
  have agenda : (queues.setLane queue lane).agenda = queues.agenda := by
    funext key
    simp only [Queues.agenda, Queues.starts, lane_setLane]
    split
    · next same => rw [starts, same]; rfl
    · rfl
  exact View.ext rfl agenda (hasCompleted_setLane events) rfl

theorem view_changeLane {queues : Queues} {queue : String} {change : Lane → Lane}
    (ready : (change (queues.lane queue)).ready = (queues.lane queue).ready)
    (worker : (change (queues.lane queue)).worker = (queues.lane queue).worker)
    (events : (change (queues.lane queue)).events = (queues.lane queue).events) :
    (queues.changeLane queue change).view = queues.view :=
  view_setLane (by simp [ready, worker]) events

@[simp] theorem view_release (queues : Queues) (queue : String) (count : Nat) :
    (queues.release queue count).view = queues.view := view_changeLane rfl rfl rfl

@[simp] theorem view_claim (queues : Queues) (queue : String) (count : Nat) :
    (queues.claim queue count).view = queues.view := view_changeLane rfl rfl rfl

@[simp] theorem view_touch (queues : Queues) (queue : String) :
    (queues.touch queue).view = queues.view :=
  @view_changeLane queues queue id rfl rfl rfl

@[simp] theorem view_atTime (queues : Queues) (time : Nat) :
    ({ queues with now := time } : Queues).view = queues.view := by
  have lanes : ∀ queue,
      (({ queues with now := time } : Queues).lane queue).ready = (queues.lane queue).ready ∧
      (({ queues with now := time } : Queues).lane queue).worker = (queues.lane queue).worker ∧
      (({ queues with now := time } : Queues).lane queue).events = (queues.lane queue).events := by
    intro queue
    simp only [lane, settingsOf]
    cases queues.lanes.get? queue <;> exact ⟨rfl, rfl, rfl⟩
  have agenda : ({ queues with now := time } : Queues).agenda = queues.agenda := by
    funext key
    simp only [Queues.agenda, starts, (lanes key.queue).1, (lanes key.queue).2.1]
  have completed : ({ queues with now := time } : Queues).hasCompleted = queues.hasCompleted := by
    funext key
    simp only [hasCompleted, (lanes key.queue).2.2]
  exact View.ext rfl agenda completed rfl

/-! ## Events -/

theorem hasCompleted_publish (queues : Queues) (queue : String) (event : QueueEvent)
    (key : JobKey) : (queues.publish queue event).hasCompleted key =
      (queues.hasCompleted key || decide (key.queue = queue ∧ event = .completed key.id)) := by
  simp only [hasCompleted, publish, lane_changeLane]
  split
  · next same => simp [same, eq_comm]
  · next different => simp [different]

theorem agenda_publish (queues : Queues) (queue : String) (event : QueueEvent) :
    (queues.publish queue event).agenda = queues.agenda := by
  funext key
  simp only [agenda, starts, publish, lane_changeLane]
  split
  · next same => rw [same]; rfl
  · rfl

@[simp] theorem view_publish_failed (queues : Queues) (queue jobId reason : String) :
    (queues.publish queue (.failed jobId reason)).view = queues.view := by
  refine View.ext rfl (agenda_publish _ _ _) ?_ rfl
  funext key
  simp [hasCompleted_publish]

@[simp] theorem view_publish_completed (queues : Queues) (key : JobKey) :
    (queues.publish key.queue (.completed key.id)).view = queues.view.complete key := by
  refine View.ext rfl (agenda_publish _ _ _) ?_ rfl
  funext other
  simp only [view_completed, hasCompleted_publish, View.complete, Function.update_apply]
  split
  · next same => simp [same]
  · next different =>
      have elsewhere : ¬ (other.queue = key.queue ∧ key.id = other.id) := fun both =>
        different (by cases other; cases key; simp_all)
      simp [elsewhere]

/-! ## Jobs -/

theorem view_setJob {queues : Queues} {key : JobKey} {old job : Job}
    (stored : queues.job? key = some old) (same : job.queue = key.queue) :
    (queues.setJob key job).view = queues.view.setJob key (some job) := by
  refine View.ext ?_ rfl rfl rfl
  funext other
  exact (job?_setJob stored same other).trans (Function.update_apply _ _ _ _).symm

theorem view_erase {queues : Queues} {key : JobKey} {old : Job}
    (stored : queues.job? key = some old) :
    ({ queues with jobs := queues.jobs.erase key.id } : Queues).view =
      queues.view.setJob key none := by
  refine View.ext ?_ rfl rfl rfl
  funext other
  exact (job?_erase stored other).trans (Function.update_apply _ _ _ _).symm

/-! ## Starts, calls and timers -/

/-- A change of what is under way for one job changes nothing else. -/
theorem view_of_agenda {queues after : Queues} {key : JobKey} (jobs : after.job? = queues.job?)
    (events : after.hasCompleted = queues.hasCompleted)
    (serial : after.nextSerial = queues.nextSerial)
    (others : ∀ other, other ≠ key → after.agenda other = queues.agenda other) :
    after.view = queues.view.setAgenda key (after.agenda key) := by
  refine View.ext jobs ?_ events serial
  funext other
  simp only [view_agenda, View.setAgenda, Function.update_apply]
  split
  · next same => rw [same]
  · next different => exact others other different

/-- A change of one queue that changes what starts one job changes only that. -/
theorem view_of_starts {queues after : Queues} {key : JobKey} (jobs : after.jobs = queues.jobs)
    (running : after.running = queues.running) (timers : after.timers = queues.timers)
    (serial : after.nextSerial = queues.nextSerial)
    (events : after.hasCompleted = queues.hasCompleted)
    (others : ∀ other, other ≠ key → after.starts other = queues.starts other) :
    after.view =
      queues.view.setAgenda key { queues.agenda key with starts := after.starts key } := by
  have agenda : ∀ other, after.agenda other =
      { queues.agenda other with starts := after.starts other } := by
    intro other
    simp only [Queues.agenda, running, timers]
  rw [← agenda]
  refine view_of_agenda (funext fun other => by simp only [job?, jobs]) events serial ?_
  intro other different
  rw [agenda, others other different]
  rfl

theorem starts_enqueue {queues : Queues} (working : queues.Working) (key other : JobKey) :
    (queues.enqueue key).starts other =
      queues.starts other + if other = key then 1 else 0 := by
  have notStopped := working key.queue
  simp only [starts, enqueue, lane_changeLane, notStopped, if_false]
  split
  · next sameQueue =>
      have sameKey : key.id = other.id ↔ other = key := by
        cases other
        cases key
        simp_all [eq_comm]
      simp only [List.count_append, List.count_singleton, beq_iff_eq, sameKey, sameQueue]
      omega
  · next elsewhere =>
      rw [if_neg fun same => elsewhere (congrArg JobKey.queue same)]
      omega

/-- Handing a job to its queue adds a pending start. -/
theorem view_enqueue {queues : Queues} (working : queues.Working) (key : JobKey) :
    (queues.enqueue key).view = queues.view.setAgenda key
      { queues.view.agenda key with starts := (queues.view.agenda key).starts + 1 } := by
  have events : (queues.enqueue key).hasCompleted = queues.hasCompleted :=
    hasCompleted_setLane (by dsimp only; split <;> rfl)
  rw [@view_of_starts queues (queues.enqueue key) key rfl rfl rfl rfl events
    fun other different => by simp [starts_enqueue working, different]]
  simp [starts_enqueue working, Queues.agenda]

theorem countP_erase_key {α : Type} [BEq α] [LawfulBEq α] (keyOf : α → JobKey) {item : α}
    {items : List α} (member : item ∈ items) (key : JobKey) :
    (items.erase item).countP (fun other => keyOf other == key) =
      items.countP (fun other => keyOf other == key) - if key = keyOf item then 1 else 0 := by
  rw [List.countP_erase]
  simp only [member, true_and, beq_iff_eq, @eq_comm _ key]

/-- A call that has returned is no longer running. -/
theorem view_endCall {queues : Queues} {call : Call} (isRunning : call ∈ queues.running) :
    0 < (queues.view.agenda call.key).calls ∧
      ({ queues with running := queues.running.erase call } : Queues).view =
        queues.view.setAgenda call.key
          { queues.view.agenda call.key with calls := (queues.view.agenda call.key).calls - 1 } := by
  refine ⟨List.countP_pos_iff.2 ⟨call, isRunning, by simp⟩, ?_⟩
  have counted := countP_erase_key Call.key isRunning
  rw [@view_of_agenda queues { queues with running := queues.running.erase call } call.key rfl rfl rfl
    fun other different => by simp only [agenda, counted, different]; rfl]
  simp only [agenda, counted, if_true]
  rfl

theorem view_addCall (queues : Queues) (call : Call) :
    ({ queues with running := queues.running ++ [call] } : Queues).view =
      queues.view.setAgenda call.key
        { queues.view.agenda call.key with calls := (queues.view.agenda call.key).calls + 1 } := by
  rw [@view_of_agenda queues { queues with running := queues.running ++ [call] } call.key rfl rfl
    rfl fun other different => by simp [agenda, Ne.symm different]; rfl]
  simp only [agenda, List.countP_append, List.countP_singleton, beq_self_eq_true]
  rfl

/-- A timer that has fired is no longer pending. -/
theorem view_endTimer {queues : Queues} {timer : RetryTimer} (pending : timer ∈ queues.timers) :
    0 < (queues.view.agenda timer.key).timers ∧
      ({ queues with timers := queues.timers.erase timer } : Queues).view =
        queues.view.setAgenda timer.key
          { queues.view.agenda timer.key with
            timers := (queues.view.agenda timer.key).timers - 1 } := by
  refine ⟨List.countP_pos_iff.2 ⟨timer, pending, by simp⟩, ?_⟩
  have counted := countP_erase_key RetryTimer.key pending
  rw [@view_of_agenda queues { queues with timers := queues.timers.erase timer } timer.key rfl rfl
    rfl fun other different => by simp only [agenda, counted, different]; rfl]
  simp only [agenda, counted, if_true]
  rfl

theorem view_addTimer (queues : Queues) (timer : RetryTimer) :
    ({ queues with timers := queues.timers ++ [timer] } : Queues).view =
      queues.view.setAgenda timer.key
        { queues.view.agenda timer.key with
          timers := (queues.view.agenda timer.key).timers + 1 } := by
  rw [@view_of_agenda queues { queues with timers := queues.timers ++ [timer] } timer.key rfl rfl
    rfl fun other different => by simp [agenda, Ne.symm different]; rfl]
  simp only [agenda, List.countP_append, List.countP_singleton, beq_self_eq_true]
  rfl

/-! ## Workers -/

/-- A lane moves on without anything being lost, started or announced. -/
structure LaneMoves (lane next : Lane) : Prop where
  working : next.worker ≠ .stopped
  starts : ∀ jobId, next.ready.count jobId + next.worker.holds jobId =
    lane.ready.count jobId + lane.worker.holds jobId
  events : next.events = lane.events
  unfinished : next.unfinished = lane.unfinished
  settings : next.settings = lane.settings

theorem takeReady?_some {queues after : Queues} {queue : String}
    (taken : queues.takeReady? queue = some after) :
    ∃ next, after = queues.setLane queue next ∧ LaneMoves (queues.lane queue) next := by
  dsimp only [takeReady?] at taken
  split at taken
  · next jobId rest isIdle ready =>
      cases taken
      refine ⟨_, rfl, by simp, fun other => ?_, rfl, rfl, rfl⟩
      rw [isIdle, ready, List.count_cons]
      simp [Worker.holds]
  · cases taken

theorem takeToken?_some {queues after : Queues} {queue : String}
    (taken : queues.takeToken? queue = some after) :
    ∃ next, after = queues.setLane queue next ∧ LaneMoves (queues.lane queue) next := by
  dsimp only [takeToken?] at taken
  split at taken
  · next jobId askAt waiting =>
      split at taken
      · split at taken <;> cases taken
        all_goals exact ⟨_, rfl, by simp, fun other => by rw [waiting]; rfl, rfl, rfl, rfl⟩
      · cases taken
  · cases taken

theorem takeSlot?_some {queues after : Queues} {queue : String}
    (taken : queues.takeSlot? queue = some after) :
    ∃ jobId, (queues.lane queue).worker = .awaitingSlot jobId ∧
      queues.runningCount queue < slots (queues.lane queue) ∧
      after = (queues.setLane queue { queues.lane queue with worker := .idle }).startJob
        ⟨queue, jobId⟩ := by
  dsimp only [takeSlot?] at taken
  split at taken
  · next jobId holding =>
      split at taken
      · next free =>
          cases taken
          exact ⟨jobId, holding, free, rfl⟩
      · cases taken
  · cases taken

/-- A worker lets go of the job that it holds. -/
theorem view_letGo {queues : Queues} {queue jobId : String}
    (holding : (queues.lane queue).worker = .awaitingSlot jobId) :
    0 < (queues.view.agenda ⟨queue, jobId⟩).starts ∧
      (queues.setLane queue { queues.lane queue with worker := .idle }).view =
        queues.view.setAgenda ⟨queue, jobId⟩ { queues.view.agenda ⟨queue, jobId⟩ with
          starts := (queues.view.agenda ⟨queue, jobId⟩).starts - 1 } := by
  have held : ∀ other : String, (queues.lane queue).worker.holds other =
      if jobId = other then 1 else 0 := by
    intro other
    rw [holding]
    rfl
  have letGo : ∀ other : String, Worker.idle.holds other = 0 := fun _ => rfl
  refine ⟨by simp [agenda, starts, held], ?_⟩
  rw [@view_of_starts queues (queues.setLane queue { queues.lane queue with worker := .idle })
    ⟨queue, jobId⟩ rfl rfl rfl rfl (hasCompleted_setLane rfl)]
  · simp [agenda, starts, held, letGo]
  · intro other different
    simp only [starts, lane_setLane]
    split
    · next same =>
        have otherId : jobId ≠ other.id := fun equal =>
          different (by cases other; simp_all)
        simp [same, held, letGo, otherId]
    · rfl

/-- What a worker does: it gets nearer to the start of a job, or it starts the job that it holds. -/
theorem advanceWorker?_some {queues after : Queues} {queue : String}
    (moved : queues.advanceWorker? queue = some after) :
    (∃ next, after = queues.setLane queue next ∧ LaneMoves (queues.lane queue) next) ∨
      ∃ jobId, (queues.lane queue).worker = .awaitingSlot jobId ∧
        queues.runningCount queue < slots (queues.lane queue) ∧
        after = (queues.setLane queue { queues.lane queue with worker := .idle }).startJob
          ⟨queue, jobId⟩ := by
  rw [advanceWorker?, Option.or_eq_some_iff, Option.or_eq_some_iff] at moved
  rcases moved with ready | ⟨-, token | ⟨-, slot⟩⟩
  · exact .inl (takeReady?_some ready)
  · exact .inl (takeToken?_some token)
  · exact .inr (takeSlot?_some slot)

end Queues

end Relay
