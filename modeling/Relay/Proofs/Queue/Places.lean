import Relay.Proofs.Queue.Pace

/-!
# What waits keeps its place

A job that is ready keeps its place until the worker of its queue has dealt with all jobs
before it, and a retry timer goes on until it fires.  Nothing else that happens takes a job out
of the hands of a worker or out of the line behind it.
-/

namespace Relay

/-- Nothing is taken out of a lane, and its worker is left alone. -/
structure Lane.Keeps (lane next : Lane) : Prop where
  ready : lane.ready <+: next.ready
  worker : lane.worker ≠ .absent → next.worker = lane.worker
  bucket : lane.worker ≠ .absent → next.bucket = lane.bucket

namespace Lane.Keeps

variable {lane between next : Lane}

theorem refl (lane : Lane) : lane.Keeps lane :=
  ⟨List.prefix_refl _, fun _ => rfl, fun _ => rfl⟩

theorem trans (first : lane.Keeps between) (second : between.Keeps next) : lane.Keeps next where
  ready := first.ready.trans second.ready
  worker present := by
    have same := first.worker present
    exact (second.worker (same ▸ present)).trans same
  bucket present := by
    have same := first.worker present
    exact (second.bucket (same ▸ present)).trans (first.bucket present)

end Lane.Keeps

namespace Queues

/-- No worker is disturbed, and no timer is set or fires. -/
structure LeavesPlaces (queues after : Queues) : Prop where
  lanes : ∀ queue, (queues.lane queue).Keeps (after.lane queue)
  timers : after.timers = queues.timers

section Operations

variable {queues between after : Queues} {key : JobKey} {job : Job} {queue : String}

theorem leavesPlaces_refl (queues : Queues) : LeavesPlaces queues queues :=
  ⟨fun _ => .refl _, rfl⟩

theorem LeavesPlaces.trans (first : LeavesPlaces queues between)
    (second : LeavesPlaces between after) : LeavesPlaces queues after where
  lanes queue := (first.lanes queue).trans (second.lanes queue)
  timers := second.timers.trans first.timers

theorem leavesPlaces_setLane {lane : Lane} (keeps : (queues.lane queue).Keeps lane) :
    LeavesPlaces queues (queues.setLane queue lane) where
  lanes other := by
    rw [lane_setLane]
    split
    · next same => exact same ▸ keeps
    · exact .refl _
  timers := rfl

/-- Neither places nor announcements matter to a worker. -/
theorem leavesPlaces_numbers {unfinished : Nat} {events : List QueueEvent} :
    LeavesPlaces queues
      (queues.setLane queue { queues.lane queue with unfinished, events }) :=
  leavesPlaces_setLane ⟨List.prefix_refl _, fun _ => rfl, fun _ => rfl⟩

theorem leavesPlaces_touch (queues : Queues) (queue : String) :
    LeavesPlaces queues (queues.touch queue) := leavesPlaces_setLane (.refl _)

theorem leavesPlaces_release (queues : Queues) (queue : String) (count : Nat) :
    LeavesPlaces queues (queues.release queue count) := leavesPlaces_numbers

theorem leavesPlaces_claim (queues : Queues) (queue : String) (count : Nat) :
    LeavesPlaces queues (queues.claim queue count) := leavesPlaces_numbers

theorem leavesPlaces_publish (queues : Queues) (queue : String) (event : QueueEvent) :
    LeavesPlaces queues (queues.publish queue event) := leavesPlaces_numbers

/-- A job that becomes ready stands in line behind all others. -/
theorem leavesPlaces_enqueue (queues : Queues) (key : JobKey) :
    LeavesPlaces queues (queues.enqueue key) := by
  apply leavesPlaces_setLane
  dsimp only
  split
  · exact .refl _
  · exact ⟨List.prefix_append _ _, fun _ => rfl, fun _ => rfl⟩

/-- The table of jobs is no matter of the lanes. -/
theorem leavesPlaces_of_lanes (now : after.now = queues.now)
    (settings : after.settings = queues.settings) (lanes : after.lanes = queues.lanes)
    (timers : after.timers = queues.timers) : LeavesPlaces queues after where
  lanes queue := by
    have same : after.lane queue = queues.lane queue := by
      simp only [Queues.lane, settingsOf, now, settings, lanes]
    exact same ▸ .refl _
  timers := timers

theorem leavesPlaces_setJob (queues : Queues) (key : JobKey) (job : Job) :
    LeavesPlaces queues (queues.setJob key job) := leavesPlaces_of_lanes rfl rfl rfl rfl

theorem leavesPlaces_addInOrder (queues : Queues) (counts : List (String × Nat)) (flow : Flow) :
    LeavesPlaces queues (addInOrder counts queues flow).2 := by
  have reserved : LeavesPlaces queues (reserve counts queues).2 :=
    reserve_relates leavesPlaces_refl LeavesPlaces.trans leavesPlaces_claim leavesPlaces_release
      leavesPlaces_touch queues counts
  unfold addInOrder
  generalize reserve counts queues = result at reserved ⊢
  obtain ⟨_ | problem, between⟩ := result
  · have stored : LeavesPlaces between { between with
        jobs := between.jobs.insertAll (Planting.ofFlow none between.nextSerial flow).jobs
        nextSerial := (Planting.ofFlow none between.nextSerial flow).next } :=
      leavesPlaces_of_lanes rfl rfl rfl rfl
    exact reserved.trans <| stored.trans <|
      List.foldlRecOn _ enqueue (leavesPlaces_refl _) fun _ leaves key _ =>
        leaves.trans (leavesPlaces_enqueue _ key)
  · exact reserved

theorem leavesPlaces_childCompleted (queues : Queues) (parent : JobKey) :
    LeavesPlaces queues (queues.childCompleted parent) := by
  unfold childCompleted
  split
  · next job stored =>
      have told := leavesPlaces_setJob queues parent (afterChild job)
      dsimp only
      split
      · exact told.trans (leavesPlaces_enqueue _ _)
      · exact told
  · exact leavesPlaces_refl queues

theorem leavesPlaces_complete (queues : Queues) (key : JobKey) (value : Json) :
    LeavesPlaces queues (queues.complete key value) := by
  have noted : ∀ job, LeavesPlaces queues (queues.noteCompleted key job value) := by
    intro job
    have stored := leavesPlaces_setJob queues key (queues.completedJob job value)
    unfold noteCompleted
    dsimp only
    split
    · exact stored.trans (leavesPlaces_publish _ _ _)
    · exact stored.trans ((leavesPlaces_release _ _ _).trans (leavesPlaces_publish _ _ _))
  unfold complete
  split
  · split
    · exact (noted _).trans (leavesPlaces_childCompleted _ _)
    · exact noted _
  · exact leavesPlaces_refl queues

theorem leavesPlaces_failUpward (inherited : String) (height : Nat) (queues : Queues)
    (key : JobKey) (reason : String) :
    LeavesPlaces queues (failUpward inherited height queues key reason) :=
  failUpward_relates leavesPlaces_refl LeavesPlaces.trans
    (fun _ _ _ => (leavesPlaces_setJob _ _ _).trans
      ((leavesPlaces_release _ _ _).trans (leavesPlaces_publish _ _ _)))
    inherited height queues key reason

theorem leavesPlaces_removeAll (queues : Queues) (keys : List JobKey) :
    LeavesPlaces queues (queues.removeAll keys).1 := by
  refine removeAll_relates leavesPlaces_refl LeavesPlaces.trans (fun {queues key job} _ => ?_)
    queues keys
  have dropped : LeavesPlaces queues { queues with jobs := queues.jobs.erase key.id } :=
    leavesPlaces_of_lanes rfl rfl rfl rfl
  unfold dropJob
  split
  · exact dropped
  · exact dropped.trans (leavesPlaces_release _ _ _)

/-- An attempt after which there is another one sets a timer. -/
theorem timers_retryLater (queues : Queues) (key : JobKey) (attempt : Nat) :
    (queues.retryLater key attempt).timers = queues.timers ++
      [⟨key, queues.now + (queues.lane key.queue).settings.backoff attempt⟩] := by
  unfold retryLater
  split <;> rfl

theorem lanes_retryLater (queues : Queues) (key : JobKey) (attempt : Nat) (queue : String) :
    (queues.lane queue).Keeps ((queues.retryLater key attempt).lane queue) := by
  have arm : ∀ (between : Queues) (timers : List RetryTimer),
      (between.lane queue).Keeps (({ between.touch key.queue with timers } : Queues).lane queue) :=
    fun between _ => (leavesPlaces_touch between key.queue).lanes queue
  unfold retryLater
  split
  · next job stored => exact arm (queues.setJob key { job with state := .delayed }) _
  · exact arm queues _

/-- Firing a timer ends it and disturbs nothing else. -/
theorem leavesPlaces_timerFires (queues : Queues) (timer : RetryTimer) :
    LeavesPlaces { queues with timers := queues.timers.erase timer }
      (queues.timerFires timer) := by
  unfold timerFires
  dsimp only
  split
  · split
    · exact (leavesPlaces_setJob _ _ _).trans (leavesPlaces_enqueue _ _)
    · exact leavesPlaces_refl _
  · exact leavesPlaces_refl _

end Operations

/-! ## All steps -/

/-- What a step does to the timers. -/
inductive Timing (queues after : Queues) : Act → Prop where
  | leaves {act : Act} (same : after.timers = queues.timers) : Timing queues after act
  | sets {call : Call} {message : String} (allowed : call.attempt < call.maxAttempts)
      (set : after.timers = queues.timers ++ [⟨call.key,
        queues.now + (queues.lane call.key.queue).settings.backoff call.attempt⟩]) :
      Timing queues after (.finish call (.error (.retryable message)))
  | fires {timer : RetryTimer} (fired : after.timers = queues.timers.erase timer) :
      Timing queues after (.fire timer)

/-- What the worker of a queue does when it is its turn. -/
inductive Works (queues after : Queues) (queue : String) : Prop where
  | takes {jobId : String} {rest : List String} (idle : (queues.lane queue).worker = .idle)
      (ready : (queues.lane queue).ready = jobId :: rest)
      (whole : after = queues.setLane queue
        { queues.lane queue with worker := .awaitingToken jobId queues.now, ready := rest })
  | asks {jobId : String} {askAt : Nat} {bucket : TokenBucket}
      (asking : (queues.lane queue).worker = .awaitingToken jobId askAt)
      (awake : askAt ≤ queues.now)
      (granted : (queues.lane queue).bucket.take queues.now = .ok bucket)
      (whole : after = queues.setLane queue
        { queues.lane queue with bucket, worker := .awaitingSlot jobId })
  | sleeps {jobId : String} {askAt later : Nat}
      (asking : (queues.lane queue).worker = .awaitingToken jobId askAt)
      (awake : askAt ≤ queues.now)
      (refused : (queues.lane queue).bucket.take queues.now = .error later)
      (whole : after = queues.setLane queue
        { queues.lane queue with worker := .awaitingToken jobId later })
  | starts {jobId : String} (holding : (queues.lane queue).worker = .awaitingSlot jobId)
      (free : queues.runningCount queue < slots (queues.lane queue))
      (whole : after = (queues.setLane queue { queues.lane queue with worker := .idle }).startJob
        ⟨queue, jobId⟩)

section Steps

variable {queues after : Queues} {act : Act} {queue : String}

theorem works_of_advance (moved : queues.advanceWorker? queue = some after) :
    Works queues after queue := by
  rw [advanceWorker?, Option.or_eq_some_iff, Option.or_eq_some_iff] at moved
  rcases moved with ready | ⟨-, token | ⟨-, slot⟩⟩
  · dsimp only [takeReady?] at ready
    split at ready
    · next idle line =>
        cases ready
        exact .takes idle line rfl
    · cases ready
  · dsimp only [takeToken?] at token
    split at token
    · next asking =>
        split at token
        · next awake =>
            split at token
            · next granted =>
                cases token
                exact .asks asking awake granted rfl
            · next refused =>
                cases token
                exact .sleeps asking awake refused rfl
        · cases token
    · cases token
  · obtain ⟨jobId, holding, free, whole⟩ := takeSlot?_some slot
    exact .starts holding free whole

theorem lane_startJob (queues : Queues) (key : JobKey) (queue : String) :
    (queues.startJob key).lane queue = queues.lane queue := by
  unfold startJob
  split
  · split <;> rfl
  · rfl

theorem timers_startJob (queues : Queues) (key : JobKey) :
    (queues.startJob key).timers = queues.timers := by
  unfold startJob
  split
  · split <;> rfl
  · rfl

/-- A worker changes its own lane only. -/
theorem Works.lane_of_ne (works : Works queues after queue) {other : String}
    (away : other ≠ queue) : after.lane other = queues.lane other := by
  cases works with
  | takes _ _ whole | asks _ _ _ whole | sleeps _ _ _ whole =>
      rw [whole, lane_setLane, if_neg away]
  | starts _ _ whole => rw [whole, lane_startJob, lane_setLane, if_neg away]

theorem Works.timers (works : Works queues after queue) : after.timers = queues.timers := by
  cases works with
  | takes _ _ whole | asks _ _ _ whole | sleeps _ _ _ whole => rw [whole, setLane]
  | starts _ _ whole => rw [whole, timers_startJob, setLane]

theorem leavesPlaces_startWorker (queues : Queues) (queue : String) :
    LeavesPlaces queues (queues.startWorker queue).2 := by
  unfold startWorker
  split
  · next absent =>
      exact leavesPlaces_setLane ⟨List.prefix_refl _, fun present => absurd absent present,
        fun present => absurd absent present⟩
  · exact leavesPlaces_touch queues queue

/-- A queue that was not touched yet has no worker. -/
theorem lanes_tick (queues : Queues) (time : Nat) (queue : String) :
    (queues.lane queue).Keeps (({ queues with now := time } : Queues).lane queue) := by
  unfold lane
  cases queues.lanes.get? queue with
  | some lane => exact .refl lane
  | none => exact ⟨List.prefix_refl _, fun present => absurd rfl present,
      fun present => absurd rfl present⟩

theorem lanes_callReturns (queues : Queues) (call : Call) (outcome : Except JobError Json)
    (queue : String) :
    (queues.lane queue).Keeps ((queues.callReturns call outcome).lane queue) := by
  have ended : LeavesPlaces queues { queues with running := queues.running.erase call } :=
    leavesPlaces_of_lanes rfl rfl rfl rfl
  unfold callReturns
  dsimp only
  split
  · exact (ended.trans (leavesPlaces_complete _ _ _)).lanes queue
  · split
    · exact (ended.lanes queue).trans (lanes_retryLater _ _ _ queue)
    · exact (ended.trans (leavesPlaces_failUpward _ _ _ _ _)).lanes queue
  · exact (ended.trans (leavesPlaces_failUpward _ _ _ _ _)).lanes queue

/-- Only its own worker takes anything out of a lane. -/
theorem Step.keeps (step : Step queues act after) (away : act ≠ .advance queue) :
    (queues.lane queue).Keeps (after.lane queue) := by
  cases step with
  | tick later => exact lanes_tick queues _ queue
  | touch other => exact (leavesPlaces_touch queues other).lanes queue
  | add claimed => exact (leavesPlaces_addInOrder queues _ _).lanes queue
  | startWorker other => exact (leavesPlaces_startWorker queues other).lanes queue
  | @advance other _ moved =>
      have different : queue ≠ other := fun same => away (same ▸ rfl)
      exact (works_of_advance moved).lane_of_ne different ▸ .refl _
  | finish outcome isRunning => exact lanes_callReturns queues _ outcome queue
  | @fire timer pending due =>
      exact (leavesPlaces_timerFires queues timer).lanes queue
  | remove key => exact (leavesPlaces_removeAll queues [key]).lanes queue
  | prune found => exact (leavesPlaces_removeAll queues _).lanes queue

theorem Works.present {queue : String} (works : Works queues after queue) :
    (after.lane queue).worker ≠ .absent := by
  cases works with
  | takes _ _ whole | asks _ _ _ whole | sleeps _ _ _ whole =>
      rw [whole, lane_setLane, if_pos rfl]
      exact nofun
  | starts _ _ whole =>
      rw [whole, lane_startJob, lane_setLane, if_pos rfl]
      exact nofun

/-- A queue that has a worker keeps it. -/
theorem Step.present {queue : String} (step : Step queues act after)
    (present : (queues.lane queue).worker ≠ .absent) : (after.lane queue).worker ≠ .absent := by
  by_cases own : act = .advance queue
  · subst own
    cases step with
    | advance moved => exact (works_of_advance moved).present
  · rw [(step.keeps own).worker present]
    exact present

theorem timing_callReturns (queues : Queues) (call : Call) (outcome : Except JobError Json) :
    Timing queues (queues.callReturns call outcome) (.finish call outcome) := by
  have ended : LeavesPlaces queues { queues with running := queues.running.erase call } :=
    leavesPlaces_of_lanes rfl rfl rfl rfl
  cases outcome with
  | ok value =>
      unfold callReturns
      exact .leaves (ended.trans (leavesPlaces_complete _ _ _)).timers
  | error error =>
      cases error with
      | retryable message =>
          unfold callReturns
          dsimp only
          split
          · next allowed =>
              refine .sets allowed ?_
              rw [timers_retryLater]
              rfl
          · exact .leaves (ended.trans (leavesPlaces_failUpward _ _ _ _ _)).timers
      | unrecoverable message =>
          unfold callReturns
          exact .leaves (ended.trans (leavesPlaces_failUpward _ _ _ _ _)).timers

/-- Timers are set by calls that may be made again, and end when they fire. -/
theorem Step.timing (step : Step queues act after) : Timing queues after act := by
  cases step with
  | tick later => exact .leaves rfl
  | touch other => exact .leaves rfl
  | add claimed => exact .leaves (leavesPlaces_addInOrder queues _ _).timers
  | startWorker other => exact .leaves (leavesPlaces_startWorker queues other).timers
  | advance moved => exact .leaves (works_of_advance moved).timers
  | finish outcome isRunning => exact timing_callReturns queues _ outcome
  | fire pending due => exact .fires (leavesPlaces_timerFires queues _).timers
  | remove key => exact .leaves (leavesPlaces_removeAll queues [key]).timers
  | prune found => exact .leaves (leavesPlaces_removeAll queues _).timers

end Steps

end Queues

end Relay
