import Mathlib.Data.List.Count
import Relay.Proofs.Queue.Run

/-!
# What a step does to the workers

A step takes a token, starts a call, lets time pass, or leaves the pace of the queues
as it is.  Only a worker takes tokens and starts calls; whatever happens to the jobs
in the meantime (retries, failures, evictions), it neither gives a token back nor
makes room for a second call against the same token.
-/

namespace Relay

/-- Number of tokens that a worker has taken and not used yet. -/
def Worker.admitted : Worker → Nat
  | .awaitingSlot _ => 1
  | .absent | .idle | .awaitingToken _ _ | .stopped => 0

namespace Queues

/-- No token is taken and no call is started. -/
structure KeepsPace (queues after : Queues) : Prop where
  now : after.now = queues.now
  /-- No lane is given up. -/
  lanes : ∀ queue, (queues.lanes.get? queue).isSome → (after.lanes.get? queue).isSome
  bucket : ∀ queue, (after.lane queue).bucket = (queues.lane queue).bucket
  admitted : ∀ queue, (after.lane queue).worker.admitted ≤ (queues.lane queue).worker.admitted
  running : after.running.Sublist queues.running

/-- What a step does to the pace of the queues. -/
inductive Pace (queues after : Queues) : Prop where
  | waits {time : Nat} (later : queues.now ≤ time) (whole : after = { queues with now := time })
  | keeps (keeps : KeepsPace queues after)
  | takes {queue jobId : String} {bucket : TokenBucket}
      (unused : (queues.lane queue).worker.admitted = 0)
      (taken : (queues.lane queue).bucket.take queues.now = .ok bucket)
      (whole : after = queues.setLane queue
        { queues.lane queue with bucket, worker := .awaitingSlot jobId })
  | starts {queue jobId : String} (holding : (queues.lane queue).worker = .awaitingSlot jobId)
      (free : queues.runningCount queue < slots (queues.lane queue))
      (whole : after = (queues.setLane queue { queues.lane queue with worker := .idle }).startJob
        ⟨queue, jobId⟩)

/-! ## Operations that keep the pace -/

section Operations

variable {queues between after : Queues} {key : JobKey} {job : Job}

theorem KeepsPace.trans (first : KeepsPace queues between) (second : KeepsPace between after) :
    KeepsPace queues after where
  now := second.now.trans first.now
  lanes queue present := second.lanes queue (first.lanes queue present)
  bucket queue := (second.bucket queue).trans (first.bucket queue)
  admitted queue := Nat.le_trans (second.admitted queue) (first.admitted queue)
  running := second.running.trans first.running

/-- The lanes stay as they are. -/
theorem keepsPace_of_lanes (now : after.now = queues.now)
    (settings : after.settings = queues.settings) (lanes : after.lanes = queues.lanes)
    (running : after.running.Sublist queues.running) : KeepsPace queues after := by
  have lane : after.lane = queues.lane := by
    funext queue
    simp only [Queues.lane, settingsOf, now, settings, lanes]
  exact ⟨now, fun _ present => lanes ▸ present, fun queue => by rw [lane],
    fun queue => by rw [lane], running⟩

theorem keepsPace_refl (queues : Queues) : KeepsPace queues queues :=
  keepsPace_of_lanes rfl rfl rfl (.refl _)

theorem isSome_lanes_setLane {queue other : String} {lane : Lane}
    (present : (queues.lanes.get? other).isSome) :
    ((queues.setLane queue lane).lanes.get? other).isSome := by
  rw [setLane, Dict.get?_insert]
  split
  · rfl
  · exact present

theorem keepsPace_setLane {queue : String} {lane : Lane}
    (bucket : lane.bucket = (queues.lane queue).bucket)
    (admitted : lane.worker.admitted ≤ (queues.lane queue).worker.admitted) :
    KeepsPace queues (queues.setLane queue lane) where
  now := rfl
  lanes _ present := isSome_lanes_setLane present
  bucket other := by
    rw [lane_setLane]
    split
    · next same => rw [bucket, same]
    · rfl
  admitted other := by
    rw [lane_setLane]
    split
    · next same => rw [same]; exact admitted
    · exact Nat.le_refl _
  running := .refl _

theorem keepsPace_touch (queues : Queues) (queue : String) :
    KeepsPace queues (queues.touch queue) := keepsPace_setLane rfl (Nat.le_refl _)

theorem keepsPace_release (queues : Queues) (queue : String) (count : Nat) :
    KeepsPace queues (queues.release queue count) := keepsPace_setLane rfl (Nat.le_refl _)

theorem keepsPace_publish (queues : Queues) (queue : String) (event : QueueEvent) :
    KeepsPace queues (queues.publish queue event) := keepsPace_setLane rfl (Nat.le_refl _)

theorem keepsPace_enqueue (queues : Queues) (key : JobKey) :
    KeepsPace queues (queues.enqueue key) := by
  apply keepsPace_setLane
  · dsimp only
    split <;> rfl
  · dsimp only
    split <;> exact Nat.le_refl _

theorem keepsPace_setJob (queues : Queues) (key : JobKey) (job : Job) :
    KeepsPace queues (queues.setJob key job) := keepsPace_of_lanes rfl rfl rfl (.refl _)

/-! ### Submission -/

theorem keepsPace_claim (queues : Queues) (queue : String) (count : Nat) :
    KeepsPace queues (queues.claim queue count) := keepsPace_setLane rfl (Nat.le_refl _)

theorem keepsPace_reserve (queues : Queues) (counts : List (String × Nat)) :
    KeepsPace queues (reserve counts queues).2 :=
  reserve_relates keepsPace_refl KeepsPace.trans keepsPace_claim keepsPace_release keepsPace_touch
    queues counts

theorem keepsPace_enqueueAll (queues : Queues) (keys : List JobKey) :
    KeepsPace queues (keys.foldl enqueue queues) :=
  List.foldlRecOn keys enqueue (keepsPace_refl queues) fun _ keeps key _ =>
    keeps.trans (keepsPace_enqueue _ key)

theorem keepsPace_addInOrder (queues : Queues) (counts : List (String × Nat)) (flow : Flow) :
    KeepsPace queues (addInOrder counts queues flow).2 := by
  have reserved := keepsPace_reserve queues counts
  unfold addInOrder
  generalize reserve counts queues = result at reserved ⊢
  obtain ⟨_ | problem, between⟩ := result
  · have stored : KeepsPace between { between with
        jobs := between.jobs.insertAll (Planting.ofFlow none between.nextSerial flow).jobs
        nextSerial := (Planting.ofFlow none between.nextSerial flow).next } :=
      keepsPace_of_lanes rfl rfl rfl (.refl _)
    exact reserved.trans (stored.trans (keepsPace_enqueueAll _ _))
  · exact reserved

/-! ### The end of an attempt -/

theorem keepsPace_childCompleted (queues : Queues) (parent : JobKey) :
    KeepsPace queues (queues.childCompleted parent) := by
  unfold childCompleted
  split
  · next job stored =>
      have told := keepsPace_setJob queues parent (afterChild job)
      dsimp only
      split
      · exact told.trans (keepsPace_enqueue _ _)
      · exact told
  · exact keepsPace_refl queues

theorem keepsPace_noteCompleted (queues : Queues) (key : JobKey) (job : Job) (value : Json) :
    KeepsPace queues (queues.noteCompleted key job value) := by
  have stored := keepsPace_setJob queues key (queues.completedJob job value)
  unfold noteCompleted
  dsimp only
  split
  · exact stored.trans (keepsPace_publish _ _ _)
  · exact stored.trans ((keepsPace_release _ _ _).trans (keepsPace_publish _ _ _))

theorem keepsPace_complete (queues : Queues) (key : JobKey) (value : Json) :
    KeepsPace queues (queues.complete key value) := by
  unfold complete
  split
  · next job stored =>
      have noted := keepsPace_noteCompleted queues key job value
      split
      · exact noted.trans (keepsPace_childCompleted _ _)
      · exact noted
  · exact keepsPace_refl queues

theorem keepsPace_retryLater (queues : Queues) (key : JobKey) (attempt : Nat) :
    KeepsPace queues (queues.retryLater key attempt) := by
  have arm : ∀ (queues : Queues) (timers : List RetryTimer),
      KeepsPace queues { queues.touch key.queue with timers } := fun queues timers =>
    (keepsPace_touch queues key.queue).trans (keepsPace_of_lanes rfl rfl rfl (.refl _))
  unfold retryLater
  split
  · exact (keepsPace_setJob _ _ _).trans (arm _ _)
  · exact arm _ _

theorem keepsPace_noteFailed (queues : Queues) (key : JobKey) (job : Job) (reason : String) :
    KeepsPace queues (queues.noteFailed key job reason) :=
  (keepsPace_setJob _ _ _).trans ((keepsPace_release _ _ _).trans (keepsPace_publish _ _ _))

theorem keepsPace_failUpward (inherited : String) (height : Nat) (queues : Queues) (key : JobKey)
    (reason : String) : KeepsPace queues (failUpward inherited height queues key reason) :=
  failUpward_relates keepsPace_refl KeepsPace.trans
    (fun reason _ _ => keepsPace_noteFailed _ _ _ reason) inherited height queues key reason

theorem keepsPace_callReturns (queues : Queues) (call : Call) (outcome : Except JobError Json) :
    KeepsPace queues (queues.callReturns call outcome) := by
  have ended : KeepsPace queues { queues with running := queues.running.erase call } :=
    keepsPace_of_lanes rfl rfl rfl List.erase_sublist
  apply ended.trans
  unfold callReturns
  dsimp only
  split
  · exact keepsPace_complete _ _ _
  · split
    · exact keepsPace_retryLater _ _ _
    · exact keepsPace_failUpward _ _ _ _ _
  · exact keepsPace_failUpward _ _ _ _ _

theorem keepsPace_timerFires (queues : Queues) (timer : RetryTimer) :
    KeepsPace queues (queues.timerFires timer) := by
  have fired : KeepsPace queues { queues with timers := queues.timers.erase timer } :=
    keepsPace_of_lanes rfl rfl rfl (.refl _)
  apply fired.trans
  unfold timerFires
  dsimp only
  split
  · split
    · exact (keepsPace_setJob _ _ _).trans (keepsPace_enqueue _ _)
    · exact keepsPace_refl _
  · exact keepsPace_refl _

/-! ### Eviction -/

/-- An evicted job that is running keeps its slot until its call returns. -/
theorem keepsPace_dropJob (queues : Queues) (key : JobKey) (job : Job) :
    KeepsPace queues (queues.dropJob key job) := by
  have dropped : KeepsPace queues { queues with jobs := queues.jobs.erase key.id } :=
    keepsPace_of_lanes rfl rfl rfl (.refl _)
  unfold dropJob
  split
  · exact dropped
  · exact dropped.trans (keepsPace_release _ _ _)

theorem keepsPace_removeAll (queues : Queues) (keys : List JobKey) :
    KeepsPace queues (queues.removeAll keys).1 :=
  removeAll_relates keepsPace_refl KeepsPace.trans (fun _ => keepsPace_dropJob _ _ _) queues keys

end Operations

/-! ## All steps -/

section Steps

variable {queues after : Queues} {queue : String}

theorem pace_takeReady (taken : queues.takeReady? queue = some after) : Pace queues after := by
  dsimp only [takeReady?] at taken
  split at taken
  · cases taken
    exact .keeps (keepsPace_setLane rfl (Nat.zero_le _))
  · cases taken

theorem pace_takeToken (taken : queues.takeToken? queue = some after) : Pace queues after := by
  dsimp only [takeToken?] at taken
  split at taken
  · next jobId askAt waiting =>
      split at taken
      · split at taken
        · next bucket granted =>
            cases taken
            exact .takes (by rw [waiting]; rfl) granted rfl
        · cases taken
          exact .keeps (keepsPace_setLane rfl (Nat.zero_le _))
      · cases taken
  · cases taken

theorem pace_takeSlot (taken : queues.takeSlot? queue = some after) : Pace queues after := by
  obtain ⟨jobId, holding, free, rfl⟩ := takeSlot?_some taken
  exact .starts holding free rfl

theorem pace_startWorker (queues : Queues) (queue : String) :
    Pace queues (queues.startWorker queue).2 := by
  unfold startWorker
  split
  · exact .keeps (keepsPace_setLane rfl (Nat.zero_le _))
  · exact .keeps (keepsPace_touch queues queue)

/-- Every step lets time pass, takes a token, starts a call or keeps the pace. -/
theorem Step.pace {act : Act} (step : Step queues act after) : Pace queues after := by
  cases step with
  | tick later => exact .waits later rfl
  | touch queue => exact .keeps (keepsPace_touch queues queue)
  | add claimed => exact .keeps (keepsPace_addInOrder queues _ _)
  | startWorker queue => exact pace_startWorker queues queue
  | advance moved =>
      rw [advanceWorker?, Option.or_eq_some_iff, Option.or_eq_some_iff] at moved
      rcases moved with ready | ⟨-, token | ⟨-, slot⟩⟩
      · exact pace_takeReady ready
      · exact pace_takeToken token
      · exact pace_takeSlot slot
  | finish outcome isRunning => exact .keeps (keepsPace_callReturns queues _ outcome)
  | fire pending due => exact .keeps (keepsPace_timerFires queues _)
  | remove key => exact .keeps (keepsPace_removeAll queues [key])
  | prune found => exact .keeps (keepsPace_removeAll queues _)

/-- Time does not go back. -/
theorem Step.now_le {act : Act} (step : Step queues act after) : queues.now ≤ after.now := by
  cases step.pace with
  | waits later whole => exact whole ▸ later
  | keeps keeps => exact Nat.le_of_eq keeps.now.symm
  | takes unused taken whole => exact Nat.le_of_eq (whole ▸ rfl)
  | starts holding free whole =>
      rw [whole]
      unfold startJob
      split
      · split <;> exact Nat.le_refl _
      · exact Nat.le_refl _

end Steps

end Queues

end Relay
