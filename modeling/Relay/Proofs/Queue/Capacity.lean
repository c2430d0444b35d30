import Relay.Proofs.Queue.Run

/-!
# Capacity

The number of unfinished jobs of a queue is kept by hand: places are claimed before
a flow is stored and freed one by one when jobs finish or are evicted.  The
invariant `Counted` compares it with the table of jobs, apart from places that are
claimed for jobs that are not yet stored or that are about to be freed.

Where more places are freed than are claimed, what is left is a parameter of the
operations.  No step ever depends on it.
-/

namespace Relay

namespace Queues

/-! ## Counting jobs -/

/-- Whether a job counts against the length of a queue. -/
def countsFor (queue : String) (job : Job) : Bool :=
  job.queue == queue && !job.state.isFinished

/-- Number of stored jobs of a queue that are neither completed nor failed. -/
def openJobs (queues : Queues) (queue : String) : Nat :=
  queues.jobs.entries.countP fun entry => countsFor queue entry.2

/-- The numbers of unfinished jobs are those of the table of jobs and the places that are
claimed beyond it, and no queue has more of them than it may. -/
structure Counted (queues : Queues) (claimed : String → Nat) : Prop where
  exact : ∀ queue, (queues.lane queue).unfinished = queues.openJobs queue + claimed queue
  bounded : ∀ queue,
    (queues.lane queue).unfinished ≤ (queues.lane queue).settings.maxQueueLength
  settings : ∀ queue, (queues.lane queue).settings = queues.settingsOf queue

/-- No places are claimed. -/
def noPlaces : String → Nat := fun _ => 0

/-- Places in one queue, added to others. -/
def withPlaces (claimed : String → Nat) (queue : String) (count : Nat) : String → Nat :=
  fun other => claimed other + if other = queue then count else 0

namespace Counted

variable {queues after : Queues} {claimed : String → Nat} {key : JobKey} {old new : Job}

/-- Nothing is counted differently where neither the jobs nor the numbers change. -/
theorem congr (counted : Counted queues claimed)
    (jobs : ∀ queue, after.openJobs queue = queues.openJobs queue)
    (unfinished : ∀ queue, (after.lane queue).unfinished = (queues.lane queue).unfinished)
    (limits : ∀ queue, (after.lane queue).settings = (queues.lane queue).settings)
    (same : after.settings = queues.settings) : Counted after claimed where
  exact queue := by rw [unfinished, jobs]; exact counted.exact queue
  bounded queue := by rw [unfinished, limits]; exact counted.bounded queue
  settings queue := by
    rw [limits, counted.settings queue, settingsOf, settingsOf, same]

theorem setLane (counted : Counted queues claimed) {queue : String} {lane : Lane}
    (unfinished : lane.unfinished = (queues.lane queue).unfinished)
    (settings : lane.settings = (queues.lane queue).settings) :
    Counted (queues.setLane queue lane) claimed := by
  refine counted.congr (fun _ => rfl) (fun other => ?_) (fun other => ?_) rfl
  · rw [lane_setLane]
    split
    · next same => rw [unfinished, same]
    · rfl
  · rw [lane_setLane]
    split
    · next same => rw [settings, same]
    · rfl

theorem publish (counted : Counted queues claimed) (queue : String) (event : QueueEvent) :
    Counted (queues.publish queue event) claimed := counted.setLane rfl rfl

theorem touch (counted : Counted queues claimed) (queue : String) :
    Counted (queues.touch queue) claimed := counted.setLane rfl rfl

theorem enqueue (counted : Counted queues claimed) (key : JobKey) :
    Counted (queues.enqueue key) claimed :=
  counted.setLane (by dsimp only; split <;> rfl) (by dsimp only; split <;> rfl)

theorem enqueueAll (counted : Counted queues claimed) (keys : List JobKey) :
    Counted (keys.foldl Queues.enqueue queues) claimed := by
  induction keys generalizing queues with
  | nil => exact counted
  | cons head rest ih => exact ih (counted.enqueue head)

/-- What replacing a stored job does to the counts. -/
theorem openJobs_setJob (stored : queues.job? key = some old) (queue : String) :
    (queues.setJob key new).openJobs queue + (if countsFor queue old then 1 else 0) =
      queues.openJobs queue + if countsFor queue new then 1 else 0 := by
  have counted := Dict.countP_insert (fun entry => countsFor queue entry.2) queues.jobs key.id new
  rw [((job?_eq_some_iff _ _ _).1 stored).1] at counted
  exact counted

/-- A job that stays unfinished, or finished, counts as before. -/
theorem setJob (counted : Counted queues claimed) (stored : queues.job? key = some old)
    (queue : new.queue = old.queue) (state : new.state.isFinished = old.state.isFinished) :
    Counted (queues.setJob key new) claimed := by
  refine counted.congr (fun other => ?_) (fun _ => rfl) (fun _ => rfl) rfl
  have jobs := @openJobs_setJob queues key old new stored other
  rw [countsFor, countsFor, queue, state] at jobs
  omega

/-- When a job finishes, its place is there to be freed. -/
theorem finishJob (counted : Counted queues noPlaces) (stored : queues.job? key = some old)
    (before : old.state.isFinished = false) (finished : new.state.isFinished = true) :
    Counted (queues.setJob key new) (withPlaces noPlaces key.queue 1) where
  exact other := by
    have jobs := @openJobs_setJob queues key old new stored other
    have exact := counted.exact other
    have isQueue := ((job?_eq_some_iff _ _ _).1 stored).2
    simp only [countsFor, before, finished, isQueue] at jobs
    simp only [withPlaces, noPlaces, lane_setJob] at exact ⊢
    by_cases same : other = key.queue
    · simp [same] at jobs exact ⊢
      omega
    · have different : (key.queue == other) = false := by simpa using Ne.symm same
      simp [same, different] at jobs exact ⊢
      omega
  bounded := counted.bounded
  settings := counted.settings

/-- When a job is dropped, its place is there to be freed if it is unfinished. -/
theorem eraseJob (counted : Counted queues noPlaces) (stored : queues.job? key = some old) :
    Counted { queues with jobs := queues.jobs.erase key.id }
      (withPlaces noPlaces key.queue (if old.state.isFinished then 0 else 1)) where
  exact other := by
    have found := ((job?_eq_some_iff _ _ _).1 stored).1
    have isQueue := ((job?_eq_some_iff _ _ _).1 stored).2
    have jobs := Dict.countP_erase (fun entry => countsFor other entry.2) queues.jobs key.id
    rw [found] at jobs
    have exact := counted.exact other
    have left : ({ queues with jobs := queues.jobs.erase key.id } : Queues).openJobs other +
        (if countsFor other old then 1 else 0) = queues.openJobs other := jobs
    have lanes : (({ queues with jobs := queues.jobs.erase key.id } : Queues).lane other).unfinished =
        (queues.lane other).unfinished := rfl
    rw [lanes, exact]
    simp only [countsFor, isQueue] at left
    simp only [withPlaces, noPlaces]
    cases finished : old.state.isFinished <;> by_cases same : other = key.queue
    · simp [same, finished] at left ⊢
      omega
    · have different : (key.queue == other) = false := by simpa using Ne.symm same
      simp [same, different] at left ⊢
      omega
    · simp [same, finished] at left ⊢
      omega
    · have different : (key.queue == other) = false := by simpa using Ne.symm same
      simp [different] at left ⊢
      omega
  bounded := counted.bounded
  settings := counted.settings

end Counted

/-! ## Freeing places -/

/-- An operation comes to the same however places are freed.  It is given as a function of the way
of freeing, which is the instance that its body uses. -/
def Alike {α : Type} (operation : Freeing → α) : Prop :=
  ∀ freeing, operation freeing = operation .saturating

namespace Alike

variable {α β : Type} {operation : Freeing → α}

theorem map (alike : Alike operation) (change : α → β) :
    Alike fun freeing => change (operation freeing) :=
  fun freeing => congrArg change (alike freeing)

/-- One operation after another. -/
theorem andThen (alike : Alike operation) (next : Freeing → α → β)
    (alikeNext : Alike fun freeing => next freeing (operation .saturating)) :
    Alike fun freeing => next freeing (operation freeing) :=
  fun freeing => (congrArg (next freeing) (alike freeing)).trans (alikeNext freeing)

end Alike

theorem left_alike_iff {places count : Nat} :
    (Alike fun freeing => freeing.left places count) ↔ count ≤ places := by
  constructor
  · intro alike
    by_contra few
    -- a way of freeing that shows when there are too few places
    let showing : Freeing :=
      ⟨fun places count => if count ≤ places then places - count else 1, fun enough => if_pos enough⟩
    have shown : (if count ≤ places then places - count else 1) = places - count := alike showing
    rw [if_neg few] at shown
    omega
  · exact fun enough freeing => freeing.left_of_le enough

/-- It does not matter how places are freed exactly if there are as many. -/
theorem release_alike_iff {queues : Queues} {queue : String} {count : Nat} :
    (Alike fun _ => queues.release queue count) ↔ count ≤ (queues.lane queue).unfinished := by
  rw [← left_alike_iff]
  constructor
  · intro alike freeing
    have same := congrArg (fun after => (after.lane queue).unfinished) (alike freeing)
    simpa [Queues.release, lane_changeLane] using same
  · intro alike freeing
    exact congrArg (fun left => queues.changeLane queue fun lane => { lane with unfinished := left })
      (alike freeing)

/-- An operation frees only places that are claimed, and the numbers are exact afterwards. -/
structure Settles (operation : Freeing → Queues) : Prop where
  alike : Alike operation
  counted : Counted (operation .saturating) noPlaces

theorem Counted.release {queues : Queues} {claimed : String → Nat} {queue : String} {count : Nat}
    (counted : Counted queues (withPlaces claimed queue count)) :
    (Alike fun _ => queues.release queue count) ∧
      Counted (queues.release queue count) claimed := by
  have enough : count ≤ (queues.lane queue).unfinished := by
    rw [counted.exact queue, withPlaces, if_pos rfl]
    omega
  refine ⟨release_alike_iff.2 enough, ?_, ?_, ?_⟩
  · intro other
    have exact := counted.exact other
    simp only [withPlaces] at exact
    rw [Queues.release, lane_changeLane]
    split
    · next same =>
        rw [if_pos same, same] at exact
        show (queues.lane queue).unfinished - count = queues.openJobs other + claimed other
        rw [same]
        omega
    · next different =>
        rw [if_neg different] at exact
        exact exact
  · intro other
    rw [Queues.release, lane_changeLane]
    split
    · exact Nat.le_trans (Nat.sub_le _ _) (counted.bounded queue)
    · exact counted.bounded other
  · intro other
    rw [Queues.release, lane_changeLane]
    split
    · next same => rw [same]; exact counted.settings queue
    · exact counted.settings other

/-! ## The end of an attempt -/

namespace Counted

variable {queues : Queues} {key : JobKey} {job : Job}

theorem childCompleted (counted : Counted queues noPlaces) (parent : JobKey) :
    Counted (queues.childCompleted parent) noPlaces := by
  unfold Queues.childCompleted
  split
  · next job stored =>
      have state : (afterChild job).state.isFinished = job.state.isFinished := by
        simp only [afterChild]
        split
        · next last => rw [last.2]; rfl
        · rfl
      have told : Counted (queues.setJob parent (afterChild job)) noPlaces :=
        counted.setJob stored rfl state
      dsimp only
      split
      · exact told.enqueue parent
      · exact told
  · exact counted

theorem noteCompleted (counted : Counted queues noPlaces) (stored : queues.job? key = some job)
    (value : Json) : Settles fun _ => queues.noteCompleted key job value := by
  unfold Queues.noteCompleted
  cases finished : job.state.isFinished with
  | true =>
      have kept : Counted (queues.setJob key (queues.completedJob job value)) noPlaces :=
        counted.setJob stored rfl finished.symm
      exact ⟨fun _ => rfl, kept.publish key.queue _⟩
  | false =>
      have left : Counted (queues.setJob key (queues.completedJob job value))
          (withPlaces noPlaces key.queue 1) := counted.finishJob stored finished rfl
      obtain ⟨alike, released⟩ := left.release
      exact ⟨alike.map (·.publish key.queue _), released.publish key.queue _⟩

theorem complete (counted : Counted queues noPlaces) (key : JobKey) (value : Json) :
    Settles fun _ => queues.complete key value := by
  unfold Queues.complete
  cases stored : queues.job? key with
  | none => exact ⟨fun _ => rfl, counted⟩
  | some job =>
      obtain ⟨alike, noted⟩ := counted.noteCompleted stored value
      dsimp only
      cases job.parent with
      | none => exact ⟨alike, noted⟩
      | some parent => exact ⟨alike.map (·.childCompleted parent), noted.childCompleted parent⟩

theorem noteFailed (counted : Counted queues noPlaces) (stored : queues.job? key = some job)
    (unfinished : job.state.isFinished = false) (reason : String) :
    Settles fun _ => queues.noteFailed key job reason := by
  have left : Counted (queues.setJob key (queues.failedJob job reason))
      (withPlaces noPlaces key.queue 1) := counted.finishJob stored unfinished rfl
  obtain ⟨alike, released⟩ := left.release
  exact ⟨alike.map (·.publish key.queue _), released.publish key.queue _⟩

theorem failUpward (counted : Counted queues noPlaces) (inherited : String) (height : Nat)
    (key : JobKey) (reason : String) :
    Settles fun _ => Queues.failUpward inherited height queues key reason := by
  induction height generalizing queues key reason with
  | zero => exact ⟨fun _ => rfl, counted⟩
  | succ height ih =>
      unfold Queues.failUpward
      cases stored : queues.job? key with
      | none => exact ⟨fun _ => rfl, counted⟩
      | some job =>
          dsimp only
          cases finished : job.state.isFinished with
          | true => exact ⟨fun _ => rfl, counted⟩
          | false =>
              obtain ⟨alike, noted⟩ := counted.noteFailed stored finished reason
              cases job.options.failParentOnFailure with
              | false => exact ⟨alike, noted⟩
              | true =>
                  cases job.parent with
                  | none => exact ⟨alike, noted⟩
                  | some parent =>
                      obtain ⟨alikeAbove, all⟩ := ih noted parent inherited
                      exact ⟨alike.andThen (fun _ noted =>
                        Queues.failUpward inherited height noted parent inherited) alikeAbove, all⟩

theorem retryLater (counted : Counted queues noPlaces) (key : JobKey) (attempt : Nat)
    (unfinished : ∀ job, queues.job? key = some job → job.state.isFinished = false) :
    Counted (queues.retryLater key attempt) noPlaces := by
  unfold Queues.retryLater
  split
  · next job stored =>
      have delayed : Counted (queues.setJob key { job with state := .delayed }) noPlaces :=
        counted.setJob stored rfl (unfinished job stored).symm
      exact (delayed.touch key.queue).congr (fun _ => rfl) (fun _ => rfl) (fun _ => rfl) rfl
  · exact (counted.touch key.queue).congr (fun _ => rfl) (fun _ => rfl) (fun _ => rfl) rfl

theorem callReturns (counted : Counted queues noPlaces) (steady : Steady queues none [])
    {call : Call} (isRunning : call ∈ queues.running) (outcome : Except JobError Json) :
    Settles fun _ => queues.callReturns call outcome := by
  have ended : Counted { queues with running := queues.running.erase call } noPlaces :=
    counted.congr (fun _ => rfl) (fun _ => rfl) (fun _ => rfl) rfl
  have unfinished : ∀ job,
      ({ queues with running := queues.running.erase call } : Queues).job? call.key = some job →
      job.state.isFinished = false := by
    intro job stored
    rw [(steady.endCall isRunning stored).1]
    rfl
  unfold Queues.callReturns
  cases outcome with
  | ok value => exact ended.complete call.key value
  | error error =>
      cases error with
      | unrecoverable message => exact ended.failUpward _ _ call.key _
      | retryable message =>
          by_cases again : call.attempt < call.maxAttempts
          · simp only [again, if_true]
            exact ⟨fun _ => rfl, ended.retryLater call.key _ unfinished⟩
          · simp only [again, if_false]
            exact ended.failUpward _ _ call.key _

theorem timerFires (counted : Counted queues noPlaces) (timer : RetryTimer) :
    Counted (queues.timerFires timer) noPlaces := by
  have fired : Counted { queues with timers := queues.timers.erase timer } noPlaces :=
    counted.congr (fun _ => rfl) (fun _ => rfl) (fun _ => rfl) rfl
  unfold Queues.timerFires
  dsimp only
  split
  · next job stored =>
      split
      · next delayed =>
          have woken : Counted (({ queues with timers := queues.timers.erase timer } :
              Queues).setJob timer.key { job with state := .waiting }) noPlaces :=
            fired.setJob stored rfl (by rw [delayed]; rfl)
          exact woken.enqueue timer.key
      · exact fired
  · exact fired

theorem startJob (counted : Counted queues noPlaces) (key : JobKey) :
    Counted (queues.startJob key) noPlaces := by
  unfold Queues.startJob
  split
  · next job stored =>
      split
      · next waiting =>
          have started : Counted (queues.setJob key
              { job with state := .active, attemptsMade := job.attemptsMade + 1 }) noPlaces :=
            counted.setJob stored rfl (by rw [waiting]; rfl)
          exact started.congr (fun _ => rfl) (fun _ => rfl) (fun _ => rfl) rfl
      · exact counted
  · exact counted

end Counted

/-! ## Eviction -/

namespace Counted

variable {queues : Queues} {key : JobKey} {job : Job}

theorem dropJob (counted : Counted queues noPlaces) (stored : queues.job? key = some job) :
    Settles fun _ => queues.dropJob key job := by
  have left := counted.eraseJob stored
  unfold Queues.dropJob
  cases finished : job.state.isFinished with
  | true =>
      rw [finished] at left
      have nothing : withPlaces noPlaces key.queue 0 = noPlaces := by
        funext other
        simp [withPlaces, noPlaces]
      exact ⟨fun _ => rfl, nothing ▸ left⟩
  | false =>
      rw [finished] at left
      obtain ⟨alike, released⟩ := left.release
      exact ⟨alike, released⟩

/-- A removal comes to the same however places are freed, and the numbers are exact afterwards. -/
structure Removes (removal : Freeing → Queues × Nat) : Prop where
  alike : Alike removal
  counted : Counted (removal .saturating).1 noPlaces

/-- Dropping a list of jobs, each of which is dropped exactly. -/
theorem foldl_remove {depth : Nat}
    (each : ∀ (queues : Queues) (count : Nat) (key : JobKey), Counted queues noPlaces →
      Removes fun _ => Queues.removeWithin depth (queues, count) key)
    (counted : Counted queues noPlaces) (keys : List JobKey) (count : Nat) :
    Removes fun _ => keys.foldl (Queues.removeWithin depth) (queues, count) := by
  induction keys generalizing queues count with
  | nil => exact ⟨fun _ => rfl, counted⟩
  | cons head rest ih =>
      obtain ⟨alike, dropped⟩ := each queues count head counted
      obtain ⟨alikeRest, all⟩ := ih dropped (Queues.removeWithin depth (queues, count) head).2
      exact ⟨alike.andThen (fun _ state => rest.foldl (Queues.removeWithin depth) state)
        alikeRest, all⟩

theorem removeWithin (counted : Counted queues noPlaces) (depth count : Nat) (key : JobKey) :
    Removes fun _ => Queues.removeWithin depth (queues, count) key := by
  induction depth generalizing queues count key with
  | zero => exact ⟨fun _ => rfl, counted⟩
  | succ depth ih =>
      unfold Queues.removeWithin
      cases stored : queues.job? key with
      | none => exact ⟨fun _ => rfl, counted⟩
      | some job =>
          obtain ⟨alike, dropped⟩ := counted.dropJob stored
          obtain ⟨alikeBelow, all⟩ := foldl_remove (fun queues count key counted =>
            ih counted count key) dropped job.children (count + 1)
          exact ⟨alike.andThen (fun _ dropped =>
            job.children.foldl (Queues.removeWithin depth) (dropped, count + 1)) alikeBelow, all⟩

theorem removeAll (counted : Counted queues noPlaces) (keys : List JobKey) :
    Removes fun _ => queues.removeAll keys :=
  foldl_remove (fun _ count key counted => counted.removeWithin _ count key) counted keys 0

end Counted

/-! ## Submission -/

/-- The places that are claimed in a queue. -/
def placesIn (queue : String) : List (String × Nat) → Nat
  | [] => 0
  | (other, count) :: rest => (if queue = other then count else 0) + placesIn queue rest

theorem placesIn_perm (queue : String) {counts others : List (String × Nat)}
    (perm : counts.Perm others) : placesIn queue counts = placesIn queue others := by
  induction perm with
  | nil => rfl
  | cons entry _ ih => simp only [placesIn, ih]
  | swap first second rest => simp only [placesIn]; omega
  | trans _ _ first second => exact first.trans second

namespace Counted

variable {queues : Queues} {claimed : String → Nat}

theorem claim (counted : Counted queues claimed) {queue : String} {count : Nat}
    (room : queues.hasRoom queue count = true) :
    Counted (queues.claim queue count) (withPlaces claimed queue count) := by
  have room : (queues.lane queue).unfinished + count ≤
      (queues.lane queue).settings.maxQueueLength := by simpa [hasRoom] using room
  refine ⟨fun other => ?_, fun other => ?_, fun other => ?_⟩
  · have exact := counted.exact other
    rw [Queues.claim, lane_changeLane, withPlaces]
    split
    · next same =>
        show (queues.lane queue).unfinished + count = queues.openJobs other + _
        rw [same] at exact ⊢
        omega
    · exact exact
  · rw [Queues.claim, lane_changeLane]
    split
    · exact room
    · exact counted.bounded other
  · rw [Queues.claim, lane_changeLane]
    split
    · next same => rw [same]; exact counted.settings queue
    · exact counted.settings other

/-- Either all places are claimed or none. -/
theorem reserve (counted : Counted queues claimed) (counts : List (String × Nat)) :
    (Alike fun _ => Queues.reserve counts queues) ∧
      Counted (Queues.reserve counts queues).2 (match (Queues.reserve counts queues).1 with
        | none => fun queue => claimed queue + placesIn queue counts
        | some _ => claimed) := by
  induction counts generalizing queues claimed with
  | nil => exact ⟨fun _ => rfl, counted⟩
  | cons head rest ih =>
      obtain ⟨queue, count⟩ := head
      unfold Queues.reserve
      by_cases room : queues.hasRoom queue count = true
      · simp only [room, if_true]
        obtain ⟨alike, rested⟩ := ih (counted.claim room)
        cases reserved : Queues.reserve rest (queues.claim queue count) with
        | mk problem after =>
            rw [reserved] at rested
            have others : ∀ freeing, @Queues.reserve freeing rest (queues.claim queue count) =
                (problem, after) := fun freeing => (alike freeing).trans reserved
            cases problem with
            | none =>
                refine ⟨fun freeing => by simp only [others], ?_⟩
                have places : (fun other => withPlaces claimed queue count other +
                    placesIn other rest) =
                    fun other => claimed other + placesIn other ((queue, count) :: rest) := by
                  funext other
                  rw [placesIn, withPlaces]
                  omega
                exact places ▸ rested
            | some problem =>
                obtain ⟨given, released⟩ := rested.release
                refine ⟨fun freeing => ?_, released⟩
                simp only [others]
                exact congrArg (Prod.mk _) (given freeing)
      · simp only [room]
        exact ⟨fun _ => rfl, counted.touch queue⟩

end Counted

mutual

/-- The planted jobs of a flow are unfinished jobs of the queues that the flow names. -/
theorem countP_ofFlow (queue : String) (parent : Option JobKey) (serial : Nat) :
    (flow : Flow) → (Planting.ofFlow parent serial flow).jobs.countP
      (fun entry => countsFor queue entry.2) = flow.queueList.count queue
  | ⟨name, queueName, data, options, children⟩ => by
      have below := countP_ofFlows queue ⟨queueName, jobIdOf serial⟩ (serial + 1) children
      have root : ∀ roots, countsFor queue
          (Planting.rootJob ⟨name, queueName, data, options, children⟩ parent roots) =
            (queueName == queue) := by
        intro roots
        have unfinished : (Planting.rootJob ⟨name, queueName, data, options, children⟩ parent
            roots).state.isFinished = false := by
          unfold Planting.rootJob
          dsimp only
          split <;> rfl
        rw [countsFor, unfinished, Bool.not_false, Bool.and_true]
        rfl
      simp only [Planting.ofFlow, List.countP_append, List.countP_singleton, below, root,
        Flow.queueList, List.count_cons]

theorem countP_ofFlows (queue : String) (parent : JobKey) (serial : Nat) :
    (flows : List Flow) → (Planting.ofFlows parent serial flows).jobs.countP
      (fun entry => countsFor queue entry.2) = (Flow.queueLists flows).count queue
  | [] => rfl
  | flow :: rest => by
      simp only [Planting.ofFlows, List.countP_append, Flow.queueLists, List.count_append,
        countP_ofFlow queue (some parent) serial flow, countP_ofFlows queue parent _ rest]

end

/-- The places that a flow claims in a queue are as many as its jobs there. -/
theorem placesIn_countsOf (flow : Flow) (queue : String) :
    placesIn queue (countsOf flow) = flow.queueList.count queue := by
  have general : ∀ (names : List String), names.Nodup →
      placesIn queue (names.map fun name => (name, flow.queueList.count name)) =
        if queue ∈ names then flow.queueList.count queue else 0 := by
    intro names
    induction names with
    | nil => exact fun _ => rfl
    | cons head rest ih =>
        intro distinct
        obtain ⟨fresh, distinctRest⟩ := List.nodup_cons.1 distinct
        rw [List.map_cons, placesIn, ih distinctRest]
        by_cases same : queue = head
        · simp [same, fresh]
        · simp [same]
  unfold countsOf
  rw [general _ (nodup_sortedSet _)]
  split
  · rfl
  · next missing =>
      exact (List.count_eq_zero.2 fun listed => missing (mem_sortedSet.2 listed)).symm

namespace Counted

variable {queues after : Queues}

/-- A flow that was admitted takes the places that were claimed for it. -/
theorem plant (steady : Steady queues none []) {flow : Flow}
    (counted : Counted queues fun queue => flow.queueList.count queue) :
    Counted (queues.plant (Planting.ofFlow none queues.nextSerial flow)) noPlaces := by
  have grown := Planting.grown_ofFlow none queues.nextSerial flow
  have open_ := fun queue => countP_ofFlow queue none queues.nextSerial flow
  generalize Planting.ofFlow none queues.nextSerial flow = planting at grown open_ ⊢
  have jobs : ∀ queue, queues.openJobs queue + flow.queueList.count queue =
      ({ queues with jobs := queues.jobs.insertAll planting.jobs } : Queues).openJobs queue := by
    intro queue
    rw [← open_ queue]
    exact (Dict.countP_insertAll _ _ grown.unique fun entry member =>
      Steady.get?_eq_none_of_planting steady.sound.family grown member).symm
  have stored : Counted { queues with
      jobs := queues.jobs.insertAll planting.jobs
      nextSerial := planting.next } noPlaces :=
    ⟨fun queue => (counted.exact queue).trans (jobs queue), counted.bounded, counted.settings⟩
  exact stored.enqueueAll _

theorem add (counted : Counted queues noPlaces) (steady : Steady queues none [])
    {counts : List (String × Nat)} {flow : Flow} (perm : counts.Perm (countsOf flow)) :
    Settles fun _ => (addInOrder counts queues flow).2 := by
  obtain ⟨alike, claimed⟩ := counted.reserve counts
  have reserved := (steady.reserve counts).1
  unfold addInOrder
  cases result : Queues.reserve counts queues with
  | mk problem after =>
      rw [result] at claimed reserved
      have others : ∀ freeing, @Queues.reserve freeing counts queues = (problem, after) :=
        fun freeing => (alike freeing).trans result
      simp only [others]
      cases problem with
      | none =>
          refine ⟨fun _ => rfl, plant reserved ?_⟩
          have places : (fun queue => noPlaces queue + placesIn queue counts) =
              fun queue => flow.queueList.count queue := by
            funext queue
            rw [placesIn_perm queue perm, placesIn_countsOf, noPlaces, Nat.zero_add]
          exact places ▸ claimed
      | some problem => exact ⟨fun _ => rfl, claimed⟩

theorem start (settings : Dict QueueSettings) : Counted (.start settings) noPlaces where
  exact _ := rfl
  bounded _ := Nat.zero_le _
  settings _ := rfl

end Counted

/-! ## All steps -/

theorem Alike.leads {queues : Queues} {act : Act} {operation : Freeing → Queues}
    (alike : Alike operation) (step : ∀ freeing, @Step freeing queues act (operation freeing))
    (freeing : Freeing) : @Step freeing queues act (operation .saturating) :=
  alike freeing ▸ step freeing

/-- Every step is one however places are freed, and leaves the numbers exact. -/
theorem Counted.step {queues after : Queues} {act : Act} (counted : Counted queues noPlaces)
    (steady : Steady queues none []) (step : Step queues act after) :
    (∀ freeing, @Step freeing queues act after) ∧ Counted after noPlaces := by
  cases step with
  | tick later =>
      refine ⟨fun _ => .tick later, counted.congr (fun _ => rfl) (fun queue => ?_)
        (fun queue => ?_) rfl⟩
      · simp only [lane]
        cases queues.lanes.get? queue <;> rfl
      · simp only [lane]
        cases queues.lanes.get? queue <;> rfl
  | touch queue => exact ⟨fun _ => .touch queue, counted.touch queue⟩
  | add claimed =>
      obtain ⟨alike, added⟩ := counted.add steady claimed
      exact ⟨alike.leads fun _ => .add claimed, added⟩
  | startWorker queue =>
      refine ⟨fun _ => .startWorker queue, ?_⟩
      unfold startWorker
      split
      · exact counted.setLane rfl rfl
      · exact counted.touch queue
  | @advance queue _ moved =>
      refine ⟨fun _ => .advance moved, ?_⟩
      rcases advanceWorker?_some moved with ⟨next, rfl, moves⟩ | ⟨jobId, -, -, rfl⟩
      · exact counted.setLane moves.unfinished moves.settings
      · have rested : Counted (queues.setLane queue { queues.lane queue with worker := .idle })
            noPlaces := counted.setLane rfl rfl
        exact rested.startJob _
  | finish outcome isRunning =>
      obtain ⟨alike, returned⟩ := counted.callReturns steady isRunning outcome
      exact ⟨alike.leads fun _ => .finish outcome isRunning, returned⟩
  | fire pending due => exact ⟨fun _ => .fire pending due, counted.timerFires _⟩
  | remove key =>
      obtain ⟨alike, removed⟩ := counted.removeAll [key]
      exact ⟨(alike.map Prod.fst).leads fun _ => .remove key, removed⟩
  | prune found =>
      obtain ⟨alike, removed⟩ := counted.removeAll _
      exact ⟨(alike.map Prod.fst).leads fun _ => .prune found, removed⟩

theorem Reachable.counted {settings : Dict QueueSettings} {queues : Queues}
    (reached : Reachable settings queues) : Counted queues noPlaces := by
  induction reached with
  | start => exact .start settings
  | step reached step ih => exact (ih.step reached.steady step).2

/-- Capacity accounting is exact: in every state that can be reached the number of unfinished
jobs of a queue is the number of its stored jobs that are neither completed nor failed, it
is within the limit of the queue, and no step frees a place that is not claimed, so that it is
the same step however places are freed. -/
theorem capacity_exact {settings : Dict QueueSettings} {queues : Queues}
    (reached : Reachable settings queues) :
    (∀ queue, queues.unfinishedCount queue = queues.openJobs queue ∧
      queues.unfinishedCount queue ≤ (queues.settingsOf queue).maxQueueLength) ∧
    ∀ act after, Step queues act after → ∀ freeing : Freeing, @Step freeing queues act after := by
  have counted := reached.counted
  refine ⟨fun queue => ?_, fun act after step => (counted.step reached.steady step).1⟩
  have lane : queues.unfinishedCount queue = (queues.lane queue).unfinished := by
    unfold unfinishedCount lane
    cases queues.lanes.get? queue <;> rfl
  rw [lane, ← counted.settings queue]
  exact ⟨counted.exact queue, counted.bounded queue⟩

/-- A flow of two jobs of one queue. -/
def Sample.shared : Flow :=
  ⟨"above", "default", .null, .standard, [⟨"below", "default", .null, .standard, []⟩]⟩

theorem capacity_exact_shared :
    let queues := ((start .empty).addInOrder (countsOf Sample.shared) Sample.shared).2
    (∀ queue, queues.unfinishedCount queue = queues.openJobs queue ∧
      queues.unfinishedCount queue ≤ (queues.settingsOf queue).maxQueueLength) ∧
    ∀ act after, Step queues act after → ∀ freeing : Freeing, @Step freeing queues act after :=
  capacity_exact (.step (@Reachable.start .empty) (.add (.refl _)))

end Queues

end Relay
