import Relay.Proofs.Queue.Sound
import Relay.Queue.Evict

/-!
# Runs of the queues

Everything that happens to the queues is one of the steps below, each of them
atomic, and they may follow each other in any order.  Every step keeps the invariant
of the scheduler, and so it holds in every state that can be reached.
-/

namespace Relay

namespace Queues

/-- Something that happens to the queues. -/
inductive Act where
  /-- Time passes. -/
  | tick (time : Nat)
  /-- Somebody asks for a queue. -/
  | touch (queue : String)
  /-- A flow is submitted; its places are claimed queue by queue in some order. -/
  | add (flow : Flow) (counts : List (String × Nat))
  | startWorker (queue : String)
  /-- A worker takes a job, asks for a token or starts the job that it holds. -/
  | advance (queue : String)
  /-- A call of the processor returns. -/
  | finish (call : Call) (outcome : Except JobError Json)
  /-- A retry timer fires. -/
  | fire (timer : RetryTimer)
  | remove (key : JobKey)
  /-- Flows that finished some time ago are evicted one after another. -/
  | prune (olderThan : Nat) (keys : List JobKey)

/-- One step of the queues. -/
inductive Step [Freeing] (queues : Queues) : Act → Queues → Prop where
  | tick {time : Nat} (later : queues.now ≤ time) :
      Step queues (.tick time) { queues with now := time }
  | touch (queue : String) : Step queues (.touch queue) (queues.touch queue)
  | add {flow : Flow} {counts : List (String × Nat)} (claimed : counts.Perm (countsOf flow)) :
      Step queues (.add flow counts) (addInOrder counts queues flow).2
  | startWorker (queue : String) :
      Step queues (.startWorker queue) (queues.startWorker queue).2
  | advance {queue : String} {after : Queues} (moved : queues.advanceWorker? queue = some after) :
      Step queues (.advance queue) after
  | finish {call : Call} (outcome : Except JobError Json) (isRunning : call ∈ queues.running) :
      Step queues (.finish call outcome) (queues.callReturns call outcome)
  | fire {timer : RetryTimer} (pending : timer ∈ queues.timers) (due : timer.due ≤ queues.now) :
      Step queues (.fire timer) (queues.timerFires timer)
  | remove (key : JobKey) : Step queues (.remove key) (queues.remove key).2
  | prune {olderThan : Nat} {keys : List JobKey} (found : keys.Perm (queues.expired olderThan)) :
      Step queues (.prune olderThan keys) (queues.removeAll keys).1

/-- The states that can be reached with some limits. -/
inductive Reachable (settings : Dict QueueSettings) : Queues → Prop where
  | start : Reachable settings (.start settings)
  | step {queues after : Queues} {act : Act} (reached : Reachable settings queues)
      (step : Step queues act after) : Reachable settings after

/-! ## What the parts of an operation keep the whole keeps -/

section Parts

variable {relation : Queues → Queues → Prop} (refl : ∀ queues, relation queues queues)
  (trans : ∀ {first second third}, relation first second → relation second third →
    relation first third)

include refl trans

/-- Places are claimed and, if one queue is full, given back. -/
theorem reserve_relates (claim : ∀ queues queue count, relation queues (queues.claim queue count))
    (release : ∀ queues queue count, relation queues (queues.release queue count))
    (touch : ∀ queues queue, relation queues (queues.touch queue)) (queues : Queues)
    (counts : List (String × Nat)) : relation queues (reserve counts queues).2 := by
  induction counts generalizing queues with
  | nil => exact refl queues
  | cons head rest ih =>
      obtain ⟨queue, count⟩ := head
      have claimed := trans (claim queues queue count) (ih (queues.claim queue count))
      rw [reserve]
      split
      · split
        · next after reserved =>
            rw [reserved] at claimed
            exact claimed
        · next problem after reserved =>
            rw [reserved] at claimed
            exact trans claimed (release after queue count)
      · exact touch queues queue

/-- A failure goes up job by job. -/
theorem failUpward_relates (note : ∀ {queues key job} reason, queues.job? key = some job →
      job.state.isFinished = false → relation queues (queues.noteFailed key job reason))
    (inherited : String) (height : Nat) (queues : Queues) (key : JobKey) (reason : String) :
    relation queues (failUpward inherited height queues key reason) := by
  induction height generalizing queues key reason with
  | zero => exact refl queues
  | succ height ih =>
      unfold failUpward
      split
      · next job stored =>
          split
          · exact refl queues
          · next unfinished =>
              have noted := note reason stored (Bool.eq_false_iff.2 unfinished)
              split
              · exact trans noted (ih _ _ inherited)
              · exact noted
      · exact refl queues

/-- Jobs are evicted one after another. -/
theorem removeAll_relates (drop : ∀ {queues key job}, queues.job? key = some job →
      relation queues (queues.dropJob key job)) (queues : Queues) (keys : List JobKey) :
    relation queues (queues.removeAll keys).1 := by
  have below : ∀ (depth : Nat) (queues : Queues) (count : Nat) (key : JobKey),
      relation queues (removeWithin depth (queues, count) key).1 := by
    intro depth
    induction depth with
    | zero => exact fun queues _ _ => refl queues
    | succ depth ih =>
        intro queues count key
        unfold removeWithin
        split
        · next job stored =>
            exact List.foldlRecOn (motive := fun state : Queues × Nat => relation queues state.1)
              job.children _ (drop stored) fun state dropped child _ =>
                trans dropped (ih state.1 state.2 child)
        · exact refl queues
  exact List.foldlRecOn (motive := fun state : Queues × Nat => relation queues state.1) keys _
    (refl queues) fun state dropped key _ => trans dropped (below _ state.1 state.2 key)

end Parts

/-! ## No step stops a worker -/

theorem working_setLane {queues : Queues} (working : queues.Working) {queue : String} {lane : Lane}
    (going : lane.worker ≠ .stopped) : (queues.setLane queue lane).Working := by
  intro other
  rw [lane_setLane]
  split
  · exact going
  · exact working other

theorem working_changeLane {queues : Queues} (working : queues.Working) {queue : String}
    {change : Lane → Lane} (same : (change (queues.lane queue)).worker = (queues.lane queue).worker) :
    (queues.changeLane queue change).Working :=
  working_setLane working (same ▸ working queue)

theorem working_release {queues : Queues} (working : queues.Working) (queue : String)
    (count : Nat) : (queues.release queue count).Working := working_changeLane working rfl

theorem working_claim {queues : Queues} (working : queues.Working) (queue : String)
    (count : Nat) : (queues.claim queue count).Working := working_changeLane working rfl

theorem working_publish {queues : Queues} (working : queues.Working) (queue : String)
    (event : QueueEvent) : (queues.publish queue event).Working := working_changeLane working rfl

theorem working_touch {queues : Queues} (working : queues.Working) (queue : String) :
    (queues.touch queue).Working := working_setLane working (working queue)

theorem working_enqueue {queues : Queues} (working : queues.Working) (key : JobKey) :
    (queues.enqueue key).Working := working_changeLane working (by split <;> rfl)

theorem working_setJob {queues : Queues} (working : queues.Working) (key : JobKey) (job : Job) :
    (queues.setJob key job).Working := working

/-! ## Every step keeps the invariant -/

/-- The invariant of the queues, loosened like that of their view. -/
structure Steady (queues : Queues) (idle : Option JobKey) (orphans : List JobKey) : Prop where
  working : queues.Working
  sound : Sound queues.view idle orphans

theorem only_none (key : JobKey) : ∀ other, none = some other → other = key :=
  fun _ same => (Option.some_ne_none _ same.symm).elim

namespace Steady

variable {queues after : Queues} {idle : Option JobKey} {orphans : List JobKey} {key : JobKey}
  {job : Job}

theorem of_view (steady : Steady queues idle orphans) (working : after.Working)
    (same : after.view = queues.view) : Steady after idle orphans :=
  ⟨working, same ▸ steady.sound⟩

theorem release (steady : Steady queues idle orphans) (queue : String) (count : Nat) :
    Steady (queues.release queue count) idle orphans :=
  steady.of_view (working_release steady.working queue count) (view_release queues queue count)

theorem claim (steady : Steady queues idle orphans) (queue : String) (count : Nat) :
    Steady (queues.claim queue count) idle orphans :=
  steady.of_view (working_claim steady.working queue count) (view_claim queues queue count)

theorem touch (steady : Steady queues idle orphans) (queue : String) :
    Steady (queues.touch queue) idle orphans :=
  steady.of_view (working_touch steady.working queue) (view_touch queues queue)

theorem start (settings : Dict QueueSettings) : Steady (.start settings) none [] where
  working _ := by simp [lane, Queues.start, Lane.fresh]
  sound := by
    have noJob : ∀ key, (Queues.start settings).view.job? key = none := fun _ => rfl
    have nothing : ∀ key, (Queues.start settings).view.agenda key = .nothing := fun _ => rfl
    have noEvent : ∀ key, (Queues.start settings).view.completed key = false := fun _ => rfl
    constructor
    case family => constructor <;> simp [View.lineage, noJob]
    all_goals simp [noJob, nothing, noEvent]

/-! ### Time and workers -/

theorem tick (steady : Steady queues idle orphans) (time : Nat) :
    Steady { queues with now := time } idle orphans := by
  refine steady.of_view (fun queue => ?_) (view_atTime queues time)
  have worker : (({ queues with now := time } : Queues).lane queue).worker =
      (queues.lane queue).worker := by
    simp only [lane, settingsOf]
    cases queues.lanes.get? queue <;> rfl
  rw [worker]
  exact steady.working queue

theorem startWorker (steady : Steady queues idle orphans) (queue : String) :
    Steady (queues.startWorker queue).2 idle orphans := by
  rw [Queues.startWorker]
  split
  · next absent =>
      refine steady.of_view (working_setLane steady.working (by simp))
        (view_setLane (fun jobId => ?_) rfl)
      rw [absent]
      rfl
  · exact steady.touch queue

theorem setLane (steady : Steady queues idle orphans) {queue : String} {next : Lane}
    (moves : LaneMoves (queues.lane queue) next) :
    Steady (queues.setLane queue next) idle orphans :=
  steady.of_view (working_setLane steady.working moves.working)
    (view_setLane moves.starts moves.events)

theorem agenda_eq (steady : Steady queues none orphans) (stored : queues.job? key = some job) :
    queues.view.agenda key = job.state.agenda :=
  (steady.sound.agenda key job stored).trans (if_neg nofun)

/-- A job with something pending was given its key at some time. -/
theorem born_of_agenda (steady : Steady queues idle orphans)
    (something : 0 < (queues.view.agenda key).starts + (queues.view.agenda key).timers +
      (queues.view.agenda key).calls) : queues.view.Born key :=
  steady.sound.bornAgenda key fun nothing => by simp [nothing, Agenda.nothing] at something

/-- The job that a worker holds is started, unless it is gone. -/
theorem startJob (steady : Steady queues none []) {queue jobId : String}
    (holding : (queues.lane queue).worker = .awaitingSlot jobId) :
    Steady ((queues.setLane queue { queues.lane queue with worker := .idle }).startJob
      ⟨queue, jobId⟩) none [] := by
  obtain ⟨pending, view⟩ := view_letGo holding
  have working : (queues.setLane queue { queues.lane queue with worker := .idle }).Working :=
    working_setLane steady.working (by simp)
  generalize key_eq : (⟨queue, jobId⟩ : JobKey) = key at pending view
  generalize queues.setLane queue { queues.lane queue with worker := .idle } = freed at view working
  have jobs : freed.job? = queues.job? := congrArg View.job? view
  unfold Queues.startJob
  rw [jobs]
  split
  · next job stored =>
      have agenda := steady.agenda_eq stored
      rw [agenda] at pending view
      have waiting := JobState.eq_waiting pending
      have blocked := steady.sound.blocked key job stored
      rw [Job.Blocked, waiting] at blocked
      rw [if_pos waiting]
      refine ⟨working, ?_⟩
      have storedNow : freed.job? key = some job := jobs ▸ stored
      have queue := ((job?_eq_some_iff _ _ _).1 stored).2
      have started : ({ freed.setJob key
            { job with state := .active, attemptsMade := job.attemptsMade + 1 } with
          running := freed.running ++ [freed.callOf key job] } : Queues).view = _ :=
        view_addCall _ _
      rw [@view_setJob freed key job
        { job with state := .active, attemptsMade := job.attemptsMade + 1 } storedNow queue, view]
        at started
      rw [started]
      simpa [View.setAgenda_setJob, callOf, waiting, JobState.agenda] using
        @Sound.setState _ none key job steady.sound (only_none key) stored
          { job with state := .active, attemptsMade := job.attemptsMade + 1 } rfl rfl rfl
          blocked (by rw [waiting]; decide)
          (show JobState.active ≠ .completed by decide)
  · next missing =>
      refine ⟨working, view ▸ steady.sound.setAgenda_of_missing missing ?_ _⟩
      exact steady.born_of_agenda (by omega)

/-! ### The end of an attempt -/

/-- The call of a job that is still stored leaves it active without anything pending. -/
theorem endCall (steady : Steady queues none []) {call : Call} (isRunning : call ∈ queues.running)
    (stored : queues.job? call.key = some job) :
    job.state = .active ∧
      Steady { queues with running := queues.running.erase call } (some call.key) [] := by
  obtain ⟨pending, view⟩ := view_endCall isRunning
  rw [steady.agenda_eq stored] at pending view
  have active := JobState.eq_active pending
  refine ⟨active, steady.working, ?_⟩
  rw [view, active]
  exact steady.sound.endAttempt stored

theorem endCall_of_missing (steady : Steady queues none []) {call : Call}
    (isRunning : call ∈ queues.running) (missing : queues.job? call.key = none) :
    Steady { queues with running := queues.running.erase call } none [] := by
  obtain ⟨pending, view⟩ := view_endCall isRunning
  refine ⟨steady.working, view ▸ steady.sound.setAgenda_of_missing missing ?_ _⟩
  exact steady.born_of_agenda (by omega)

theorem childCompleted_of_stored {parent : JobKey} (working : queues.Working)
    (stored : queues.job? parent = some job)
    (agenda : queues.view.agenda parent = job.state.agenda) :
    (queues.childCompleted parent).Working ∧ (queues.childCompleted parent).view =
      (queues.view.setJob parent (some (afterChild job))).setAgenda parent
        (afterChild job).state.agenda := by
  have queue : (afterChild job).queue = parent.queue := ((job?_eq_some_iff _ _ _).1 stored).2
  have working' := working_setJob working parent (afterChild job)
  simp only [childCompleted, stored]
  split
  · next last =>
      have waiting : (afterChild job).state = .waiting := if_pos last
      refine ⟨working_enqueue working' parent, ?_⟩
      rw [view_enqueue working', view_setJob stored queue]
      simp [agenda, last.2, waiting, JobState.agenda, Agenda.nothing]
  · next notLast =>
      have same : (afterChild job).state = job.state := if_neg notLast
      refine ⟨working', ?_⟩
      rw [view_setJob stored queue, same, ← agenda]
      exact (View.setAgenda_self _ parent).symm

/-- A job whose attempt has ended completes. -/
theorem complete (steady : Steady queues (some key) []) (stored : queues.job? key = some job)
    (active : job.state = .active) (value : Json) : Steady (queues.complete key value) none [] := by
  have completing : Completing queues.view key job (queues.completedJob job value) :=
    ⟨steady.sound, stored, active, rfl, rfl, rfl, rfl⟩
  have unfinished : job.state.isFinished = false := by rw [active]; rfl
  have queue : (queues.completedJob job value).queue = key.queue :=
    ((job?_eq_some_iff _ _ _).1 stored).2
  have notedView : (queues.noteCompleted key job value).view =
      queues.view.finish key (queues.completedJob job value) := by
    simp only [noteCompleted, unfinished, view_publish_completed, Bool.false_eq_true, if_false,
      view_release, view_setJob stored queue]
    rfl
  have notedWorking : (queues.noteCompleted key job value).Working := by
    simp only [noteCompleted, unfinished]
    exact working_publish (working_release (working_setJob steady.working key _) _ _) _ _
  simp only [Queues.complete, stored]
  cases parent : job.parent with
  | none => exact ⟨notedWorking, notedView ▸ completing.sound_root parent⟩
  | some above =>
      obtain ⟨aboveJob, aboveStored, -, -, -⟩ := completing.open_above parent
      have different := completing.above_ne parent
      have aboveNow : (queues.noteCompleted key job value).job? above = some aboveJob := by
        have jobs := congrFun (congrArg View.job? notedView) above
        simpa [View.finish, different, aboveStored] using jobs
      have aboveAgenda : (queues.noteCompleted key job value).view.agenda above =
          aboveJob.state.agenda := by
        simpa [notedView, View.finish, Ne.symm different] using
          steady.sound.agenda above aboveJob aboveStored
      obtain ⟨working, view⟩ := childCompleted_of_stored notedWorking aboveNow aboveAgenda
      refine ⟨working, ?_⟩
      rw [view, notedView]
      exact completing.sound_told parent aboveStored rfl rfl rfl rfl

/-- A job whose attempt has ended is delayed. -/
theorem retryLater (steady : Steady queues (some key) []) (stored : queues.job? key = some job)
    (active : job.state = .active) (attempt : Nat) :
    Steady (queues.retryLater key attempt) none [] := by
  let delayed := queues.setJob key { job with state := .delayed }
  have queue := ((job?_eq_some_iff _ _ _).1 stored).2
  have whole : queues.retryLater key attempt =
      { delayed.touch key.queue with timers := delayed.timers ++
        [⟨key, queues.now + (delayed.lane key.queue).settings.backoff attempt⟩] } := by
    simp only [Queues.retryLater, stored]
    rfl
  have view := view_addTimer (delayed.touch key.queue)
    ⟨key, queues.now + (delayed.lane key.queue).settings.backoff attempt⟩
  have delayedView : (delayed.touch key.queue).view =
      queues.view.setJob key (some { job with state := .delayed }) := by
    rw [view_touch]
    exact view_setJob stored queue
  have nothing : queues.view.agenda key = .nothing :=
    (steady.sound.agenda key job stored).trans (if_pos rfl)
  have blocked := steady.sound.blocked key job stored
  rw [Job.Blocked, active] at blocked
  rw [whole]
  refine ⟨working_touch (working_setJob steady.working key _) key.queue, ?_⟩
  rw [delayedView] at view
  refine Eq.mpr (congrArg (Sound · none []) view) ?_
  simpa [nothing, Agenda.nothing, JobState.agenda] using
    @Sound.setState _ (some key) key job steady.sound (fun _ same => (Option.some.inj same).symm)
      stored { job with state := .delayed } rfl rfl rfl blocked (by rw [active]; decide)
      (show JobState.delayed ≠ .completed by decide)

/-- A delay runs to its end also for a job that is gone. -/
theorem retryLater_of_missing (steady : Steady queues none [])
    (missing : queues.job? key = none) (born : queues.view.Born key) (attempt : Nat) :
    Steady (queues.retryLater key attempt) none [] := by
  simp only [Queues.retryLater, missing]
  refine ⟨working_touch steady.working key.queue, ?_⟩
  have view := view_addTimer (queues.touch key.queue)
    ⟨key, queues.now + (queues.lane key.queue).settings.backoff attempt⟩
  rw [view_touch] at view
  refine Eq.mpr (congrArg (Sound · none []) view) ?_
  exact steady.sound.setAgenda_of_missing missing born _

/-- A job without anything pending fails. -/
theorem noteFailed (steady : Steady queues idle [])
    (only : ∀ other, idle = some other → other = key) (stored : queues.job? key = some job)
    (nothing : queues.view.agenda key = .nothing) (isOpen : job.state ≠ .completed)
    (reason : String) : Steady (queues.noteFailed key job reason) none [] ∧
      (queues.noteFailed key job reason).view =
        queues.view.setJob key (some (queues.failedJob job reason)) := by
  have queue : (queues.failedJob job reason).queue = key.queue :=
    ((job?_eq_some_iff _ _ _).1 stored).2
  have view : (queues.noteFailed key job reason).view =
      queues.view.setJob key (some (queues.failedJob job reason)) := by
    rw [Queues.noteFailed, view_publish_failed, view_release, view_setJob stored queue]
  have working := working_setJob steady.working key (queues.failedJob job reason)
  refine ⟨⟨working_publish (working_release working _ _) _ _, ?_⟩, view⟩
  have same : (queues.view.setJob key (some (queues.failedJob job reason))).setAgenda key .nothing =
      queues.view.setJob key (some (queues.failedJob job reason)) := by
    have agenda := View.setAgenda_self (queues.view.setJob key (some (queues.failedJob job reason)))
      key
    rwa [View.setJob_agenda, nothing] at agenda
  rw [view, ← same]
  exact steady.sound.setState only stored rfl rfl rfl trivial isOpen
    (show JobState.failed ≠ .completed by decide)

/-- The parent of a job that fails has nothing pending, before and after. -/
theorem nothing_above (steady : Steady queues idle [])
    (only : ∀ other, idle = some other → other = key) (stored : queues.job? key = some job)
    (nothing : queues.view.agenda key = .nothing) (isOpen : job.state ≠ .completed)
    (reason : String) {above : JobKey} (parent : job.parent = some above) :
    (queues.noteFailed key job reason).view.agenda above = .nothing := by
  rw [(steady.noteFailed only stored nothing isOpen reason).2, View.setJob_agenda]
  obtain ⟨aboveJob, aboveStored, -, -, waiting⟩ := steady.sound.above_open stored isOpen parent
  rw [steady.sound.agenda above aboveJob aboveStored]
  split
  · rfl
  · rcases waiting with waiting | failed
    · rw [waiting]; rfl
    · rw [failed]; rfl

/-- Jobs fail one above the other, as long as they have nothing pending. -/
theorem failUpward (inherited : String) {height : Nat} (reason : String)
    (steady : Steady queues none [])
    (nothing : queues.view.agenda key = .nothing) :
    Steady (Queues.failUpward inherited height queues key reason) none [] := by
  induction height generalizing queues key reason with
  | zero => exact steady
  | succ height ih =>
      rw [Queues.failUpward]
      split
      · next job stored =>
          split
          · exact steady
          · next unfinished =>
              have isOpen : job.state ≠ .completed := fun done => unfinished (by rw [done]; rfl)
              have noted := (steady.noteFailed (only_none key) stored nothing isOpen reason).1
              split
              · next parent _ isParent =>
                  exact ih inherited noted
                    (steady.nothing_above (only_none key) stored nothing isOpen reason isParent)
              · exact noted
      · exact steady

/-- A job whose attempt has ended fails for good. -/
theorem fail (steady : Steady queues (some key) []) (stored : queues.job? key = some job)
    (active : job.state = .active) (name reason : String) :
    Steady (queues.fail key name reason) none [] := by
  have size : queues.jobs.size ≠ 0 := by
    intro empty
    have found := ((job?_eq_some_iff _ _ _).1 stored).1
    rw [Dict.get?_eq_none_of_size_eq_zero empty] at found
    cases found
  obtain ⟨height, isSize⟩ := Nat.exists_eq_succ_of_ne_zero size
  have unfinished : job.state.isFinished = false := by rw [active]; rfl
  have isOpen : job.state ≠ .completed := by rw [active]; decide
  have only : ∀ other, some key = some other → other = key :=
    fun other same => (Option.some.inj same).symm
  have nothing : queues.view.agenda key = .nothing :=
    (steady.sound.agenda key job stored).trans (if_pos rfl)
  have noted := (steady.noteFailed only stored nothing isOpen reason).1
  rw [Queues.fail, isSize, Queues.failUpward]
  simp only [stored, unfinished, Bool.false_eq_true, if_false]
  split
  · next parent _ isParent =>
      exact failUpward _ _ noted (steady.nothing_above only stored nothing isOpen reason isParent)
  · exact noted

/-- A call returns, whatever it returns and whether its job is still there or not. -/
theorem callReturns (steady : Steady queues none []) {call : Call}
    (isRunning : call ∈ queues.running) (outcome : Except JobError Json) :
    Steady (queues.callReturns call outcome) none [] := by
  unfold Queues.callReturns
  cases stored : queues.job? call.key with
  | some job =>
      obtain ⟨active, ended⟩ := steady.endCall isRunning stored
      split
      · exact ended.complete stored active _
      · split
        · exact ended.retryLater stored active _
        · exact ended.fail stored active _ _
      · exact ended.fail stored active _ _
  | none =>
      have ended := steady.endCall_of_missing isRunning stored
      have missing : ({ queues with running := queues.running.erase call } : Queues).job? call.key =
          none := stored
      have pending := (view_endCall isRunning).1
      have born : queues.view.Born call.key := steady.born_of_agenda (by omega)
      have failed : ∀ name reason, Steady
          (({ queues with running := queues.running.erase call } : Queues).fail call.key name
            reason) none [] := by
        intro name reason
        unfold Queues.fail
        cases Dict.size _ with
        | zero => exact ended
        | succ height => rw [Queues.failUpward, missing]; exact ended
      split
      · simp only [Queues.complete, missing]
        exact ended
      · split
        · exact ended.retryLater_of_missing missing born _
        · exact failed _ _
      · exact failed _ _

/-- A retry timer fires, whether its job is still there or not. -/
theorem timerFires (steady : Steady queues none []) {timer : RetryTimer}
    (isPending : timer ∈ queues.timers) : Steady (queues.timerFires timer) none [] := by
  obtain ⟨pending, view⟩ := view_endTimer isPending
  have working : ({ queues with timers := queues.timers.erase timer } : Queues).Working :=
    steady.working
  have same : ({ queues with timers := queues.timers.erase timer } : Queues).job? = queues.job? :=
    rfl
  dsimp only [Queues.timerFires]
  generalize ({ queues with timers := queues.timers.erase timer } : Queues) = fired at *
  rw [same]
  split
  · next job stored =>
      rw [steady.agenda_eq stored] at pending view
      have delayed := JobState.eq_delayed pending
      have blocked := steady.sound.blocked timer.key job stored
      rw [Job.Blocked, delayed] at blocked
      have storedNow : fired.job? timer.key = some job := same ▸ stored
      have queue := ((job?_eq_some_iff _ _ _).1 stored).2
      have woken := working_setJob working timer.key { job with state := .waiting }
      rw [if_pos delayed]
      refine ⟨working_enqueue woken timer.key, ?_⟩
      rw [view_enqueue woken,
        @view_setJob fired timer.key job { job with state := .waiting } storedNow queue, view]
      simpa [View.setAgenda_setJob, delayed, JobState.agenda] using
        @Sound.setState _ none timer.key job steady.sound (only_none timer.key) stored
          { job with state := .waiting } rfl rfl rfl blocked (by rw [delayed]; decide)
          (show JobState.waiting ≠ .completed by decide)
  · next missing =>
      refine ⟨working, view ▸ steady.sound.setAgenda_of_missing missing ?_ _⟩
      exact steady.born_of_agenda (by omega)

/-! ### Eviction -/

/-- Dropping one job makes orphans of its children. -/
theorem dropJob (steady : Steady queues none (key :: orphans))
    (stored : queues.job? key = some job) :
    Steady (queues.dropJob key job) none (job.children ++ orphans) := by
  have dropped : Steady { queues with jobs := queues.jobs.erase key.id } none
      (job.children ++ orphans) := by
    refine ⟨steady.working, ?_⟩
    rw [view_erase stored]
    exact steady.sound.drop stored
  unfold Queues.dropJob
  split
  · exact dropped
  · exact dropped.release key.queue 1

theorem size_dropJob (stored : queues.job? key = some job) :
    (queues.dropJob key job).jobs.size + 1 = queues.jobs.size := by
  have erased := Dict.size_erase_of_some ((job?_eq_some_iff _ _ _).1 stored).1
  unfold Queues.dropJob
  split <;> exact erased

/-- Dropping a job and everything below it leaves no orphans, if the depth is that of the
table of jobs. -/
theorem removeWithin {depth count : Nat} (steady : Steady queues none (key :: orphans))
    (deep : queues.jobs.size ≤ depth) :
    Steady (Queues.removeWithin depth (queues, count) key).1 none orphans ∧
      (Queues.removeWithin depth (queues, count) key).1.jobs.size ≤ queues.jobs.size := by
  induction depth generalizing queues key orphans count with
  | zero =>
      have missing : queues.job? key = none := by
        have empty := Dict.get?_eq_none_of_size_eq_zero (Nat.le_zero.1 deep) key.id
        simp [job?, empty]
      exact ⟨⟨steady.working, steady.sound.forget missing⟩, Nat.le_refl _⟩
  | succ depth ih =>
      rw [Queues.removeWithin]
      split
      · next job stored =>
          have dropped := steady.dropJob stored
          have size := size_dropJob stored
          -- the children are dropped one after another, each with what is left of the depth
          have below : ∀ (children : List JobKey) (queues : Queues) (count : Nat),
              Steady queues none (children ++ orphans) → queues.jobs.size ≤ depth →
              Steady (children.foldl (Queues.removeWithin depth) (queues, count)).1 none orphans ∧
                (children.foldl (Queues.removeWithin depth) (queues, count)).1.jobs.size ≤
                  queues.jobs.size := by
            intro children
            induction children with
            | nil => exact fun _ _ steady _ => ⟨steady, Nat.le_refl _⟩
            | cons child rest ihRest =>
                intro queues count steady deep
                obtain ⟨one, smaller⟩ := @ih _ (rest ++ orphans) child count steady deep
                obtain ⟨all, smallest⟩ := ihRest _ _ one (Nat.le_trans smaller deep)
                exact ⟨all, Nat.le_trans smallest smaller⟩
          obtain ⟨all, smaller⟩ := below job.children _ (count + 1) dropped (by omega)
          exact ⟨all, by omega⟩
      · next missing =>
          exact ⟨⟨steady.working, steady.sound.forget missing⟩, Nat.le_refl _⟩

/-- Several jobs are dropped with everything below them. -/
theorem removeAll (steady : Steady queues none []) (keys : List JobKey) :
    Steady (queues.removeAll keys).1 none [] := by
  unfold Queues.removeAll
  suffices general : ∀ (keys : List JobKey) (depth : Nat) (queues : Queues) (count : Nat),
      Steady queues none [] → queues.jobs.size ≤ depth →
      Steady (keys.foldl (Queues.removeWithin depth) (queues, count)).1 none [] from
    general keys _ queues 0 steady (Nat.le_refl _)
  intro keys
  induction keys with
  | nil => exact fun _ _ _ steady _ => steady
  | cons key rest ih =>
      intro depth queues count steady deep
      obtain ⟨one, smaller⟩ := @removeWithin queues [] key depth count
        ⟨steady.working, steady.sound.adopt [key]⟩ deep
      exact ih depth _ _ one (Nat.le_trans smaller deep)

/-! ### Submission -/

/-- Claiming places changes nothing but numbers, whether all places are there or not. -/
theorem reserve (steady : Steady queues none []) (counts : List (String × Nat)) :
    Steady (Queues.reserve counts queues).2 none [] ∧
      (Queues.reserve counts queues).2.view = queues.view ∧
      (Queues.reserve counts queues).2.jobs = queues.jobs ∧
      (Queues.reserve counts queues).2.nextSerial = queues.nextSerial := by
  induction counts generalizing queues with
  | nil => exact ⟨steady, rfl, rfl, rfl⟩
  | cons head rest ih =>
      obtain ⟨queue, count⟩ := head
      rw [Queues.reserve]
      split
      · have claimed := ih (steady.claim queue count)
        rw [view_claim] at claimed
        split
        · next after reserved =>
            rw [reserved] at claimed
            exact claimed
        · next problem after reserved =>
            rw [reserved] at claimed
            obtain ⟨kept, view, jobs, serial⟩ := claimed
            exact ⟨kept.release queue count, (view_release _ _ _).trans view, jobs, serial⟩
      · exact ⟨steady.touch queue, view_touch _ _, rfl, rfl⟩

/-- Handing several jobs to their queues adds a pending start for each. -/
theorem enqueueAll (working : queues.Working) {keys : List JobKey} (distinct : keys.Nodup) :
    (keys.foldl Queues.enqueue queues).Working ∧
      (keys.foldl Queues.enqueue queues).view.job? = queues.view.job? ∧
      (keys.foldl Queues.enqueue queues).view.completed = queues.view.completed ∧
      (keys.foldl Queues.enqueue queues).view.serial = queues.view.serial ∧
      ∀ key, (keys.foldl Queues.enqueue queues).view.agenda key =
        if key ∈ keys then
          { queues.view.agenda key with starts := (queues.view.agenda key).starts + 1 }
        else queues.view.agenda key := by
  induction keys generalizing queues with
  | nil => exact ⟨working, rfl, rfl, rfl, fun key => (if_neg List.not_mem_nil).symm⟩
  | cons head rest ih =>
      obtain ⟨fresh, distinctRest⟩ := List.nodup_cons.1 distinct
      obtain ⟨workingAll, jobs, completed, serial, agenda⟩ :=
        ih (working_enqueue working head) distinctRest
      have view := view_enqueue working head
      rw [List.foldl_cons]
      refine ⟨workingAll, jobs.trans ?_, completed.trans ?_, serial.trans ?_, fun key => ?_⟩
      · rw [view]; rfl
      · rw [view]; rfl
      · rw [view]; rfl
      · rw [agenda, view, View.setAgenda_agenda]
        by_cases isHead : key = head
        · simp [isHead, fresh]
        · simp [isHead]

/-- The identifiers of a planting are new. -/
theorem get?_eq_none_of_planting {planting : Planting} (family : Family queues.view [])
    (grown : planting.Grown none queues.nextSerial) {entry : String × Job}
    (member : entry ∈ planting.jobs) : queues.jobs.get? entry.1 = none := by
  rw [Option.eq_none_iff_forall_ne_some]
  intro old found
  have stored : queues.job? ⟨old.queue, entry.1⟩ = some old :=
    (job?_eq_some_iff _ _ _).2 ⟨found, rfl⟩
  obtain ⟨number, below, same⟩ := (family.born _ _ _ (View.lineage_of_stored stored)).1
  obtain ⟨later, above, -, equal⟩ := grown.ids _ member
  have := jobIdOf_injective (same.symm.trans equal)
  have below : number < queues.nextSerial := below
  omega

/-- The stored jobs of a planted flow. -/
theorem job?_insertAll {planting : Planting} (family : Family queues.view [])
    (grown : planting.Grown none queues.nextSerial) (key : JobKey) (job : Job) :
    ({ queues with jobs := queues.jobs.insertAll planting.jobs, nextSerial := planting.next }
        : Queues).job? key = some job ↔ planting.Holds key job ∨ queues.job? key = some job := by
  have listed : ∀ other, planting.jobs.reverse.lookup key.id = some other ↔
      (key.id, other) ∈ planting.jobs := by
    intro other
    constructor
    · exact fun found => List.mem_reverse.1 (Dict.mem_of_lookup found)
    · intro member
      refine Dict.lookup_eq_some_of_nodup ?_ (List.mem_reverse.2 member)
      rw [List.map_reverse]
      exact List.nodup_reverse.2 grown.unique
  rw [job?_eq_some_iff, job?_eq_some_iff, Planting.Holds]
  simp only [Dict.get?_insertAll]
  cases found : planting.jobs.reverse.lookup key.id with
  | none =>
      have unlisted : ∀ other, (key.id, other) ∉ planting.jobs := fun other member => by
        rw [(listed other).2 member] at found
        cases found
      simp [unlisted]
  | some other =>
      have member := (listed other).1 found
      have only : ∀ again, (key.id, again) ∈ planting.jobs ↔ again = other := by
        intro again
        rw [← listed again, found]
        simp [eq_comm]
      simp [only, get?_eq_none_of_planting family grown member, eq_comm]

/-- A flow that was admitted is stored as a whole. -/
theorem plant (steady : Steady queues none []) {planting : Planting}
    (grown : planting.Grown none queues.nextSerial) :
    Steady (queues.plant planting) none [] := by
  let stored : Queues :=
    { queues with jobs := queues.jobs.insertAll planting.jobs, nextSerial := planting.next }
  obtain ⟨working, jobs, completed, serial, agenda⟩ :=
    @enqueueAll stored steady.working _ grown.distinctReady
  have planted : Planted queues.view (queues.plant planting).view planting :=
    { grown
      jobs := fun key job => by
        rw [Queues.plant, jobs]
        exact job?_insertAll steady.sound.family grown key job
      ready := fun key ready => (agenda key).trans (if_pos ready)
      others := fun key notReady => (agenda key).trans (if_neg notReady)
      completed
      serial }
  exact ⟨working, planted.sound steady.sound⟩

/-- A flow is submitted, with success or without. -/
theorem add (steady : Steady queues none []) (counts : List (String × Nat)) (flow : Flow) :
    Steady (addInOrder counts queues flow).2 none [] := by
  obtain ⟨reserved, -, -, -⟩ := steady.reserve counts
  unfold addInOrder
  split
  · next problem after found =>
      rw [found] at reserved
      exact reserved
  · next after found =>
      rw [found] at reserved
      exact reserved.plant (Planting.grown_ofFlow none after.nextSerial flow)

/-! ### All steps -/

/-- Every step keeps the invariant. -/
theorem step (steady : Steady queues none []) {act : Act} (step : Step queues act after) :
    Steady after none [] := by
  cases step with
  | tick later => exact steady.tick _
  | touch queue => exact steady.touch queue
  | add claimed => exact steady.add _ _
  | startWorker queue => exact steady.startWorker queue
  | advance moved =>
      rcases advanceWorker?_some moved with ⟨next, rfl, moves⟩ | ⟨jobId, holding, -, rfl⟩
      · exact steady.setLane moves
      · exact steady.startJob holding
  | finish outcome isRunning => exact steady.callReturns isRunning outcome
  | fire pending due => exact steady.timerFires pending
  | remove key => exact steady.removeAll [key]
  | prune found => exact steady.removeAll _

end Steady

/-- The invariant holds in every state that can be reached. -/
theorem Reachable.steady {settings : Dict QueueSettings} {queues : Queues}
    (reached : Reachable settings queues) : Steady queues none [] := by
  induction reached with
  | start => exact .start settings
  | step _ step ih => exact ih.step step

end Queues

end Relay
