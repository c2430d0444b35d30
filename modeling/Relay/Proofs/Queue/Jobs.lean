import Relay.Proofs.Queue.Run

/-!
# What a step does to the stored jobs

A step starts one attempt of one job, stores the jobs of a flow, or lets the stored
jobs go on: they keep what they were submitted with, the number of their attempts and
the end that they have come to.
-/

namespace Relay

/-- What stays of a job while it is stored and no attempt of it is started. -/
structure Job.Continues (old new : Job) : Prop where
  queue : new.queue = old.queue
  name : new.name = old.name
  data : new.data = old.data
  options : new.options = old.options
  parent : new.parent = old.parent
  children : new.children = old.children
  attemptsMade : new.attemptsMade = old.attemptsMade
  /-- A finished job stays as it ended. -/
  ended : old.state.isFinished = true → new.state = old.state ∧
    new.returnValue = old.returnValue ∧ new.failedReason = old.failedReason

namespace Job.Continues

variable {old between new : Job}

theorem refl (job : Job) : job.Continues job := by
  constructor
  case ended => exact fun _ => ⟨rfl, rfl, rfl⟩
  all_goals rfl

theorem trans (first : old.Continues between) (second : between.Continues new) :
    old.Continues new where
  queue := second.queue.trans first.queue
  name := second.name.trans first.name
  data := second.data.trans first.data
  options := second.options.trans first.options
  parent := second.parent.trans first.parent
  children := second.children.trans first.children
  attemptsMade := second.attemptsMade.trans first.attemptsMade
  ended := by
    intro finished
    obtain ⟨state, value, reason⟩ := first.ended finished
    obtain ⟨stateLater, valueLater, reasonLater⟩ := second.ended (state ▸ finished)
    exact ⟨stateLater.trans state, valueLater.trans value, reasonLater.trans reason⟩

end Job.Continues

/-- What an event says of the job that it is about. -/
def QueueEvent.Announces (event : QueueEvent) (job : Job) : Prop :=
  match event with
  | .completed _ => job.state = .completed
  | .failed _ reason => job.state = .failed ∧ job.failedReason = some reason

theorem QueueEvent.Announces.finished {event : QueueEvent} {job : Job}
    (announces : event.Announces job) : job.state.isFinished = true := by
  cases event with
  | completed jobId => rw [show job.state = .completed from announces]; rfl
  | failed jobId reason => rw [announces.1]; rfl

/-- What was announced of a job stays true of it. -/
theorem QueueEvent.Announces.continues {event : QueueEvent} {old new : Job}
    (announces : event.Announces old) (continues : old.Continues new) : event.Announces new := by
  obtain ⟨state, -, reason⟩ := continues.ended announces.finished
  cases event with
  | completed jobId => exact state.trans announces
  | failed jobId message => exact ⟨state.trans announces.1, reason.trans announces.2⟩

namespace Queues

/-- The jobs that finish are announced, each once and as it ended. -/
structure Reports (queues after : Queues) (queue : String) (more : List QueueEvent) : Prop where
  events : (after.lane queue).events = (queues.lane queue).events ++ more
  once : (more.map QueueEvent.jobId).Nodup
  unfinished : ∀ event ∈ more, ∃ job, queues.job? ⟨queue, event.jobId⟩ = some job ∧
    job.state.isFinished = false
  announces : ∀ event ∈ more, ∀ new, after.job? ⟨queue, event.jobId⟩ = some new →
    event.Announces new

/-- Stored jobs go on, and apart from jobs, lanes, timers and time nothing changes. -/
structure Carries (queues after : Queues) : Prop where
  jobs : ∀ key new, after.job? key = some new →
    ∃ old, queues.job? key = some old ∧ old.Continues new
  reports : ∀ queue, ∃ more, Reports queues after queue more
  /-- A job that is finished was so before, or is announced. -/
  finishes : ∀ key new, after.job? key = some new → new.state.isFinished = true →
    (∃ old, queues.job? key = some old ∧ old.state.isFinished = true) ∨
      ∃ event ∈ (after.lane key.queue).events, event.jobId = key.id
  running : after.running = queues.running
  settings : after.settings = queues.settings
  serial : after.nextSerial = queues.nextSerial

/-- Nothing changes but numbers, what is ready, timers and time. -/
structure Quiet (queues after : Queues) : Prop where
  jobs : after.job? = queues.job?
  events : ∀ queue, (after.lane queue).events = (queues.lane queue).events
  running : after.running = queues.running
  settings : after.settings = queues.settings
  serial : after.nextSerial = queues.nextSerial

/-- Some jobs are evicted; the others stay as they are, and nothing is announced. -/
structure Evicts (queues after : Queues) : Prop where
  jobs : ∀ key job, after.job? key = some job → queues.job? key = some job
  events : ∀ queue, (after.lane queue).events = (queues.lane queue).events
  running : after.running = queues.running
  settings : after.settings = queues.settings
  serial : after.nextSerial = queues.nextSerial

/-! ## Single operations -/

section Operations

variable {queues between after : Queues} {key : JobKey} {old new job : Job}

theorem Reports.trans {queue : String} {first second : List QueueEvent}
    (one : Reports queues between queue first) (carries : ∀ key new, between.job? key = some new →
      ∃ old, queues.job? key = some old ∧ old.Continues new)
    (other : Reports between after queue second) (later : ∀ key new, after.job? key = some new →
      ∃ old, between.job? key = some old ∧ old.Continues new) :
    Reports queues after queue (first ++ second) where
  events := by rw [other.events, one.events, List.append_assoc]
  once := by
    rw [List.map_append]
    apply List.Nodup.append one.once other.once
    intro jobId inFirst inSecond
    obtain ⟨told, member, rfl⟩ := List.mem_map.1 inFirst
    obtain ⟨again, memberAgain, same⟩ := List.mem_map.1 inSecond
    obtain ⟨job, stored, unfinished⟩ := other.unfinished again memberAgain
    rw [same] at stored
    have finished := (one.announces told member job stored).finished
    rw [unfinished] at finished
    cases finished
  unfinished := by
    intro event member
    rcases List.mem_append.1 member with inFirst | inSecond
    · exact one.unfinished event inFirst
    · obtain ⟨job, stored, unfinished⟩ := other.unfinished event inSecond
      obtain ⟨old, before, continues⟩ := carries _ job stored
      refine ⟨old, before, ?_⟩
      cases finished : old.state.isFinished with
      | false => rfl
      | true =>
          rw [← (continues.ended finished).1, unfinished] at finished
          cases finished
  announces := by
    intro event member new stored
    rcases List.mem_append.1 member with inFirst | inSecond
    · obtain ⟨old, before, continues⟩ := later _ new stored
      exact (one.announces event inFirst old before).continues continues
    · exact other.announces event inSecond new stored

theorem reports_nothing {queue : String}
    (events : (after.lane queue).events = (queues.lane queue).events) :
    Reports queues after queue [] where
  events := by rw [events, List.append_nil]
  once := List.nodup_nil
  unfinished _ member := absurd member List.not_mem_nil
  announces _ member := absurd member List.not_mem_nil

theorem Carries.trans (first : Carries queues between) (second : Carries between after) :
    Carries queues after where
  jobs := by
    intro key new found
    obtain ⟨middle, stored, later⟩ := second.jobs key new found
    obtain ⟨old, earlier, continues⟩ := first.jobs key middle stored
    exact ⟨old, earlier, continues.trans later⟩
  reports := by
    intro queue
    obtain ⟨one, reported⟩ := first.reports queue
    obtain ⟨other, reportedLater⟩ := second.reports queue
    exact ⟨one ++ other, reported.trans first.jobs reportedLater second.jobs⟩
  finishes := by
    intro key new found finished
    rcases second.finishes key new found finished with ⟨middle, stored, before⟩ | announced
    · rcases first.finishes key middle stored before with earlier | ⟨event, member, same⟩
      · exact .inl earlier
      · obtain ⟨more, reported⟩ := second.reports key.queue
        refine .inr ⟨event, ?_, same⟩
        rw [reported.events]
        exact List.mem_append_left more member
    · exact .inr announced
  running := second.running.trans first.running
  settings := second.settings.trans first.settings
  serial := second.serial.trans first.serial

theorem Quiet.carries (quiet : Quiet queues after) : Carries queues after where
  jobs _ new found := ⟨new, quiet.jobs ▸ found, .refl new⟩
  reports queue := ⟨[], reports_nothing (quiet.events queue)⟩
  finishes _ new found finished := .inl ⟨new, quiet.jobs ▸ found, finished⟩
  running := quiet.running
  settings := quiet.settings
  serial := quiet.serial

theorem Quiet.trans (first : Quiet queues between) (second : Quiet between after) :
    Quiet queues after where
  jobs := second.jobs.trans first.jobs
  events queue := (second.events queue).trans (first.events queue)
  running := second.running.trans first.running
  settings := second.settings.trans first.settings
  serial := second.serial.trans first.serial

theorem quiet_refl (queues : Queues) : Quiet queues queues := ⟨rfl, fun _ => rfl, rfl, rfl, rfl⟩

theorem quiet_setLane {queue : String} {lane : Lane}
    (events : lane.events = (queues.lane queue).events) :
    Quiet queues (queues.setLane queue lane) where
  jobs := rfl
  events other := by
    rw [lane_setLane]
    split
    · next same => rw [events, same]
    · rfl
  running := rfl
  settings := rfl
  serial := rfl

theorem events_publish (queues : Queues) (queue other : String) (event : QueueEvent) :
    ((queues.publish queue event).lane other).events =
      (queues.lane other).events ++ if other = queue then [event] else [] := by
  rw [publish, lane_changeLane]
  split
  · next same => rw [same]
  · rw [List.append_nil]

theorem quiet_enqueue (queues : Queues) (key : JobKey) : Quiet queues (queues.enqueue key) :=
  quiet_setLane (by dsimp only; split <;> rfl)

theorem quiet_enqueueAll (queues : Queues) (keys : List JobKey) :
    Quiet queues (keys.foldl enqueue queues) :=
  List.foldlRecOn keys enqueue (quiet_refl queues) fun _ quiet key _ =>
    quiet.trans (quiet_enqueue _ key)

theorem quiet_tick (queues : Queues) (time : Nat) : Quiet queues { queues with now := time } where
  jobs := rfl
  events queue := by
    simp only [lane]
    cases queues.lanes.get? queue <;> rfl
  running := rfl
  settings := rfl
  serial := rfl

theorem quiet_reserve (queues : Queues) (counts : List (String × Nat)) :
    Quiet queues (reserve counts queues).2 :=
  reserve_relates quiet_refl Quiet.trans (fun _ _ _ => quiet_setLane rfl)
    (fun _ _ _ => quiet_setLane rfl) (fun _ _ => quiet_setLane rfl) queues counts

theorem job?_setJob_eq (stored : queues.job? key = some old) (same : new.queue = old.queue) :
    (queues.setJob key new).job? = Function.update queues.job? key (some new) := by
  funext other
  rw [Function.update_apply]
  exact job?_setJob stored (same.trans ((job?_eq_some_iff _ _ _).1 stored).2) other

/-- The jobs go on when one is replaced by what it goes on as. -/
theorem jobs_of_update (stored : queues.job? key = some old) (continues : old.Continues new)
    (jobs : after.job? = Function.update queues.job? key (some new)) (other : JobKey)
    (found : Job) (isFound : after.job? other = some found) :
    ∃ before, queues.job? other = some before ∧ before.Continues found := by
  rw [jobs, Function.update_apply] at isFound
  split at isFound
  · next same =>
      cases isFound
      exact ⟨old, same ▸ stored, continues⟩
  · exact ⟨found, isFound, .refl found⟩

/-- A job is replaced by one that is finished only if the job is. -/
theorem carries_setJob (stored : queues.job? key = some old) (continues : old.Continues new)
    (isOpen : new.state.isFinished = true → old.state.isFinished = true) :
    Carries queues (queues.setJob key new) where
  jobs := jobs_of_update stored continues (job?_setJob_eq stored continues.queue)
  reports queue := ⟨[], reports_nothing rfl⟩
  finishes := by
    intro other found isFound finished
    rw [job?_setJob_eq stored continues.queue, Function.update_apply] at isFound
    split at isFound
    · next same =>
        cases isFound
        exact .inl ⟨old, same ▸ stored, isOpen finished⟩
    · exact .inl ⟨found, isFound, finished⟩
  running := rfl
  settings := rfl
  serial := rfl

/-- A job finishes, its place is freed, and it is announced. -/
theorem carries_finish {event : QueueEvent} (stored : queues.job? key = some old)
    (continues : old.Continues new) (unfinished : old.state.isFinished = false)
    (names : event.jobId = key.id) (announces : event.Announces new) :
    Carries queues (((queues.setJob key new).release key.queue 1).publish key.queue event) := by
  have jobs : (((queues.setJob key new).release key.queue 1).publish key.queue event).job? =
      Function.update queues.job? key (some new) := job?_setJob_eq stored continues.queue
  have lanes : ∀ queue,
      ((((queues.setJob key new).release key.queue 1).publish key.queue event).lane queue).events =
        (queues.lane queue).events ++ if queue = key.queue then [event] else [] := by
    intro queue
    have freed : Quiet (queues.setJob key new) ((queues.setJob key new).release key.queue 1) :=
      quiet_setLane rfl
    rw [events_publish, freed.events, lane_setJob]
  have sameKey : (⟨key.queue, event.jobId⟩ : JobKey) = key := by rw [names]
  constructor
  case jobs => exact jobs_of_update stored continues jobs
  case reports =>
    intro queue
    refine ⟨_, lanes queue, ?_, ?_, ?_⟩
    · split
      · exact List.nodup_singleton _
      · exact List.nodup_nil
    · intro told member
      split at member
      · next same =>
          rw [List.mem_singleton.1 member, same, sameKey]
          exact ⟨old, stored, unfinished⟩
      · exact absurd member List.not_mem_nil
    · intro told member found isFound
      split at member
      · next same =>
          rw [List.mem_singleton.1 member, same, sameKey, jobs, Function.update_self] at isFound
          cases isFound
          exact List.mem_singleton.1 member ▸ announces
      · exact absurd member List.not_mem_nil
  case finishes =>
    intro other found isFound finished
    rw [jobs, Function.update_apply] at isFound
    split at isFound
    · next same =>
        refine .inr ⟨event, ?_, same ▸ names⟩
        rw [lanes, if_pos (congrArg JobKey.queue same)]
        exact List.mem_append_right _ (List.mem_singleton_self event)
    · exact .inl ⟨found, isFound, finished⟩
  all_goals rfl

/-! ### The end of an attempt -/

theorem job?_noteCompleted (stored : queues.job? key = some job) (value : Json) :
    (queues.noteCompleted key job value).job? =
      Function.update queues.job? key (some (queues.completedJob job value)) := by
  have set : (queues.setJob key (queues.completedJob job value)).job? = _ :=
    job?_setJob_eq stored rfl
  unfold noteCompleted
  split <;> exact set

theorem job?_noteFailed (stored : queues.job? key = some job) (reason : String) :
    (queues.noteFailed key job reason).job? =
      Function.update queues.job? key (some (queues.failedJob job reason)) :=
  job?_setJob_eq stored rfl

theorem job?_childCompleted (stored : queues.job? key = some job) :
    (queues.childCompleted key).job? =
      Function.update queues.job? key (some (afterChild job)) := by
  have set : (queues.setJob key (afterChild job)).job? = _ := job?_setJob_eq stored rfl
  simp only [childCompleted, stored]
  split <;> exact set

theorem job?_retryLater (stored : queues.job? key = some job) (attempt : Nat) :
    (queues.retryLater key attempt).job? =
      Function.update queues.job? key (some { job with state := .delayed }) := by
  simp only [retryLater, stored]
  exact job?_setJob_eq stored rfl

theorem job?_retryLater_of_missing (missing : queues.job? key = none) (attempt : Nat) :
    (queues.retryLater key attempt).job? = queues.job? := by
  simp only [retryLater, missing]
  rfl

theorem job?_timerFires {timer : RetryTimer} (stored : queues.job? timer.key = some job)
    (delayed : job.state = .delayed) : (queues.timerFires timer).job? =
      Function.update queues.job? timer.key (some { job with state := .waiting }) := by
  have same : ({ queues with timers := queues.timers.erase timer } : Queues).job? timer.key =
      some job := stored
  dsimp only [timerFires]
  simp only [same, delayed, if_true]
  exact job?_setJob_eq stored rfl

/-- A timer wakes its job, or there is no job to wake. -/
theorem job?_timerFires_cases (queues : Queues) (timer : RetryTimer) :
    (queues.timerFires timer).job? = queues.job? ∨
      ∃ job, queues.job? timer.key = some job ∧ job.state = .delayed ∧
        (queues.timerFires timer).job? =
          Function.update queues.job? timer.key (some { job with state := .waiting }) := by
  have fired : ({ queues with timers := queues.timers.erase timer } : Queues).job? = queues.job? :=
    rfl
  cases stored : queues.job? timer.key with
  | none =>
      left
      dsimp only [timerFires]
      simp only [fired, stored]
  | some job =>
      by_cases delayed : job.state = .delayed
      · exact .inr ⟨job, rfl, delayed, job?_timerFires stored delayed⟩
      · left
        dsimp only [timerFires]
        simp only [fired, stored, delayed, if_false]

theorem continues_afterChild (job : Job) : job.Continues (afterChild job) := by
  constructor
  case ended =>
    intro finished
    have notLast : ¬ awaitsLastChild job := by
      intro last
      rw [last.2] at finished
      cases finished
    exact ⟨if_neg notLast, rfl, rfl⟩
  all_goals rfl

theorem carries_childCompleted (queues : Queues) (parent : JobKey) :
    Carries queues (queues.childCompleted parent) := by
  unfold childCompleted
  split
  · next job stored =>
      have isOpen : (afterChild job).state.isFinished = true → job.state.isFinished = true := by
        simp only [afterChild]
        split
        · exact fun finished => absurd finished (by decide)
        · exact id
      have told : Carries queues (queues.setJob parent (afterChild job)) :=
        carries_setJob stored (continues_afterChild job) isOpen
      dsimp only
      split
      · exact told.trans (quiet_enqueue _ _).carries
      · exact told
  · exact (quiet_refl queues).carries

theorem carries_noteCompleted (stored : queues.job? key = some job)
    (unfinished : job.state.isFinished = false) (value : Json) :
    Carries queues (queues.noteCompleted key job value) := by
  have continues : job.Continues (queues.completedJob job value) := by
    constructor
    case ended => exact fun finished => absurd (unfinished.symm.trans finished) (by decide)
    all_goals rfl
  unfold noteCompleted
  simp only [unfinished, Bool.false_eq_true, if_false]
  exact carries_finish stored continues unfinished rfl rfl

theorem carries_complete (unfinished : ∀ job, queues.job? key = some job →
    job.state.isFinished = false) (value : Json) : Carries queues (queues.complete key value) := by
  unfold complete
  split
  · next job stored =>
      have noted := carries_noteCompleted stored (unfinished job stored) value
      split
      · exact noted.trans (carries_childCompleted _ _)
      · exact noted
  · exact (quiet_refl queues).carries

theorem carries_retryLater (unfinished : ∀ job, queues.job? key = some job →
    job.state.isFinished = false) (attempt : Nat) :
    Carries queues (queues.retryLater key attempt) := by
  have arm : ∀ (queues : Queues) (timers : List RetryTimer),
      Carries queues { queues.touch key.queue with timers } := by
    intro queues timers
    have touched : Quiet queues (queues.touch key.queue) := quiet_setLane rfl
    exact touched.carries.trans (Quiet.carries ⟨rfl, fun _ => rfl, rfl, rfl, rfl⟩)
  unfold retryLater
  split
  · next job stored =>
      have continues : job.Continues { job with state := .delayed } := by
        constructor
        case ended =>
          exact fun finished =>
            absurd ((unfinished job stored).symm.trans finished) (by decide)
        all_goals rfl
      exact (carries_setJob stored continues fun finished => absurd finished Bool.false_ne_true).trans
        (arm _ _)
  · exact arm _ _

theorem carries_noteFailed (stored : queues.job? key = some job)
    (unfinished : job.state.isFinished = false) (reason : String) :
    Carries queues (queues.noteFailed key job reason) := by
  have continues : job.Continues (queues.failedJob job reason) := by
    constructor
    case ended => exact fun finished => absurd (unfinished.symm.trans finished) (by decide)
    all_goals rfl
  exact carries_finish stored continues unfinished rfl ⟨rfl, rfl⟩

theorem carries_failUpward (inherited : String) (height : Nat) (key : JobKey) (reason : String) :
    Carries queues (failUpward inherited height queues key reason) :=
  failUpward_relates (fun queues => (quiet_refl queues).carries) Carries.trans
    (fun reason stored unfinished => carries_noteFailed stored unfinished reason)
    inherited height queues key reason

/-- A call returns: it is no longer running, and the jobs go on. -/
theorem carries_callReturns (steady : Steady queues none []) {call : Call}
    (isRunning : call ∈ queues.running) (outcome : Except JobError Json) :
    Carries { queues with running := queues.running.erase call }
      (queues.callReturns call outcome) := by
  have unfinished : ∀ job,
      ({ queues with running := queues.running.erase call } : Queues).job? call.key = some job →
      job.state.isFinished = false := by
    intro job stored
    rw [(steady.endCall isRunning stored).1]
    rfl
  unfold callReturns
  dsimp only
  split
  · exact carries_complete unfinished _
  · split
    · exact carries_retryLater unfinished _
    · exact carries_failUpward _ _ _ _
  · exact carries_failUpward _ _ _ _

theorem carries_timerFires (queues : Queues) (timer : RetryTimer) :
    Carries queues (queues.timerFires timer) := by
  have fired : Quiet queues { queues with timers := queues.timers.erase timer } :=
    ⟨rfl, fun _ => rfl, rfl, rfl, rfl⟩
  apply fired.carries.trans
  unfold timerFires
  dsimp only
  split
  · next job stored =>
      split
      · next delayed =>
          have continues : job.Continues { job with state := .waiting } := by
            constructor
            case ended =>
              intro finished
              rw [delayed] at finished
              cases finished
            all_goals rfl
          exact (carries_setJob stored continues fun finished => absurd finished Bool.false_ne_true).trans
            (quiet_enqueue _ _).carries
      · exact (quiet_refl _).carries
  · exact (quiet_refl _).carries

/-! ### Eviction -/

theorem Evicts.trans (first : Evicts queues between) (second : Evicts between after) :
    Evicts queues after where
  jobs key job stored := first.jobs key job (second.jobs key job stored)
  events queue := (second.events queue).trans (first.events queue)
  running := second.running.trans first.running
  settings := second.settings.trans first.settings
  serial := second.serial.trans first.serial

theorem Quiet.evicts (quiet : Quiet queues after) : Evicts queues after where
  jobs _ _ stored := quiet.jobs ▸ stored
  events := quiet.events
  running := quiet.running
  settings := quiet.settings
  serial := quiet.serial

theorem Evicts.carries (evicts : Evicts queues after) : Carries queues after where
  jobs key new stored := ⟨new, evicts.jobs key new stored, .refl new⟩
  reports queue := ⟨[], reports_nothing (evicts.events queue)⟩
  finishes key new stored finished := .inl ⟨new, evicts.jobs key new stored, finished⟩
  running := evicts.running
  settings := evicts.settings
  serial := evicts.serial

theorem evicts_dropJob (stored : queues.job? key = some job) :
    Evicts queues (queues.dropJob key job) := by
  have dropped : Evicts queues { queues with jobs := queues.jobs.erase key.id } := by
    constructor
    case jobs =>
      intro other new found
      rw [job?_erase stored] at found
      split at found
      · cases found
      · exact found
    case events => exact fun _ => rfl
    all_goals rfl
  unfold dropJob
  split
  · exact dropped
  · exact dropped.trans (Quiet.evicts (quiet_setLane rfl))

theorem evicts_removeAll (queues : Queues) (keys : List JobKey) :
    Evicts queues (queues.removeAll keys).1 :=
  removeAll_relates (fun queues => (quiet_refl queues).evicts) Evicts.trans evicts_dropJob
    queues keys

end Operations

/-! ## All steps -/

/-- An attempt of a waiting job is started. -/
structure Starts (queues after : Queues) (key : JobKey) (job : Job) : Prop where
  stored : queues.job? key = some job
  waiting : job.state = .waiting
  jobs : after.job? = Function.update queues.job? key
    (some { job with state := .active, attemptsMade := job.attemptsMade + 1 })
  events : ∀ queue, (after.lane queue).events = (queues.lane queue).events
  running : after.running = queues.running ++ [queues.callOf key job]
  settings : after.settings = queues.settings
  serial : after.nextSerial = queues.nextSerial

/-- The jobs of a flow are stored beside the others. -/
structure Plants (queues after : Queues) (planting : Planting) : Prop where
  grown : planting.Grown none queues.nextSerial
  jobs : ∀ key job, after.job? key = some job ↔
    planting.Holds key job ∨ queues.job? key = some job
  events : ∀ queue, (after.lane queue).events = (queues.lane queue).events
  running : after.running = queues.running
  settings : after.settings = queues.settings
  serial : after.nextSerial = planting.next

/-- What a step does to the stored jobs. -/
inductive Effect (queues after : Queues) : Act → Prop where
  | carries {act : Act} (carries : Carries queues after) : Effect queues after act
  | returns {call : Call} {outcome : Except JobError Json} (isRunning : call ∈ queues.running)
      (carries : Carries { queues with running := queues.running.erase call } after) :
      Effect queues after (.finish call outcome)
  | starts {queue : String} {key : JobKey} {job : Job} (starts : Starts queues after key job) :
      Effect queues after (.advance queue)
  | plants {flow : Flow} {counts : List (String × Nat)}
      (plants : Plants queues after (Planting.ofFlow none queues.nextSerial flow)) :
      Effect queues after (.add flow counts)

theorem plants_plant {queues between : Queues} (steady : Steady queues none [])
    (quiet : Quiet queues between) (flow : Flow) :
    Plants queues (between.plant (Planting.ofFlow none queues.nextSerial flow))
      (Planting.ofFlow none queues.nextSerial flow) := by
  have grown := Planting.grown_ofFlow none queues.nextSerial flow
  generalize Planting.ofFlow none queues.nextSerial flow = planting at grown ⊢
  have ready := quiet_enqueueAll { between with
    jobs := between.jobs.insertAll planting.jobs
    nextSerial := planting.next } planting.ready
  have family : Family between.view [] :=
    steady.sound.family.congr (by unfold View.lineage; rw [view_job?, quiet.jobs]; rfl) quiet.serial
  constructor
  case grown => exact grown
  case jobs =>
    intro key job
    rw [← quiet.jobs]
    apply Iff.trans (Eq.to_iff (congrArg (· key = some job) ready.jobs))
    exact Steady.job?_insertAll family (quiet.serial ▸ grown) key job
  case events => exact fun queue => (ready.events queue).trans (quiet.events queue)
  case running => exact ready.running.trans quiet.running
  case settings => exact ready.settings.trans quiet.settings
  case serial => exact ready.serial

/-- A worker that lets go of a job changes nothing that a call is made of. -/
theorem callOf_letGo (queues : Queues) (queue : String) (key : JobKey) (job : Job) :
    (queues.setLane queue { queues.lane queue with worker := .idle }).callOf key job =
      queues.callOf key job := by
  have limit : (queues.setLane queue { queues.lane queue with worker := .idle }).attemptLimit job =
      queues.attemptLimit job := by
    simp only [attemptLimit, lane_setLane]
    split
    · next same => rw [same]
    · rfl
  simp only [callOf, limit]
  rfl

/-- The worker of a queue starts the job that it held, or finds nothing to start. -/
theorem quiet_or_starts (queues : Queues) (queue : String) (key : JobKey) :
    Quiet queues ((queues.setLane queue { queues.lane queue with worker := .idle }).startJob key) ∨
      ∃ job, Starts queues
        ((queues.setLane queue { queues.lane queue with worker := .idle }).startJob key) key job := by
  have call := callOf_letGo queues queue key
  have quiet : Quiet queues (queues.setLane queue { queues.lane queue with worker := .idle }) :=
    quiet_setLane rfl
  generalize queues.setLane queue { queues.lane queue with worker := .idle } = freed at *
  unfold startJob
  split
  · next job stored =>
      split
      · next waiting =>
          refine .inr ⟨job, ?_⟩
          constructor
          case stored => exact quiet.jobs ▸ stored
          case waiting => exact waiting
          case jobs =>
            rw [← quiet.jobs]
            exact job?_setJob_eq stored rfl
          case events => exact quiet.events
          case running => rw [← quiet.running, ← call job]
          case settings => exact quiet.settings
          case serial => exact quiet.serial
      · exact .inl quiet
  · exact .inl quiet

/-- An accepted flow is stored as a whole, and of a rejected one nothing is. -/
theorem addInOrder_cases {queues : Queues} (steady : Steady queues none [])
    (counts : List (String × Nat)) (flow : Flow) :
    (∃ problem after, addInOrder counts queues flow = (.error problem, after) ∧
        Quiet queues after) ∨
      ∃ after, addInOrder counts queues flow =
          (.ok ⟨jobIdOf queues.nextSerial, flow.name, flow.queueName⟩, after) ∧
        Plants queues after (Planting.ofFlow none queues.nextSerial flow) := by
  have quiet := quiet_reserve queues counts
  unfold addInOrder
  generalize reserve counts queues = result at quiet ⊢
  obtain ⟨_ | problem, between⟩ := result
  · have planted := plants_plant steady quiet flow
    rw [← quiet.serial] at planted
    exact .inr ⟨_, by rw [← quiet.serial], quiet.serial ▸ planted⟩
  · exact .inl ⟨problem, between, rfl, quiet⟩

theorem quiet_or_plants {queues : Queues} (steady : Steady queues none [])
    (counts : List (String × Nat)) (flow : Flow) :
    Quiet queues (addInOrder counts queues flow).2 ∨
      Plants queues (addInOrder counts queues flow).2
        (Planting.ofFlow none queues.nextSerial flow) := by
  rcases addInOrder_cases steady counts flow with ⟨problem, after, same, quiet⟩ | ⟨after, same, plants⟩
  · exact .inl (same ▸ quiet)
  · exact .inr (same ▸ plants)

/-- Every step lets the stored jobs go on, starts an attempt or stores a flow. -/
theorem Step.effect {queues after : Queues} {act : Act} (steady : Steady queues none [])
    (step : Step queues act after) : Effect queues after act := by
  cases step with
  | tick later => exact .carries (quiet_tick queues _).carries
  | touch queue => exact .carries (Quiet.carries (quiet_setLane rfl))
  | @add flow counts claimed =>
      rcases quiet_or_plants steady counts flow with quiet | plants
      · exact .carries quiet.carries
      · exact .plants plants
  | startWorker queue =>
      apply Effect.carries
      unfold Queues.startWorker
      split <;> exact Quiet.carries (quiet_setLane rfl)
  | @advance queue _ moved =>
      rcases advanceWorker?_some moved with ⟨next, rfl, moves⟩ | ⟨jobId, -, -, rfl⟩
      · exact .carries (Quiet.carries (quiet_setLane moves.events))
      · rcases quiet_or_starts queues queue ⟨queue, jobId⟩ with quiet | ⟨job, starts⟩
        · exact .carries quiet.carries
        · exact .starts starts
  | finish outcome isRunning => exact .returns isRunning (carries_callReturns steady isRunning _)
  | fire pending due => exact .carries (carries_timerFires queues _)
  | remove key => exact .carries (evicts_removeAll queues [key]).carries
  | prune found => exact .carries (evicts_removeAll queues _).carries

end Queues

end Relay
