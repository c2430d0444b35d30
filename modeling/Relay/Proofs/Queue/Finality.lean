import Relay.Proofs.Queue.History

/-!
# The end of a job is final and announced once

Nothing in the code asks whether a job has already finished before it completes or delays
it.  That no finished job is touched again follows from the invariant of the scheduler: a
job with a running call is active, so it cannot have been failed from below meanwhile.
-/

namespace Relay

/-- A job ends in one way, so there is one thing to announce of it. -/
theorem QueueEvent.Announces.unique {first second : QueueEvent} {job : Job}
    (one : first.Announces job) (other : second.Announces job)
    (same : first.jobId = second.jobId) : first = second := by
  cases first with
  | completed jobId =>
      cases second with
      | completed again => exact congrArg _ same
      | failed again reason => cases (show job.state = .completed from one).symm.trans other.1
  | failed jobId reason =>
      cases second with
      | completed again => cases one.1.symm.trans (show job.state = .completed from other)
      | failed again message =>
          cases one.2.symm.trans other.2
          cases (show jobId = again from same)
          rfl

namespace Queues

variable {queues after later : Queues} {act : Act} {key : JobKey} {queue : String}
  {more : List QueueEvent} {settings : Dict QueueSettings}

/-! ## Jobs that are done -/

/-- The key was given away, and if its job is still stored, the job is finished and has no
running call. -/
structure Retired (queues : Queues) (key : JobKey) : Prop where
  born : queues.view.Born key
  finished : ∀ job, queues.job? key = some job → job.state.isFinished = true
  uncalled : ∀ call ∈ queues.running, call.key ≠ key

theorem Steady.retired (steady : Steady queues none []) {job : Job}
    (stored : queues.job? key = some job) (finished : job.state.isFinished = true) :
    Retired queues key where
  born := steady.sound.born stored
  finished other isStored := Option.some.inj (stored.symm.trans isStored) ▸ finished
  uncalled call isRunning here := by
    rw [(steady.endCall isRunning (here ▸ stored)).1] at finished
    cases finished

theorem Retired.step (retired : Retired queues key) (effect : Effect queues after act) :
    Retired after key where
  born := effect.born retired.born
  finished job stored := by
    obtain ⟨old, before, endures⟩ := effect.origin_of_born retired.born stored
    have finished := retired.finished old before
    rw [(endures.ended finished).1]
    exact finished
  uncalled := by
    intro call isRunning
    cases effect with
    | carries carries => exact retired.uncalled call (carries.running ▸ isRunning)
    | returns returned carries =>
        rw [carries.running] at isRunning
        exact retired.uncalled call (List.mem_of_mem_erase isRunning)
    | @starts queue started job starts =>
        rw [starts.running] at isRunning
        rcases List.mem_append.1 isRunning with before | isNew
        · exact retired.uncalled call before
        · rw [List.mem_singleton.1 isNew]
          -- Only a waiting job is started, and a stored job under this key is finished.
          rintro rfl
          have finished := retired.finished job starts.stored
          rw [starts.waiting] at finished
          cases finished
    | plants plants => exact retired.uncalled call (plants.running ▸ isRunning)

theorem Leads.retired (leads : queues.Leads later) (reached : Reachable settings queues)
    (retired : Retired queues key) : Retired later key :=
  leads.keeps (Retired · key) reached retired fun _ _ _ _ effect retired => retired.step effect

/-! ## Announcements -/

/-- The key was given away, its job is gone, and nothing was announced of it. -/
structure Forgotten (queues : Queues) (key : JobKey) : Prop where
  born : queues.view.Born key
  gone : queues.job? key = none
  silent : ∀ event ∈ (queues.lane key.queue).events, event.jobId ≠ key.id

theorem Forgotten.step (forgotten : Forgotten queues key) (effect : Effect queues after act) :
    Forgotten after key where
  born := effect.born forgotten.born
  gone := by
    rw [Option.eq_none_iff_forall_ne_some]
    intro job stored
    obtain ⟨old, before, -⟩ := effect.origin_of_born forgotten.born stored
    cases forgotten.gone.symm.trans before
  silent := by
    intro event member here
    obtain ⟨more, reports⟩ := effect.reports key.queue
    rw [reports.events] at member
    rcases List.mem_append.1 member with before | isNew
    · exact forgotten.silent event before here
    · obtain ⟨job, stored, -⟩ := reports.unfinished event isNew
      rw [here, forgotten.gone] at stored
      cases stored

/-- Nothing was announced of a job that is not finished. -/
theorem Announced.silent (announced : Announced queues) {job : Job}
    (stored : queues.job? key = some job) (unfinished : job.state.isFinished = false) :
    ∀ event ∈ (queues.lane key.queue).events, event.jobId ≠ key.id := by
  intro event member here
  have finished := (announced.told key.queue event member job (here ▸ stored)).finished
  rw [unfinished] at finished
  cases finished

/-- Every queue announces a job at most once. -/
def AnnouncedOnce (queues : Queues) : Prop :=
  ∀ queue, ((queues.lane queue).events.map QueueEvent.jobId).Nodup

theorem AnnouncedOnce.step (once : AnnouncedOnce queues) (announced : Announced queues)
    (effect : Effect queues after act) : AnnouncedOnce after := by
  intro queue
  obtain ⟨more, reports⟩ := effect.reports queue
  rw [reports.events, List.map_append]
  apply List.Nodup.append (once queue) reports.once
  intro jobId inEvents inMore
  obtain ⟨told, member, rfl⟩ := List.mem_map.1 inEvents
  obtain ⟨event, isNew, same⟩ := List.mem_map.1 inMore
  obtain ⟨job, stored, unfinished⟩ := reports.unfinished event isNew
  exact announced.silent stored unfinished told member same.symm

theorem Reachable.announcedOnce (reached : Reachable settings queues) : AnnouncedOnce queues := by
  induction reached with
  | start => exact fun _ => List.nodup_nil
  | step reached step ih => exact ih.step reached.announced (step.effect reached.steady)

/-- A step ends a stored job in the way that an event announces. -/
def Ends (queues after : Queues) (queue : String) (event : QueueEvent) : Prop :=
  ∃ old new, queues.job? ⟨queue, event.jobId⟩ = some old ∧ old.state.isFinished = false ∧
    after.job? ⟨queue, event.jobId⟩ = some new ∧ event.Announces new

/-- What a step announces is stored after the step. -/
theorem Reports.stored (reports : Reports queues after queue more) (course : Course queues after)
    {event : QueueEvent} (member : event ∈ more) :
    ∃ new, after.job? ⟨queue, event.jobId⟩ = some new := by
  rcases course.stored_or_evicts with stored | evicts
  · obtain ⟨old, before, -⟩ := reports.unfinished event member
    exact stored _ old before
  · have nothing : more = [] := by simpa [reports.events] using evicts.events queue
    rw [nothing] at member
    cases member

/-- A step announces exactly what it ends. -/
theorem Step.announces (step : Step queues act after) (reached : Reachable settings queues)
    (reports : Reports queues after queue more) (event : QueueEvent) :
    event ∈ more ↔ Ends queues after queue event := by
  constructor
  · intro member
    obtain ⟨old, before, unfinished⟩ := reports.unfinished event member
    obtain ⟨new, stored⟩ := reports.stored (step.course reached.steady) member
    exact ⟨old, new, before, unfinished, stored, reports.announces event member new stored⟩
  · rintro ⟨old, new, before, unfinished, stored, announces⟩
    -- Something is announced of a finished job, and of an unfinished one nothing was.
    have announced := (reached.step step).announced
    obtain ⟨told, member, same⟩ := announced.complete _ new stored announces.finished
    have isNew := member
    rw [reports.events] at isNew
    have inMore := (List.mem_append.1 isNew).resolve_left fun earlier =>
      reached.announced.silent before unfinished told earlier same
    have toldOf : told.Announces new := announced.told queue told member new (same ▸ stored)
    rwa [← toldOf.unique announces same]

/-! ## The end of a job -/

/-- What ends is final and announced once, in a state and in all later ones. -/
structure Final (queues : Queues) : Prop where
  /-- A finished job stays as it ended, as long as it is stored. -/
  stays : ∀ key job, queues.job? key = some job → job.state.isFinished = true →
    ∀ later, queues.Leads later → ∀ new, later.job? key = some new →
      new.state = job.state ∧ new.returnValue = job.returnValue ∧
        new.failedReason = job.failedReason
  /-- No call of a finished job is ever running, stored or not. -/
  uncalled : ∀ key job, queues.job? key = some job → job.state.isFinished = true →
    ∀ later, queues.Leads later → ∀ call ∈ later.running, call.key ≠ key
  /-- A job is announced at most once. -/
  once : ∀ queue, ((queues.lane queue).events.map QueueEvent.jobId).Nodup
  /-- A stored job was announced exactly if it is finished. -/
  announced : ∀ key job, queues.job? key = some job → (job.state.isFinished = true ↔
    ∃ event ∈ (queues.lane key.queue).events, event.jobId = key.id)
  /-- What was announced of a stored job is how it ended. -/
  told : ∀ key job, queues.job? key = some job →
    ∀ event ∈ (queues.lane key.queue).events, event.jobId = key.id → event.Announces job
  /-- A step announces exactly the jobs that it ends, as they ended. -/
  announces : ∀ act after, Step queues act after → ∀ queue, ∃ more,
    (after.lane queue).events = (queues.lane queue).events ++ more ∧
      ∀ event, event ∈ more ↔ Ends queues after queue event
  /-- A job that is evicted before it has finished is never announced. -/
  evicted : ∀ key job, queues.job? key = some job → job.state.isFinished = false →
    ∀ act after, Step queues act after → after.job? key = none →
      ∀ later, after.Leads later →
        ∀ event ∈ (later.lane key.queue).events, event.jobId ≠ key.id

/-- The end of a job is final and announced once, whatever happens in whatever order. -/
theorem finished_is_final (reached : Reachable settings queues) : Final queues := by
  have steady := reached.steady
  have announced := reached.announced
  constructor
  case stays =>
    intro key job stored finished later leads new storedLater
    exact (leads.endures reached stored storedLater).ended finished
  case uncalled =>
    intro key job stored finished later leads
    exact (leads.retired reached (steady.retired stored finished)).uncalled
  case once => exact reached.announcedOnce
  case announced =>
    intro key job stored
    constructor
    · exact announced.complete key job stored
    · rintro ⟨event, member, here⟩
      exact (announced.told key.queue event member job (here ▸ stored)).finished
  case told =>
    intro key job stored event member here
    exact announced.told key.queue event member job (here ▸ stored)
  case announces =>
    intro act after step queue
    obtain ⟨more, reports⟩ := (step.effect steady).reports queue
    exact ⟨more, reports.events, step.announces reached reports⟩
  case evicted =>
    intro key job stored unfinished act after step gone later leads
    have evicts := (step.course steady).stored_or_evicts.resolve_left fun kept => by
      obtain ⟨new, isStored⟩ := kept key job stored
      cases gone.symm.trans isStored
    have forgotten : Forgotten after key :=
      { born := (step.effect steady).born (steady.sound.born stored)
        gone
        silent := by
          rw [evicts.events]
          exact announced.silent stored unfinished }
    have forgottenLater : Forgotten later key :=
      leads.keeps (Forgotten · key) (reached.step step) forgotten fun _ _ _ _ effect forgotten =>
        forgotten.step effect
    exact forgottenLater.silent

/-- Two jobs, one above the other, that fail together. -/
def Sample.bound : Flow :=
  ⟨"above", "default", .null, .standard,
    [⟨"below", "default", .null, { JobOptions.standard with failParentOnFailure := true }, []⟩]⟩

/-- The call for the lower one of the two jobs. -/
def Sample.callBelow : Call :=
  { key := ⟨"default", jobIdOf 1⟩, name := "below", data := .null, attempt := 1, maxAttempts := 3
    children := .empty, startedAt := 0 }

/-- The lower one of the two jobs fails for good. -/
def Sample.broken : List Act :=
  [.add Sample.bound (countsOf Sample.bound), .startWorker "default", .advance "default",
    .advance "default", .advance "default",
    .finish Sample.callBelow (.error (.unrecoverable "broken"))]

/-- What is announced if the lower one of the two jobs fails for good. -/
def Sample.brokenEvents : List QueueEvent :=
  [.failed (jobIdOf 1) "unrecoverable: broken",
    .failed (jobIdOf 0) "step 'below' failed: unrecoverable: broken"]

theorem finished_is_final_broken : ∃ queues, follow? Sample.broken (.start .empty) = some queues ∧
    (queues.lane "default").events = Sample.brokenEvents ∧ Final queues := by
  have events : (follow? Sample.broken (.start .empty)).map
      (fun queues => (queues.lane "default").events) = some Sample.brokenEvents := by
    decide +kernel
  obtain ⟨queues, followed, announced⟩ := Option.map_eq_some_iff.1 events
  exact ⟨queues, followed, announced,
    finished_is_final ((leads_of_follow? followed).reachable .start)⟩

end Queues

end Relay
