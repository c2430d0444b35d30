import Relay.Proofs.Queue.Capacity
import Relay.Proofs.Queue.Jobs

/-!
# Running calls and announced jobs

Two more invariants of the queues.  A running call is that of the present attempt of
its job, with the data that the job was submitted with.  And the events of a queue are
those of its finished jobs: what an event says is true of its job as long as the job is
stored, and no finished job lacks its event.
-/

namespace Relay

/-- A call is that of the present attempt of a job. -/
structure Call.Serves (call : Call) (job : Job) (limit : Nat) : Prop where
  name : call.name = job.name
  data : call.data = job.data
  attempt : call.attempt = job.attemptsMade
  limit : call.maxAttempts = limit

namespace Queues

/-- The attempt after which a job is not tried again, by the limits that were given. -/
def allowance (queues : Queues) (job : Job) : Nat :=
  job.options.attempts.getD (queues.settingsOf job.queue).maxAttempts

/-- Running calls are those of the present attempts of their jobs. -/
def Attended (queues : Queues) : Prop :=
  ∀ call ∈ queues.running, ∀ job, queues.job? call.key = some job →
    call.Serves job (queues.allowance job)

/-- The events of a queue are those of its finished jobs. -/
structure Announced (queues : Queues) : Prop where
  born : ∀ queue, ∀ event ∈ (queues.lane queue).events, queues.view.Born ⟨queue, event.jobId⟩
  told : ∀ queue, ∀ event ∈ (queues.lane queue).events, ∀ job,
    queues.job? ⟨queue, event.jobId⟩ = some job → event.Announces job
  complete : ∀ key job, queues.job? key = some job → job.state.isFinished = true →
    ∃ event ∈ (queues.lane key.queue).events, event.jobId = key.id

variable {queues after : Queues} {act : Act}

theorem allowance_continues {old new : Job} (continues : old.Continues new)
    (settings : after.settings = queues.settings) : after.allowance new = queues.allowance old := by
  unfold allowance settingsOf
  rw [continues.options, continues.queue, settings]

theorem serves_continues {call : Call} {old new : Job}
    (serves : call.Serves old (queues.allowance old)) (continues : old.Continues new)
    (settings : after.settings = queues.settings) : call.Serves new (after.allowance new) where
  name := serves.name.trans continues.name.symm
  data := serves.data.trans continues.data.symm
  attempt := serves.attempt.trans continues.attemptsMade.symm
  limit := serves.limit.trans (allowance_continues continues settings).symm

/-- A planted job was not there before. -/
theorem Plants.unborn {planting : Planting} (plants : Plants queues after planting) {key : JobKey}
    {job : Job} (holds : planting.Holds key job) : ¬ queues.view.Born key := by
  rintro ⟨number, below, same⟩
  obtain ⟨later, above, -, equal⟩ := plants.grown.id_eq holds
  have := jobIdOf_injective (same.symm.trans equal)
  have below : number < queues.nextSerial := below
  omega

theorem Steady.born_of_call (steady : Steady queues none []) {call : Call}
    (isRunning : call ∈ queues.running) : queues.view.Born call.key := by
  have pending := (view_endCall isRunning).1
  exact steady.born_of_agenda (by omega)

/-- A waiting job has no running call. -/
theorem Steady.not_running (steady : Steady queues none []) {call : Call} {job : Job}
    (stored : queues.job? call.key = some job) (waiting : job.state ≠ .active) :
    call ∉ queues.running :=
  fun isRunning => waiting (steady.endCall isRunning stored).1

theorem Attended.step (attended : Attended queues) (steady : Steady queues none [])
    (counted : Counted queues noPlaces) (step : Step queues act after) : Attended after := by
  intro call isRunning job stored
  cases step.effect steady with
  | carries carries =>
      obtain ⟨old, before, continues⟩ := carries.jobs _ job stored
      rw [carries.running] at isRunning
      exact serves_continues (attended call isRunning old before) continues carries.settings
  | returns returned carries =>
      obtain ⟨old, before, continues⟩ := carries.jobs _ job stored
      rw [carries.running] at isRunning
      have serves := attended call (List.mem_of_mem_erase isRunning) old before
      exact serves_continues serves continues carries.settings
  | @starts queue key waitingJob starts =>
      rw [starts.running] at isRunning
      rw [starts.jobs, Function.update_apply] at stored
      have limit : queues.attemptLimit waitingJob = after.allowance
          { waitingJob with state := .active, attemptsMade := waitingJob.attemptsMade + 1 } := by
        unfold attemptLimit allowance
        rw [counted.settings, settingsOf, settingsOf, starts.settings]
      rcases List.mem_append.1 isRunning with earlier | isNew
      · have different : call.key ≠ key := by
          intro same
          have waiting : queues.job? call.key = some waitingJob := same ▸ starts.stored
          exact steady.not_running waiting (by rw [starts.waiting]; decide) earlier
        rw [if_neg different] at stored
        have serves := attended call earlier job stored
        exact serves_continues serves (.refl job) starts.settings
      · rw [List.mem_singleton.1 isNew] at stored ⊢
        rw [if_pos (show (queues.callOf key waitingJob).key = key from rfl)] at stored
        cases stored
        exact ⟨rfl, rfl, rfl, limit⟩
  | plants plants =>
      rw [plants.running] at isRunning
      rcases (plants.jobs _ job).1 stored with holds | before
      · exact absurd (steady.born_of_call isRunning) (plants.unborn holds)
      · exact serves_continues (attended call isRunning job before) (.refl job) plants.settings

theorem Carries.announced (announced : Announced queues)
    (born : ∀ key job, queues.job? key = some job → queues.view.Born key)
    (carries : Carries queues after) : Announced after where
  born := by
    intro queue event member
    obtain ⟨more, reports⟩ := carries.reports queue
    rw [reports.events] at member
    unfold View.Born
    rw [view_serial, carries.serial]
    rcases List.mem_append.1 member with before | isNew
    · exact announced.born queue event before
    · obtain ⟨job, stored, -⟩ := reports.unfinished event isNew
      exact born _ job stored
  told := by
    intro queue event member job stored
    obtain ⟨more, reports⟩ := carries.reports queue
    rw [reports.events] at member
    rcases List.mem_append.1 member with before | isNew
    · obtain ⟨old, earlier, continues⟩ := carries.jobs _ job stored
      exact (announced.told queue event before old earlier).continues continues
    · exact reports.announces event isNew job stored
  complete := by
    intro key job stored finished
    rcases carries.finishes key job stored finished with ⟨old, before, already⟩ | isNew
    · obtain ⟨event, member, same⟩ := announced.complete key old before already
      obtain ⟨more, reports⟩ := carries.reports key.queue
      refine ⟨event, ?_, same⟩
      rw [reports.events]
      exact List.mem_append_left more member
    · exact isNew

theorem Starts.announced {key : JobKey} {job : Job} (announced : Announced queues)
    (starts : Starts queues after key job) : Announced after where
  born := by
    intro queue event member
    unfold View.Born
    rw [view_serial, starts.serial]
    rw [starts.events] at member
    exact announced.born queue event member
  told := by
    intro queue event member new stored
    rw [starts.events] at member
    rw [starts.jobs, Function.update_apply] at stored
    split at stored
    · next same =>
        have finished := (announced.told queue event member job (same ▸ starts.stored)).finished
        rw [starts.waiting] at finished
        cases finished
    · exact announced.told queue event member new stored
  complete := by
    intro other new stored finished
    rw [starts.events]
    rw [starts.jobs, Function.update_apply] at stored
    split at stored
    · cases stored
      cases finished
    · exact announced.complete other new stored finished

theorem Plants.announced {planting : Planting} (announced : Announced queues)
    (plants : Plants queues after planting) : Announced after where
  born := by
    intro queue event member
    rw [plants.events] at member
    obtain ⟨number, below, same⟩ := announced.born queue event member
    have later : queues.nextSerial ≤ after.nextSerial := plants.serial ▸ plants.grown.later
    exact ⟨number, Nat.lt_of_lt_of_le below later, same⟩
  told := by
    intro queue event member job stored
    rw [plants.events] at member
    rcases (plants.jobs _ job).1 stored with holds | before
    · exact absurd (announced.born queue event member) (plants.unborn holds)
    · exact announced.told queue event member job before
  complete := by
    intro key job stored finished
    rw [plants.events]
    rcases (plants.jobs _ job).1 stored with holds | before
    · rw [(plants.grown.seedling key job holds).state] at finished
      split at finished <;> cases finished
    · exact announced.complete key job before finished

theorem Announced.step (announced : Announced queues) (steady : Steady queues none [])
    (step : Step queues act after) : Announced after := by
  have born : ∀ key job, queues.job? key = some job → queues.view.Born key :=
    fun _ _ stored => steady.sound.born stored
  cases step.effect steady with
  | carries carries => exact carries.announced announced born
  | @returns call outcome isRunning carries =>
      have ended : Announced { queues with running := queues.running.erase call } :=
        ⟨announced.born, announced.told, announced.complete⟩
      exact carries.announced ended born
  | starts starts => exact starts.announced announced
  | plants plants => exact plants.announced announced

/-! ## All states -/

theorem attended_start (settings : Dict QueueSettings) : Attended (.start settings) :=
  fun _ isRunning => absurd isRunning List.not_mem_nil

theorem announced_start (settings : Dict QueueSettings) : Announced (.start settings) where
  born _ _ member := absurd member List.not_mem_nil
  told _ _ member := absurd member List.not_mem_nil
  complete _ job stored _ := (Option.some_ne_none job stored.symm).elim

theorem Reachable.attended {settings : Dict QueueSettings} {queues : Queues}
    (reached : Reachable settings queues) : Attended queues := by
  induction reached with
  | start => exact attended_start settings
  | step reached step ih => exact ih.step reached.steady reached.counted step

theorem Reachable.announced {settings : Dict QueueSettings} {queues : Queues}
    (reached : Reachable settings queues) : Announced queues := by
  induction reached with
  | start => exact announced_start settings
  | step reached step ih => exact ih.step reached.steady step

end Queues

end Relay
