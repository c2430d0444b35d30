import Relay.Proofs.Queue.Tree

/-!
# How far a failure goes

A job that fails for good may bind the job above it, which then fails as well and may bind the
next one.  The walk up ends at a root, at a job whose failure does not bind, and at a job that
has finished already.  So what fails is a stretch of the way from the job to its root, and
everything off this stretch stays as it is.  That no flagged failure is ever left below a job
that has not failed is an invariant of its own (`FailTogether`); the walk may stop early at a
finished job only because of it.
-/

namespace Relay

/-- A call that returns an error fails its job for good: the error allows no other attempt, or
there is none left. -/
def Call.Final (call : Call) (error : JobError) : Prop :=
  ∀ message, error = .retryable message → call.maxAttempts ≤ call.attempt

theorem JobKey.Before.asymm {key other : JobKey} (before : key.Before other) : ¬ other.Before key :=
  fun again => (before.trans again).ne rfl

namespace Queues

variable {queues after : Queues} {act : Act} {key other above : JobKey} {job : Job}
  {settings : Dict QueueSettings}

/-- The failure of one job takes another along: a job that is not finished takes itself along,
and, if its failure binds its parent, what the failure of the parent takes along. -/
inductive Takes (queues : Queues) : JobKey → JobKey → Prop where
  | self {key : JobKey} {job : Job} (stored : queues.job? key = some job)
      (unfinished : job.state.isFinished = false) : Takes queues key key
  | above {key above other : JobKey} {job : Job} (stored : queues.job? key = some job)
      (unfinished : job.state.isFinished = false)
      (binding : job.options.failParentOnFailure = true) (parent : job.parent = some above)
      (further : Takes queues above other) : Takes queues key other

/-! ## The way up -/

/-- The parent of a stored job was given its identifier before it. -/
def Ascending (queues : Queues) : Prop :=
  ∀ key job above, queues.job? key = some job → job.parent = some above → above.Before key

theorem Reachable.ascending (reached : Reachable settings queues) : Ascending queues := by
  intro key job above stored parent
  obtain ⟨aboveJob, aboveStored, listed⟩ := reached.steady.sound.listed_by_parent stored parent
  exact reached.descending above aboveJob aboveStored key listed

theorem Ascending.noteFailed (ascending : queues.Ascending) (stored : queues.job? key = some job)
    (reason : String) : (queues.noteFailed key job reason).Ascending := by
  intro child found parent isFound isParent
  rw [job?_noteFailed stored, Function.update_apply] at isFound
  split at isFound
  · next same =>
      cases isFound
      exact same ▸ ascending key job parent stored isParent
  · exact ascending child found parent isFound isParent

/-- A failure reaches only jobs that are older than the one at which it starts. -/
theorem Takes.older (takes : queues.Takes key other) (ascending : queues.Ascending) :
    other = key ∨ other.Before key := by
  induction takes with
  | self => exact .inl rfl
  | above stored unfinished binding parent further ih =>
      have older := ascending _ _ _ stored parent
      rcases ih with rfl | before
      · exact .inr older
      · exact .inr (before.trans older)

theorem Takes.stored (takes : queues.Takes key other) :
    ∃ job, queues.job? other = some job ∧ job.state.isFinished = false := by
  induction takes with
  | self stored unfinished => exact ⟨_, stored, unfinished⟩
  | above _ _ _ _ _ ih => exact ih

/-- How far a failure goes is a matter of the job at which it starts and of older ones. -/
theorem Takes.congr (takes : queues.Takes key other) (ascending : queues.Ascending)
    (same : ∀ older, older = key ∨ older.Before key → after.job? older = queues.job? older) :
    after.Takes key other := by
  induction takes with
  | self stored unfinished => exact .self ((same _ (.inl rfl)).trans stored) unfinished
  | above stored unfinished binding parent further ih =>
      have older := ascending _ _ _ stored parent
      refine .above ((same _ (.inl rfl)).trans stored) unfinished binding parent (ih ?_)
      rintro oldest (rfl | before)
      · exact same _ (.inr older)
      · exact same _ (.inr (before.trans older))

/-- A finished job is not taken along, and takes nothing along. -/
theorem not_takes (ended : ∀ job, queues.job? key = some job → job.state.isFinished = true) :
    ¬ queues.Takes key other := by
  intro takes
  cases takes with
  | self stored unfinished | above stored unfinished =>
      rw [ended _ stored] at unfinished
      cases unfinished

/-- The failure of a job that is not finished takes along the job itself and, if it binds the
parent, what the failure of the parent takes along. -/
theorem takes_iff (stored : queues.job? key = some job)
    (unfinished : job.state.isFinished = false) : queues.Takes key other ↔
      other = key ∨ job.options.failParentOnFailure = true ∧
        ∃ above, job.parent = some above ∧ queues.Takes above other := by
  constructor
  · intro takes
    cases takes with
    | self => exact .inl rfl
    | above again _ binding parent further =>
        cases stored.symm.trans again
        exact .inr ⟨binding, _, parent, further⟩
  · rintro (rfl | ⟨binding, above, parent, further⟩)
    · exact .self stored unfinished
    · exact .above stored unfinished binding parent further

/-- Failing a job changes nothing of how far the failure of its parent goes. -/
theorem takes_noteFailed (ascending : queues.Ascending) (stored : queues.job? key = some job)
    (reason : String) (parent : job.parent = some above) :
    (queues.noteFailed key job reason).Takes above other ↔ queues.Takes above other := by
  have older := ascending key job above stored parent
  have jobs := job?_noteFailed stored reason
  have same : ∀ oldest, oldest = above ∨ oldest.Before above →
      (queues.noteFailed key job reason).job? oldest = queues.job? oldest := by
    intro oldest upward
    have before : oldest.Before key := upward.elim (· ▸ older) (·.trans older)
    rw [jobs, Function.update_of_ne before.ne]
  exact ⟨fun takes => takes.congr (ascending.noteFailed stored reason) fun oldest upward =>
      (same oldest upward).symm,
    fun takes => takes.congr ascending same⟩

/-! ## The jobs that fail -/

/-- The jobs that a failure takes along fail, the first one for a reason of its own, and all other
jobs are as before. -/
structure Spreads (queues after : Queues) (key : JobKey) (reason inherited : String) : Prop where
  taken : ∀ other job, queues.Takes key other → queues.job? other = some job →
    after.job? other = some (queues.failedJob job (if other = key then reason else inherited))
  kept : ∀ other, ¬ queues.Takes key other → after.job? other = queues.job? other

theorem spreads_nothing (ended : ∀ job, queues.job? key = some job → job.state.isFinished = true)
    (reason inherited : String) : Spreads queues queues key reason inherited where
  taken _ _ takes := absurd takes (not_takes ended)
  kept _ _ := rfl

/-- A job fails alone. -/
theorem spreads_noteFailed (stored : queues.job? key = some job)
    (unfinished : job.state.isFinished = false) (reason inherited : String)
    (alone : ∀ above, job.options.failParentOnFailure = true → job.parent ≠ some above) :
    Spreads queues (queues.noteFailed key job reason) key reason inherited := by
  have only : ∀ other, queues.Takes key other ↔ other = key := by
    intro other
    rw [takes_iff stored unfinished, or_iff_left]
    rintro ⟨binding, above, parent, -⟩
    exact alone above binding parent
  have jobs := job?_noteFailed stored reason
  constructor
  case taken =>
    intro other found takes isFound
    obtain rfl := (only other).1 takes
    cases stored.symm.trans isFound
    rw [jobs, Function.update_self, if_pos rfl]
  case kept =>
    intro other spared
    rw [jobs, Function.update_of_ne (mt (only other).2 spared)]

/-- A job fails, and then its failure spreads from its parent. -/
theorem Spreads.below {reason inherited : String}
    (spreads : Spreads (queues.noteFailed key job reason) after above inherited inherited)
    (ascending : queues.Ascending) (stored : queues.job? key = some job)
    (unfinished : job.state.isFinished = false)
    (binding : job.options.failParentOnFailure = true) (parent : job.parent = some above) :
    Spreads queues after key reason inherited := by
  have jobs := job?_noteFailed stored reason
  have further : ∀ other, (queues.noteFailed key job reason).Takes above other ↔
      queues.Takes above other := fun other => takes_noteFailed ascending stored reason parent
  have notAgain : ¬ queues.Takes above key := by
    intro takes
    have older := ascending key job above stored parent
    rcases takes.older ascending with rfl | before
    · exact older.ne rfl
    · exact before.asymm older
  constructor
  case taken =>
    intro other found takes isFound
    rcases (takes_iff stored unfinished).1 takes with rfl | ⟨-, _, isParent, taken⟩
    · cases stored.symm.trans isFound
      rw [spreads.kept _ (mt (further _).1 notAgain), jobs, Function.update_self, if_pos rfl]
    · cases parent.symm.trans isParent
      have different : other ≠ key := by
        rintro rfl
        exact notAgain taken
      have foundNoted : (queues.noteFailed key job reason).job? other = some found := by
        rw [jobs, Function.update_of_ne different]
        exact isFound
      rw [spreads.taken other found ((further other).2 taken) foundNoted, ite_self,
        if_neg different]
      rfl
  case kept =>
    intro other spared
    rw [takes_iff stored unfinished, not_or] at spared
    obtain ⟨different, untaken⟩ := spared
    have spared : ¬ queues.Takes above other := fun takes => untaken ⟨binding, above, parent, takes⟩
    rw [spreads.kept other (mt (further other).1 spared), jobs, Function.update_of_ne different]

/-- The walk up reaches everything that the failure takes along, if it may go as far as there are
unfinished jobs. -/
theorem spreads_failUpward {height : Nat} (inherited reason : String)
    (ascending : queues.Ascending) (enough : queues.unfinishedJobs ≤ height) :
    Spreads queues (failUpward inherited height queues key reason) key reason inherited := by
  -- on the height: every job that fails leaves one unfinished job less for the walk above it
  induction height generalizing queues key reason with
  | zero =>
      refine spreads_nothing (fun job stored => ?_) reason inherited
      by_contra unfinished
      have counted := unfinishedJobs_noteFailed stored (Bool.eq_false_iff.2 unfinished) reason
      omega
  | succ height ih =>
      unfold failUpward
      split
      · next job stored =>
          split
          · next finished =>
              refine spreads_nothing (fun found isFound => ?_) reason inherited
              exact Option.some.inj (stored.symm.trans isFound) ▸ finished
          · next isOpen =>
              have unfinished := Bool.eq_false_iff.2 isOpen
              split
              · next parent binding isParent =>
                  have counted := unfinishedJobs_noteFailed stored unfinished reason
                  have spreads := @ih _ parent inherited (ascending.noteFailed stored reason)
                    (by omega)
                  exact spreads.below ascending stored unfinished binding isParent
              · next alone =>
                  exact spreads_noteFailed stored unfinished reason inherited alone
      · next missing =>
          refine spreads_nothing (fun found isFound => ?_) reason inherited
          cases missing.symm.trans isFound

/-! ## What stands above, below and beside -/

/-- Of two jobs that a failure takes along one takes the other along. -/
theorem Takes.linear {first second : JobKey} (one : queues.Takes key first)
    (other : queues.Takes key second) : queues.Takes first second ∨ queues.Takes second first := by
  induction one with
  | self => exact .inl other
  | above stored unfinished binding parent further ih =>
      rcases (takes_iff stored unfinished).1 other with rfl | ⟨-, _, isParent, taken⟩
      · exact .inr (.above stored unfinished binding parent further)
      · cases parent.symm.trans isParent
        exact ih taken

/-- What stands below a job was given its identifier after it. -/
theorem Descends.younger (descends : queues.Descends key other) (descending : queues.Descending) :
    other = key ∨ key.Before other := by
  induction descends with
  | refl => exact .inl rfl
  | tail _ listed ih =>
      obtain ⟨job, stored, isChild⟩ := listed
      have younger := descending _ job stored _ isChild
      rcases ih with rfl | before
      · exact .inr younger
      · exact .inr (before.trans younger)

/-- A failure takes along only jobs above the one at which it starts. -/
theorem Takes.descends (takes : queues.Takes key other) (steady : Steady queues none []) :
    queues.Descends other key := by
  induction takes with
  | self => exact .refl
  | above stored _ _ parent _ ih =>
      obtain ⟨aboveJob, aboveStored, listed⟩ := steady.sound.listed_by_parent stored parent
      exact ih.tail ⟨aboveJob, aboveStored, listed⟩

/-- A failure ends at a job: it does not bind the parent, or the parent has finished already. -/
def EndsAt (queues : Queues) (job : Job) : Prop :=
  job.options.failParentOnFailure = false ∨
    ∃ above aboveJob, job.parent = some above ∧ queues.job? above = some aboveJob ∧
      aboveJob.state.isFinished = true

/-- Where a failure ends it takes nothing else along. -/
theorem EndsAt.takes_self (ends : queues.EndsAt job) (stored : queues.job? key = some job)
    (takes : queues.Takes key other) : other = key := by
  cases takes with
  | self => rfl
  | above again _ binding parent further =>
      cases stored.symm.trans again
      rcases ends with alone | ⟨above, aboveJob, isParent, aboveStored, finished⟩
      · cases binding.symm.trans alone
      · cases parent.symm.trans isParent
        exact absurd further (not_takes fun found isFound =>
          Option.some.inj (aboveStored.symm.trans isFound) ▸ finished)

/-- Nothing above the end of a failure is taken along. -/
theorem EndsAt.not_takes_above {last : JobKey} (ends : queues.EndsAt job)
    (stored : queues.job? last = some job) (takes : queues.Takes key last)
    (ascending : queues.Ascending) (descending : queues.Descending)
    (descends : queues.Descends other last) (different : other ≠ last) :
    ¬ queues.Takes key other := by
  intro taken
  rcases takes.linear taken with upward | downward
  · exact different (ends.takes_self stored upward)
  · rcases downward.older ascending with same | older
    · exact different same.symm
    · rcases descends.younger descending with same | younger
      · exact different same.symm
      · exact older.asymm younger

/-! ## A call that fails its job -/

/-- A job fails that had not failed before. -/
def Fails (queues after : Queues) (key : JobKey) : Prop :=
  queues.jobState? key ≠ some .failed ∧ after.jobState? key = some .failed

/-- What the failure of a job does: the job and the jobs that it takes along fail, each for
its reason, and every other job stays as it is. -/
structure FailsAlong (queues after : Queues) (key : JobKey) (job : Job) (reason : String) :
    Prop where
  failing : ∀ other, queues.Fails after other ↔ queues.Takes key other
  own : after.job? key = some
    { job with state := .failed, failedReason := some reason, finishedAt := some queues.now }
  /-- However far up a job stands, its reason names the job whose call has failed. -/
  inherited : ∀ other old, queues.Takes key other → other ≠ key → queues.job? other = some old →
    after.job? other = some
      { old with
        state := .failed, finishedAt := some queues.now
        failedReason := some ("step '" ++ job.name ++ "' failed: " ++ reason) }
  others : ∀ other, ¬ queues.Takes key other → after.job? other = queues.job? other
  below : ∀ other, queues.Descends key other → other ≠ key →
    after.job? other = queues.job? other
  beside : ∀ other, ¬ queues.Descends other key → after.job? other = queues.job? other
  /-- Above a job whose failure does not bind, and from a finished job on, nothing changes. -/
  beyond : ∀ last lastJob, queues.Takes key last → queues.job? last = some lastJob →
    queues.EndsAt lastJob → ∀ other, queues.Descends other last → other ≠ last →
      after.job? other = queues.job? other

theorem Spreads.failing {reason inherited : String}
    (spreads : Spreads queues after key reason inherited) :
    queues.Fails after other ↔ queues.Takes key other := by
  constructor
  · rintro ⟨before, failed⟩
    by_contra spared
    rw [jobState?, spreads.kept other spared] at failed
    exact before failed
  · intro takes
    obtain ⟨job, stored, unfinished⟩ := takes.stored
    constructor
    · rw [jobState?_of_stored stored]
      intro failed
      rw [Option.some.inj failed] at unfinished
      cases unfinished
    · rw [jobState?_of_stored (spreads.taken other job takes stored)]
      rfl

/-- The failure of a running call spreads from its job. -/
theorem spreads_callReturns {call : Call} {error : JobError} (reached : Reachable settings queues)
    (isRunning : call ∈ queues.running) (final : call.Final error)
    (stored : queues.job? call.key = some job) :
    Spreads queues (queues.callReturns call (.error error)) call.key error.message
      (inheritedReason job.name error.message) := by
  let ended : Queues := { queues with running := queues.running.erase call }
  have named : call.name = job.name := (reached.attended call isRunning job stored).name
  have ascending : ended.Ascending := reached.ascending
  have returned : queues.callReturns call (.error error) =
      failUpward (inheritedReason job.name error.message) ended.jobs.size ended call.key
        error.message := by
    rw [← named]
    cases error with
    | retryable message => exact if_neg (Nat.not_lt.2 (final message rfl))
    | unrecoverable message => rfl
  have enough : ended.unfinishedJobs ≤ ended.jobs.size := List.countP_le_length
  have spreads := @spreads_failUpward ended call.key ended.jobs.size
    (inheritedReason job.name error.message) error.message ascending enough
  rw [← returned] at spreads
  have same : ∀ other, ended.Takes call.key other ↔ queues.Takes call.key other := fun other =>
    ⟨fun takes => takes.congr ascending fun _ _ => rfl,
      fun takes => takes.congr reached.ascending fun _ _ => rfl⟩
  exact ⟨fun other found takes => spreads.taken other found ((same other).2 takes),
    fun other spared => spreads.kept other (mt (same other).1 spared)⟩

theorem failsAlong_callReturns {call : Call} {error : JobError}
    (reached : Reachable settings queues) (isRunning : call ∈ queues.running)
    (final : call.Final error) (stored : queues.job? call.key = some job) :
    FailsAlong queues (queues.callReturns call (.error error)) call.key job error.message := by
  have spreads := spreads_callReturns reached isRunning final stored
  have steady := reached.steady
  have active := (steady.endCall isRunning stored).1
  have self : queues.Takes call.key call.key := .self stored (by rw [active]; rfl)
  constructor
  case failing => exact fun other => spreads.failing
  case own =>
    rw [spreads.taken _ job self stored, if_pos rfl]
    rfl
  case inherited =>
    intro other old takes different isStored
    rw [spreads.taken other old takes isStored, if_neg different]
    rfl
  case others => exact spreads.kept
  case below =>
    intro other descends different
    refine spreads.kept other fun takes => ?_
    rcases takes.older reached.ascending with same | older
    · exact different same
    · rcases descends.younger reached.descending with same | younger
      · exact different same
      · exact older.asymm younger
  case beside =>
    intro other apart
    exact spreads.kept other fun takes => apart (takes.descends steady)
  case beyond =>
    intro last lastJob takes isStored ends other descends different
    exact spreads.kept other
      (ends.not_takes_above isStored takes reached.ascending reached.descending descends different)

/-- How failures go up. -/
structure FailsUpward (queues : Queues) : Prop where
  /-- Above a failure that binds there is a failure. -/
  closed : ∀ key job above aboveJob, queues.job? key = some job → job.state = .failed →
    job.options.failParentOnFailure = true → job.parent = some above →
      queues.job? above = some aboveJob → aboveJob.state = .failed
  /-- A call that fails its job for good fails exactly what is bound to it. -/
  minimal : ∀ call error after job, Step queues (.finish call (.error error)) after →
    call.Final error → queues.job? call.key = some job →
      FailsAlong queues after call.key job error.message

/-- A failure goes up exactly as far as it binds, whatever has happened before. -/
theorem failure_goes_up (reached : Reachable settings queues) : FailsUpward queues where
  closed := by
    intro key job above aboveJob stored failed binding parent aboveStored
    have together := (reached.failTogether key job above stored ⟨failed, binding, parent⟩).resolve_left
      nofun
    exact Option.some.inj ((jobState?_of_stored aboveStored).symm.trans together)
  minimal := by
    intro call error after job step final stored
    cases step with
    | finish outcome isRunning => exact failsAlong_callReturns reached isRunning final stored

/-- A job with two jobs below it, one of which has a job below it in turn that binds it. -/
def Sample.uneven : Flow :=
  ⟨"top", "default", .null, .standard,
    [⟨"middle", "default", .null, .standard,
        [⟨"bottom", "default", .null, { JobOptions.standard with failParentOnFailure := true }, []⟩]⟩,
      ⟨"beside", "default", .null, .standard, []⟩]⟩

/-- The call for the lowest one of the jobs. -/
def Sample.callBottom : Call :=
  { key := ⟨"default", jobIdOf 2⟩, name := "bottom", data := .null, attempt := 1, maxAttempts := 3
    children := .empty, startedAt := 0 }

/-- The lowest one of the jobs is running. -/
def Sample.bottomStarted : List Act :=
  [.add Sample.uneven (countsOf Sample.uneven), .startWorker "default", .advance "default",
    .advance "default", .advance "default"]

theorem failure_goes_up_bottom : ∃ queues after job,
    follow? Sample.bottomStarted (.start .empty) = some queues ∧
      queues.next? (.finish Sample.callBottom (.error (.unrecoverable "broken"))) = some after ∧
      (List.range 4).map (fun serial => after.jobState? ⟨"default", jobIdOf serial⟩) =
        [some .waitingChildren, some .failed, some .failed, some .waiting] ∧
      FailsAlong queues after Sample.callBottom.key job "unrecoverable: broken" := by
  let error : JobError := .unrecoverable "broken"
  have run : (follow? Sample.bottomStarted (.start .empty)).map (fun queues =>
      ((queues.next? (.finish Sample.callBottom (.error error))).map fun after =>
          (List.range 4).map fun serial => after.jobState? ⟨"default", jobIdOf serial⟩,
        (queues.job? Sample.callBottom.key).isSome)) =
      some (some [some .waitingChildren, some .failed, some .failed, some .waiting], true) := by
    decide +kernel
  obtain ⟨queues, followed, same⟩ := Option.map_eq_some_iff.1 run
  obtain ⟨after, next, states⟩ := Option.map_eq_some_iff.1 (congrArg Prod.fst same)
  obtain ⟨job, stored⟩ := Option.isSome_iff_exists.1 (congrArg Prod.snd same)
  have final : Sample.callBottom.Final error := fun _ => nofun
  exact ⟨queues, after, job, followed, next, states,
    (failure_goes_up ((leads_of_follow? followed).reachable .start)).minimal Sample.callBottom
      error after job (step_iff_next?.2 next) final stored⟩

end Queues

end Relay
