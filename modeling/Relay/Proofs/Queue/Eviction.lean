import Relay.Proofs.Queue.Admission
import Relay.Proofs.Queue.Progress
import Relay.Proofs.Queue.Turns

/-!
# What an eviction takes and what it leaves

An eviction deletes whole trees: what stands at or below one of several keys and is stored, and
nothing else.  It may cut through live work, for the root of a flow can fail while a part of the
flow is still waiting, delayed or running.  What is pending for a deleted job stays pending: its
identifier in the hands of a worker, its running call, its retry timer.  Since no key is given
away twice, all this comes to nothing whenever it is taken up.
-/

namespace Relay

/-! ## When jobs have finished -/

namespace Job

variable {old new : Job} {now : Nat} {returned : Option Json}

/-- A finished job stays finished, and keeps the time that it has noted. -/
theorem Turn.of_finished (turn : old.Turn now returned new)
    (finished : old.state.isFinished = true) :
    new.state.isFinished = true ∧ new.finishedAt = old.finishedAt := by
  cases turn with
  | start waiting =>
      rw [waiting] at finished
      cases finished
  | wake delayed =>
      rw [delayed] at finished
      cases finished
  | tell => exact ⟨((Queues.continues_afterChild old).ended finished).1 ▸ finished, rfl⟩
  | delay unfinished | complete _ unfinished | fail _ unfinished =>
      exact absurd (unfinished.symm.trans finished) (by decide)

/-- A job that finishes notes the time. -/
theorem Turn.finishes (turn : old.Turn now returned new)
    (unfinished : old.state.isFinished = false) (finished : new.state.isFinished = true) :
    new.finishedAt = some now := by
  cases turn with
  | start | delay | wake => cases finished
  | tell =>
      simp only [Queues.afterChild] at finished
      split at finished
      · cases finished
      · exact absurd (unfinished.symm.trans finished) (by decide)
  | complete | fail => rfl

theorem Turns.of_finished (turns : old.Turns now returned new)
    (finished : old.state.isFinished = true) :
    new.state.isFinished = true ∧ new.finishedAt = old.finishedAt := by
  induction turns with
  | refl => exact ⟨finished, rfl⟩
  | tail _ turn ih =>
      obtain ⟨still, same⟩ := turn.of_finished ih.1
      exact ⟨still, same.trans ih.2⟩

theorem Turns.finishes (turns : old.Turns now returned new)
    (unfinished : old.state.isFinished = false) (finished : new.state.isFinished = true) :
    new.finishedAt = some now := by
  induction turns with
  | refl => exact absurd (unfinished.symm.trans finished) (by decide)
  | @tail middle new _ turn ih =>
      cases before : middle.state.isFinished with
      | true => exact (turn.of_finished before).2.trans (ih before)
      | false => exact turn.finishes before finished

end Job

namespace Queues

variable {queues after later : Queues} {act : Act} {key root other : JobKey}
  {old new job : Job} {settings : Dict QueueSettings}

theorem mem_entries_iff {id : String} :
    (id, job) ∈ queues.jobs.entries ↔ queues.job? ⟨job.queue, id⟩ = some job := by
  rw [← Dict.get?_eq_some_iff, job?_eq_some_iff, and_iff_left rfl]

/-- The keys of some of the entries are those of some of the stored jobs. -/
theorem mem_map_filter_entries_iff (test : String × Job → Bool) :
    key ∈ (queues.jobs.entries.filter test).map (fun entry => ⟨entry.2.queue, entry.1⟩) ↔
      ∃ job, queues.job? key = some job ∧ test (key.id, job) = true := by
  simp only [List.mem_map, List.mem_filter]
  constructor
  · rintro ⟨⟨id, job⟩, ⟨member, tested⟩, rfl⟩
    exact ⟨job, mem_entries_iff.1 member, tested⟩
  · rintro ⟨job, stored, tested⟩
    have same : (⟨job.queue, key.id⟩ : JobKey) = key := by rw [((job?_eq_some_iff _ _ _).1 stored).2]
    exact ⟨(key.id, job), ⟨mem_entries_iff.2 (same ▸ stored), tested⟩, same⟩

/-- Finished jobs have noted when they have finished, and time has not gone back since. -/
def Dated (queues : Queues) : Prop :=
  ∀ key job, queues.job? key = some job → job.state.isFinished = true →
    ∃ time, job.finishedAt = some time ∧ time ≤ queues.now

/-- A job notes the time when it finishes, and keeps it. -/
theorem Step.finishedAt_eq (step : Step queues act after) (steady : Steady queues none [])
    (before : queues.job? key = some old) (stored : after.job? key = some new)
    (finished : new.state.isFinished = true) :
    new.finishedAt = if old.state.isFinished then old.finishedAt else some queues.now := by
  rcases step.turns steady stored with ⟨again, isStored, turns⟩ | ⟨unborn, -⟩
  · obtain rfl := Option.some.inj (before.symm.trans isStored)
    cases already : old.state.isFinished with
    | true => exact (turns.of_finished already).2
    | false => exact turns.finishes already finished
  · exact absurd (steady.sound.born before) unborn

theorem Dated.step (dated : Dated queues) (steady : Steady queues none [])
    (step : Step queues act after) : Dated after := by
  intro key new stored finished
  rcases step.turns steady stored with ⟨old, before, -⟩ | ⟨-, -, unfinished⟩
  · have noted := step.finishedAt_eq steady before stored finished
    split at noted
    · next already =>
        obtain ⟨time, isTime, past⟩ := dated key old before already
        exact ⟨time, noted.trans isTime, past.trans step.now_le⟩
    · exact ⟨queues.now, noted, step.now_le⟩
  · exact absurd (unfinished.symm.trans finished) (by decide)

theorem Reachable.dated (reached : Reachable settings queues) : Dated queues := by
  induction reached with
  | start => exact fun _ job stored => (Option.some_ne_none job stored.symm).elim
  | step reached step ih => exact ih.step reached.steady step

/-- A key is the root of a flow that finished a given time ago or earlier. -/
def ExpiredRoot (queues : Queues) (olderThan : Nat) (key : JobKey) : Prop :=
  ∃ job time, queues.job? key = some job ∧ job.parent = none ∧ job.state.isFinished = true ∧
    job.finishedAt = some time ∧ time + olderThan ≤ queues.now

theorem Dated.isExpired_iff (dated : Dated queues) (stored : queues.job? key = some job)
    (olderThan : Nat) : queues.isExpired olderThan job = true ↔
      job.parent = none ∧ job.state.isFinished = true ∧
        ∃ time, job.finishedAt = some time ∧ time + olderThan ≤ queues.now := by
  simp only [isExpired, Bool.and_eq_true, Option.isNone_iff_eq_none, and_assoc]
  refine and_congr_right fun _ => and_congr_right fun finished => ?_
  obtain ⟨time, isTime, past⟩ := dated key job stored finished
  simp only [isTime, decide_eq_true_iff, Option.some.injEq, exists_eq_left']
  omega

theorem Dated.mem_expired_iff (dated : Dated queues) (olderThan : Nat) :
    key ∈ queues.expired olderThan ↔ ExpiredRoot queues olderThan key := by
  rw [expired, mem_map_filter_entries_iff]
  constructor
  · rintro ⟨job, stored, isExpired⟩
    obtain ⟨top, finished, time, isTime, past⟩ := (dated.isExpired_iff stored olderThan).1 isExpired
    exact ⟨job, time, stored, top, finished, isTime, past⟩
  · rintro ⟨job, time, stored, top, finished, isTime, past⟩
    exact ⟨job, stored, (dated.isExpired_iff stored olderThan).2 ⟨top, finished, time, isTime, past⟩⟩

/-! ## What is deleted -/

/-- A part of the table of jobs contains what stands below its jobs. -/
def ClosedBelow (queues : Queues) (inside : JobKey → Prop) : Prop :=
  ∀ key job, queues.job? key = some job → inside key → ∀ child ∈ job.children, inside child

/-- Jobs of a part of the table are deleted and counted. -/
structure Removal (inside : JobKey → Prop) (state state' : Queues × Nat) : Prop where
  evicts : Evicts state.1 state'.1
  counted : state'.1.jobs.size + state'.2 = state.1.jobs.size + state.2
  others : ∀ key, ¬ inside key → state'.1.job? key = state.1.job? key

theorem Evicts.gone (evicts : Evicts queues after) (gone : queues.job? key = none) :
    after.job? key = none := by
  rw [Option.eq_none_iff_forall_ne_some] at gone ⊢
  exact fun job stored => gone job (evicts.jobs key job stored)

theorem ClosedBelow.evicts {inside : JobKey → Prop} (closed : ClosedBelow queues inside)
    (evicts : Evicts queues after) : ClosedBelow after inside :=
  fun key job stored => closed key job (evicts.jobs key job stored)

theorem removal_refl {inside : JobKey → Prop} (state : Queues × Nat) :
    Removal inside state state :=
  ⟨(quiet_refl _).evicts, rfl, fun _ _ => rfl⟩

theorem Removal.trans {inside : JobKey → Prop} {first second third : Queues × Nat}
    (one : Removal inside first second) (two : Removal inside second third) :
    Removal inside first third where
  evicts := one.evicts.trans two.evicts
  counted := two.counted.trans one.counted
  others key outside := (two.others key outside).trans (one.others key outside)

theorem job?_dropJob (stored : queues.job? key = some job) :
    (queues.dropJob key job).job? other = if other = key then none else queues.job? other := by
  have erased := job?_erase stored other
  unfold dropJob
  split <;> exact erased

theorem removal_dropJob {inside : JobKey → Prop} (stored : queues.job? key = some job)
    (isInside : inside key) (count : Nat) :
    Removal inside (queues, count) (queues.dropJob key job, count + 1) where
  evicts := evicts_dropJob stored
  counted := by
    have size := Steady.size_dropJob stored
    dsimp only
    omega
  others other outside := by
    have away : other ≠ key := fun same => outside (same ▸ isInside)
    exact (job?_dropJob stored).trans (if_neg away)

/-- What is deleted stands at or below the key at which it begins. -/
theorem removal_removeWithin {inside : JobKey → Prop} (closed : ClosedBelow queues inside)
    (isInside : inside key) (depth count : Nat) :
    Removal inside (queues, count) (removeWithin depth (queues, count) key) := by
  induction depth generalizing queues count key with
  | zero => exact removal_refl _
  | succ depth ih =>
      unfold removeWithin
      split
      · next job stored =>
          refine List.foldlRecOn (motive := fun state => Removal inside (queues, count) state)
            job.children _ (removal_dropJob stored isInside count) ?_
          intro state removed child isChild
          exact removed.trans (ih (closed.evicts removed.evicts)
            (closed key job stored isInside child isChild) state.2)
      · exact removal_refl _

theorem removal_foldl {inside : JobKey → Prop} (closed : ClosedBelow queues inside)
    (keys : List JobKey) (areInside : ∀ key ∈ keys, inside key) (depth count : Nat) :
    Removal inside (queues, count) (keys.foldl (removeWithin depth) (queues, count)) := by
  refine List.foldlRecOn (motive := fun state => Removal inside (queues, count) state) keys _
    (removal_refl _) ?_
  intro state removed key isKey
  exact removed.trans
    (removal_removeWithin (closed.evicts removed.evicts) (areInside key isKey) depth state.2)

theorem evicts_foldl (keys : List JobKey) (depth : Nat) (state : Queues × Nat) :
    Evicts state.1 (keys.foldl (removeWithin depth) state).1 := by
  have anywhere : ClosedBelow state.1 fun _ => True := fun _ _ _ _ _ _ => trivial
  exact (removal_foldl anywhere keys (fun _ _ => trivial) depth state.2).evicts

/-- The job at which a deletion begins is gone afterwards. -/
theorem gone_removeWithin (depth : Nat) (state : Queues × Nat) (key : JobKey) :
    (removeWithin (depth + 1) state key).1.job? key = none := by
  obtain ⟨queues, count⟩ := state
  unfold removeWithin
  split
  · next job stored =>
      exact (evicts_foldl job.children depth (queues.dropJob key job, count + 1)).gone
        ((job?_dropJob stored).trans (if_pos rfl))
  · next missing => exact missing

/-- All jobs at which a deletion begins are gone afterwards. -/
theorem gone_removeAll {keys : List JobKey} (isRoot : root ∈ keys) :
    (queues.removeAll keys).1.job? root = none := by
  cases size : queues.jobs.size with
  | zero =>
      refine (evicts_removeAll queues keys).gone ?_
      rw [job?, Dict.get?_eq_none_of_size_eq_zero size]
      rfl
  | succ depth =>
      obtain ⟨before, rest, rfl⟩ := List.append_of_mem isRoot
      rw [removeAll, size, List.foldl_append, List.foldl_cons]
      exact (evicts_foldl rest (depth + 1) _).gone (gone_removeWithin depth _ root)

/-- No job is left behind below one that is gone. -/
theorem gone_below (steady : Steady queues none []) (steadyAfter : Steady after none [])
    (evicts : Evicts queues after) (gone : after.job? root = none)
    (descends : queues.Descends root key) : after.job? key = none := by
  induction descends with
  | refl => exact gone
  | @tail above child _ listed ih =>
      obtain ⟨aboveJob, aboveStored, isChild⟩ := listed
      rw [Option.eq_none_iff_forall_ne_some]
      intro job stored
      -- A child that is stored afterwards would have its parent stored, too.
      have parent := steady.sound.parent_of_listed (evicts.jobs child job stored) aboveStored isChild
      obtain ⟨again, isStored, -⟩ := steadyAfter.sound.listed_by_parent stored parent
      cases ih.symm.trans isStored

/-! ## The deleted jobs and their places -/

/-- The keys of the jobs that are stored before, but not after. -/
def deleted (queues after : Queues) : List JobKey :=
  (queues.jobs.entries.filter fun entry => (after.jobs.get? entry.1).isNone).map
    fun entry => ⟨entry.2.queue, entry.1⟩

/-- Whole trees are deleted: what stands at or below some roots, and nothing else. -/
structure Fells (queues after : Queues) (isRoot : JobKey → Prop) : Prop where
  gone : ∀ root key, isRoot root → queues.Descends root key → after.job? key = none
  kept : ∀ key, (∀ root, isRoot root → ¬ queues.Descends root key) →
    after.job? key = queues.job? key
  distinct : (queues.deleted after).Nodup
  mem_deleted : ∀ key, key ∈ queues.deleted after ↔
    (∃ job, queues.job? key = some job) ∧ ∃ root, isRoot root ∧ queues.Descends root key
  /-- Every unfinished job that is deleted frees its place, and no other place is freed. -/
  places : ∀ queue, after.unfinishedCount queue +
      (queues.deleted after).countP (fun key => (queues.job? key).any (countsFor queue)) =
    queues.unfinishedCount queue

theorem Evicts.get?_subset (evicts : Evicts queues after) (id : String) (job : Job)
    (found : after.jobs.get? id = some job) : queues.jobs.get? id = some job := by
  rw [Dict.get?_eq_some_iff, mem_entries_iff] at found ⊢
  exact evicts.jobs _ job found

theorem of_mem_deleted (isDeleted : key ∈ queues.deleted after) :
    (∃ job, queues.job? key = some job) ∧ after.job? key = none := by
  obtain ⟨job, stored, missing⟩ := (mem_map_filter_entries_iff _).1 isDeleted
  refine ⟨⟨job, stored⟩, ?_⟩
  rw [job?, Option.isNone_iff_eq_none.1 missing, Option.filter_none]

theorem Evicts.mem_deleted_iff (evicts : Evicts queues after) : key ∈ queues.deleted after ↔
    (∃ job, queues.job? key = some job) ∧ after.job? key = none := by
  constructor
  · exact of_mem_deleted
  · rintro ⟨⟨job, stored⟩, gone⟩
    refine (mem_map_filter_entries_iff _).2 ⟨job, stored, Option.isNone_iff_eq_none.2 ?_⟩
    obtain ⟨found, queue⟩ := (job?_eq_some_iff _ _ _).1 stored
    rw [Option.eq_none_iff_forall_ne_some]
    intro left still
    cases found.symm.trans (evicts.get?_subset _ left still)
    cases gone.symm.trans ((job?_eq_some_iff after key job).2 ⟨still, queue⟩)

theorem nodup_deleted (queues after : Queues) : (queues.deleted after).Nodup := by
  refine List.Nodup.of_map JobKey.id ?_
  rw [deleted, List.map_map]
  exact (List.filter_sublist.map Prod.fst).nodup queues.jobs.nodup_keys

/-- The entries that are left, with those that are deleted, are all that there were. -/
theorem Evicts.countP_deleted (evicts : Evicts queues after) (test : Job → Bool) :
    after.jobs.entries.countP (fun entry => test entry.2) +
        (queues.deleted after).countP (fun key => (queues.job? key).any test) =
      queues.jobs.entries.countP fun entry => test entry.2 := by
  rw [← Dict.countP_of_subset _ evicts.get?_subset, deleted, List.countP_map]
  congr 1
  refine List.countP_congr fun entry member => ?_
  have stored := mem_entries_iff.1 (List.mem_filter.1 member).1
  simp only [Function.comp_apply, stored, Option.any_some]

/-- As many jobs are deleted as the table has become shorter. -/
theorem Evicts.length_deleted (evicts : Evicts queues after) :
    after.jobs.size + (queues.deleted after).length = queues.jobs.size := by
  have counted := Dict.countP_of_subset (fun _ => true) evicts.get?_subset
  simpa [Dict.size, deleted] using counted

theorem Counted.unfinishedCount (counted : Counted queues noPlaces) (queue : String) :
    queues.unfinishedCount queue = queues.openJobs queue :=
  (unfinishedCount_eq queues queue).trans (counted.exact queue)

/-- Deleting several jobs with everything below them fells whole trees. -/
theorem fells_removeAll (reached : Reachable settings queues) (keys : List JobKey) :
    Fells queues (queues.removeAll keys).1 (· ∈ keys) := by
  have steady := reached.steady
  have evicts := evicts_removeAll queues keys
  have counted := reached.counted
  have countedAfter := (counted.removeAll keys).counted
  have closed : ClosedBelow queues fun key => ∃ root ∈ keys, queues.Descends root key :=
    fun key job stored ⟨root, isRoot, descends⟩ child isChild =>
      ⟨root, isRoot, descends.tail ⟨job, stored, isChild⟩⟩
  have removal := removal_foldl closed keys (fun root isRoot => ⟨root, isRoot, .refl⟩)
    queues.jobs.size 0
  have gone : ∀ root key, root ∈ keys → queues.Descends root key →
      (queues.removeAll keys).1.job? key = none := fun root key isRoot descends =>
    gone_below steady (steady.removeAll keys) evicts (gone_removeAll isRoot) descends
  have kept : ∀ key, (∀ root ∈ keys, ¬ queues.Descends root key) →
      (queues.removeAll keys).1.job? key = queues.job? key := by
    intro key apart
    refine removal.others key ?_
    rintro ⟨root, isRoot, descends⟩
    exact apart root isRoot descends
  constructor
  case gone => exact gone
  case kept => exact kept
  case distinct => exact nodup_deleted _ _
  case mem_deleted =>
    intro key
    rw [evicts.mem_deleted_iff]
    refine and_congr_right fun ⟨job, stored⟩ => ⟨fun missing => ?_, fun ⟨root, isRoot, descends⟩ =>
      gone root key isRoot descends⟩
    by_contra apart
    have still := kept key fun root isRoot descends => apart ⟨root, isRoot, descends⟩
    cases stored.symm.trans (still.symm.trans missing)
  case places =>
    intro queue
    rw [counted.unfinishedCount, countedAfter.unfinishedCount]
    exact evicts.countP_deleted (countsFor queue)

/-- The jobs that are deleted are counted as they are deleted. -/
theorem removeAll_snd (queues : Queues) (keys : List JobKey) :
    (queues.removeAll keys).2 = (queues.deleted (queues.removeAll keys).1).length := by
  have anywhere : ClosedBelow queues fun _ => True := fun _ _ _ _ _ _ => trivial
  have removal := removal_foldl anywhere keys (fun _ _ => trivial) queues.jobs.size 0
  have counted : (queues.removeAll keys).1.jobs.size + (queues.removeAll keys).2 =
      queues.jobs.size + 0 := removal.counted
  have shorter := (evicts_removeAll queues keys).length_deleted
  omega

/-- A removal tells whether the job was there. -/
theorem remove_fst_iff (reached : Reachable settings queues) (key : JobKey) :
    (queues.remove key).1 = true ↔ ∃ job, queues.job? key = some job := by
  have fells := fells_removeAll reached [key]
  have told : (queues.remove key).1 = true ↔ 0 < (queues.removeAll [key]).2 := decide_eq_true_iff
  rw [told, removeAll_snd, List.length_pos_iff_exists_mem]
  constructor
  · rintro ⟨other, isDeleted⟩
    obtain ⟨stored, root, isRoot, descends⟩ := (fells.mem_deleted other).1 isDeleted
    obtain rfl := List.mem_singleton.1 isRoot
    -- Something can stand below a key only if there is a job under it.
    rcases Relation.ReflTransGen.cases_head descends with rfl | ⟨_, ⟨job, isStored, -⟩, -⟩
    · exact stored
    · exact ⟨job, isStored⟩
  · intro stored
    exact ⟨key, (fells.mem_deleted key).2 ⟨stored, key, List.mem_singleton_self key, .refl⟩⟩

/-! ## What is left of a deleted job -/

/-- The job with which the worker of a queue goes on. -/
def current? (lane : Lane) : Option String :=
  match lane.worker with
  | .idle => lane.ready.head?
  | .awaitingToken jobId _ | .awaitingSlot jobId => some jobId
  | .absent | .stopped => none

/-- Something that is pending for a job is taken up: a worker goes on with it, a call for it
returns, or its retry timer fires. -/
def Act.TakesUp (queues : Queues) (key : JobKey) : Act → Prop
  | .advance queue => queue = key.queue ∧ current? (queues.lane queue) = some key.id
  | .finish call _ => call.key = key
  | .fire timer => timer.key = key
  | .tick _ | .touch _ | .add _ _ | .startWorker _ | .remove _ | .prune _ _ => False

/-- No job and no count changes, no call is started and nothing is announced. -/
structure Inert (queues after : Queues) : Prop where
  jobs : after.jobs = queues.jobs
  unfinished : ∀ queue, after.unfinishedCount queue = queues.unfinishedCount queue
  calls : after.running.Sublist queues.running
  events : ∀ queue, (after.lane queue).events = (queues.lane queue).events

theorem inert_of_lanes (jobs : after.jobs = queues.jobs)
    (calls : after.running.Sublist queues.running)
    (lanes : ∀ queue, (after.lane queue).unfinished = (queues.lane queue).unfinished ∧
      (after.lane queue).events = (queues.lane queue).events) : Inert queues after where
  jobs := jobs
  unfinished queue := by rw [unfinishedCount_eq, unfinishedCount_eq, (lanes queue).1]
  calls := calls
  events queue := (lanes queue).2

theorem inert_setLane {queue : String} {lane : Lane}
    (unfinished : lane.unfinished = (queues.lane queue).unfinished)
    (events : lane.events = (queues.lane queue).events) :
    Inert queues (queues.setLane queue lane) := by
  refine inert_of_lanes rfl (.refl _) fun other => ?_
  rw [lane_setLane]
  split
  · next same => exact same ▸ ⟨unfinished, events⟩
  · exact ⟨rfl, rfl⟩

/-- A worker that goes on with a job that is gone starts nothing. -/
theorem inert_advance (gone : queues.job? key = none)
    (current : current? (queues.lane key.queue) = some key.id)
    (moved : queues.advanceWorker? key.queue = some after) : Inert queues after := by
  rcases advanceWorker?_some moved with ⟨next, rfl, moves⟩ | ⟨jobId, holding, -, rfl⟩
  · exact inert_setLane moves.unfinished moves.events
  · have isKey : jobId = key.id := by
      rw [current?, holding] at current
      exact Option.some.inj current
    have missing : (queues.setLane key.queue
        { queues.lane key.queue with worker := .idle }).job? ⟨key.queue, jobId⟩ = none := by
      rw [isKey]
      exact gone
    rw [startJob, missing]
    exact inert_setLane rfl rfl

/-- A call for a job that is gone may return whatever it likes. -/
theorem inert_callReturns {call : Call} (gone : queues.job? call.key = none)
    (outcome : Except JobError Json) : Inert queues (queues.callReturns call outcome) := by
  let ended : Queues := { queues with running := queues.running.erase call }
  have missing : ended.job? call.key = none := gone
  have withdrawn : Inert queues ended :=
    inert_of_lanes rfl List.erase_sublist fun _ => ⟨rfl, rfl⟩
  have failed : ∀ reason, ended.fail call.key call.name reason = ended := by
    intro reason
    unfold fail
    cases ended.jobs.size with
    | zero => rfl
    | succ height => rw [failUpward, missing]
  cases outcome with
  | ok value =>
      have same : queues.callReturns call (.ok value) = ended := by
        show ended.complete call.key value = ended
        rw [complete, missing]
      exact same ▸ withdrawn
  | error error =>
      cases error with
      | retryable message =>
          unfold callReturns
          dsimp only
          split
          · have delayed : ended.retryLater call.key call.attempt =
                { ended.touch call.key.queue with
                  timers := ended.timers ++ [⟨call.key, ended.now +
                    (ended.lane call.key.queue).settings.backoff call.attempt⟩] } := by
              simp only [retryLater, missing]
            rw [delayed]
            refine inert_of_lanes rfl List.erase_sublist fun queue => ?_
            exact lane_touch ended call.key.queue queue ▸ ⟨rfl, rfl⟩
          · exact (failed message).symm ▸ withdrawn
      | unrecoverable message =>
          have same : queues.callReturns call (.error (.unrecoverable message)) = ended := failed _
          exact same ▸ withdrawn

/-- The retry timer of a job that is gone wakes nothing. -/
theorem inert_timerFires {timer : RetryTimer} (gone : queues.job? timer.key = none) :
    Inert queues (queues.timerFires timer) := by
  have missing : ({ queues with timers := queues.timers.erase timer } : Queues).job? timer.key =
      none := gone
  rw [timerFires, missing]
  exact inert_of_lanes rfl (.refl _) fun _ => ⟨rfl, rfl⟩

theorem Act.TakesUp.inert (takesUp : act.TakesUp queues key) (step : Step queues act after)
    (gone : queues.job? key = none) : Inert queues after := by
  cases step with
  | advance moved =>
      obtain ⟨rfl, current⟩ := takesUp
      exact inert_advance gone current moved
  | finish outcome isRunning =>
      obtain rfl := takesUp
      exact inert_callReturns gone outcome
  | fire pending due =>
      obtain rfl := takesUp
      exact inert_timerFires gone
  | _ => exact takesUp.elim

/-! ## Evictions -/

/-- What evictions do, now and later. -/
structure Evictions (queues : Queues) : Prop where
  /-- A removal tells whether the job is there. -/
  known : ∀ key, (queues.remove key).1 = true ↔ ∃ job, queues.job? key = some job
  remove : ∀ key, Fells queues (queues.remove key).2 (· = key)
  /-- Expired flows are evicted as a whole, in whatever order, and their jobs are counted. -/
  prune : ∀ olderThan keys, keys.Perm (queues.expired olderThan) →
    Fells queues (queues.removeAll keys).1 (ExpiredRoot queues olderThan) ∧
      (queues.removeAll keys).2 = (queues.deleted (queues.removeAll keys).1).length
  /-- Pruning is the step that evicts the expired flows, in the order in which they are found. -/
  pruned : ∀ olderThan,
    Step queues (.prune olderThan (queues.expired olderThan)) (queues.prune olderThan).2 ∧
      Fells queues (queues.prune olderThan).2 (ExpiredRoot queues olderThan) ∧
      (queues.prune olderThan).1 = (queues.deleted (queues.prune olderThan).2).length
  /-- A job notes the time when it finishes, and keeps it. -/
  dated : ∀ act after, Step queues act after → ∀ key old new, queues.job? key = some old →
    after.job? key = some new → new.state.isFinished = true →
      new.finishedAt = if old.state.isFinished then old.finishedAt else some queues.now
  /-- What a step deletes never comes back, and what was pending for it comes to nothing. -/
  inert : ∀ act after, Step queues act after → ∀ key ∈ queues.deleted after,
    ∀ later, after.Leads later → later.job? key = none ∧
      ∀ act' final, Step later act' final → act'.TakesUp later key → Inert later final

theorem Fells.congr {isRoot isRoot' : JobKey → Prop} (fells : Fells queues after isRoot)
    (same : ∀ key, isRoot key ↔ isRoot' key) : Fells queues after isRoot' :=
  (funext fun key => propext (same key) : isRoot = isRoot') ▸ fells

theorem Reachable.fells_expired (reached : Reachable settings queues) {olderThan : Nat}
    {keys : List JobKey} (found : keys.Perm (queues.expired olderThan)) :
    Fells queues (queues.removeAll keys).1 (ExpiredRoot queues olderThan) :=
  (fells_removeAll reached keys).congr fun _ =>
    found.mem_iff.trans (reached.dated.mem_expired_iff olderThan)

/-- A deleted job never comes back. -/
theorem stays_gone (reached : Reachable settings queues) (step : Step queues act after)
    (isDeleted : key ∈ queues.deleted after) (leads : after.Leads later) :
    later.job? key = none := by
  obtain ⟨⟨job, stored⟩, gone⟩ := of_mem_deleted isDeleted
  have steady := reached.steady
  have born := (step.effect steady).born (steady.sound.born stored)
  rw [Option.eq_none_iff_forall_ne_some]
  intro again isStored
  obtain ⟨left, isLeft, -⟩ := leads.origin (reached.step step) born isStored
  cases gone.symm.trans isLeft

/-- Evictions take whole trees, and what is left of them is inert. -/
theorem evictions_take_whole_trees (reached : Reachable settings queues) : Evictions queues where
  known := remove_fst_iff reached
  remove key := (fells_removeAll reached [key]).congr fun _ => List.mem_singleton
  prune _ keys found := ⟨reached.fells_expired found, removeAll_snd queues keys⟩
  pruned olderThan :=
    ⟨.prune (.refl _), reached.fells_expired (.refl _),
      removeAll_snd queues (queues.expired olderThan)⟩
  dated _ _ step _ _ _ before stored finished :=
    step.finishedAt_eq reached.steady before stored finished
  inert := by
    intro act after step key isDeleted later leads
    have gone := stays_gone reached step isDeleted leads
    exact ⟨gone, fun _ _ stepLater takesUp => takesUp.inert stepLater gone⟩

/-- A job with three jobs below it, the first of which binds it. -/
def Sample.fanned : Flow :=
  ⟨"top", "default", .null, .standard,
    [⟨"first", "default", .null, { JobOptions.standard with failParentOnFailure := true }, []⟩,
      ⟨"second", "default", .null, .standard, []⟩, ⟨"third", "default", .null, .standard, []⟩]⟩

/-- The call for one of the lower jobs. -/
def Sample.callFanned (serial : Nat) (name : String) : Call :=
  { key := ⟨"default", jobIdOf serial⟩, name, data := .null, attempt := 1, maxAttempts := 3
    children := .empty, startedAt := 0 }

/-- One of the lower jobs fails for good while another is running and the last one waits. -/
def Sample.cutThrough : List Act :=
  [.add Sample.fanned (countsOf Sample.fanned), .startWorker "default", .advance "default",
    .advance "default", .advance "default", .advance "default", .advance "default",
    .advance "default",
    .finish (Sample.callFanned 1 "first") (.error (.unrecoverable "broken")), .advance "default"]

/-- What is left of the second and the third job is taken up. -/
def Sample.leftovers : List Act :=
  [.finish (Sample.callFanned 2 "second") (.ok .null), .advance "default", .advance "default"]

theorem evictions_take_whole_trees_live : ∃ queues after final,
    follow? Sample.cutThrough (.start .empty) = some queues ∧
      (List.range 4).map (fun serial => queues.jobState? ⟨"default", jobIdOf serial⟩) =
        [some .failed, some .failed, some .active, some .waiting] ∧
      queues.unfinishedCount "default" = 2 ∧
      queues.next? (.remove ⟨"default", jobIdOf 0⟩) = some after ∧
      (queues.deleted after).length = 4 ∧ after.unfinishedCount "default" = 0 ∧
      follow? Sample.leftovers after = some final ∧ final.jobCount = 0 ∧
      final.unfinishedCount "default" = 0 ∧ Evictions queues := by
  have run : ((follow? Sample.cutThrough (.start .empty)).bind fun queues =>
      (queues.next? (.remove ⟨"default", jobIdOf 0⟩)).bind fun after =>
      (follow? Sample.leftovers after).map fun final =>
        ((List.range 4).map (fun serial => queues.jobState? ⟨"default", jobIdOf serial⟩),
          queues.unfinishedCount "default", (queues.deleted after).length,
          after.unfinishedCount "default", final.jobCount, final.unfinishedCount "default")) =
      some ([some .failed, some .failed, some .active, some .waiting], 2, 4, 0, 0, 0) := by
    decide +kernel
  simp only [Option.bind_eq_some_iff, Option.map_eq_some_iff, Prod.mk.injEq] at run
  obtain ⟨queues, followed, after, next, final, followedLater, states, before, felled, left, jobs,
    places⟩ := run
  exact ⟨queues, after, final, followed, states, before, next, felled, left, followedLater, jobs,
    places, evictions_take_whole_trees ((leads_of_follow? followed).reachable .start)⟩

end Queues

end Relay
