import Mathlib.Data.List.Chain
import Relay.Proofs.Queue.Announced

/-!
# Chains of jobs

In a chain every job is the only child of the next one.  A chain is always in one of
three phases: all its jobs have completed; one job is under way, the jobs below it have
completed and those above it are as they were submitted; or one job has failed, and the
jobs above it have inherited its failure without being tried.

How the attempts of a job end is given from outside, job by job and attempt by attempt.
-/

namespace Relay

/-! ## Attempts -/

/-- The first attempts failed, and each time another one was allowed. -/
def Retried (verdict : Nat → Except JobError Unit) (limit tries : Nat) : Prop :=
  ∀ attempt, 1 ≤ attempt → attempt ≤ tries →
    attempt < limit ∧ ∃ message, verdict attempt = .error (.retryable message)

/-- Some attempt succeeds, and all attempts before it are tried again. -/
def Succeeds (verdict : Nat → Except JobError Unit) (limit tries : Nat) : Prop :=
  Retried verdict limit tries ∧ verdict (tries + 1) = .ok ()

/-- Some attempt fails for good, and all attempts before it are tried again. -/
structure Fails (verdict : Nat → Except JobError Unit) (limit tries : Nat) (error : JobError) :
    Prop where
  retried : Retried verdict limit tries
  ends : verdict (tries + 1) = .error error
  /-- An attempt that could be tried again was the last one. -/
  last : ∀ message, error = .retryable message → limit ≤ tries + 1

theorem retried_zero (verdict : Nat → Except JobError Unit) (limit : Nat) :
    Retried verdict limit 0 := by
  intro attempt positive none
  omega

theorem Retried.succ {verdict : Nat → Except JobError Unit} {limit tries : Nat} {message : String}
    (retried : Retried verdict limit tries) (again : tries + 1 < limit)
    (ends : verdict (tries + 1) = .error (.retryable message)) :
    Retried verdict limit (tries + 1) := by
  intro attempt positive atMost
  rcases Nat.lt_or_eq_of_le atMost with earlier | rfl
  · exact retried attempt positive (Nat.le_of_lt_succ earlier)
  · exact ⟨again, message, ends⟩

/-! ## Links -/

/-- What a stored job was submitted as. -/
structure Job.Stems (seed job : Job) : Prop where
  queue : job.queue = seed.queue
  name : job.name = seed.name
  data : job.data = seed.data
  options : job.options = seed.options
  parent : job.parent = seed.parent
  children : job.children = seed.children

theorem Job.Stems.congr {seed job new : Job} (stems : seed.Stems job)
    (queue : new.queue = job.queue) (name : new.name = job.name) (data : new.data = job.data)
    (options : new.options = job.options) (parent : new.parent = job.parent)
    (children : new.children = job.children) : seed.Stems new where
  queue := queue.trans stems.queue
  name := name.trans stems.name
  data := data.trans stems.data
  options := options.trans stems.options
  parent := parent.trans stems.parent
  children := children.trans stems.children

/-- A job of a chain: its key, and the job as it was submitted. -/
structure Link where
  key : JobKey
  seed : Job
  deriving DecidableEq

/-- How the attempts of jobs end, and how many of them a job is allowed. -/
structure Trials where
  verdict : Link → Nat → Except JobError Unit
  limit : Job → Nat

namespace Link

/-- A job is the only child of another, which waits for it. -/
structure Below (below above : Link) : Prop where
  parent : below.seed.parent = some above.key
  children : above.seed.children = [below.key]
  state : above.seed.state = .waitingChildren
  pending : above.seed.pendingChildren = 1

variable (jobs : JobKey → Option Job) (trials : Trials) (link : Link)

/-- The job is as it was submitted. -/
def Untouched : Prop := jobs link.key = some link.seed

/-- The job has completed with the first attempt that succeeds. -/
def Completed : Prop :=
  ∃ job tries, jobs link.key = some job ∧ link.seed.Stems job ∧ job.state = .completed ∧
    job.attemptsMade = tries + 1 ∧ Succeeds (trials.verdict link) (trials.limit link.seed) tries

/-- The attempts of the job have not come to an end. -/
def Underway : Prop :=
  ∃ job tries, jobs link.key = some job ∧ link.seed.Stems job ∧
    Retried (trials.verdict link) (trials.limit link.seed) tries ∧
    (job.state = .active ∧ job.attemptsMade = tries + 1 ∨
      (job.state = .waiting ∨ job.state = .delayed) ∧ job.attemptsMade = tries)

/-- The job has failed with the error of its last attempt. -/
def Broken (error : JobError) : Prop :=
  ∃ job tries, jobs link.key = some job ∧ link.seed.Stems job ∧ job.state = .failed ∧
    job.failedReason = some error.message ∧ job.attemptsMade = tries + 1 ∧
    Fails (trials.verdict link) (trials.limit link.seed) tries error

/-- The job has failed without an attempt. -/
def Inherits (reason : String) : Prop :=
  ∃ job, jobs link.key = some job ∧ link.seed.Stems job ∧ job.state = .failed ∧
    job.failedReason = some reason ∧ job.attemptsMade = 0

variable {jobs trials link} {after : JobKey → Option Job}

theorem Completed.congr (completed : link.Completed jobs trials)
    (same : after link.key = jobs link.key) : link.Completed after trials := by
  unfold Completed
  rw [same]
  exact completed

theorem Underway.congr (underway : link.Underway jobs trials)
    (same : after link.key = jobs link.key) : link.Underway after trials := by
  unfold Underway
  rw [same]
  exact underway

/-- Unless an attempt runs, every attempt made has asked for a further one. -/
theorem Underway.resting {job : Job} (underway : link.Underway jobs trials)
    (stored : jobs link.key = some job) (notActive : job.state ≠ .active) :
    link.seed.Stems job ∧
      Retried (trials.verdict link) (trials.limit link.seed) job.attemptsMade := by
  obtain ⟨found, tries, isFound, stems, retried, stage⟩ := underway
  cases stored.symm.trans isFound
  rcases stage with ⟨active, -⟩ | ⟨-, made⟩
  · exact absurd active notActive
  · exact ⟨stems, made ▸ retried⟩

/-- While an attempt runs, the attempts before it have asked for a further one. -/
theorem Underway.running {job : Job} (underway : link.Underway jobs trials)
    (stored : jobs link.key = some job) (active : job.state = .active) :
    ∃ tries, job.attemptsMade = tries + 1 ∧ link.seed.Stems job ∧
      Retried (trials.verdict link) (trials.limit link.seed) tries := by
  obtain ⟨found, tries, isFound, stems, retried, stage⟩ := underway
  cases stored.symm.trans isFound
  rcases stage with ⟨-, made⟩ | ⟨waits, -⟩
  · exact ⟨tries, made, stems, retried⟩
  · rw [active] at waits
    simp at waits

theorem Broken.congr {error : JobError} (broken : link.Broken jobs trials error)
    (same : after link.key = jobs link.key) : link.Broken after trials error := by
  unfold Broken
  rw [same]
  exact broken

theorem Inherits.congr {reason : String} (inherits : link.Inherits jobs reason)
    (same : after link.key = jobs link.key) : link.Inherits after reason := by
  unfold Inherits
  rw [same]
  exact inherits

end Link

/-- The jobs of a chain, the innermost first. -/
structure Linked (links : List Link) : Prop where
  distinct : (links.map Link.key).Nodup
  joined : links.IsChain Link.Below
  bottom : ∀ link ∈ links.head?, link.seed.children = [] ∧ link.seed.state = .waiting
  top : ∀ link ∈ links.getLast?, link.seed.parent = none
  untried : ∀ link ∈ links, link.seed.attemptsMade = 0
  binding : ∀ link ∈ links, link.seed.options.failParentOnFailure = true

namespace Linked

variable {links before rest : List Link} {link other : Link}

/-- A job of a chain has a place in it. -/
theorem apart (linked : Linked (before ++ link :: rest)) :
    (∀ other ∈ before, other.key ≠ link.key) ∧ ∀ other ∈ rest, other.key ≠ link.key := by
  have distinct := linked.distinct
  rw [List.map_append, List.map_cons, List.nodup_append] at distinct
  obtain ⟨-, distinctRest, disjoint⟩ := distinct
  constructor
  · intro other member
    exact disjoint _ (List.mem_map_of_mem member) _ List.mem_cons_self
  · intro other member same
    exact (List.nodup_cons.1 distinctRest).1 (same ▸ List.mem_map_of_mem member)

/-- The jobs above another wait for a child. -/
theorem waits (linked : Linked (before ++ link :: rest)) (member : other ∈ rest) :
    other.seed.state = .waitingChildren := by
  obtain ⟨between, others, rfl⟩ := List.append_of_mem member
  have joined := linked.joined
  have whole : before ++ link :: (between ++ other :: others) =
      (before ++ link :: between) ++ other :: others := by simp
  rw [whole] at joined
  obtain ⟨lower, last, shape⟩ := List.eq_nil_or_concat' (link :: between) |>.resolve_left (by simp)
  rw [shape, ← List.append_assoc, List.append_assoc, List.singleton_append] at joined
  exact (List.isChain_append_cons_cons.1 joined).2.1.state

/-- The job above another is its parent. -/
theorem below {above : Link} (linked : Linked (before ++ link :: above :: rest)) :
    link.Below above :=
  (List.isChain_append_cons_cons.1 linked.joined).2.1

/-- The last job of a chain has no parent. -/
theorem parent_last (linked : Linked (before ++ [link])) : link.seed.parent = none :=
  linked.top link (by simp)

/-- The children of the jobs of a chain belong to it. -/
theorem child_mem (linked : Linked links) (member : link ∈ links) {child : JobKey}
    (isChild : child ∈ link.seed.children) : child ∈ links.map Link.key := by
  obtain ⟨before, rest, rfl⟩ := List.append_of_mem member
  rcases List.eq_nil_or_concat' before with rfl | ⟨lower, last, rfl⟩
  · rw [(linked.bottom link (by simp)).1] at isChild
    exact absurd isChild List.not_mem_nil
  · rw [List.append_assoc, List.singleton_append] at linked ⊢
    rw [linked.below.children, List.mem_singleton] at isChild
    simp [isChild]

end Linked

/-! ## Phases -/

section Phases

variable (trials : Trials) (jobs : JobKey → Option Job)

/-- One job of a chain is under way. -/
structure Live (before : List Link) (link : Link) (rest : List Link) : Prop where
  before : ∀ other ∈ before, other.Completed jobs trials
  underway : link.Underway jobs trials
  rest : ∀ other ∈ rest, other.Untouched jobs

/-- One job of a chain has failed, and the jobs above it with it. -/
structure Stranded (before : List Link) (link : Link) (rest : List Link) (error : JobError) :
    Prop where
  before : ∀ other ∈ before, other.Completed jobs trials
  broken : link.Broken jobs trials error
  rest : ∀ other ∈ rest,
    other.Inherits jobs (Queues.inheritedReason link.seed.name error.message)

/-- How far a chain has come. -/
inductive Phase (links : List Link) : Prop where
  | completed (all : ∀ link ∈ links, link.Completed jobs trials)
  | live {before rest : List Link} {link : Link} (whole : links = before ++ link :: rest)
      (live : Live trials jobs before link rest)
  | stranded {before rest : List Link} {link : Link} {error : JobError}
      (whole : links = before ++ link :: rest)
      (stranded : Stranded trials jobs before link rest error)

end Phases

namespace Phase

variable {trials : Trials} {jobs after : JobKey → Option Job} {links : List Link} {link : Link}

/-- The phase of a chain is a matter of its own jobs. -/
theorem congr (phase : Phase trials jobs links)
    (same : ∀ link ∈ links, after link.key = jobs link.key) : Phase trials after links := by
  cases phase with
  | completed all => exact .completed fun link member => (all link member).congr (same link member)
  | @live before rest link whole live =>
      subst whole
      apply Phase.live rfl
      constructor
      case before =>
        exact fun other member => (live.before other member).congr (same other (by simp [member]))
      case underway => exact live.underway.congr (same link (by simp))
      case rest =>
        exact fun other member => (same other (by simp [member])).trans (live.rest other member)
  | @stranded before rest link error whole stranded =>
      subst whole
      apply Phase.stranded rfl
      constructor
      case before =>
        exact fun other member =>
          (stranded.before other member).congr (same other (by simp [member]))
      case broken => exact stranded.broken.congr (same link (by simp))
      case rest =>
        exact fun other member => (stranded.rest other member).congr (same other (by simp [member]))

/-- Every job of a chain is stored. -/
theorem stored (phase : Phase trials jobs links) (member : link ∈ links) :
    ∃ job, jobs link.key = some job ∧ link.seed.Stems job := by
  have ofCompleted : link.Completed jobs trials →
      ∃ job, jobs link.key = some job ∧ link.seed.Stems job :=
    fun ⟨job, _, stored, stems, _⟩ => ⟨job, stored, stems⟩
  cases phase with
  | completed all => exact ofCompleted (all link member)
  | live whole live =>
      rw [whole] at member
      rcases List.mem_append.1 member with earlier | later
      · exact ofCompleted (live.before link earlier)
      · rcases List.mem_cons.1 later with rfl | above
        · obtain ⟨job, _, stored, stems, _⟩ := live.underway
          exact ⟨job, stored, stems⟩
        · exact ⟨link.seed, live.rest link above, rfl, rfl, rfl, rfl, rfl, rfl⟩
  | stranded whole stranded =>
      rw [whole] at member
      rcases List.mem_append.1 member with earlier | later
      · exact ofCompleted (stranded.before link earlier)
      · rcases List.mem_cons.1 later with rfl | above
        · obtain ⟨job, _, stored, stems, _⟩ := stranded.broken
          exact ⟨job, stored, stems⟩
        · obtain ⟨job, stored, stems, _⟩ := stranded.rest link above
          exact ⟨job, stored, stems⟩

/-- A job that is neither finished nor waits for a child is the one that is under way. -/
theorem live_of_state (phase : Phase trials jobs links) (linked : Linked links)
    (member : link ∈ links) {job : Job} (stored : jobs link.key = some job)
    (unfinished : job.state.isFinished = false) (ready : job.state ≠ .waitingChildren) :
    ∃ before rest, links = before ++ link :: rest ∧ Live trials jobs before link rest := by
  have notCompleted : ¬ link.Completed jobs trials := by
    rintro ⟨found, _, isStored, -, state, -⟩
    cases stored.symm.trans isStored
    rw [state] at unfinished
    cases unfinished
  cases phase with
  | completed all => exact absurd (all link member) notCompleted
  | @live before rest other whole live =>
      subst whole
      rcases List.mem_append.1 member with earlier | later
      · exact absurd (live.before link earlier) notCompleted
      · rcases List.mem_cons.1 later with rfl | above
        · exact ⟨before, rest, rfl, live⟩
        · cases stored.symm.trans (live.rest link above)
          exact absurd (linked.waits above) ready
  | stranded whole stranded =>
      rw [whole] at member
      rcases List.mem_append.1 member with earlier | later
      · exact absurd (stranded.before link earlier) notCompleted
      · rcases List.mem_cons.1 later with rfl | above
        · obtain ⟨found, _, isStored, -, state, -⟩ := stranded.broken
          cases stored.symm.trans isStored
          rw [state] at unfinished
          cases unfinished
        · obtain ⟨found, isStored, -, state, -⟩ := stranded.rest link above
          cases stored.symm.trans isStored
          rw [state] at unfinished
          cases unfinished

end Phase

end Relay
