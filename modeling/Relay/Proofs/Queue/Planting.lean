import Mathlib.Data.List.Nodup
import Mathlib.Data.List.Perm.Basic
import Relay.Queue.Submit

/-!
# Planted flows

What a flow becomes when it is submitted: a family of jobs under fresh
identifiers, in which parents and children agree about each other and exactly the
leaves are ready.
-/

namespace Relay

theorem jobIdOf_injective : Function.Injective jobIdOf := by
  intro left right same
  have digits : Nat.toDigits 10 left = Nat.toDigits 10 right := by
    have characters := congrArg String.toList same
    simpa [jobIdOf, Nat.toList_repr] using characters
  have values := congrArg (fun chars => Nat.ofDigitChars 10 chars 0) digits
  simpa only [Nat.ofDigitChars_ten_toDigits] using values

/-- The identifier of one job was given away before that of another. -/
def JobKey.Before (key other : JobKey) : Prop :=
  ∃ number later, key.id = jobIdOf number ∧ other.id = jobIdOf later ∧ number < later

/-- Nothing has come of a job yet. -/
structure Job.Fresh (job : Job) : Prop where
  returnValue : job.returnValue = none
  finishedAt : job.finishedAt = none
  attemptsMade : job.attemptsMade = 0

namespace Planting

/-- A planting holds a job under a key. -/
def Holds (planting : Planting) (key : JobKey) (job : Job) : Prop :=
  (key.id, job) ∈ planting.jobs ∧ job.queue = key.queue

/-- A job that has just been planted under a key. -/
structure Seedling (planting : Planting) (key : JobKey) (job : Job) : Prop where
  pending : job.pendingChildren = job.children.length
  distinct : job.children.Nodup
  state : job.state = if job.children = [] then .waiting else .waitingChildren
  children : ∀ child ∈ job.children, ∃ childJob, planting.Holds child childJob ∧
    childJob.parent = some key
  younger : ∀ child ∈ job.children, key.Before child

/-- A planting is a family of jobs below a parent, under the identifiers from a serial
number on. -/
structure Grown (parent : Option JobKey) (serial : Nat) (planting : Planting) : Prop where
  later : serial ≤ planting.next
  ids : ∀ entry ∈ planting.jobs,
    ∃ number, serial ≤ number ∧ number < planting.next ∧ entry.1 = jobIdOf number
  unique : (planting.jobs.map Prod.fst).Nodup
  seedling : ∀ key job, planting.Holds key job → planting.Seedling key job
  /-- Every job is a root or is listed by its parent. -/
  family : ∀ key job, planting.Holds key job →
    (key ∈ planting.roots ∧ job.parent = parent) ∨
      ∃ above aboveJob, planting.Holds above aboveJob ∧ job.parent = some above ∧
        key ∈ aboveJob.children
  roots : ∀ root ∈ planting.roots, ∃ job, planting.Holds root job ∧ job.parent = parent
  distinctRoots : planting.roots.Nodup
  distinctReady : planting.ready.Nodup
  ready : ∀ key, key ∈ planting.ready ↔ ∃ job, planting.Holds key job ∧ job.state = .waiting
  barren : planting.roots = [] → planting.jobs = [] ∧ planting.ready = []

namespace Grown

variable {parent : Option JobKey} {serial : Nat} {planting : Planting}

/-- Identifiers of a planting are not among those of an earlier or a later one. -/
theorem id_eq (grown : Grown parent serial planting) {key : JobKey} {job : Job}
    (holds : planting.Holds key job) :
    ∃ number, serial ≤ number ∧ number < planting.next ∧ key.id = jobIdOf number :=
  grown.ids _ holds.1

/-- A key holds at most one job. -/
theorem holds_unique (grown : Grown parent serial planting) {key : JobKey} {left right : Job}
    (one : planting.Holds key left) (other : planting.Holds key right) : left = right := by
  have injective := List.inj_on_of_nodup_map grown.unique
  exact congrArg Prod.snd (injective one.1 other.1 rfl)

end Grown

theorem grown_nil (parent : JobKey) (serial : Nat) :
    Grown (some parent) serial (ofFlows parent serial []) := by
  constructor <;> simp [ofFlows, Holds]

/-- Two plantings side by side. -/
def beside (first others : Planting) : Planting :=
  { roots := first.roots ++ others.roots, jobs := first.jobs ++ others.jobs
    ready := first.ready ++ others.ready, next := others.next }

theorem holds_beside {first others : Planting} {key : JobKey} {job : Job} :
    (first.beside others).Holds key job ↔ first.Holds key job ∨ others.Holds key job := by
  simp only [Holds, beside, List.mem_append]
  tauto

theorem Seedling.mono {planting larger : Planting} {key : JobKey} {job : Job}
    (seedling : planting.Seedling key job)
    (holds : ∀ key job, planting.Holds key job → larger.Holds key job) :
    larger.Seedling key job where
  pending := seedling.pending
  distinct := seedling.distinct
  state := seedling.state
  children child member := by
    obtain ⟨childJob, held, below⟩ := seedling.children child member
    exact ⟨childJob, holds _ _ held, below⟩
  younger := seedling.younger

/-- Plantings side by side have nothing in common. -/
theorem Grown.apart {parent : Option JobKey} {serial : Nat} {first others : Planting}
    (one : Grown parent serial first) (other : Grown parent first.next others) {key : JobKey}
    {left right : Job} (holds : first.Holds key left) (again : others.Holds key right) : False := by
  obtain ⟨number, -, below, same⟩ := one.id_eq holds
  obtain ⟨later, above, -, equal⟩ := other.id_eq again
  have := jobIdOf_injective (same.symm.trans equal)
  omega

theorem Grown.beside {parent : Option JobKey} {serial : Nat} {first others : Planting}
    (one : Grown parent serial first) (other : Grown parent first.next others) :
    Grown parent serial (first.beside others) where
  later := Nat.le_trans one.later other.later
  ids entry member := by
    rcases List.mem_append.1 member with inFirst | inOthers
    · obtain ⟨number, above, below, same⟩ := one.ids entry inFirst
      exact ⟨number, above, Nat.lt_of_lt_of_le below other.later, same⟩
    · obtain ⟨number, above, below, same⟩ := other.ids entry inOthers
      exact ⟨number, Nat.le_trans one.later above, below, same⟩
  unique := by
    show ((first.jobs ++ others.jobs).map Prod.fst).Nodup
    rw [List.map_append, List.nodup_append]
    refine ⟨one.unique, other.unique, ?_⟩
    rintro _ inFirst _ inOthers rfl
    obtain ⟨left, leftMember, same⟩ := List.mem_map.1 inFirst
    obtain ⟨right, rightMember, equal⟩ := List.mem_map.1 inOthers
    obtain ⟨number, -, below, isLeft⟩ := one.ids left leftMember
    obtain ⟨later, above, -, isRight⟩ := other.ids right rightMember
    have := jobIdOf_injective ((isLeft.symm.trans (same.trans equal.symm)).trans isRight)
    omega
  seedling key job holds := by
    rcases holds_beside.1 holds with inFirst | inOthers
    · exact (one.seedling key job inFirst).mono fun _ _ held => holds_beside.2 (.inl held)
    · exact (other.seedling key job inOthers).mono fun _ _ held => holds_beside.2 (.inr held)
  family key job holds := by
    rcases holds_beside.1 holds with inFirst | inOthers
    · rcases one.family key job inFirst with ⟨isRoot, below⟩ | ⟨above, aboveJob, held, rest⟩
      · exact .inl ⟨List.mem_append_left _ isRoot, below⟩
      · exact .inr ⟨above, aboveJob, holds_beside.2 (.inl held), rest⟩
    · rcases other.family key job inOthers with ⟨isRoot, below⟩ | ⟨above, aboveJob, held, rest⟩
      · exact .inl ⟨List.mem_append_right _ isRoot, below⟩
      · exact .inr ⟨above, aboveJob, holds_beside.2 (.inr held), rest⟩
  roots root member := by
    rcases List.mem_append.1 member with inFirst | inOthers
    · obtain ⟨job, held, below⟩ := one.roots root inFirst
      exact ⟨job, holds_beside.2 (.inl held), below⟩
    · obtain ⟨job, held, below⟩ := other.roots root inOthers
      exact ⟨job, holds_beside.2 (.inr held), below⟩
  distinctRoots := by
    refine List.nodup_append.2 ⟨one.distinctRoots, other.distinctRoots, ?_⟩
    rintro root inFirst _ inOthers rfl
    obtain ⟨left, held, -⟩ := one.roots root inFirst
    obtain ⟨right, again, -⟩ := other.roots root inOthers
    exact one.apart other held again
  distinctReady := by
    refine List.nodup_append.2 ⟨one.distinctReady, other.distinctReady, ?_⟩
    rintro key inFirst _ inOthers rfl
    obtain ⟨left, held, -⟩ := (one.ready key).1 inFirst
    obtain ⟨right, again, -⟩ := (other.ready key).1 inOthers
    exact one.apart other held again
  ready key := by
    show key ∈ first.ready ++ others.ready ↔ _
    simp only [List.mem_append, one.ready, other.ready, holds_beside, or_and_right, exists_or]
  barren none := by
    obtain ⟨noFirst, noOthers⟩ := List.append_eq_nil_iff.1 none
    obtain ⟨firstJobs, firstReady⟩ := one.barren noFirst
    obtain ⟨otherJobs, otherReady⟩ := other.barren noOthers
    exact ⟨List.append_eq_nil_iff.2 ⟨firstJobs, otherJobs⟩,
      List.append_eq_nil_iff.2 ⟨firstReady, otherReady⟩⟩

/-- A planting below a new root. -/
def under (below : Planting) (key : JobKey) (root : Job) : Planting :=
  { roots := [key], jobs := below.jobs ++ [(key.id, root)]
    ready := if below.roots.isEmpty then [key] else below.ready, next := below.next }

theorem holds_under {below : Planting} {key other : JobKey} {root job : Job}
    (same : root.queue = key.queue) :
    (below.under key root).Holds other job ↔ below.Holds other job ∨ (other = key ∧ job = root) := by
  simp only [Holds, under, List.mem_append, List.mem_singleton, Prod.mk.injEq]
  constructor
  · rintro ⟨member | ⟨sameId, rfl⟩, sameQueue⟩
    · exact .inl ⟨member, sameQueue⟩
    · refine .inr ⟨?_, rfl⟩
      cases other
      cases key
      simp_all
  · rintro (⟨member, sameQueue⟩ | ⟨rfl, rfl⟩)
    · exact ⟨.inl member, sameQueue⟩
    · exact ⟨.inr ⟨rfl, rfl⟩, same⟩

theorem Grown.under {parent : Option JobKey} {serial : Nat} {below : Planting} {key : JobKey}
    (grown : Grown (some key) (serial + 1) below) (id : key.id = jobIdOf serial) {root : Job}
    (same : root.queue = key.queue) (above : root.parent = parent)
    (children : root.children = below.roots) (pending : root.pendingChildren = root.children.length)
    (state : root.state = if root.children = [] then .waiting else .waitingChildren) :
    Grown parent serial (below.under key root) where
  later := Nat.le_of_succ_le grown.later
  ids entry member := by
    rcases List.mem_append.1 member with inBelow | isRoot
    · obtain ⟨number, after, before, same⟩ := grown.ids entry inBelow
      exact ⟨number, Nat.le_of_succ_le after, before, same⟩
    · exact ⟨serial, Nat.le_refl _, grown.later, by rw [List.mem_singleton.1 isRoot, id]⟩
  unique := by
    show ((below.jobs ++ [(key.id, root)]).map Prod.fst).Nodup
    rw [List.map_append, List.nodup_append]
    refine ⟨grown.unique, List.nodup_singleton _, ?_⟩
    rintro _ inBelow _ isRoot rfl
    obtain ⟨entry, member, equal⟩ := List.mem_map.1 inBelow
    obtain ⟨number, after, -, sameId⟩ := grown.ids entry member
    have isKey : entry.1 = key.id := equal.trans (by simpa using isRoot)
    have := jobIdOf_injective (sameId.symm.trans (isKey.trans id))
    omega
  seedling other job holds := by
    rcases (holds_under same).1 holds with inBelow | ⟨rfl, rfl⟩
    · exact (grown.seedling other job inBelow).mono fun _ _ held => (holds_under same).2 (.inl held)
    · have stored : ∀ child ∈ job.children, ∃ childJob, below.Holds child childJob ∧
          childJob.parent = some other := fun child member => grown.roots child (children ▸ member)
      refine ⟨pending, children ▸ grown.distinctRoots, state, fun child member => ?_,
        fun child member => ?_⟩
      · obtain ⟨childJob, held, parent⟩ := stored child member
        exact ⟨childJob, (holds_under same).2 (.inl held), parent⟩
      · obtain ⟨childJob, held, -⟩ := stored child member
        obtain ⟨number, later, -, equal⟩ := grown.id_eq held
        exact ⟨serial, number, id, equal, later⟩
  family other job holds := by
    rcases (holds_under same).1 holds with inBelow | ⟨rfl, rfl⟩
    · rcases grown.family other job inBelow with ⟨isRoot, parent⟩ | ⟨next, nextJob, held, rest⟩
      · exact .inr ⟨key, root, (holds_under same).2 (.inr ⟨rfl, rfl⟩), parent, children ▸ isRoot⟩
      · exact .inr ⟨next, nextJob, (holds_under same).2 (.inl held), rest⟩
    · exact .inl ⟨List.mem_singleton.2 rfl, above⟩
  roots other member := by
    obtain rfl := List.mem_singleton.1 member
    exact ⟨root, (holds_under same).2 (.inr ⟨rfl, rfl⟩), above⟩
  distinctRoots := List.nodup_singleton _
  distinctReady := by
    show (if below.roots.isEmpty then [key] else below.ready).Nodup
    split
    · exact List.nodup_singleton _
    · exact grown.distinctReady
  ready other := by
    show other ∈ (if below.roots.isEmpty then [key] else below.ready) ↔ _
    simp only [holds_under same]
    cases roots : below.roots with
    | nil =>
        obtain ⟨noJobs, -⟩ := grown.barren roots
        have nothing : ∀ job, ¬ below.Holds other job := by simp [Holds, noJobs]
        have waiting : root.state = .waiting := by rw [state, children, roots]; rfl
        simp only [List.isEmpty_nil, if_true, List.mem_singleton]
        constructor
        · rintro rfl
          exact ⟨root, .inr ⟨rfl, rfl⟩, waiting⟩
        · rintro ⟨job, held | ⟨equal, -⟩, -⟩
          · exact absurd held (nothing job)
          · exact equal
    | cons first rest =>
        have blocked : root.state = .waitingChildren := by rw [state, children, roots]; rfl
        simp only [List.isEmpty_cons, Bool.false_eq_true, if_false, grown.ready]
        constructor
        · rintro ⟨job, held, waiting⟩
          exact ⟨job, .inl held, waiting⟩
        · rintro ⟨job, held | ⟨-, rfl⟩, waiting⟩
          · exact ⟨job, held, waiting⟩
          · exact absurd (blocked.symm.trans waiting) (by decide)
  barren none := absurd none (List.cons_ne_nil _ _)

mutual

/-- A submitted flow becomes a family of jobs. -/
theorem grown_ofFlow (parent : Option JobKey) (serial : Nat) :
    (flow : Flow) → Grown parent serial (ofFlow parent serial flow)
  | ⟨_, queueName, _, _, children⟩ =>
      (grown_ofFlows ⟨queueName, jobIdOf serial⟩ (serial + 1) children).under rfl rfl rfl rfl rfl
        (by simp only [rootJob, List.isEmpty_iff])

theorem grown_ofFlows (parent : JobKey) (serial : Nat) :
    (flows : List Flow) → Grown (some parent) serial (ofFlows parent serial flows)
  | [] => grown_nil parent serial
  | flow :: rest => (grown_ofFlow (some parent) serial flow).beside (grown_ofFlows parent _ rest)

end

mutual

theorem fresh_ofFlow (parent : Option JobKey) (serial : Nat) :
    (flow : Flow) → ∀ entry ∈ (ofFlow parent serial flow).jobs, entry.2.Fresh
  | ⟨_, queueName, _, _, children⟩, _, member =>
      (List.mem_append.1 member).elim
        (fresh_ofFlows ⟨queueName, jobIdOf serial⟩ (serial + 1) children _)
        fun isRoot => List.mem_singleton.1 isRoot ▸ ⟨rfl, rfl, rfl⟩

theorem fresh_ofFlows (parent : JobKey) (serial : Nat) :
    (flows : List Flow) → ∀ entry ∈ (ofFlows parent serial flows).jobs, entry.2.Fresh
  | [], _, member => absurd member List.not_mem_nil
  | flow :: rest, _, member =>
      (List.mem_append.1 member).elim (fresh_ofFlow (some parent) serial flow _)
        (fresh_ofFlows parent _ rest _)

end

/-- Nothing has come of a job that is just planted. -/
theorem Holds.fresh {flow : Flow} {parent : Option JobKey} {serial : Nat} {key : JobKey} {job : Job}
    (holds : (ofFlow parent serial flow).Holds key job) : job.Fresh :=
  fresh_ofFlow parent serial flow _ holds.1

end Planting

end Relay
