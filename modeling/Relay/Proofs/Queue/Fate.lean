import Relay.Proofs.Queue.Chain

/-!
# The fate of a chain

How the attempts of its jobs end decides how a chain ends.  Either every job of it
succeeds, or one of its jobs is the first that fails for good.  There is no more than one
such job, and it fails with one error.
-/

namespace Relay

section Attempts

variable {verdict : Nat → Except JobError Unit} {limit tries others : Nat}
  {error problem : JobError}

/-- After an attempt that succeeds no other one follows. -/
theorem Succeeds.le (succeeds : Succeeds verdict limit tries)
    (retried : Retried verdict limit others) : others ≤ tries := by
  by_contra more
  obtain ⟨-, message, again⟩ :=
    retried (tries + 1) (Nat.le_add_left 1 tries) (Nat.lt_of_not_le more)
  cases succeeds.2.symm.trans again

/-- After an attempt that fails for good no other one follows. -/
theorem Fails.le (fails : Fails verdict limit tries error)
    (retried : Retried verdict limit others) : others ≤ tries := by
  by_contra more
  obtain ⟨allowed, message, again⟩ :=
    retried (tries + 1) (Nat.le_add_left 1 tries) (Nat.lt_of_not_le more)
  have same : error = .retryable message := Except.error.inj (fails.ends.symm.trans again)
  exact absurd (fails.last message same) (Nat.not_le_of_lt allowed)

theorem Succeeds.not_fails (succeeds : Succeeds verdict limit tries) :
    ¬ Fails verdict limit others error := by
  intro fails
  have same : tries = others := Nat.le_antisymm (fails.le succeeds.1) (succeeds.le fails.retried)
  subst same
  cases succeeds.2.symm.trans fails.ends

theorem Fails.error_eq (fails : Fails verdict limit tries error)
    (again : Fails verdict limit others problem) : error = problem := by
  have same : tries = others := Nat.le_antisymm (again.le fails.retried) (fails.le again.retried)
  subst same
  exact Except.error.inj (fails.ends.symm.trans again.ends)

end Attempts

section Chain

variable (trials : Trials)

/-- Some attempt of a job succeeds. -/
def Link.Succeeding (link : Link) : Prop :=
  ∃ tries, Succeeds (trials.verdict link) (trials.limit link.seed) tries

/-- Some attempt of a job fails for good. -/
def Link.Failing (link : Link) (error : JobError) : Prop :=
  ∃ tries, Fails (trials.verdict link) (trials.limit link.seed) tries error

/-- A job is the first of its chain that fails for good. -/
structure FirstFailing (before : List Link) (link : Link) (error : JobError) : Prop where
  before : ∀ other ∈ before, other.Succeeding trials
  failing : link.Failing trials error

variable {trials} {jobs : JobKey → Option Job} {before others rest more : List Link}
  {link other : Link} {error problem : JobError}

theorem Link.Succeeding.not_failing (succeeding : link.Succeeding trials) :
    ¬ link.Failing trials error := by
  rintro ⟨tries, fails⟩
  obtain ⟨others, succeeds⟩ := succeeding
  exact succeeds.not_fails fails

theorem Link.Completed.succeeding (completed : link.Completed jobs trials) :
    link.Succeeding trials := by
  obtain ⟨job, tries, -, -, -, -, succeeds⟩ := completed
  exact ⟨tries, succeeds⟩

theorem Stranded.firstFailing (stranded : Stranded trials jobs before link rest error) :
    FirstFailing trials before link error where
  before := fun other member => (stranded.before other member).succeeding
  failing := by
    obtain ⟨job, tries, -, -, -, -, -, fails⟩ := stranded.broken
    exact ⟨tries, fails⟩

/-- A chain has no more than one job that is the first to fail. -/
theorem FirstFailing.unique (first : FirstFailing trials before link error)
    (second : FirstFailing trials others other problem)
    (same : before ++ link :: rest = others ++ other :: more) :
    before = others ∧ link = other ∧ rest = more ∧ error = problem := by
  induction before generalizing others with
  | nil =>
      cases others with
      | nil =>
          obtain ⟨rfl, rfl⟩ := List.cons.inj same
          obtain ⟨tries, fails⟩ := first.failing
          obtain ⟨again, failsAgain⟩ := second.failing
          exact ⟨rfl, rfl, rfl, fails.error_eq failsAgain⟩
      | cons head tail =>
          obtain ⟨rfl, -⟩ := List.cons.inj same
          exact absurd first.failing (second.before link List.mem_cons_self).not_failing
  | cons head tail ih =>
      cases others with
      | nil =>
          obtain ⟨rfl, -⟩ := List.cons.inj same
          exact absurd second.failing (first.before head List.mem_cons_self).not_failing
      | cons otherHead otherTail =>
          obtain ⟨rfl, sameTail⟩ := List.cons.inj same
          have firstTail : FirstFailing trials tail link error :=
            ⟨fun other member => first.before other (List.mem_cons_of_mem _ member), first.failing⟩
          have secondTail : FirstFailing trials otherTail other problem :=
            ⟨fun other member => second.before other (List.mem_cons_of_mem _ member),
              second.failing⟩
          obtain ⟨rfl, rest⟩ := ih firstTail secondTail sameTail
          exact ⟨rfl, rest⟩

end Chain

end Relay
