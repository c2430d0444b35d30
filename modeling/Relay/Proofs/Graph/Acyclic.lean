import Mathlib.Data.List.Basic
import Mathlib.Data.List.Nodup
import Mathlib.Data.List.Perm.Subperm
import Relay.Graph.Validation

/-!
# What validation promises

A validated list of tasks has distinct names, its fathers are among its tasks,
and following fathers comes to an end.  The last point is the soundness of the
depth-first search: whenever a visit succeeds, every name that was visited and
is no longer on the path is accessible in the father relation.
-/

namespace Relay

namespace Graph

/-- The task of a name names a father. -/
def IsFather (tasks : List Task) (father name : String) : Prop := father ∈ fathersOf tasks name

/-- What a list of tasks has to satisfy to be a workflow. -/
structure WellFormed (tasks : List Task) : Prop where
  nonempty : tasks ≠ []
  named : ∀ task ∈ tasks, Text.isBlank task.name = false
  unique : (tasks.map Task.name).Nodup
  resolved : ∀ task ∈ tasks, ∀ father ∈ task.fathers, father ∈ tasks.map Task.name
  acyclic : ∀ task ∈ tasks, Acc (IsFather tasks) task.name

/-! ## Names and fathers -/

theorem fathersOf_subset {tasks : List Task} {name father : String}
    (isFather : father ∈ fathersOf tasks name) :
    ∃ task ∈ tasks, task.name = name ∧ father ∈ task.fathers := by
  unfold fathersOf at isFather
  cases found : tasks.find? fun task => task.name == name with
  | none => simp [found] at isFather
  | some task =>
      have named : task.name = name := by simpa using List.find?_some found
      exact ⟨task, List.mem_of_find?_eq_some found, named, by simpa [found] using isFather⟩

/-- With distinct names the fathers of a name are those of its task. -/
theorem fathersOf_eq {tasks : List Task} (unique : (tasks.map Task.name).Nodup) {task : Task}
    (member : task ∈ tasks) : fathersOf tasks task.name = task.fathers := by
  have found : (tasks.find? fun other => other.name == task.name) = some task := by
    induction tasks with
    | nil => simp at member
    | cons head rest ih =>
        rw [List.map_cons, List.nodup_cons] at unique
        rcases List.mem_cons.1 member with equal | later
        · subst equal
          simp
        · have different : head.name ≠ task.name := fun same =>
            unique.1 (List.mem_map.2 ⟨task, later, same.symm⟩)
          rw [List.find?_cons_of_neg (by simpa using different)]
          exact ih unique.2 later
  simp [fathersOf, found]

theorem checkNames_ok {seen : List String} {tasks : List Task}
    (passed : checkNames seen tasks = .ok ()) :
    (∀ task ∈ tasks, Text.isBlank task.name = false) ∧ (tasks.map Task.name).Nodup ∧
      ∀ task ∈ tasks, task.name ∉ seen := by
  induction tasks generalizing seen with
  | nil => simp
  | cons head rest ih =>
      rw [checkNames] at passed
      split at passed
      · cases passed
      · next present =>
          split at passed
          · cases passed
          · next fresh =>
              obtain ⟨named, unique, apart⟩ := ih passed
              have headFresh : head.name ∉ seen := by simpa using fresh
              refine ⟨?_, ?_, ?_⟩
              · intro task member
                rcases List.mem_cons.1 member with equal | later
                · subst equal
                  simpa using present
                · exact named task later
              · rw [List.map_cons, List.nodup_cons]
                refine ⟨fun again => ?_, unique⟩
                obtain ⟨task, member, same⟩ := List.mem_map.1 again
                exact apart task member (same ▸ List.mem_cons_self)
              · intro task member
                rcases List.mem_cons.1 member with equal | later
                · exact equal ▸ headFresh
                · exact fun before => apart task later (List.mem_cons_of_mem _ before)

theorem checkFathers_ok {names : List String} {tasks : List Task}
    (passed : checkFathers names tasks = .ok ()) :
    ∀ task ∈ tasks, ∀ father ∈ task.fathers, father ∈ names := by
  induction tasks with
  | nil => simp
  | cons head rest ih =>
      rw [checkFathers] at passed
      split at passed
      · cases passed
      · next noneMissing =>
          intro task member
          rcases List.mem_cons.1 member with equal | later
          · subst equal
            simpa using noneMissing
          · exact ih passed task later

/-! ## The search for cycles -/

/-- Every name that was visited and left again is accessible. -/
def Settled (tasks : List Task) (path visited : List String) : Prop :=
  ∀ name ∈ visited, name ∉ path → Acc (IsFather tasks) name

/-- A path that a visit may extend: no name twice, all names those of tasks, and
enough depth for the names that are not on it. -/
structure Extends (tasks : List Task) (depth : Nat) (path : List String) : Prop where
  nodup : path.Nodup
  inside : path ⊆ tasks.map Task.name
  room : tasks.length < path.length + depth

theorem Extends.depth_pos {tasks : List Task} {depth : Nat} {path : List String}
    (allowed : Extends tasks depth path) : 0 < depth := by
  have short : path.length ≤ (tasks.map Task.name).length :=
    (allowed.nodup.subperm allowed.inside).length_le
  have room := allowed.room
  rw [List.length_map] at short
  omega

theorem Extends.cons {tasks : List Task} {depth : Nat} {path : List String} {name : String}
    (allowed : Extends tasks (depth + 1) path) (fresh : name ∉ path)
    (isTask : name ∈ tasks.map Task.name) : Extends tasks depth (name :: path) where
  nodup := List.nodup_cons.2 ⟨fresh, allowed.nodup⟩
  inside := List.cons_subset.2 ⟨isTask, allowed.inside⟩
  room := by
    have room := allowed.room
    rw [List.length_cons]
    omega

theorem foldlM_visit_ok {tasks : List Task} {depth : Nat} {path : List String}
    (visitOk : ∀ visited name after, name ∈ tasks.map Task.name → Settled tasks path visited →
      visit tasks depth path visited name = .ok after →
      visited ⊆ after ∧ Settled tasks path after ∧ Acc (IsFather tasks) name)
    {fathers : List String} (resolved : ∀ father ∈ fathers, father ∈ tasks.map Task.name)
    {visited after : List String} (settled : Settled tasks path visited)
    (passed : fathers.foldlM (fun visited father => visit tasks depth path visited father) visited
      = .ok after) :
    visited ⊆ after ∧ Settled tasks path after ∧
      ∀ father ∈ fathers, Acc (IsFather tasks) father := by
  induction fathers generalizing visited with
  | nil =>
      cases passed
      exact ⟨List.Subset.refl _, settled, by simp⟩
  | cons father rest ih =>
      rw [List.foldlM_cons] at passed
      cases first : visit tasks depth path visited father with
      | error problem => rw [first] at passed; cases passed
      | ok between =>
          rw [first] at passed
          obtain ⟨grown, settledBetween, accFather⟩ :=
            visitOk visited father between (resolved father List.mem_cons_self) settled first
          obtain ⟨grownMore, settledAfter, accRest⟩ :=
            ih (fun other member => resolved other (List.mem_cons_of_mem _ member))
              settledBetween passed
          refine ⟨List.Subset.trans grown grownMore, settledAfter, ?_⟩
          intro other member
          rcases List.mem_cons.1 member with equal | later
          · exact equal ▸ accFather
          · exact accRest other later

/-- A visit that succeeds has found everything below its name accessible. -/
theorem visit_ok {tasks : List Task}
    (resolved : ∀ task ∈ tasks, ∀ father ∈ task.fathers, father ∈ tasks.map Task.name)
    {depth : Nat} {path visited after : List String} {name : String}
    (allowed : Extends tasks depth path) (isTask : name ∈ tasks.map Task.name)
    (settled : Settled tasks path visited)
    (passed : visit tasks depth path visited name = .ok after) :
    visited ⊆ after ∧ Settled tasks path after ∧ Acc (IsFather tasks) name := by
  induction depth generalizing path visited after name with
  | zero => exact absurd allowed.depth_pos (Nat.lt_irrefl 0)
  | succ depth ih =>
      rw [visit] at passed
      split at passed
      · cases passed
      · next offPath =>
          have fresh : name ∉ path := by simpa using offPath
          split at passed
          · next again =>
              cases passed
              have seen : name ∈ visited := by simpa using again
              exact ⟨List.Subset.refl _, settled, settled name seen fresh⟩
          · have longer := allowed.cons fresh isTask
            have settledHere : Settled tasks (name :: path) (name :: visited) := by
              intro other member offPath
              have different : other ≠ name := fun same => offPath (same ▸ List.mem_cons_self)
              exact settled other ((List.mem_cons.1 member).resolve_left different)
                fun onPath => offPath (List.mem_cons_of_mem _ onPath)
            have fathersResolved :
                ∀ father ∈ fathersOf tasks name, father ∈ tasks.map Task.name := by
              intro father isFather
              obtain ⟨task, member, -, listed⟩ := fathersOf_subset isFather
              exact resolved task member father listed
            obtain ⟨grown, settledAfter, accFathers⟩ :=
              foldlM_visit_ok (fun _ _ _ => ih longer) fathersResolved settledHere passed
            have accName : Acc (IsFather tasks) name := .intro name accFathers
            refine ⟨fun other member => grown (List.mem_cons_of_mem _ member), ?_, accName⟩
            intro other member offPath
            by_cases same : other = name
            · exact same ▸ accName
            · exact settledAfter other member fun onPath =>
                (List.mem_cons.1 onPath).elim same offPath

/-- The search succeeds only if following fathers comes to an end everywhere. -/
theorem checkCycles_ok {tasks : List Task}
    (resolved : ∀ task ∈ tasks, ∀ father ∈ task.fathers, father ∈ tasks.map Task.name)
    (passed : checkCycles tasks = .ok ()) :
    ∀ task ∈ tasks, Acc (IsFather tasks) task.name := by
  have allowed : Extends tasks (tasks.length + 1) [] := ⟨.nil, by simp, by simp⟩
  suffices searched : ∀ (part : List Task), part ⊆ tasks → ∀ visited after,
      Settled tasks [] visited →
      part.foldlM
        (fun visited task =>
          if visited.contains task.name then .ok visited
          else visit tasks (tasks.length + 1) [] visited task.name) visited
        = (.ok after : Except GraphProblem (List String)) →
      ∀ task ∈ part, Acc (IsFather tasks) task.name by
    rw [checkCycles] at passed
    simp only [bind, Except.bind] at passed
    split at passed
    · cases passed
    · next after found =>
        exact searched tasks (List.Subset.refl _) [] after (by simp [Settled]) found
  intro part
  induction part with
  | nil => simp
  | cons head rest ih =>
      intro inside visited after settled passed
      obtain ⟨headInside, restInside⟩ := List.cons_subset.1 inside
      rw [List.foldlM_cons] at passed
      split at passed
      · next again =>
          have seen : head.name ∈ visited := by simpa using again
          intro task member
          rcases List.mem_cons.1 member with equal | later
          · exact equal ▸ settled head.name seen (by simp)
          · exact ih restInside visited after settled passed task later
      · cases first : visit tasks (tasks.length + 1) [] visited head.name with
        | error problem => rw [first] at passed; cases passed
        | ok between =>
            rw [first] at passed
            obtain ⟨-, settledBetween, accHead⟩ :=
              visit_ok resolved allowed (List.mem_map_of_mem headInside) settled first
            intro task member
            rcases List.mem_cons.1 member with equal | later
            · exact equal ▸ accHead
            · exact ih restInside between after settledBetween passed task later

/-- A validated list of tasks is a workflow. -/
theorem wellFormed_of_validate {tasks : List Task} (valid : validate tasks = .ok ()) :
    WellFormed tasks := by
  rw [validate] at valid
  split at valid
  · cases valid
  · next nonempty =>
      cases names : checkNames [] tasks with
      | error problem => rw [names] at valid; cases valid
      | ok =>
          cases fathers : checkFathers (tasks.map Task.name) tasks with
          | error problem => rw [names, fathers] at valid; cases valid
          | ok =>
              rw [names, fathers] at valid
              obtain ⟨named, unique, -⟩ := checkNames_ok names
              have resolved := checkFathers_ok fathers
              exact ⟨by simpa using nonempty, named, unique, resolved,
                checkCycles_ok resolved valid⟩

end Graph

end Relay
