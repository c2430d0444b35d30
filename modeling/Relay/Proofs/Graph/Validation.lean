import Mathlib.Data.List.Chain
import Mathlib.Logic.Relation
import Relay.Proofs.Graph.Acyclic

/-!
# What validation decides

Validation accepts exactly the workflows: lists of tasks with present and distinct names,
fathers among the tasks, and no cycle.  Whatever it rejects fails the check that is
reported and passes all checks before it.  For the search for cycles this means that the
task at which it stops lies on a cycle: the path on which a visit stands is a chain of
fathers, so a name that is met on its own path is above itself.
-/

namespace Relay

namespace Graph

variable {tasks : List Task}

/-- A task of a given name lists the father. -/
def Lists (tasks : List Task) (father name : String) : Prop :=
  ∃ task ∈ tasks, task.name = name ∧ father ∈ task.fathers

/-- Following fathers leads from a name back to it. -/
def OnCycle (tasks : List Task) (name : String) : Prop :=
  Relation.TransGen (Lists tasks) name name

/-- The names of some tasks are present and distinct. -/
structure ProperlyNamed (tasks : List Task) : Prop where
  named : ∀ task ∈ tasks, Text.isBlank task.name = false
  unique : (tasks.map Task.name).Nodup

/-- All fathers of some tasks are among the names. -/
def Resolved (names : List String) (tasks : List Task) : Prop :=
  ∀ task ∈ tasks, ∀ father ∈ task.fathers, father ∈ names

/-- A list of tasks that is a workflow. -/
structure IsWorkflow (tasks : List Task) : Prop where
  nonempty : tasks ≠ []
  names : ProperlyNamed tasks
  fathers : Resolved (tasks.map Task.name) tasks
  acyclic : ∀ name, ¬ OnCycle tasks name

/-- The first check that a list of tasks fails, and the first place where it fails. -/
inductive FirstProblem (tasks : List Task) : GraphProblem → Prop where
  | empty (nothing : tasks = []) : FirstProblem tasks .emptyWorkflow
  | blank {before after : List Task} {task : Task} (split : tasks = before ++ task :: after)
      (earlier : ProperlyNamed before) (blank : Text.isBlank task.name = true) :
      FirstProblem tasks .missingName
  | duplicate {before after : List Task} {task : Task} (split : tasks = before ++ task :: after)
      (earlier : ProperlyNamed before) (present : Text.isBlank task.name = false)
      (again : task.name ∈ before.map Task.name) :
      FirstProblem tasks (.duplicateName task.name)
  | unresolved {before after : List Task} {task : Task} {known others : List String}
      {father : String} (names : ProperlyNamed tasks) (split : tasks = before ++ task :: after)
      (earlier : Resolved (tasks.map Task.name) before)
      (fathers : task.fathers = known ++ father :: others)
      (resolved : ∀ other ∈ known, other ∈ tasks.map Task.name)
      (missing : father ∉ tasks.map Task.name) :
      FirstProblem tasks (.unresolvedFather task.name father)
  /-- Any task on any cycle will do. -/
  | cycle {name : String} (names : ProperlyNamed tasks)
      (fathers : Resolved (tasks.map Task.name) tasks) (cycle : OnCycle tasks name) :
      FirstProblem tasks (.cycleDetected name)

/-! ## The names -/

theorem properlyNamed_nil : ProperlyNamed [] := ⟨by simp, .nil⟩

theorem ProperlyNamed.concat (named : ProperlyNamed tasks) {task : Task}
    (present : Text.isBlank task.name = false) (fresh : task.name ∉ tasks.map Task.name) :
    ProperlyNamed (tasks ++ [task]) where
  named other member := by
    rcases List.mem_append.1 member with before | last
    · exact named.named other before
    · exact List.mem_singleton.1 last ▸ present
  unique := by
    rw [List.map_append, List.map_singleton, ← List.concat_eq_append]
    exact named.unique.concat fresh

/-- The check of names stops at the first name that is blank or was given before. -/
theorem firstProblem_of_checkNames {earlier : List Task} {problem : GraphProblem}
    (named : ProperlyNamed earlier)
    (failed : checkNames (earlier.map Task.name).reverse tasks = .error problem) :
    FirstProblem (earlier ++ tasks) problem := by
  induction tasks generalizing earlier with
  | nil => cases failed
  | cons task rest ih =>
      rw [checkNames] at failed
      split at failed
      · next blank =>
          cases failed
          exact .blank rfl named blank
      · next present =>
          have present := Bool.eq_false_iff.2 present
          split at failed
          · next again =>
              cases failed
              exact .duplicate rfl named present (by simpa using again)
          · next fresh =>
              have longer := named.concat present (by simpa using fresh)
              have later : FirstProblem ((earlier ++ [task]) ++ rest) problem :=
                ih longer (by simpa using failed)
              simpa using later

/-! ## The fathers -/

/-- The check of fathers stops at the first one that is no task. -/
theorem firstProblem_of_checkFathers {earlier : List Task} {problem : GraphProblem}
    (names : ProperlyNamed (earlier ++ tasks))
    (resolved : Resolved ((earlier ++ tasks).map Task.name) earlier)
    (failed : checkFathers ((earlier ++ tasks).map Task.name) tasks = .error problem) :
    FirstProblem (earlier ++ tasks) problem := by
  induction tasks generalizing earlier with
  | nil => cases failed
  | cons task rest ih =>
      rw [checkFathers] at failed
      split at failed
      · next father found =>
          cases failed
          obtain ⟨missing, known, others, fathers, before⟩ := List.find?_eq_some_iff_append.1 found
          exact .unresolved names rfl resolved fathers (by simpa using before)
            (by simpa using missing)
      · next noneMissing =>
          have joined : earlier ++ task :: rest = (earlier ++ [task]) ++ rest := by simp
          rw [joined] at names resolved failed noneMissing ⊢
          refine ih names (fun other member father isFather => ?_) failed
          rcases List.mem_append.1 member with before | last
          · exact resolved other before father isFather
          · have known := List.find?_eq_none.1 noneMissing father
              (List.mem_singleton.1 last ▸ isFather)
            simpa only [Bool.not_eq_true, Bool.not_eq_false', List.contains_iff_mem] using known

/-! ## The search for cycles -/

theorem lists_of_isFather {father name : String} (isFather : IsFather tasks father name) :
    Lists tasks father name := fathersOf_subset isFather

/-- A name on the path that leads to it is above itself. -/
theorem onCycle_of_linked {name : String} {path : List String}
    (linked : List.IsChain (IsFather tasks) (name :: path)) (again : name ∈ path) :
    OnCycle tasks name := by
  have above : List.IsChain (Relation.TransGen (Lists tasks)) (name :: path) :=
    linked.imp fun _ _ isFather => .single (lists_of_isFather isFather)
  exact above.rel_cons again

/-- A loop that fails has failed at one of its items. -/
theorem exists_of_foldlM_error {α β ε : Type} {act : β → α → Except ε β} {items : List α}
    {state : β} {problem : ε} (failed : items.foldlM act state = .error problem) :
    ∃ item ∈ items, ∃ state, act state item = .error problem := by
  induction items generalizing state with
  | nil => cases failed
  | cons item rest ih =>
      rw [List.foldlM_cons] at failed
      cases first : act state item with
      | error other =>
          rw [first] at failed
          cases failed
          exact ⟨item, List.mem_cons_self, state, first⟩
      | ok next =>
          rw [first] at failed
          obtain ⟨other, member, found⟩ := ih failed
          exact ⟨other, List.mem_cons_of_mem _ member, found⟩

/-- A visit that fails, on a path of fathers, has found a cycle. -/
theorem onCycle_of_visit {depth : Nat} {path visited : List String} {name : String}
    {problem : GraphProblem} (linked : List.IsChain (IsFather tasks) (name :: path))
    (failed : visit tasks depth path visited name = .error problem) :
    ∃ closing, problem = .cycleDetected closing ∧ OnCycle tasks closing := by
  induction depth generalizing path visited name with
  | zero => cases failed
  | succ depth ih =>
      rw [visit] at failed
      split at failed
      · next again =>
          cases failed
          exact ⟨name, rfl, onCycle_of_linked linked (by simpa using again)⟩
      · split at failed
        · cases failed
        · obtain ⟨father, isFather, before, found⟩ := exists_of_foldlM_error failed
          exact ih (List.isChain_cons_cons.2 ⟨isFather, linked⟩) found

theorem onCycle_of_checkCycles {problem : GraphProblem}
    (failed : checkCycles tasks = .error problem) :
    ∃ closing, problem = .cycleDetected closing ∧ OnCycle tasks closing := by
  rw [checkCycles] at failed
  simp only [bind, Except.bind] at failed
  split at failed
  · next other found =>
      cases failed
      obtain ⟨task, -, visited, stopped⟩ := exists_of_foldlM_error found
      split at stopped
      · cases stopped
      · exact onCycle_of_visit (List.isChain_singleton _) stopped
  · cases failed

/-! ## All checks -/

/-- What is rejected fails the reported check and passes those before it. -/
theorem firstProblem_of_validate {problem : GraphProblem}
    (failed : validate tasks = .error problem) : FirstProblem tasks problem := by
  rw [validate] at failed
  split at failed
  · next nothing =>
      cases failed
      exact .empty (List.isEmpty_iff.1 nothing)
  · cases names : checkNames [] tasks with
    | error other =>
        rw [names] at failed
        cases failed
        exact firstProblem_of_checkNames properlyNamed_nil names
    | ok =>
        obtain ⟨named, unique, -⟩ := checkNames_ok names
        have properly : ProperlyNamed tasks := ⟨named, unique⟩
        cases fathers : checkFathers (tasks.map Task.name) tasks with
        | error problem =>
            rw [names, fathers] at failed
            cases failed
            exact @firstProblem_of_checkFathers tasks [] problem properly (by simp [Resolved])
              fathers
        | ok =>
            rw [names, fathers] at failed
            obtain ⟨closing, rfl, cycle⟩ := onCycle_of_checkCycles failed
            exact .cycle properly (checkFathers_ok fathers) cycle

/-- What comes to an end does not come back. -/
theorem not_transGen_self {α : Type} {relation : α → α → Prop} {value : α}
    (accessible : Acc relation value) : ¬ Relation.TransGen relation value value := by
  have descends := accessible.transGen
  clear accessible
  induction descends with
  | intro value _ ih => exact fun cycle => ih value cycle cycle

theorem WellFormed.isWorkflow (wellFormed : WellFormed tasks) : IsWorkflow tasks where
  nonempty := wellFormed.nonempty
  names := ⟨wellFormed.named, wellFormed.unique⟩
  fathers := wellFormed.resolved
  acyclic name cycle := by
    have same : Relation.TransGen (IsFather tasks) name name := by
      refine Relation.TransGen.mono (fun father child lists => ?_) _ _ cycle
      obtain ⟨task, member, rfl, listed⟩ := lists
      rw [IsFather, fathersOf_eq wellFormed.unique member]
      exact listed
    obtain ⟨child, -, isFather⟩ := Relation.TransGen.tail'_iff.1 cycle
    obtain ⟨task, member, rfl, -⟩ := isFather
    exact not_transGen_self (wellFormed.acyclic task member) same

/-- A workflow fails no check. -/
theorem FirstProblem.not_isWorkflow {problem : GraphProblem}
    (first : FirstProblem tasks problem) : ¬ IsWorkflow tasks := by
  intro workflow
  have listed : ∀ {before after : List Task} {task : Task}, tasks = before ++ task :: after →
      task ∈ tasks := by
    rintro before after task rfl
    simp
  cases first with
  | empty nothing => exact workflow.nonempty nothing
  | blank split earlier blank =>
      have present := workflow.names.named _ (listed split)
      rw [blank] at present
      cases present
  | duplicate split earlier present again =>
      have unique := workflow.names.unique
      rw [split, List.map_append, List.map_cons, List.nodup_append] at unique
      exact unique.2.2 _ again _ List.mem_cons_self rfl
  | unresolved names split earlier fathers resolved missing =>
      exact missing (workflow.fathers _ (listed split) _ (by rw [fathers]; simp))
  | cycle names fathers cycle => exact workflow.acyclic _ cycle

/-- Exactly the workflows are accepted. -/
theorem validate_eq_ok_iff : validate tasks = .ok () ↔ IsWorkflow tasks := by
  constructor
  · exact fun valid => (wellFormed_of_validate valid).isWorkflow
  · intro workflow
    cases valid : validate tasks with
    | ok => rfl
    | error problem => exact absurd workflow (firstProblem_of_validate valid).not_isWorkflow

/-- Whether tasks are a workflow does not depend on their order. -/
theorem IsWorkflow.perm {permuted : List Task} (workflow : IsWorkflow tasks)
    (perm : permuted.Perm tasks) : IsWorkflow permuted where
  nonempty := fun empty => workflow.nonempty (empty ▸ perm).nil_eq.symm
  names :=
    { named := fun task member => workflow.names.named task (perm.subset member)
      unique := (perm.map Task.name).nodup_iff.2 workflow.names.unique }
  fathers task member father isFather :=
    (perm.map Task.name).mem_iff.2 (workflow.fathers task (perm.subset member) father isFather)
  acyclic name cycle := by
    refine workflow.acyclic name (Relation.TransGen.mono (fun father child lists => ?_) _ _ cycle)
    obtain ⟨task, member, named, listed⟩ := lists
    exact ⟨task, perm.subset member, named, listed⟩

end Graph

end Relay
