import Relay.Proofs.Graph.TieBreak
import Relay.Proofs.Workflow.Validation

/-!
# Orders that are ordered again

The order of tasks is the only one that puts fathers first and in which everything stands in the
order in which it becomes ready, where tasks that become ready together are told apart by their
places in the input.  In its own order every task becomes ready at the same turn as before, and
the places in the input are now those in the order, which tell the same tasks apart in the same
way.  So the order of an order is the order itself, and a workflow that is submitted in the order
in which it runs becomes the same chain.
-/

namespace Relay

namespace Graph

/-! ## The rule leaves one order -/

section Rule

variable {links : List (List Nat)}

/-- In a list that puts fathers first those of a position stand before it. -/
theorem linksOf_subset_of_split {before later : List Nat} {position : Nat}
    (ordered : FathersBefore links (before ++ position :: later).reverse) :
    linksOf links position ⊆ before := by
  induction later using List.reverseRecOn with
  | nil =>
      rw [List.reverse_concat] at ordered
      exact fun father isFather => List.mem_reverse.1 (ordered.1 isFather)
  | append_singleton later last ih =>
      rw [← List.cons_append, ← List.append_assoc, List.reverse_concat] at ordered
      exact ih ordered.2

/-- Once some positions are put out, the rule decides on all others. -/
theorem eq_of_readySooner (taken : List Nat) {one other : List Nat} (perm : one.Perm other)
    (firstOne : FathersBefore links (taken ++ one).reverse)
    (firstOther : FathersBefore links (taken ++ other).reverse)
    (timelyOne : (taken ++ one).Pairwise (ReadySooner links (taken ++ one)))
    (timelyOther : (taken ++ other).Pairwise (ReadySooner links (taken ++ other))) :
    one = other := by
  induction one generalizing taken other with
  | nil => exact perm.nil_eq
  | cons first rest ih =>
      cases other with
      | nil => exact perm.eq_nil
      | cons second others =>
          by_cases same : first = second
          · subst same
            rw [ih (taken ++ [first]) perm.cons_inv (by simpa using firstOne)
              (by simpa using firstOther) (by simpa using timelyOne) (by simpa using timelyOther)]
          · -- Both are ready by now, so that each of them would be ready sooner than the other.
            have readyFirst := linksOf_subset_of_split firstOne
            have readySecond := linksOf_subset_of_split firstOther
            have later : second ∈ rest :=
              (List.mem_cons.1 (perm.symm.subset List.mem_cons_self)).resolve_left (Ne.symm same)
            have laterOther : first ∈ others :=
              (List.mem_cons.1 (perm.subset List.mem_cons_self)).resolve_left same
            have sooner : ReadySooner links (taken ++ first :: rest) first second :=
              List.rel_of_pairwise_cons (List.pairwise_append.1 timelyOne).2.1 later
            have soonerOther : ReadySooner links (taken ++ second :: others) second first :=
              List.rel_of_pairwise_cons (List.pairwise_append.1 timelyOther).2.1 laterOther
            rw [ReadySooner, releaseOf_append readyFirst, releaseOf_append readySecond] at sooner
            rw [ReadySooner, releaseOf_append readySecond, releaseOf_append readyFirst] at soonerOther
            exact absurd soonerOther sooner.not_sooner

/-- If every position becomes ready before its own turn, the list of all positions puts fathers
first. -/
theorem fathersBefore_range {count : Nat}
    (inside : ∀ position < count, ∀ father ∈ linksOf links position, father < position) :
    FathersBefore links (List.range count).reverse := by
  induction count with
  | zero => trivial
  | succ count ih =>
      rw [List.range_succ, List.reverse_concat]
      exact ⟨fun father isFather => List.mem_reverse.2
          (List.mem_range.2 (inside count (Nat.lt_succ_self count) father isFather)),
        ih fun position before => inside position (Nat.lt_succ_of_lt before)⟩

end Rule

/-! ## Tasks in their own order -/

section OwnOrder

variable {tasks ordered : List Task}

/-- In which order the tasks are listed does not matter to where the fathers of a task stand. -/
theorem fatherPlaces_perm (unique : (tasks.map Task.name).Nodup) (perm : ordered.Perm tasks)
    (places : List Task) (task : Task) :
    fatherPlaces ordered places task = fatherPlaces tasks places task := by
  have uniqueOrdered := (perm.map Task.name).nodup_iff.2 unique
  unfold fatherPlaces
  congr 1
  refine List.filterMap_congr fun name _ => Option.ext fun father => ?_
  rw [find?_name_iff uniqueOrdered, find?_name_iff unique, perm.mem_iff]

/-- Positions of tasks in the order of the tasks themselves are their places. -/
structure Arranges (tasks ordered : List Task) (positions : List Nat) : Prop where
  perm : positions.Perm (List.range tasks.length)
  ordered : ordered = positions.filterMap fun position => tasks[position]?
  first : FathersBefore (links tasks) positions.reverse
  timely : positions.Pairwise (ReadySooner (links tasks) positions)

theorem arranges_of_order (found : order tasks = .ok ordered) :
    Arranges tasks ordered (Progress.finish (links tasks)).done.reverse := by
  have all := all_done_of_order found
  cases found.symm.trans (order_of_acyclic all)
  have each := Progress.length_done_finish_iff.1 all
  rw [length_links] at each
  refine ⟨?_, rfl, ?_, Progress.pairwise_finish (links tasks)⟩
  · refine (List.reverse_perm _).trans ((List.perm_ext_iff_of_nodup
      (Progress.nodup_done_finish (links tasks)) List.nodup_range).2 fun position => ?_)
    rw [List.mem_range]
    exact ⟨fun member => length_links tasks ▸ Progress.lt_length_of_mem_done_finish member,
      each position⟩
  · rw [List.reverse_reverse]
    exact (Progress.consistent_finish (links tasks)).ordered

namespace Arranges

variable {positions : List Nat}

theorem inBounds (arranges : Arranges tasks ordered positions) :
    ∀ position ∈ positions, position < tasks.length :=
  fun _ member => List.mem_range.1 (arranges.perm.subset member)

theorem perm_tasks (arranges : Arranges tasks ordered positions) : ordered.Perm tasks := by
  have same := arranges.perm.filterMap fun position => tasks[position]?
  rwa [← arranges.ordered, filterMap_range_getElem?] at same

/-- What stands at a place of the order. -/
theorem getElem?_ordered (arranges : Arranges tasks ordered positions) {place position : Nat}
    (found : positions[place]? = some position) : ordered[place]? = tasks[position]? := by
  have same := congrArg (fun items => items[place]?) (map_some_filterMap arranges.inBounds)
  simp only [← arranges.ordered, List.getElem?_map, found, Option.map_some] at same
  cases isTask : ordered[place]? with
  | none => simp [isTask] at same
  | some task => simpa [isTask] using same

/-- A task becomes ready at the same turn when the tasks are listed in their order. -/
theorem releaseOf_range (arranges : Arranges tasks ordered positions)
    (unique : (tasks.map Task.name).Nodup) {place position : Nat}
    (found : positions[place]? = some position) :
    releaseOf (links ordered) (List.range ordered.length) place =
      releaseOf (links tasks) positions position := by
  have perm := arranges.perm_tasks
  have isTask := List.getElem?_eq_getElem
    (arranges.inBounds position (List.mem_of_getElem? found))
  have isOrdered := (arranges.getElem?_ordered found).trans isTask
  have before := turnAfter_fatherPlaces unique arranges.inBounds isTask
  have again := turnAfter_fatherPlaces ((perm.map Task.name).nodup_iff.2 unique)
    (fun _ => List.mem_range.1) isOrdered
  rw [← arranges.ordered] at before
  rw [filterMap_range_getElem?, fatherPlaces_perm unique perm, before] at again
  exact again.symm

/-- Nothing is put out before it becomes ready. -/
theorem releaseOf_le_place (arranges : Arranges tasks ordered positions) {place position : Nat}
    (found : positions[place]? = some position) :
    releaseOf (links tasks) positions position ≤ place := by
  obtain ⟨bound, rfl⟩ := List.getElem?_eq_some_iff.1 found
  have nodup : positions.Nodup := arranges.perm.nodup_iff.2 List.nodup_range
  have isHere := nodup.idxOf_getElem place bound
  refine turnAfter_le_iff.2 fun other member => ?_
  obtain ⟨father, isFather, rfl⟩ := List.mem_map.1 member
  have before := (idxOf_lt_idxOf arranges.first (List.nodup_reverse.2 nodup)
    (List.mem_reverse.2 (List.getElem_mem bound)) isFather).2
  rwa [List.reverse_reverse, isHere] at before

/-- The tasks in their order are arranged by the list of all places. -/
theorem range (arranges : Arranges tasks ordered positions)
    (unique : (tasks.map Task.name).Nodup) :
    Arranges ordered ordered (List.range ordered.length) := by
  have length : positions.length = ordered.length := by
    simpa using (arranges.perm.length_eq).trans (by simp [arranges.perm_tasks.length_eq])
  have occupied : ∀ place < ordered.length, ∃ position, positions[place]? = some position :=
    fun place bound => ⟨_, List.getElem?_eq_getElem (length ▸ bound)⟩
  constructor
  case perm => exact .refl _
  case ordered => exact (filterMap_range_getElem? ordered).symm
  case first =>
    refine fathersBefore_range fun place bound father isFather => ?_
    obtain ⟨position, found⟩ := occupied place bound
    have soon : releaseOf (links ordered) (List.range ordered.length) place ≤ place :=
      arranges.releaseOf_range unique found ▸ arranges.releaseOf_le_place found
    have before := turnAfter_le_iff.1 soon _ (List.mem_map_of_mem isFather)
    have isTask : father < ordered.length := length_links ordered ▸ lt_length_of_mem_links isFather
    have here := (List.nodup_range (n := ordered.length)).idxOf_getElem father
      (by rwa [List.length_range])
    rw [List.getElem_range] at here
    rwa [here] at before
  case timely =>
    rw [List.pairwise_iff_getElem]
    intro one other oneBound otherBound before
    rw [List.length_range] at oneBound otherBound
    obtain ⟨position, found⟩ := occupied one oneBound
    obtain ⟨later, foundLater⟩ := occupied other otherBound
    obtain ⟨bound, rfl⟩ := List.getElem?_eq_some_iff.1 found
    obtain ⟨laterBound, rfl⟩ := List.getElem?_eq_some_iff.1 foundLater
    have sooner := List.pairwise_iff_getElem.1 arranges.timely one other bound laterBound before
    rw [ReadySooner, sooner_iff] at sooner ⊢
    simp only [List.getElem_range, arranges.releaseOf_range unique found,
      arranges.releaseOf_range unique foundLater]
    omega

end Arranges

/-- Tasks that are listed in their order stay as they are. -/
theorem order_eq_self (unique : (tasks.map Task.name).Nodup) (found : order tasks = .ok ordered) :
    order ordered = .ok ordered := by
  have arranges := (arranges_of_order found).range unique
  obtain ⟨positions, arranged, -, -⟩ := orderPositions_ok (links_inside ordered)
    fun position bound => acc_of_fathersBefore arranges.first position
      (List.mem_reverse.2 (List.mem_range.2 (length_links ordered ▸ bound)))
  obtain ⟨again, foundAgain⟩ : ∃ again, order ordered = .ok again := ⟨_, by rw [order, arranged]⟩
  have arrangesAgain := arranges_of_order foundAgain
  have same : (Progress.finish (links ordered)).done.reverse = List.range ordered.length :=
    eq_of_readySooner [] arrangesAgain.perm arrangesAgain.first arranges.first
      arrangesAgain.timely arranges.timely
  rw [foundAgain, arrangesAgain.ordered, same, filterMap_range_getElem?]

end OwnOrder

end Graph

namespace Submission

/-- What has an order is submitted as the chain of the order if it is valid, and not at all
otherwise. -/
theorem chainOf_eq_ok_iff {tasks ordered : List Task} {routing : Routing} {id : Uuid}
    {chain : Flow} (found : Graph.order tasks = .ok ordered) :
    chainOf routing id tasks = .ok chain ↔
      Graph.validate tasks = .ok () ∧ Chain.compile ordered id routing = .ok chain := by
  cases valid : Graph.validate tasks with
  | ok => rw [chainOf_eq_compile routing id valid found]; simp
  | error problem => simp [chainOf, valid, bind, Except.bind]

/-- Tasks with distinct names that are listed in their order are already in order, and a workflow
that is submitted in its order is accepted exactly if it would be otherwise, as the same chain. -/
theorem order_idempotent {tasks ordered : List Task} (unique : (tasks.map Task.name).Nodup)
    (found : Graph.order tasks = .ok ordered) :
    Graph.order ordered = .ok ordered ∧ ∀ routing id chain,
      chainOf routing id ordered = .ok chain ↔ chainOf routing id tasks = .ok chain := by
  have again := Graph.order_eq_self unique found
  have perm := (Graph.arranges_of_order found).perm_tasks
  have valid : Graph.validate ordered = .ok () ↔ Graph.validate tasks = .ok () := by
    rw [Graph.validate_eq_ok_iff, Graph.validate_eq_ok_iff]
    exact ⟨fun workflow => workflow.perm perm.symm, fun workflow => workflow.perm perm⟩
  refine ⟨again, fun routing id chain => ?_⟩
  rw [chainOf_eq_ok_iff again, chainOf_eq_ok_iff found, valid]

/-- A workflow that is listed against its order, in which two tasks become ready together. -/
def Sample.upward : List Task :=
  [{ Task.plain "report" "work" with fathers := ["draft"] },
    { Task.plain "draft" "work" with fathers := ["notes"] },
    { Task.plain "check" "work" with fathers := ["notes"] }, Task.plain "notes" "work"]

/-- The workflow in its order. -/
def Sample.downward : List Task :=
  [Task.plain "notes" "work", { Task.plain "draft" "work" with fathers := ["notes"] },
    { Task.plain "check" "work" with fathers := ["notes"] },
    { Task.plain "report" "work" with fathers := ["draft"] }]

theorem order_idempotent_upward :
    Graph.validate Sample.upward = .ok () ∧ Graph.order Sample.upward = .ok Sample.downward ∧
    Graph.order Sample.downward = .ok Sample.downward ∧ ∀ routing id chain,
      chainOf routing id Sample.downward = .ok chain ↔
        chainOf routing id Sample.upward = .ok chain := by
  have found : Graph.order Sample.upward = .ok Sample.downward := by decide
  exact ⟨by decide, found, order_idempotent (by decide) found⟩

end Submission

end Relay
