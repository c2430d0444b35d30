import Relay.Proofs.Graph.Unvalidated

/-!
# Which of several orders is chosen

A task becomes ready when the last of its fathers is put out, and tasks without fathers are
ready from the start.  Ready tasks are put out in the order in which they became ready, and
those that became ready at the same moment in input order.  As both are decided by what was
put out before, the rule leaves exactly one order.
-/

namespace Relay

namespace Graph

/-- The first turn after some places of an order; the very first if there are none. -/
def turnAfter (places : List Nat) : Nat :=
  match places.max? with
  | none => 0
  | some last => last + 1

theorem turnAfter_le_iff {places : List Nat} {bound : Nat} :
    turnAfter places ≤ bound ↔ ∀ place ∈ places, place < bound := by
  unfold turnAfter
  cases latest : places.max? with
  | none => simp [List.max?_eq_none_iff.1 latest]
  | some last =>
      obtain ⟨member, above⟩ := List.max?_eq_some_iff.1 latest
      exact ⟨fun after place isPlace => Nat.lt_of_le_of_lt (above place isPlace) after,
        fun before => before last member⟩

/-- Only which places there are matters, not how often and in which order they are listed. -/
theorem turnAfter_congr {places others : List Nat}
    (same : ∀ place, place ∈ places ↔ place ∈ others) : turnAfter places = turnAfter others := by
  apply Nat.le_antisymm
  · exact turnAfter_le_iff.2 fun place member =>
      turnAfter_le_iff.1 (Nat.le_refl _) place ((same place).1 member)
  · exact turnAfter_le_iff.2 fun place member =>
      turnAfter_le_iff.1 (Nat.le_refl _) place ((same place).2 member)

/-- One thing comes before another if it has an earlier turn, or the same turn and an earlier
position. -/
def Sooner : Nat × Nat → Nat × Nat → Prop := Prod.Lex (· < ·) (· < ·)

theorem sooner_iff {first second : Nat × Nat} : Sooner first second ↔
    first.1 < second.1 ∨ first.1 = second.1 ∧ first.2 < second.2 := Prod.lex_def

/-! ## The rule for positions -/

/-- The turn at which a position becomes ready. -/
def releaseOf (links : List (List Nat)) (order : List Nat) (position : Nat) : Nat :=
  turnAfter ((linksOf links position).map order.idxOf)

/-- The order in which positions become ready. -/
def ReadySooner (links : List (List Nat)) (order : List Nat) (first second : Nat) : Prop :=
  Sooner (releaseOf links order first, first) (releaseOf links order second, second)

theorem releaseOf_le {links : List (List Nat)} {order : List Nat} {position : Nat}
    (inside : linksOf links position ⊆ order) : releaseOf links order position ≤ order.length := by
  refine turnAfter_le_iff.2 fun place member => ?_
  obtain ⟨father, isFather, rfl⟩ := List.mem_map.1 member
  exact List.idxOf_lt_length_of_mem (inside isFather)

/-- What is put out later does not change when a position became ready. -/
theorem releaseOf_append {links : List (List Nat)} {order : List Nat} {position : Nat}
    (inside : linksOf links position ⊆ order) (later : List Nat) :
    releaseOf links (order ++ later) position = releaseOf links order position := by
  unfold releaseOf
  rw [List.map_congr_left fun father isFather => List.idxOf_append_of_mem (inside isFather)]

/-- A position whose last father was just put out becomes ready now. -/
theorem releaseOf_concat {links : List (List Nat)} {order : List Nat} {father position : Nat}
    (fresh : father ∉ order) (isFather : father ∈ linksOf links position)
    (inside : linksOf links position ⊆ father :: order) :
    releaseOf links (order ++ [father]) position = order.length + 1 := by
  have place : (order ++ [father]).idxOf father = order.length := by
    rw [List.idxOf_append_of_notMem fresh]
    simp
  apply Nat.le_antisymm
  · have within : linksOf links position ⊆ order ++ [father] := fun other isOther => by
      simpa [or_comm] using inside isOther
    simpa using releaseOf_le within
  · have after := turnAfter_le_iff.1 (Nat.le_refl (releaseOf links (order ++ [father]) position))
    exact place ▸ after _ (List.mem_map_of_mem isFather)

namespace Progress

variable {links : List (List Nat)} {progress : Progress}

/-- What is put out and what is ready stand in the order in which they became ready. -/
def Timely (links : List (List Nat)) (progress : Progress) : Prop :=
  (progress.done.reverse ++ progress.ready).Pairwise (ReadySooner links progress.done.reverse)

theorem pairwise_lt_released (links : List (List Nat)) (father : Nat) (pending : Nat → Nat) :
    (released links father pending).Pairwise (· < ·) := by
  have indices : (links.zipIdx.map Prod.snd).Pairwise (· < ·) := by
    rw [List.zipIdx_map_snd]
    exact List.pairwise_lt_range'
  exact indices.sublist (List.filter_sublist.map _)

theorem timely_start (links : List (List Nat)) : Timely links (start links) := by
  have sorted : ((start links).ready).Pairwise (· < ·) :=
    List.pairwise_lt_range.sublist List.filter_sublist
  refine sorted.imp_of_mem fun {first second} isFirst isSecond before => ?_
  have none : ∀ position ∈ (start links).ready, releaseOf links [] position = 0 := by
    intro position isReady
    have free := ((consistent_start links).free position
      ((consistent_start links).bounded position isReady)).1 isReady
    exact Nat.le_zero.1 (releaseOf_le (openLinks_eq_zero_iff.1 free))
  exact sooner_iff.2 (.inr ⟨(none first isFirst).trans (none second isSecond).symm, before⟩)

theorem Timely.step (timely : Timely links progress) (consistent : Consistent links progress) :
    Timely links (progress.step links) := by
  cases next : progress.ready with
  | nil => rwa [Progress.step, next]
  | cons father rest =>
      obtain ⟨done, -, -, ready⟩ := step_of_ready consistent next
      have fresh := consistent.fresh next
      unfold Timely at timely ⊢
      rw [next] at timely
      rw [done, ready, List.reverse_cons, ← List.append_assoc, List.append_assoc _ [father],
        List.singleton_append]
      -- The fathers of what was ready are put out, so the new place does not change its turn.
      have known : ∀ position ∈ progress.done.reverse ++ father :: rest,
          linksOf links position ⊆ progress.done.reverse := by
        intro position member father isFather
        have listed : position ∈ progress.done ++ progress.ready := by simpa [next] using member
        have free := (consistent.free position (consistent.bounded position listed)).1 listed
        exact List.mem_reverse.2 (openLinks_eq_zero_iff.1 free isFather)
      have unchanged : ∀ position ∈ progress.done.reverse ++ father :: rest,
          releaseOf links (progress.done.reverse ++ [father]) position =
            releaseOf links progress.done.reverse position :=
        fun position member => releaseOf_append (known position member) [father]
      have now : ∀ position ∈ released links father fun position =>
          progress.pending.getD position 0,
          releaseOf links (progress.done.reverse ++ [father]) position =
            progress.done.reverse.length + 1 := by
        intro position member
        obtain ⟨-, some, all⟩ := mem_released.1 member
        have closed : openLinks links (father :: progress.done) position +
            (linksOf links position).count father = openLinks links progress.done position :=
          openLinks_cons fresh position
        rw [consistent.pending position] at all
        refine releaseOf_concat (by simpa using fresh) (List.count_pos_iff.1 some) ?_
        have none : openLinks links (father :: progress.done) position = 0 := by omega
        intro other isOther
        simpa using openLinks_eq_zero_iff.1 none isOther
      refine List.pairwise_append.2 ⟨?_, ?_, ?_⟩
      · refine timely.imp_of_mem fun isFirst isSecond sooner => ?_
        rwa [ReadySooner, unchanged _ isFirst, unchanged _ isSecond]
      · refine (pairwise_lt_released _ _ _).imp_of_mem fun isFirst isSecond before => ?_
        exact sooner_iff.2 (.inr ⟨(now _ isFirst).trans (now _ isSecond).symm, before⟩)
      · intro first isFirst second isSecond
        refine sooner_iff.2 (.inl ?_)
        show releaseOf _ _ first < releaseOf _ _ second
        rw [unchanged first isFirst, now second isSecond]
        exact Nat.lt_succ_of_le (releaseOf_le (known first isFirst))

theorem timely_run (timely : Timely links progress) (consistent : Consistent links progress)
    (steps : Nat) : Timely links (run links steps progress) := by
  induction steps generalizing progress with
  | zero => exact timely
  | succ steps ih => exact ih (timely.step consistent) consistent.step

/-- In the end all positions stand in the order in which they became ready. -/
theorem pairwise_finish (links : List (List Nat)) :
    (finish links).done.reverse.Pairwise (ReadySooner links (finish links).done.reverse) := by
  have timely := timely_run (timely_start links) (consistent_start links) links.length
  have nothing : (run links links.length (start links)).ready = [] := ready_finish links
  rwa [Timely, nothing, List.append_nil] at timely

end Progress

/-! ## The rule for tasks -/

variable {tasks ordered : List Task}

/-- The places at which those fathers of a task that are tasks stand in an order. -/
def fatherPlaces (tasks ordered : List Task) (task : Task) : List Nat :=
  (task.fathers.filterMap fun name => tasks.find? fun other => other.name == name).map
    ordered.idxOf

/-- The turn at which a task becomes ready, and its place in the input. -/
def readyAt (tasks ordered : List Task) (task : Task) : Nat × Nat :=
  (turnAfter (fatherPlaces tasks ordered task), tasks.idxOf task)

/-- With distinct names the task of a name is found wherever it stands. -/
theorem find?_name_iff (unique : (tasks.map Task.name).Nodup) {name : String} {task : Task} :
    (tasks.find? fun other => other.name == name) = some task ↔ task ∈ tasks ∧ task.name = name := by
  constructor
  · exact fun found => ⟨List.mem_of_find?_eq_some found, by simpa using List.find?_some found⟩
  · rintro ⟨member, rfl⟩
    cases found : tasks.find? fun other => other.name == task.name with
    | none => exact absurd (List.find?_eq_none.1 found task member) (by simp)
    | some other =>
        have same : other.name = task.name := by simpa using List.find?_some found
        rw [List.inj_on_of_nodup_map unique (List.mem_of_find?_eq_some found) member same]

/-- Where a task stands among the tasks at some positions. -/
theorem idxOf_filterMap (distinct : tasks.Nodup) {positions : List Nat}
    (inBounds : ∀ position ∈ positions, position < tasks.length) {task : Task} {position : Nat}
    (found : tasks[position]? = some task) :
    (positions.filterMap fun position => tasks[position]?).idxOf task =
      positions.idxOf position := by
  induction positions with
  | nil => rfl
  | cons head rest ih =>
      have here := List.getElem?_eq_getElem (inBounds head List.mem_cons_self)
      rw [List.filterMap_cons_some here, List.idxOf_cons, List.idxOf_cons,
        ih fun other member => inBounds other (List.mem_cons_of_mem _ member)]
      obtain ⟨isTask, rfl⟩ := List.getElem?_eq_some_iff.1 found
      simp [beq_eq_decide, distinct.getElem_inj_iff]

/-- A task becomes ready when its position does. -/
theorem turnAfter_fatherPlaces (unique : (tasks.map Task.name).Nodup) {positions : List Nat}
    (inBounds : ∀ position ∈ positions, position < tasks.length) {task : Task} {position : Nat}
    (found : tasks[position]? = some task) :
    turnAfter (fatherPlaces tasks (positions.filterMap fun position => tasks[position]?) task) =
      releaseOf (links tasks) positions position := by
  refine turnAfter_congr fun place => ?_
  simp only [fatherPlaces, List.mem_map, List.mem_filterMap, find?_name_iff unique,
    mem_linksOf_links]
  constructor
  · rintro ⟨father, ⟨name, listed, member, rfl⟩, rfl⟩
    obtain ⟨fatherPosition, fatherFound⟩ := List.getElem?_of_mem member
    exact ⟨fatherPosition, ⟨task, found, father.name, listed, owner_of_task unique fatherFound⟩,
      (idxOf_filterMap unique.of_map inBounds fatherFound).symm⟩
  · rintro ⟨fatherPosition, ⟨same, again, name, listed, owner⟩, rfl⟩
    cases found.symm.trans again
    obtain ⟨father, fatherFound, rfl⟩ := task_of_owner owner
    exact ⟨father, ⟨father.name, listed, List.mem_of_getElem? fatherFound, rfl⟩,
      idxOf_filterMap unique.of_map inBounds fatherFound⟩

/-- Where two members stand in a list that is strictly sorted. -/
theorem idxOf_lt_iff {α : Type} [BEq α] [LawfulBEq α] {relation : α → α → Prop} {items : List α}
    (sorted : items.Pairwise relation)
    (asymmetric : ∀ first second, relation first second → ¬ relation second first)
    {first second : α} (isFirst : first ∈ items) (isSecond : second ∈ items)
    (different : first ≠ second) :
    items.idxOf first < items.idxOf second ↔ relation first second := by
  have forward : ∀ {first second : α}, first ∈ items → second ∈ items →
      items.idxOf first < items.idxOf second → relation first second := by
    intro first second isFirst isSecond before
    have related := List.pairwise_iff_getElem.1 sorted _ _ (List.idxOf_lt_length_of_mem isFirst)
      (List.idxOf_lt_length_of_mem isSecond) before
    rwa [List.getElem_idxOf, List.getElem_idxOf] at related
  refine ⟨forward isFirst isSecond, fun related => ?_⟩
  by_contra notBefore
  have apart : items.idxOf first ≠ items.idxOf second := fun same =>
    different ((List.idxOf_inj isFirst).1 same)
  exact asymmetric _ _ related (forward isSecond isFirst (by omega))

theorem Sooner.not_sooner {first second : Nat × Nat} (sooner : Sooner first second) :
    ¬ Sooner second first := by
  rw [sooner_iff] at sooner ⊢
  omega

/-- Of two tasks the one that became ready sooner is put out first, and of two that became
ready at the same moment the one that stands first in the input. -/
theorem order_by_readiness (unique : (tasks.map Task.name).Nodup)
    (found : order tasks = .ok ordered) {first second : Task} (isFirst : first ∈ tasks)
    (isSecond : second ∈ tasks) (different : first ≠ second) :
    ordered.idxOf first < ordered.idxOf second ↔
      Sooner (readyAt tasks ordered first) (readyAt tasks ordered second) := by
  have all := all_done_of_order found
  cases found.symm.trans (order_of_acyclic all)
  have distinct : tasks.Nodup := unique.of_map
  have each := Progress.length_done_finish_iff.1 all
  rw [length_links] at each
  have inBounds : ∀ position ∈ (Progress.finish (links tasks)).done.reverse,
      position < tasks.length := fun _ member => length_links tasks ▸
    Progress.lt_length_of_mem_done_finish (List.mem_reverse.1 member)
  obtain ⟨one, oneBound, rfl⟩ := List.getElem_of_mem isFirst
  obtain ⟨other, otherBound, rfl⟩ := List.getElem_of_mem isSecond
  have oneFound := List.getElem?_eq_getElem oneBound
  have otherFound := List.getElem?_eq_getElem otherBound
  rw [idxOf_filterMap distinct inBounds oneFound, idxOf_filterMap distinct inBounds otherFound,
    readyAt, readyAt, turnAfter_fatherPlaces unique inBounds oneFound,
    turnAfter_fatherPlaces unique inBounds otherFound, distinct.idxOf_getElem,
    distinct.idxOf_getElem]
  exact idxOf_lt_iff (Progress.pairwise_finish (links tasks)) (fun _ _ => Sooner.not_sooner)
    (List.mem_reverse.2 (each one oneBound)) (List.mem_reverse.2 (each other otherBound))
    fun same => different (by simp only [same])

/-- Tasks that are listed before their fathers; one father is named twice and one is no task. -/
def Sample.crossing : List Task :=
  [{ Task.plain "report" "work" with fathers := ["draft", "draft", "nobody"] },
    { Task.plain "draft" "work" with fathers := ["notes"] },
    { Task.plain "check" "work" with fathers := ["notes"] }, Task.plain "notes" "work"]

/-- The order in which they run. -/
def Sample.uncrossed : List Task :=
  [Task.plain "notes" "work", { Task.plain "draft" "work" with fathers := ["notes"] },
    { Task.plain "check" "work" with fathers := ["notes"] },
    { Task.plain "report" "work" with fathers := ["draft", "draft", "nobody"] }]

theorem order_by_readiness_crossing : order Sample.crossing = .ok Sample.uncrossed ∧
    Sample.uncrossed.idxOf Sample.crossing[2] < Sample.uncrossed.idxOf Sample.crossing[0] ∧
    Sooner (readyAt Sample.crossing Sample.uncrossed Sample.crossing[2])
      (readyAt Sample.crossing Sample.uncrossed Sample.crossing[0]) := by
  have found : order Sample.crossing = .ok Sample.uncrossed := by decide
  have first : Sample.uncrossed.idxOf Sample.crossing[2] <
      Sample.uncrossed.idxOf Sample.crossing[0] := by decide
  exact ⟨found, first, (order_by_readiness (by decide) found (by decide) (by decide)
    (by decide)).1 first⟩

end Graph

end Relay
