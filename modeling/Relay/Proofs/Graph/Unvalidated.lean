import Mathlib.Data.Fintype.Card
import Mathlib.Data.Fintype.EquivFin
import Mathlib.Logic.Relation
import Relay.Proofs.Graph.Order
import Relay.Proofs.Graph.Validation

/-!
# Ordering tasks that were not validated

The ordering does not rely on validation.  Names may be given twice, in which case the
last task owns the name, fathers may be named twice or be no tasks, and there may be
cycles.  The loop puts out exactly the positions that no cycle leads to: a position is put
out after its fathers, so following links from it comes to an end, and where following
links does not come to an end in a finite graph, it comes from a cycle.
-/

namespace Relay

namespace Graph

variable {tasks : List Task}

/-- The task at a position is the last one of a name. -/
def Owns (tasks : List Task) (position : Nat) (name : String) : Prop :=
  (tasks.map Task.name)[position]? = some name ∧
    ∀ later, position < later → (tasks.map Task.name)[later]? ≠ some name

/-- The task at the second position names the one at the first as a father. -/
def Feeds (tasks : List Task) (father position : Nat) : Prop :=
  ∃ task, tasks[position]? = some task ∧ ∃ name ∈ task.fathers, Owns tasks father name

/-- Following a relation leads from a cycle to a position, be it on the cycle or not. -/
def BehindCycle (relation : Nat → Nat → Prop) (position : Nat) : Prop :=
  ∃ origin, Relation.TransGen relation origin origin ∧
    Relation.ReflTransGen relation origin position

/-! ## Owners -/

theorem get?_owners_concat (tasks : List Task) (task : Task) (name : String) :
    (owners (tasks ++ [task])).get? name =
      if name = task.name then some tasks.length else (owners tasks).get? name := by
  simp only [owners, Dict.get?_ofList, List.zipIdx_append, List.map_append, List.reverse_append,
    List.zipIdx_singleton, List.map_singleton, List.reverse_singleton, List.singleton_append,
    List.lookup_cons, Nat.zero_add]
  by_cases same : name = task.name
  · simp [same]
  · have missed : (name == task.name) = false := by simpa using same
    rw [missed, if_neg same]

/-- The owner of a name is the last task that has it. -/
theorem get?_owners_iff {name : String} {position : Nat} :
    (owners tasks).get? name = some position ↔ Owns tasks position name := by
  induction tasks using List.reverseRecOn with
  | nil => simp [owners, Owns, Dict.get?_ofList]
  | append_singleton earlier task ih =>
      rw [get?_owners_concat]
      unfold Owns at ih ⊢
      rw [List.map_append, List.map_singleton]
      split
      · next same =>
          constructor
          · rintro ⟨⟩
            refine ⟨by simp [same], fun later after => ?_⟩
            rw [List.getElem?_eq_none (by simp; omega)]
            nofun
          · rintro ⟨found, last⟩
            -- The task at the end has the name, so no earlier one is the last that has it.
            have inBounds := (List.getElem?_eq_some_iff.1 found).1
            rw [List.length_append, List.length_map, List.length_singleton] at inBounds
            by_contra different
            have before : position < earlier.length := by
              have : earlier.length ≠ position := fun equal => different (congrArg some equal)
              omega
            exact last earlier.length before (by simp [same])
      · next different =>
          have atEnd : ∀ index : Nat, (earlier.map Task.name ++ [task.name])[index]? = some name ↔
              (earlier.map Task.name)[index]? = some name := by
            intro index
            rcases Nat.lt_trichotomy index earlier.length with before | here | after
            · rw [List.getElem?_append_left (by simpa using before)]
            · subst here
              simp [Ne.symm different]
            · rw [List.getElem?_eq_none (by simp; omega), List.getElem?_eq_none (by simp; omega)]
          simp only [ih, atEnd, ne_eq]

/-- The links between positions are those from owners of names to tasks that name them. -/
theorem mem_linksOf_iff_feeds {father position : Nat} :
    father ∈ linksOf (links tasks) position ↔ Feeds tasks father position := by
  simp only [mem_linksOf_links, get?_owners_iff, Feeds]

theorem Feeds.lt_length {father position : Nat} (feeds : Feeds tasks father position) :
    position < tasks.length := by
  obtain ⟨task, found, -⟩ := feeds
  exact (List.getElem?_eq_some_iff.1 found).1

/-! ## Where following links comes to an end -/

/-- Following a relation between finitely many numbers backwards comes to an end exactly if
it does not come from a cycle. -/
theorem acc_iff_not_behindCycle {relation : Nat → Nat → Prop} {bound : Nat}
    (inside : ∀ father position, relation father position → father < bound) {position : Nat} :
    Acc relation position ↔ ¬ BehindCycle relation position := by
  constructor
  · rintro accessible ⟨origin, cycle, leads⟩
    have accessibleOrigin : Acc relation origin := by
      induction leads with
      | refl => exact accessible
      | tail _ step ih => exact ih (accessible.inv step)
    exact not_transGen_self accessibleOrigin cycle
  · intro free
    -- On the numbers that lead to the position the transitive closure has no loops.
    let Above := { father : Fin bound // Relation.ReflTransGen relation father position }
    let below : Above → Above → Prop := fun father child =>
      Relation.TransGen relation father.1.1 child.1.1
    have finite : Finite Above := Subtype.finite
    have transitive : IsTrans Above below := ⟨fun _ _ _ => Relation.TransGen.trans⟩
    have irreflexive : Std.Irrefl below := ⟨fun father cycle => free ⟨_, cycle, father.2⟩⟩
    have founded : WellFounded below := Finite.wellFounded_of_trans_of_irrefl below
    have accessible : ∀ father : Above, Acc relation father.1.1 := by
      intro father
      induction father using founded.induction with
      | h father ih =>
          refine .intro _ fun earlier step => ?_
          exact ih ⟨⟨earlier, inside _ _ step⟩, .head step father.2⟩ (.single step)
    exact .intro _ fun father step => accessible ⟨⟨father, inside _ _ step⟩, .single step⟩

/-- Following links from a position that stands after its fathers comes to an end. -/
theorem acc_of_fathersBefore {links : List (List Nat)} {done : List Nat}
    (ordered : FathersBefore links done) :
    ∀ position ∈ done, Acc (fun father position => father ∈ linksOf links position) position := by
  induction done with
  | nil => exact fun _ member => absurd member List.not_mem_nil
  | cons head before ih =>
      obtain ⟨inside, earlier⟩ := ordered
      have accessible := ih earlier
      rintro position member
      rcases List.mem_cons.1 member with rfl | later
      · exact .intro _ fun father isFather => accessible father (inside isFather)
      · exact accessible position later

namespace Progress

variable {links : List (List Nat)}

/-- No position is put out twice. -/
theorem nodup_done_finish (links : List (List Nat)) : (finish links).done.Nodup := by
  have nodup := (consistent_finish links).nodup
  rwa [ready_finish, List.append_nil] at nodup

theorem lt_length_of_mem_done_finish {position : Nat} (member : position ∈ (finish links).done) :
    position < links.length :=
  (consistent_finish links).bounded position (List.mem_append_left _ member)

/-- The loop puts out exactly the positions that no cycle leads to. -/
theorem mem_done_finish_iff
    (inside : ∀ position, ∀ father ∈ linksOf links position, father < links.length)
    {position : Nat} (inBounds : position < links.length) :
    position ∈ (finish links).done ↔
      ¬ BehindCycle (fun father position => father ∈ linksOf links position) position := by
  rw [← acc_iff_not_behindCycle fun father position => inside position father]
  exact ⟨acc_of_fathersBefore (consistent_finish links).ordered position,
    mem_done_finish inside inBounds⟩

/-- In the end exactly the positions that were not put out have open links. -/
theorem pending_finish_pos_iff {position : Nat} (inBounds : position < links.length) :
    0 < (finish links).pending.getD position 0 ↔ position ∉ (finish links).done := by
  have consistent := consistent_finish links
  have free := consistent.free position inBounds
  rw [ready_finish, List.append_nil] at free
  rw [consistent.pending, free]
  omega

/-- All positions were put out exactly if as many were put out as there are. -/
theorem length_done_finish_iff : (finish links).done.length = links.length ↔
    ∀ position < links.length, position ∈ (finish links).done := by
  have nodup := nodup_done_finish links
  have inside : (finish links).done ⊆ List.range links.length :=
    fun _ member => List.mem_range.2 (lt_length_of_mem_done_finish member)
  constructor
  · intro all position inBounds
    have perm := (nodup.subperm inside).perm_of_length_le (by simp [all])
    exact perm.mem_iff.2 (List.mem_range.2 inBounds)
  · intro all
    have perm : (finish links).done.Perm (List.range links.length) :=
      (List.perm_ext_iff_of_nodup nodup List.nodup_range).2 fun position =>
        ⟨@inside position, fun member => all position (List.mem_range.1 member)⟩
    simpa using perm.length_eq

/-! ## The loop itself -/

/-- Close one link to a dependent that still has an open one. -/
def close? (progress : Progress) (dependent : Nat) : Option Progress :=
  if 0 < progress.pending.getD dependent 0 then some (progress.close dependent) else none

/-- Put out the next ready position, closing only links that are open. -/
def step? (links : List (List Nat)) (progress : Progress) : Option Progress :=
  match progress.ready with
  | [] => none
  | position :: rest =>
      (dependents links position).foldlM close?
        { progress with ready := rest, done := position :: progress.done }

/-- The loop puts out ready positions, closing only links that are open, until nothing is
ready. -/
inductive Ends (links : List (List Nat)) : Progress → Progress → Prop where
  | rest {progress : Progress} (nothing : progress.ready = []) : Ends links progress progress
  | next {progress after final : Progress} (step : progress.step? links = some after)
      (ends : Ends links after final) : Ends links progress final

/-- Several links can be closed one after another if that many are open. -/
theorem foldlM_close? {progress : Progress} {positions : List Nat}
    (enough : ∀ position, positions.count position ≤ progress.pending.getD position 0) :
    positions.foldlM close? progress = some (positions.foldl close progress) := by
  induction positions generalizing progress with
  | nil => rfl
  | cons head rest ih =>
      have isOpen : 0 < progress.pending.getD head 0 := by
        have counted := enough head
        rw [List.count_cons_self] at counted
        omega
      rw [List.foldlM_cons, close?, if_pos isOpen, List.foldl_cons]
      refine ih fun position => ?_
      have counted := enough position
      rw [List.count_cons] at counted
      by_cases same : position = head
      · subst same
        have inBounds : position < progress.pending.length := by
          by_contra outside
          simp [List.getElem?_eq_none (Nat.le_of_not_lt outside)] at isOpen
        simp [close, inBounds] at counted ⊢
        omega
      · have apart : (head == position) = false := by simpa using Ne.symm same
        rw [apart] at counted
        simpa [close, List.getElem?_set_ne (Ne.symm same)] using counted

/-- A position is listed among the dependents of a father as often as it links to it. -/
theorem count_dependents (links : List (List Nat)) (father position : Nat) :
    (dependents links father).count position = (linksOf links position).count father := by
  suffices general : ∀ (entries : List (List Nat)) (start : Nat),
      ((entries.zipIdx start).flatMap fun entry =>
        List.replicate (entry.1.count father) entry.2).count position =
      if start ≤ position then (entries.getD (position - start) []).count father else 0 by
    simpa [dependents, linksOf] using general links 0
  intro entries
  induction entries with
  | nil => simp
  | cons head rest ih =>
      intro start
      rw [List.zipIdx_cons, List.flatMap_cons, List.count_append, ih (start + 1),
        List.count_replicate]
      rcases Nat.lt_trichotomy position start with before | here | after
      · simp [Nat.not_le_of_lt before, Nat.ne_of_gt before, show ¬ start + 1 ≤ position by omega]
      · subst here
        simp
      · rw [if_pos (show start + 1 ≤ position by omega), if_pos (Nat.le_of_lt after),
          show position - start = (position - (start + 1)) + 1 by omega, List.getD_cons_succ]
        simp [Nat.ne_of_lt after]

/-- No counter is decremented below zero. -/
theorem step?_of_ready {progress : Progress} {father : Nat} {rest : List Nat}
    (consistent : Consistent links progress) (next : progress.ready = father :: rest) :
    progress.step? links = some (progress.step links) := by
  simp only [step?, step, next]
  refine foldlM_close? fun position => ?_
  have closing : openLinks links (father :: progress.done) position +
      (linksOf links position).count father = openLinks links progress.done position :=
    openLinks_cons (consistent.fresh next) position
  rw [count_dependents, consistent.pending position]
  omega

/-- The loop ends in the state in which the bounded run ends. -/
theorem ends_run {progress : Progress} (consistent : Consistent links progress) {steps : Nat}
    (exhausted : (run links steps progress).ready = []) :
    Ends links progress (run links steps progress) := by
  induction steps generalizing progress with
  | zero => exact .rest exhausted
  | succ steps ih =>
      cases next : progress.ready with
      | nil =>
          have still : progress.step links = progress := by rw [step, next]
          rw [run, still] at exhausted ⊢
          exact ih consistent exhausted
      | cons father rest =>
          exact .next (step?_of_ready consistent next) (ih consistent.step exhausted)

end Progress

/-! ## Positions and tasks -/

/-- In a list in which every position stands after its fathers they come first. -/
theorem idxOf_lt_idxOf {links : List (List Nat)} {done : List Nat}
    (ordered : FathersBefore links done) (unique : done.Nodup) {father position : Nat}
    (member : position ∈ done) (isFather : father ∈ linksOf links position) :
    father ∈ done ∧ done.reverse.idxOf father < done.reverse.idxOf position := by
  induction done with
  | nil => exact absurd member List.not_mem_nil
  | cons head before ih =>
      obtain ⟨inside, earlier⟩ := ordered
      obtain ⟨fresh, uniqueBefore⟩ := List.nodup_cons.1 unique
      rw [List.reverse_cons]
      rcases List.mem_cons.1 member with rfl | later
      · have isBefore := inside isFather
        refine ⟨List.mem_cons_of_mem _ isBefore, ?_⟩
        rw [List.idxOf_append_of_mem (List.mem_reverse.2 isBefore),
          List.idxOf_append_of_notMem (by simpa using fresh)]
        exact Nat.lt_add_right _ (List.idxOf_lt_length_of_mem (List.mem_reverse.2 isBefore))
      · obtain ⟨isBefore, first⟩ := ih earlier uniqueBefore later
        refine ⟨List.mem_cons_of_mem _ isBefore, ?_⟩
        rwa [List.idxOf_append_of_mem (List.mem_reverse.2 isBefore),
          List.idxOf_append_of_mem (List.mem_reverse.2 later)]

/-- Some positions of a list, and what stands there. -/
theorem map_some_filterMap {α : Type} {items : List α} {positions : List Nat}
    (inBounds : ∀ position ∈ positions, position < items.length) :
    (positions.filterMap fun position => items[position]?).map some =
      positions.map fun position => items[position]? := by
  induction positions with
  | nil => rfl
  | cons head rest ih =>
      have found := List.getElem?_eq_getElem (inBounds head List.mem_cons_self)
      rw [List.filterMap_cons_some found, List.map_cons, List.map_cons, found,
        ih fun position member => inBounds position (List.mem_cons_of_mem _ member)]

/-- The links of tasks lead to tasks. -/
theorem links_inside (tasks : List Task) :
    ∀ position, ∀ father ∈ linksOf (links tasks) position, father < (links tasks).length :=
  fun _ _ => lt_length_of_mem_links

theorem mem_done_iff_not_behindCycle {position : Nat} (inBounds : position < tasks.length) :
    position ∈ (Progress.finish (links tasks)).done ↔ ¬ BehindCycle (Feeds tasks) position := by
  have feeds : (fun father position => father ∈ linksOf (links tasks) position) = Feeds tasks :=
    funext fun _ => funext fun _ => propext mem_linksOf_iff_feeds
  rw [← feeds]
  exact Progress.mem_done_finish_iff (links_inside tasks) (by rwa [length_links])

/-- The loop puts out all tasks exactly if there is no cycle. -/
theorem length_done_iff_acyclic :
    (Progress.finish (links tasks)).done.length = (links tasks).length ↔
      ∀ position, ¬ Relation.TransGen (Feeds tasks) position position := by
  rw [Progress.length_done_finish_iff, length_links]
  constructor
  · intro all position cycle
    obtain ⟨_, -, feeds⟩ := Relation.TransGen.tail'_iff.1 cycle
    have inBounds := feeds.lt_length
    exact (mem_done_iff_not_behindCycle inBounds).1 (all position inBounds) ⟨position, cycle, .refl⟩
  · rintro acyclic position inBounds
    exact (mem_done_iff_not_behindCycle inBounds).2 fun ⟨origin, cycle, _⟩ => acyclic origin cycle

/-- The order of tasks without a cycle. -/
theorem order_of_acyclic
    (all : (Progress.finish (links tasks)).done.length = (links tasks).length) :
    order tasks = .ok ((Progress.finish (links tasks)).done.reverse.filterMap
      fun position => tasks[position]?) := by
  rw [order, orderPositions, if_pos all]

/-- What is reported is the first task behind a cycle. -/
theorem order_of_cycle
    (notAll : (Progress.finish (links tasks)).done.length ≠ (links tasks).length) :
    ∃ position task, order tasks = .error (.cycleDetected task.name) ∧
      tasks[position]? = some task ∧ BehindCycle (Feeds tasks) position ∧
      ∀ earlier < position, ¬ BehindCycle (Feeds tasks) earlier := by
  have isOpen : ∀ position < tasks.length,
      0 < (Progress.finish (links tasks)).pending.getD position 0 ↔
        BehindCycle (Feeds tasks) position := by
    intro position inBounds
    rw [Progress.pending_finish_pos_iff (by rwa [length_links]),
      mem_done_iff_not_behindCycle inBounds, not_not]
  obtain ⟨left, inBounds, behind⟩ : ∃ position < tasks.length,
      BehindCycle (Feeds tasks) position := by
    rw [ne_eq, length_done_iff_acyclic, not_forall_not] at notAll
    obtain ⟨position, cycle⟩ := notAll
    obtain ⟨_, -, feeds⟩ := Relation.TransGen.tail'_iff.1 cycle
    exact ⟨position, feeds.lt_length, position, cycle, .refl⟩
  cases found : (List.range (links tasks).length).find? fun position =>
      0 < (Progress.finish (links tasks)).pending.getD position 0 with
  | none =>
      have nowhere := List.find?_eq_none.1 found left (by simpa using inBounds)
      exact absurd ((isOpen left inBounds).2 behind) (by simpa using nowhere)
  | some position =>
      obtain ⟨hasOpen, index, isIndex, same, closed⟩ := List.find?_eq_some_iff_getElem.1 found
      obtain rfl : index = position := by simpa using same
      have isTask : index < tasks.length := by simpa using isIndex
      refine ⟨index, tasks[index], ?_, List.getElem?_eq_getElem isTask,
        (isOpen index isTask).1 (by simpa using hasOpen), ?_⟩
      · rw [order, orderPositions, if_neg notAll, found]
        simp [isTask]
      · intro earlier sooner
        rw [← isOpen earlier (Nat.lt_trans sooner isTask)]
        simpa using closed earlier sooner

theorem all_done_of_order {ordered : List Task} (found : order tasks = .ok ordered) :
    (Progress.finish (links tasks)).done.length = (links tasks).length := by
  by_contra notAll
  obtain ⟨position, task, failed, -⟩ := order_of_cycle notAll
  cases found.symm.trans failed

/-- What the ordering of any list of tasks answers. -/
structure Decides (tasks : List Task) : Prop where
  /-- Tasks can be ordered exactly if no task leads back to itself. -/
  succeeds : (∃ ordered, order tasks = .ok ordered) ↔
    ∀ position, ¬ Relation.TransGen (Feeds tasks) position position
  /-- The order consists of all tasks, each once, and owners of fathers come first. -/
  ordered : ∀ ordered, order tasks = .ok ordered →
    ∃ positions : List Nat, positions.Perm (List.range tasks.length) ∧
      ordered.map some = positions.map (fun position => tasks[position]?) ∧
      ∀ father position, Feeds tasks father position →
        positions.idxOf father < positions.idxOf position
  /-- If there is no order, the first task behind a cycle is reported. -/
  stuck : ∀ problem, order tasks = .error problem →
    ∃ position task, tasks[position]? = some task ∧ problem = .cycleDetected task.name ∧
      BehindCycle (Feeds tasks) position ∧
      ∀ earlier < position, ¬ BehindCycle (Feeds tasks) earlier
  /-- The loop comes to its end, and no counter is decremented below zero. -/
  ends : Progress.Ends (links tasks) (.start (links tasks)) (.finish (links tasks))

/-- A list of tasks is put in order, or the first task that no order can reach is found,
whatever names and fathers the tasks have. -/
theorem order_decides (tasks : List Task) : Decides tasks := by
  have nodup := Progress.nodup_done_finish (links tasks)
  have bounded : ∀ position ∈ (Progress.finish (links tasks)).done, position < tasks.length :=
    fun _ member => length_links tasks ▸ Progress.lt_length_of_mem_done_finish member
  constructor
  case succeeds =>
    rw [← length_done_iff_acyclic]
    exact ⟨fun ⟨_, found⟩ => all_done_of_order found, fun all => ⟨_, order_of_acyclic all⟩⟩
  case ordered =>
    intro ordered found
    have all := all_done_of_order found
    cases found.symm.trans (order_of_acyclic all)
    have each := Progress.length_done_finish_iff.1 all
    rw [length_links] at each
    refine ⟨_, ?_, map_some_filterMap ?_, ?_⟩
    · refine (List.reverse_perm _).trans ?_
      refine (List.perm_ext_iff_of_nodup nodup List.nodup_range).2 fun position => ?_
      rw [List.mem_range]
      exact ⟨bounded position, each position⟩
    · exact fun position member => bounded position (List.mem_reverse.1 member)
    · intro father position feeds
      have ordered := (Progress.consistent_finish (links tasks)).ordered
      exact (idxOf_lt_idxOf ordered nodup (each position feeds.lt_length)
        (mem_linksOf_iff_feeds.2 feeds)).2
  case stuck =>
    intro problem failed
    have notAll : (Progress.finish (links tasks)).done.length ≠ (links tasks).length := by
      intro all
      cases failed.symm.trans (order_of_acyclic all)
    obtain ⟨position, task, reported, found, behind, first⟩ := order_of_cycle notAll
    cases failed.symm.trans reported
    exact ⟨position, task, found, rfl, behind, first⟩
  case ends =>
    exact Progress.ends_run (Progress.consistent_start _) (Progress.ready_finish _)

end Graph

end Relay
