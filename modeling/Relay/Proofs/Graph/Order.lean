import Mathlib.Data.List.Basic
import Mathlib.Data.List.Nodup
import Mathlib.Data.List.Perm.Subperm
import Mathlib.Data.List.NodupEquivFin
import Relay.Graph.Order
import Relay.Proofs.Dict
import Relay.Proofs.Graph.Acyclic

/-!
# The order in which tasks run

The invariant of the ordering says that the counters are the numbers of father
links that are still open, and that a position is ready or put out exactly when
it has none.  A step puts out one ready position and keeps the invariant.  So
what is left in the end are positions of which each waits for another one, and
where following links comes to an end there are none.
-/

namespace Relay

namespace Graph

/-- The fathers of a position, by position. -/
def linksOf (links : List (List Nat)) (position : Nat) : List Nat := links.getD position []

/-- Number of father links of a position that do not lead to one of the given positions. -/
def openLinks (links : List (List Nat)) (done : List Nat) (position : Nat) : Nat :=
  (linksOf links position).countP fun father => decide (father ∉ done)

/-- Every position of a list, the last one first, stands after its fathers. -/
def FathersBefore (links : List (List Nat)) : List Nat → Prop
  | [] => True
  | position :: before => linksOf links position ⊆ before ∧ FathersBefore links before

/-- Putting out one more position closes the links that lead to it. -/
theorem openLinks_cons {links : List (List Nat)} {done : List Nat} {father : Nat}
    (fresh : father ∉ done) (position : Nat) :
    openLinks links (father :: done) position + (linksOf links position).count father =
      openLinks links done position := by
  unfold openLinks
  induction linksOf links position with
  | nil => rfl
  | cons head rest ih =>
      rw [List.countP_cons, List.countP_cons, List.count_cons]
      by_cases same : head = father
      · subst same
        have closed : decide (head ∉ head :: done) = false := by simp
        have before : decide (head ∉ done) = true := by simp [fresh]
        rw [closed, before, if_neg Bool.false_ne_true, if_pos rfl, if_pos (beq_self_eq_true head)]
        omega
      · have stays : decide (head ∉ father :: done) = decide (head ∉ done) := by simp [same]
        have apart : (head == father) = false := by simpa using same
        rw [stays, apart, if_neg Bool.false_ne_true]
        omega

theorem openLinks_eq_zero_iff {links : List (List Nat)} {done : List Nat} {position : Nat} :
    openLinks links done position = 0 ↔ linksOf links position ⊆ done := by
  simp [openLinks, List.countP_eq_zero, List.subset_def]

namespace Progress

/-! ## Closing links -/

/-- Closing all links from one dependent at once. -/
theorem foldl_close_replicate (progress : Progress) {dependent count : Nat}
    (inBounds : dependent < progress.pending.length)
    (enough : count ≤ progress.pending.getD dependent 0) :
    (List.replicate count dependent).foldl close progress =
      { progress with
        pending := progress.pending.set dependent (progress.pending.getD dependent 0 - count)
        ready := progress.ready ++
          if 0 < count ∧ count = progress.pending.getD dependent 0 then [dependent] else [] } := by
  induction count generalizing progress with
  | zero => simp [inBounds]
  | succ count ih =>
      rw [List.replicate_succ, List.foldl_cons, ih (progress.close dependent)
        (by simpa [close] using inBounds) (by simp [close, inBounds] at enough ⊢; omega)]
      have present : progress.pending.getD dependent 0 = progress.pending[dependent] := by
        simp [inBounds]
      simp only [close, present, List.set_set, List.getD_eq_getElem?_getD,
        List.getElem?_set_self inBounds, Option.getD_some] at enough ⊢
      congr 1
      · congr 1
        omega
      · rcases Nat.eq_zero_or_pos count with none | some
        · subst none
          by_cases last : progress.pending[dependent] = 1
          · simp [last]
          · have more : progress.pending[dependent] - 1 ≠ 0 := by omega
            simp [more, Ne.symm last]
        · have notYet : progress.pending[dependent] - 1 ≠ 0 := by omega
          simp only [notYet, ↓reduceIte]
          congr 1
          by_cases last : count + 1 = progress.pending[dependent]
          · rw [if_pos ⟨some, by omega⟩, if_pos ⟨by omega, last⟩]
          · rw [if_neg (by omega), if_neg (by omega)]

/-- Closing the links from a stretch of positions, which begins at `start` and has
the given fathers, to one father. -/
theorem foldl_close_dependents (father : Nat) (entries : List (List Nat)) (start : Nat)
    (progress : Progress) (inBounds : start + entries.length ≤ progress.pending.length)
    (enough : ∀ index, index < entries.length →
      (entries.getD index []).count father ≤ progress.pending.getD (start + index) 0) :
    let after := ((entries.zipIdx start).flatMap fun entry =>
      List.replicate (entry.1.count father) entry.2).foldl close progress
    after.done = progress.done ∧
      after.pending.length = progress.pending.length ∧
      (∀ position, after.pending.getD position 0 = progress.pending.getD position 0 -
        if start ≤ position then (entries.getD (position - start) []).count father else 0) ∧
      after.ready = progress.ready ++ ((entries.zipIdx start).filter fun entry =>
        decide (0 < entry.1.count father ∧
          entry.1.count father = progress.pending.getD entry.2 0)).map Prod.snd := by
  induction entries generalizing start progress with
  | nil => simp
  | cons head rest ih =>
      have headBound : start < progress.pending.length := by
        rw [List.length_cons] at inBounds
        omega
      have headEnough : head.count father ≤ progress.pending.getD start 0 := by
        simpa using enough 0 (by simp)
      simp only [List.zipIdx_cons, List.flatMap_cons, List.foldl_append,
        foldl_close_replicate progress headBound headEnough]
      -- The other positions have the counters that they had before.
      have others : ∀ index, start < index →
          (progress.pending.set start (progress.pending.getD start 0 - head.count father)).getD
            index 0 = progress.pending.getD index 0 := by
        intro index later
        simp [List.getElem?_set_ne (Nat.ne_of_lt later)]
      obtain ⟨done, size, pending, ready⟩ := ih (start + 1)
        { progress with
          pending := progress.pending.set start
            (progress.pending.getD start 0 - head.count father)
          ready := progress.ready ++
            if 0 < head.count father ∧ head.count father = progress.pending.getD start 0
            then [start] else [] }
        (by simp only [List.length_set, List.length_cons] at inBounds ⊢; omega)
        (by
          intro index bound
          simp only [others (start + 1 + index) (by omega)]
          have found := enough (index + 1) (by simpa using bound)
          rw [List.getD_cons_succ] at found
          rwa [show start + 1 + index = start + (index + 1) by omega])
      refine ⟨done, by simpa using size, ?_, ?_⟩
      · intro position
        rw [pending position]
        rcases Nat.lt_trichotomy position start with before | here | after
        · simp [List.getElem?_set_ne (Nat.ne_of_gt before), Nat.not_le_of_lt before,
            Nat.not_le_of_lt (Nat.lt_succ_of_lt before)]
        · subst here
          rw [if_neg (Nat.not_succ_le_self position)]
          simp [headBound]
        · simp only [others position after, Nat.le_of_lt after, if_pos (Nat.succ_le_of_lt after),
            if_true]
          rw [show position - start = (position - (start + 1)) + 1 by omega, List.getD_cons_succ]
      · rw [ready]
        simp only [List.filter_cons, List.append_assoc]
        have tail : ((rest.zipIdx (start + 1)).filter fun entry =>
            decide (0 < entry.1.count father ∧ entry.1.count father =
              (progress.pending.set start (progress.pending.getD start 0 - head.count father)).getD
                entry.2 0)) =
            (rest.zipIdx (start + 1)).filter fun entry =>
              decide (0 < entry.1.count father ∧
                entry.1.count father = progress.pending.getD entry.2 0) := by
          refine List.filter_congr fun entry member => ?_
          rw [others entry.2 (List.le_snd_of_mem_zipIdx member)]
        rw [tail]
        congr 1
        by_cases last : 0 < head.count father ∧ head.count father = progress.pending.getD start 0
        · rw [if_pos last, if_pos (decide_eq_true last)]
          rfl
        · rw [if_neg last, if_neg (by simpa using last)]
          rfl

/-! ## The invariant of the ordering -/

/-- The counters are the numbers of open links, and the positions without open
links are those that are ready or put out. -/
structure Consistent (links : List (List Nat)) (progress : Progress) : Prop where
  size : progress.pending.length = links.length
  pending : ∀ position, progress.pending.getD position 0 = openLinks links progress.done position
  bounded : ∀ position ∈ progress.done ++ progress.ready, position < links.length
  nodup : (progress.done ++ progress.ready).Nodup
  free : ∀ position < links.length, position ∈ progress.done ++ progress.ready ↔
    openLinks links progress.done position = 0
  ordered : FathersBefore links progress.done

theorem consistent_start (links : List (List Nat)) : Consistent links (start links) where
  size := by simp [start]
  pending position := by
    by_cases inBounds : position < links.length
    · simp [start, openLinks, linksOf, inBounds]
    · simp [start, openLinks, linksOf, inBounds]
  bounded position member := by
    simp only [start, List.nil_append, List.mem_filter, List.mem_range] at member
    exact member.1
  nodup := by simpa [start] using List.nodup_range.filter _
  free position inBounds := by
    simp [start, openLinks, linksOf, inBounds]
  ordered := trivial

/-- The positions whose last open links lead to a father, in input order. -/
def released (links : List (List Nat)) (father : Nat) (pending : Nat → Nat) : List Nat :=
  (links.zipIdx.filter fun entry =>
    decide (0 < entry.1.count father ∧ entry.1.count father = pending entry.2)).map Prod.snd

theorem mem_released {links : List (List Nat)} {father position : Nat} {pending : Nat → Nat} :
    position ∈ released links father pending ↔
      position < links.length ∧ 0 < (linksOf links position).count father ∧
        (linksOf links position).count father = pending position := by
  simp only [released, List.mem_map, List.mem_filter, decide_eq_true_eq, Prod.exists,
    exists_eq_right, List.mem_zipIdx_iff_getElem?, linksOf]
  constructor
  · rintro ⟨fathers, found, named, all⟩
    obtain ⟨inBounds, same⟩ := List.getElem?_eq_some_iff.1 found
    rw [List.getD_eq_getElem?_getD, found]
    exact ⟨inBounds, named, all⟩
  · rintro ⟨inBounds, named, all⟩
    rw [List.getD_eq_getElem?_getD, List.getElem?_eq_getElem inBounds] at named all
    exact ⟨links[position], List.getElem?_eq_getElem inBounds, named, all⟩

theorem nodup_released (links : List (List Nat)) (father : Nat) (pending : Nat → Nat) :
    (released links father pending).Nodup := by
  have indices : (links.zipIdx.map Prod.snd).Nodup := by
    rw [List.zipIdx_map_snd]
    exact List.nodup_range'
  exact indices.sublist (List.filter_sublist.map _)

/-- What is ready was not put out before. -/
theorem Consistent.fresh {links : List (List Nat)} {progress : Progress} {father : Nat}
    {rest : List Nat} (consistent : Consistent links progress)
    (next : progress.ready = father :: rest) : father ∉ progress.done := by
  have nodup := consistent.nodup
  rw [next, List.nodup_append] at nodup
  exact fun again => nodup.2.2 father again father List.mem_cons_self rfl

/-- What putting out a ready position does. -/
theorem step_of_ready {links : List (List Nat)} {progress : Progress} {father : Nat}
    {rest : List Nat} (consistent : Consistent links progress)
    (next : progress.ready = father :: rest) :
    (progress.step links).done = father :: progress.done ∧
      (progress.step links).pending.length = progress.pending.length ∧
      (∀ position, (progress.step links).pending.getD position 0 =
        progress.pending.getD position 0 - (linksOf links position).count father) ∧
      (progress.step links).ready =
        rest ++ released links father fun position => progress.pending.getD position 0 := by
  have fresh := consistent.fresh next
  have described := foldl_close_dependents father links 0
    { progress with ready := rest, done := father :: progress.done }
    (by simp [consistent.size])
    (by
      intro index inBounds
      have closing : openLinks links (father :: progress.done) index +
          (linksOf links index).count father = openLinks links progress.done index :=
        openLinks_cons fresh index
      rw [Nat.zero_add]
      simp only [consistent.pending index]
      unfold linksOf at closing
      omega)
  obtain ⟨done, size, pending, ready⟩ := described
  have unfolded : progress.step links = (dependents links father).foldl close
      { progress with ready := rest, done := father :: progress.done } := by
    rw [step, next]
  rw [unfolded]
  refine ⟨done, size, fun position => ?_, ready⟩
  rw [dependents, pending position]
  simp [linksOf]

/-- What the links to a ready position make of the number of open links. -/
theorem Consistent.closing {links : List (List Nat)} {progress : Progress} {father : Nat}
    {rest : List Nat} (consistent : Consistent links progress)
    (next : progress.ready = father :: rest) (position : Nat) :
    openLinks links (father :: progress.done) position +
      (linksOf links position).count father = openLinks links progress.done position :=
  openLinks_cons (consistent.fresh next) position

/-- A ready position releases those that wait for nothing else. -/
theorem Consistent.mem_released {links : List (List Nat)} {progress : Progress} {father : Nat}
    {rest : List Nat} (consistent : Consistent links progress)
    (next : progress.ready = father :: rest) {position : Nat} :
    position ∈ released links father (fun position => progress.pending.getD position 0) ↔
      position < links.length ∧ 0 < (linksOf links position).count father ∧
        openLinks links (father :: progress.done) position = 0 := by
  rw [Progress.mem_released, consistent.pending position]
  have closed := consistent.closing next position
  constructor
  · rintro ⟨inBounds, some, all⟩
    exact ⟨inBounds, some, by omega⟩
  · rintro ⟨inBounds, some, none⟩
    exact ⟨inBounds, some, by omega⟩

/-- With a step, what is released joins what was ready or put out. -/
theorem Consistent.step_perm {links : List (List Nat)} {progress : Progress} {father : Nat}
    {rest : List Nat} (consistent : Consistent links progress)
    (next : progress.ready = father :: rest) :
    ((progress.step links).done ++ (progress.step links).ready).Perm
      ((progress.done ++ progress.ready) ++
        released links father fun position => progress.pending.getD position 0) := by
  obtain ⟨done, -, -, ready⟩ := step_of_ready consistent next
  rw [done, ready, next, ← List.append_assoc]
  exact List.perm_middle.symm.append_right _

/-- Putting out a ready position keeps the invariant. -/
theorem Consistent.step {links : List (List Nat)} {progress : Progress}
    (consistent : Consistent links progress) : Consistent links (progress.step links) := by
  cases next : progress.ready with
  | nil => rwa [Progress.step, next]
  | cons father rest =>
      obtain ⟨done, size, pending, -⟩ := step_of_ready consistent next
      have perm := consistent.step_perm next
      have closing := consistent.closing next
      constructor
      case size => exact size.trans consistent.size
      case pending =>
        intro position
        rw [pending position, done, consistent.pending position]
        have closed := closing position
        omega
      case bounded =>
        intro position member
        rw [perm.mem_iff, List.mem_append] at member
        rcases member with before | new
        · exact consistent.bounded position before
        · exact ((consistent.mem_released next).1 new).1
      case nodup =>
        rw [perm.nodup_iff, List.nodup_append]
        refine ⟨consistent.nodup, nodup_released _ _ _, ?_⟩
        rintro position before _ new rfl
        -- what is released had an open link, what was ready had none
        obtain ⟨inBounds, some, -⟩ := (consistent.mem_released next).1 new
        have waited := (consistent.free position inBounds).1 before
        have closed := closing position
        omega
      case free =>
        intro position inBounds
        rw [perm.mem_iff, List.mem_append, consistent.free position inBounds,
          consistent.mem_released next, done]
        have closed := closing position
        omega
      case ordered =>
        have isReady : father ∈ progress.done ++ progress.ready := by simp [next]
        have fatherFree := (consistent.free father (consistent.bounded father isReady)).1 isReady
        rw [done]
        exact ⟨openLinks_eq_zero_iff.1 fatherFree, consistent.ordered⟩

theorem consistent_run {links : List (List Nat)} {progress : Progress}
    (consistent : Consistent links progress) (steps : Nat) :
    Consistent links (run links steps progress) := by
  induction steps generalizing progress with
  | zero => exact consistent
  | succ steps ih => exact ih consistent.step

/-- A run puts out a position with every step until nothing is ready. -/
theorem length_done_run {links : List (List Nat)} {progress : Progress}
    (consistent : Consistent links progress) (steps : Nat) :
    (run links steps progress).ready = [] ∨
      (run links steps progress).done.length = progress.done.length + steps := by
  induction steps generalizing progress with
  | zero => exact .inr rfl
  | succ steps ih =>
      cases next : progress.ready with
      | nil =>
          have still : progress.step links = progress := by rw [step, next]
          have idle : ∀ count, run links count progress = progress := by
            intro count
            induction count with
            | zero => rfl
            | succ count ih => rw [run, still, ih]
          exact .inl (by rw [idle, next])
      | cons father rest =>
          obtain ⟨done, -⟩ := step_of_ready consistent next
          refine (ih consistent.step).imp id fun length => ?_
          rw [run, length, done, List.length_cons]
          omega

/-- In the end nothing is ready. -/
theorem ready_finish (links : List (List Nat)) : (finish links).ready = [] := by
  have consistent := consistent_run (consistent_start links) links.length
  rcases length_done_run (consistent_start links) links.length with empty | all
  · exact empty
  · have short : (finish links).done.length + (finish links).ready.length ≤ links.length := by
      have inside : (run links links.length (start links)).done ++
          (run links links.length (start links)).ready ⊆ List.range links.length :=
        fun position member => List.mem_range.2 (consistent.bounded position member)
      simpa [finish] using (consistent.nodup.subperm inside).length_le
    have count : (finish links).done.length = links.length := by
      simpa [finish, start] using all
    exact List.eq_nil_of_length_eq_zero (by omega)

theorem consistent_finish (links : List (List Nat)) : Consistent links (finish links) :=
  consistent_run (consistent_start links) links.length

/-- Every position below which following links comes to an end is put out. -/
theorem mem_done_finish {links : List (List Nat)}
    (inside : ∀ position, ∀ father ∈ linksOf links position, father < links.length)
    {position : Nat} (inBounds : position < links.length)
    (accessible : Acc (fun father position => father ∈ linksOf links position) position) :
    position ∈ (finish links).done := by
  induction accessible with
  | intro position _ ih =>
      have free := (consistent_finish links).free position inBounds
      rw [ready_finish, List.append_nil] at free
      refine free.2 (openLinks_eq_zero_iff.2 fun father isFather => ?_)
      exact ih father isFather (inside position father isFather)

end Progress

/-- Without cycles all positions are put out, each after its fathers. -/
theorem orderPositions_ok {links : List (List Nat)}
    (inside : ∀ position, ∀ father ∈ linksOf links position, father < links.length)
    (accessible : ∀ position, position < links.length →
      Acc (fun father position => father ∈ linksOf links position) position) :
    ∃ positions, orderPositions links = .ok positions ∧
      positions.Perm (List.range links.length) ∧ FathersBefore links positions.reverse := by
  have consistent := Progress.consistent_finish links
  have nodup := consistent.nodup
  have bounded := consistent.bounded
  rw [Progress.ready_finish, List.append_nil] at nodup bounded
  have all : (Progress.finish links).done.Perm (List.range links.length) := by
    refine (List.perm_ext_iff_of_nodup nodup List.nodup_range).2 fun position => ?_
    rw [List.mem_range]
    exact ⟨bounded position, fun inBounds =>
      Progress.mem_done_finish inside inBounds (accessible position inBounds)⟩
  have count : (Progress.finish links).done.length = links.length := by
    simpa using all.length_eq
  refine ⟨(Progress.finish links).done.reverse, ?_, (List.reverse_perm _).trans all, ?_⟩
  · rw [orderPositions, if_pos count]
  · rw [List.reverse_reverse]
    exact consistent.ordered

/-! ## Tasks and positions -/

theorem task_of_owner {tasks : List Task} {name : String} {position : Nat}
    (owner : (owners tasks).get? name = some position) :
    ∃ task, tasks[position]? = some task ∧ task.name = name := by
  rw [owners, Dict.get?_ofList] at owner
  have member := List.mem_reverse.1 (Dict.mem_of_lookup owner)
  obtain ⟨⟨task, index⟩, found, equal⟩ := List.mem_map.1 member
  cases equal
  exact ⟨task, List.mem_zipIdx_iff_getElem?.1 found, rfl⟩

/-- With distinct names every task owns its name. -/
theorem owner_of_task {tasks : List Task} (unique : (tasks.map Task.name).Nodup)
    {task : Task} {position : Nat} (found : tasks[position]? = some task) :
    (owners tasks).get? task.name = some position := by
  rw [owners, Dict.get?_ofList]
  refine Dict.lookup_eq_some_of_nodup ?_ ?_
  · rw [List.map_reverse, List.nodup_reverse, List.map_map]
    have names : (tasks.zipIdx.map (Prod.fst ∘ fun entry => (entry.1.name, entry.2))) =
        tasks.map Task.name := by
      rw [← List.zipIdx_map_fst 0 tasks, List.map_map, List.zipIdx_map_fst]
      rfl
    rwa [names]
  · exact List.mem_reverse.2
      (List.mem_map.2 ⟨(task, position), List.mem_zipIdx_iff_getElem?.2 found, rfl⟩)

@[simp] theorem length_links (tasks : List Task) : (links tasks).length = tasks.length := by
  simp [links]

theorem mem_linksOf_links {tasks : List Task} {father position : Nat} :
    father ∈ linksOf (links tasks) position ↔
      ∃ task, tasks[position]? = some task ∧
        ∃ name ∈ task.fathers, (owners tasks).get? name = some father := by
  rw [linksOf, links, List.getD_eq_getElem?_getD, List.getElem?_map]
  cases tasks[position]? with
  | none => simp
  | some task => simp

theorem lt_length_of_mem_links {tasks : List Task} {father position : Nat}
    (isFather : father ∈ linksOf (links tasks) position) : father < (links tasks).length := by
  obtain ⟨_, _, _, _, owner⟩ := mem_linksOf_links.1 isFather
  obtain ⟨_, found, _⟩ := task_of_owner owner
  rw [length_links]
  exact (List.getElem?_eq_some_iff.1 found).1

/-- Following links comes to an end where following fathers does. -/
theorem accessible_links {tasks : List Task} (unique : (tasks.map Task.name).Nodup)
    {name : String} (accessible : Acc (IsFather tasks) name) {position : Nat} {task : Task}
    (found : tasks[position]? = some task) (named : task.name = name) :
    Acc (fun father position => father ∈ linksOf (links tasks) position) position := by
  induction accessible generalizing position task with
  | intro name _ ih =>
      refine .intro position fun father isFather => ?_
      obtain ⟨same, again, fatherName, listed, owner⟩ := mem_linksOf_links.1 isFather
      rw [found, Option.some.injEq] at again
      subst again
      obtain ⟨fatherTask, fatherFound, fatherNamed⟩ := task_of_owner owner
      refine ih fatherName ?_ fatherFound fatherNamed
      rw [IsFather, ← named, fathersOf_eq unique (List.mem_of_getElem? found)]
      exact listed

/-- Every task of a list comes after its fathers. -/
def FathersFirst (order : List Task) : Prop :=
  ∀ before task after, order = before ++ task :: after →
    ∀ father ∈ task.fathers, father ∈ before.map Task.name

theorem filterMap_range_getElem? {α : Type} (values : List α) :
    (List.range values.length).filterMap (fun position => values[position]?) = values := by
  induction values with
  | nil => rfl
  | cons head rest ih =>
      rw [List.length_cons, List.range_succ_eq_map, List.filterMap_cons_some (by rfl),
        List.filterMap_map]
      simpa [Function.comp_def] using ih

/-- Positions in which fathers stand before their dependents give tasks in such an order. -/
theorem fathersFirst_of_fathersBefore {tasks : List Task}
    (resolved : ∀ task ∈ tasks, ∀ father ∈ task.fathers, father ∈ tasks.map Task.name)
    (unique : (tasks.map Task.name).Nodup) {positions : List Nat}
    (ordered : FathersBefore (links tasks) positions) :
    FathersFirst (positions.reverse.filterMap fun position => tasks[position]?) := by
  induction positions with
  | nil =>
      intro before task after split
      exact absurd split (by simp)
  | cons position earlier ih =>
      obtain ⟨inside, orderedEarlier⟩ := ordered
      rw [List.reverse_cons, List.filterMap_append]
      cases found : tasks[position]? with
      | none => simpa [found] using ih orderedEarlier
      | some last =>
          rw [List.filterMap_cons_some found, List.filterMap_nil]
          intro before task after split father isFather
          rcases List.eq_nil_or_concat after with none | ⟨middle, final, rfl⟩
          · subst none
            obtain ⟨same, lastSame⟩ := List.append_inj' split rfl
            cases lastSame
            obtain ⟨fatherTask, isTask, named⟩ :=
              List.mem_map.1 (resolved last (List.mem_of_getElem? found) father isFather)
            obtain ⟨fatherPosition, fatherFound⟩ := List.getElem?_of_mem isTask
            have owner := owner_of_task unique fatherFound
            rw [named] at owner
            have link := inside (mem_linksOf_links.2 ⟨last, found, father, isFather, owner⟩)
            rw [← same]
            exact List.mem_map.2 ⟨fatherTask, List.mem_filterMap.2
              ⟨fatherPosition, List.mem_reverse.2 link, fatherFound⟩, named⟩
          · refine ih orderedEarlier before task middle ?_ father isFather
            have shorter : (before ++ task :: middle) ++ [final] =
                before ++ task :: (middle ++ [final]) := by simp
            rw [List.concat_eq_append, ← shorter] at split
            exact (List.append_inj' split rfl).1

/-- A workflow can be ordered: every task once, each after its fathers. -/
theorem order_of_wellFormed {tasks : List Task} (wellFormed : WellFormed tasks) :
    ∃ order, Graph.order tasks = .ok order ∧ order.Perm tasks ∧ FathersFirst order := by
  obtain ⟨positions, ordered, all, before⟩ :=
    @orderPositions_ok (links tasks) (fun _ _ => lt_length_of_mem_links)
      (by
        intro position inBounds
        rw [length_links] at inBounds
        have found : tasks[position]? = some tasks[position] := List.getElem?_eq_getElem inBounds
        exact accessible_links wellFormed.unique
          (wellFormed.acyclic tasks[position] (List.getElem_mem inBounds)) found rfl)
  refine ⟨positions.filterMap fun position => tasks[position]?, ?_, ?_, ?_⟩
  · rw [order, ordered]
  · have same := all.filterMap fun position => tasks[position]?
    rwa [length_links, filterMap_range_getElem?] at same
  · have fathersFirst :=
      fathersFirst_of_fathersBefore wellFormed.resolved wellFormed.unique before
    rwa [List.reverse_reverse] at fathersFirst

end Graph

end Relay
