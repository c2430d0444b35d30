import Mathlib.Data.List.Basic
import Mathlib.Data.List.Nodup
import Mathlib.Data.List.Sort
import Mathlib.Data.Set.Function
import Relay.Dict

/-!
# Theory of dictionaries

Every operation on a dictionary is described by what look-ups find afterwards,
and every count over the entries by what a single insertion or removal adds and
takes away.
-/

namespace Relay

universe u v

namespace Dict

variable {α : Type u}

/-! ## Look-ups and entries -/

theorem lookup_of_mem {entries : List (String × α)} {key : String} {value : α}
    (sorted : entries.Pairwise fun left right => left.1 < right.1)
    (member : (key, value) ∈ entries) : entries.lookup key = some value := by
  induction entries with
  | nil => simp at member
  | cons head rest ih =>
      obtain ⟨headKey, current⟩ := head
      obtain ⟨before, tail⟩ := List.pairwise_cons.1 sorted
      rcases List.mem_cons.1 member with equal | later
      · cases equal
        simp
      · have above : headKey < key := before _ later
        have missed : (key == headKey) = false := by
          simpa using (String.ne_of_lt above).symm
        rw [List.lookup_cons, missed]
        exact ih tail later

theorem mem_of_lookup {entries : List (String × α)} {key : String} {value : α}
    (found : entries.lookup key = some value) : (key, value) ∈ entries := by
  induction entries with
  | nil => simp at found
  | cons head rest ih =>
      obtain ⟨headKey, current⟩ := head
      by_cases atHead : key = headKey
      · subst atHead
        simp only [List.lookup_cons, beq_self_eq_true, Option.some.injEq] at found
        simp [found]
      · have missed : (key == headKey) = false := by simpa using atHead
        rw [List.lookup_cons, missed] at found
        exact List.mem_cons_of_mem _ (ih found)

/-- The entries of a dictionary are what look-ups find. -/
theorem get?_eq_some_iff (dict : Dict α) (key : String) (value : α) :
    dict.get? key = some value ↔ (key, value) ∈ dict.entries :=
  ⟨mem_of_lookup, lookup_of_mem dict.sorted⟩

theorem get?_eq_none_of_size_eq_zero {dict : Dict α} (empty : dict.size = 0) (key : String) :
    dict.get? key = none := by
  have nothing : dict.entries = [] := List.eq_nil_of_length_eq_zero empty
  simp [get?, nothing]

theorem mem_values_iff (dict : Dict α) (value : α) :
    value ∈ dict.values ↔ ∃ key, dict.get? key = some value := by
  simp [values, get?_eq_some_iff]

/-! ## Several insertions -/

/-- After several insertions a look-up finds the last entry of its key. -/
theorem get?_insertAll (dict : Dict α) (entries : List (String × α)) (query : String) :
    (dict.insertAll entries).get? query =
      (entries.reverse.lookup query).or (dict.get? query) := by
  induction entries generalizing dict with
  | nil => simp [insertAll]
  | cons head rest ih =>
      obtain ⟨key, value⟩ := head
      have step : (dict.insertAll ((key, value) :: rest)) =
          (dict.insert key value).insertAll rest := rfl
      rw [step, ih, get?_insert, List.reverse_cons, List.lookup_append, Option.or_assoc]
      by_cases equal : query = key
      · subst equal
        simp
      · have missed : (query == key) = false := by simpa using equal
        simp [List.lookup_cons, missed, equal]

theorem get?_ofList (entries : List (String × α)) (query : String) :
    (ofList entries).get? query = entries.reverse.lookup query := by
  simp [ofList, get?_insertAll]

/-- Keys that occur once are found whatever stands around them. -/
theorem lookup_eq_some_of_nodup {entries : List (String × α)} {key : String} {value : α}
    (unique : (entries.map Prod.fst).Nodup) (member : (key, value) ∈ entries) :
    entries.lookup key = some value := by
  induction entries with
  | nil => simp at member
  | cons head rest ih =>
      obtain ⟨headKey, current⟩ := head
      rw [List.map_cons, List.nodup_cons] at unique
      rcases List.mem_cons.1 member with equal | later
      · cases equal
        simp
      · have different : key ≠ headKey := fun equal =>
          unique.1 (List.mem_map.2 ⟨(key, value), later, equal⟩)
        have missed : (key == headKey) = false := by simpa using different
        rw [List.lookup_cons, missed]
        exact ih unique.2 later

theorem lookup_eq_none_iff {entries : List (String × α)} {key : String} :
    entries.lookup key = none ↔ ∀ value, (key, value) ∉ entries := by
  constructor
  · intro missing value member
    induction entries with
    | nil => simp at member
    | cons head rest ih =>
        obtain ⟨headKey, current⟩ := head
        by_cases atHead : key = headKey
        · simp [atHead] at missing
        · have missed : (key == headKey) = false := by simpa using atHead
          rw [List.lookup_cons, missed] at missing
          rcases List.mem_cons.1 member with equal | later
          · cases equal
            exact atHead rfl
          · exact ih missing later
  · intro absent
    cases found : entries.lookup key with
    | none => rfl
    | some value => exact absurd (mem_of_lookup found) (absent value)

/-- Inserting the entries of another dictionary lets that dictionary win. -/
theorem get?_insertAll_entries (dict other : Dict α) (query : String) :
    (dict.insertAll other.entries).get? query = (other.get? query).or (dict.get? query) := by
  rw [get?_insertAll]
  congr 1
  have same := get?_ofList other.entries query
  rw [ofList_entries] at same
  exact same.symm

/-! ## Counting entries -/

theorem countP_insertEntry (test : String × α → Bool) {key : String} {value : α}
    {entries : List (String × α)}
    (sorted : entries.Pairwise fun left right => left.1 < right.1) :
    (insertEntry key value entries).countP test +
        ((entries.lookup key).elim 0 fun old => if test (key, old) then 1 else 0) =
      entries.countP test + if test (key, value) then 1 else 0 := by
  induction entries with
  | nil => simp [insertEntry, List.countP_cons]
  | cons head rest ih =>
      obtain ⟨headKey, current⟩ := head
      obtain ⟨before, tail⟩ := List.pairwise_cons.1 sorted
      rw [insertEntry]
      split
      · next less =>
          have missing : ((headKey, current) :: rest).lookup key = none := by
            refine lookup_eq_none_iff.2 fun other member => ?_
            rcases List.mem_cons.1 member with equal | later
            · cases equal
              exact String.lt_irrefl _ less
            · exact String.lt_irrefl _ (String.lt_trans less (before _ later))
          rw [missing]
          simp [List.countP_cons]
      · split
        · next equal =>
            subst equal
            simp only [List.lookup_cons, beq_self_eq_true, Option.elim_some, List.countP_cons]
            omega
        · next different =>
            have missed : (key == headKey) = false := by simpa using different
            have counted := ih tail
            simp only [List.lookup_cons, missed, List.countP_cons] at counted ⊢
            omega

/-- An insertion counts the new value in the place of the old one. -/
theorem countP_insert (test : String × α → Bool) (dict : Dict α) (key : String) (value : α) :
    (dict.insert key value).entries.countP test +
        ((dict.get? key).elim 0 fun old => if test (key, old) then 1 else 0) =
      dict.entries.countP test + if test (key, value) then 1 else 0 :=
  countP_insertEntry test dict.sorted

/-- A removal takes the removed value out of the count. -/
theorem countP_erase (test : String × α → Bool) (dict : Dict α) (key : String) :
    (dict.erase key).entries.countP test +
        ((dict.get? key).elim 0 fun old => if test (key, old) then 1 else 0) =
      dict.entries.countP test := by
  obtain ⟨entries, sorted⟩ := dict
  show (entries.filter fun entry => entry.1 ≠ key).countP test +
    ((entries.lookup key).elim 0 fun old => if test (key, old) then 1 else 0) =
      entries.countP test
  induction entries with
  | nil => rfl
  | cons head rest ih =>
      obtain ⟨headKey, current⟩ := head
      obtain ⟨before, tail⟩ := List.pairwise_cons.1 sorted
      have counted := ih tail
      by_cases same : headKey = key
      · subst same
        have absent : rest.lookup headKey = none :=
          lookup_eq_none_iff.2 fun other member =>
            String.lt_irrefl headKey (before (headKey, other) member)
        rw [absent] at counted
        simp only [ne_eq, decide_not, List.filter_cons, decide_true, Bool.not_true,
          Bool.false_eq_true, ↓reduceIte, List.lookup_cons, beq_self_eq_true, Option.elim_some,
          List.countP_cons] at counted ⊢
        simp only [Option.elim_none] at counted
        omega
      · have missed : (key == headKey) = false := by simpa using Ne.symm same
        simp only [ne_eq, decide_not, List.filter_cons, same, decide_false, Bool.not_false,
          ↓reduceIte, List.lookup_cons, missed, List.countP_cons] at counted ⊢
        omega

/-- Entries under new keys are counted on top of what is there. -/
theorem countP_insertAll (test : String × α → Bool) (dict : Dict α) {entries : List (String × α)}
    (unique : (entries.map Prod.fst).Nodup) (fresh : ∀ entry ∈ entries, dict.get? entry.1 = none) :
    (dict.insertAll entries).entries.countP test =
      dict.entries.countP test + entries.countP test := by
  induction entries generalizing dict with
  | nil => rfl
  | cons head rest ih =>
      obtain ⟨notAgain, uniqueRest⟩ := List.nodup_cons.1 unique
      have freshRest : ∀ entry ∈ rest, (dict.insert head.1 head.2).get? entry.1 = none := by
        intro entry member
        have different : entry.1 ≠ head.1 := fun same =>
          notAgain (same ▸ List.mem_map_of_mem member)
        rw [get?_insert, if_neg different]
        exact fresh entry (List.mem_cons_of_mem _ member)
      have counted := countP_insert test dict head.1 head.2
      rw [fresh head List.mem_cons_self, Option.elim_none, Nat.add_zero] at counted
      have all := ih (dict.insert head.1 head.2) uniqueRest freshRest
      calc ((dict.insert head.1 head.2).insertAll rest).entries.countP test
          = dict.entries.countP test + (if test head then 1 else 0) + rest.countP test := by
            rw [all, counted]
        _ = dict.entries.countP test + (head :: rest).countP test := by
            rw [List.countP_cons]
            omega

/-- The entries of a dictionary are those of a smaller one and those that are missing there. -/
theorem countP_of_subset (test : String × α → Bool) {small large : Dict α}
    (subset : ∀ key value, small.get? key = some value → large.get? key = some value) :
    small.entries.countP test +
        (large.entries.filter fun entry => (small.get? entry.1).isNone).countP test =
      large.entries.countP test := by
  let common : Dict α := ⟨large.entries.filter fun entry => !(small.get? entry.1).isNone,
    large.sorted.filter _⟩
  have same : common = small := by
    refine ext_get? fun key => Option.ext fun value => ?_
    rw [get?_eq_some_iff]
    show (key, value) ∈ large.entries.filter _ ↔ _
    rw [List.mem_filter, ← get?_eq_some_iff]
    constructor
    · rintro ⟨found, present⟩
      obtain ⟨other, foundOther⟩ : ∃ other, small.get? key = some other :=
        Option.isSome_iff_exists.1 (by simpa using present)
      cases found.symm.trans (subset key other foundOther)
      exact foundOther
    · intro found
      exact ⟨subset key value found, by simp [found]⟩
  have split := large.entries.countP_eq_countP_filter_add test
    fun entry => (small.get? entry.1).isNone
  have counted : common.entries.countP test = small.entries.countP test := by rw [same]
  rw [split, ← counted]
  exact Nat.add_comm _ _

theorem size_insertAll (dict : Dict α) {entries : List (String × α)}
    (unique : (entries.map Prod.fst).Nodup) (fresh : ∀ entry ∈ entries, dict.get? entry.1 = none) :
    (dict.insertAll entries).size = dict.size + entries.length := by
  simpa [size, List.countP_eq_length_filter] using
    countP_insertAll (fun _ => true) dict unique fresh

theorem size_insert_of_none {dict : Dict α} {key : String} (free : dict.get? key = none) (value : α) :
    (dict.insert key value).size = dict.size + 1 := by
  have counted := countP_insert (fun _ => true) dict key value
  simpa [free, size, List.countP_eq_length_filter] using counted

theorem size_erase_of_some {dict : Dict α} {key : String} {old : α}
    (found : dict.get? key = some old) : (dict.erase key).size + 1 = dict.size := by
  have counted := countP_erase (fun _ => true) dict key
  simpa [found, size, List.countP_eq_length_filter] using counted

theorem nodup_keys (dict : Dict α) : dict.keys.Nodup := by
  rw [keys, List.Nodup, List.pairwise_map]
  exact dict.sorted.imp fun below => String.ne_of_lt below

theorem mem_keys_iff (dict : Dict α) (key : String) :
    key ∈ dict.keys ↔ ∃ value, dict.get? key = some value := by
  simp [keys, get?_eq_some_iff]

/-- Keys are listed in one way only. -/
theorem keys_eq_of_mem_iff {β : Type u} {left : Dict α} {right : Dict β}
    (same : ∀ key, key ∈ left.keys ↔ key ∈ right.keys) : left.keys = right.keys :=
  (List.pairwise_map.2 left.sorted).eq_of_mem_iff (List.pairwise_map.2 right.sorted) same

/-! ## Other values, other keys -/

/-- Change the values that can be changed and drop the others. -/
def filterMap {β : Type v} (dict : Dict α) (change : α → Option β) : Dict β :=
  ⟨dict.entries.filterMap fun entry => (change entry.2).map fun value => (entry.1, value), by
    refine dict.sorted.filterMap _ fun left right below changed isLeft other isRight => ?_
    obtain ⟨_, -, rfl⟩ := Option.map_eq_some_iff.1 isLeft
    obtain ⟨_, -, rfl⟩ := Option.map_eq_some_iff.1 isRight
    exact below⟩

theorem get?_filterMap {β : Type v} (dict : Dict α) (change : α → Option β) (key : String) :
    (dict.filterMap change).get? key = (dict.get? key).bind change := by
  refine Option.ext fun changed => ?_
  rw [get?_eq_some_iff, Option.bind_eq_some_iff]
  simp [filterMap, get?_eq_some_iff]

theorem values_filterMap {β : Type v} (dict : Dict α) (change : α → Option β) :
    (dict.filterMap change).values = dict.values.filterMap change := by
  simp only [values, filterMap, List.map_filterMap, List.filterMap_map, Option.map_map]
  exact congrArg (dict.entries.filterMap ·) (funext fun entry => Option.map_id' ..)

/-- Move every value to another key; of several values for one key the last stays. -/
def renameKeys (dict : Dict α) (rename : String → String) : Dict α :=
  ofList (dict.entries.map fun entry => (rename entry.1, entry.2))

/-- Where no two keys are given one name, every value is found under its new key. -/
theorem get?_renameKeys_iff {dict : Dict α} {rename : String → String}
    (apart : Set.InjOn rename {key | key ∈ dict.keys}) (key : String) (value : α) :
    (dict.renameKeys rename).get? key = some value ↔
      ∃ old, rename old = key ∧ dict.get? old = some value := by
  let moved := dict.entries.map fun entry => (rename entry.1, entry.2)
  have unique : (moved.reverse.map Prod.fst).Nodup := by
    rw [List.map_reverse, List.nodup_reverse, List.map_map]
    have renamed : (dict.keys.map rename).Nodup := dict.nodup_keys.map_on apart
    rwa [keys, List.map_map] at renamed
  have listed : (key, value) ∈ moved.reverse ↔
      ∃ old, rename old = key ∧ dict.get? old = some value := by
    simp [moved, get?_eq_some_iff, and_comm]
  rw [renameKeys, get?_ofList, ← listed]
  exact ⟨mem_of_lookup, lookup_eq_some_of_nodup unique⟩

end Dict

theorem nodup_sortedSet (texts : List String) : (sortedSet texts).Nodup := Dict.nodup_keys _

@[simp] theorem mem_sortedSet {text : String} {texts : List String} :
    text ∈ sortedSet texts ↔ text ∈ texts := by
  rw [sortedSet, Dict.mem_keys_iff]
  simp only [Dict.get?_ofList]
  constructor
  · rintro ⟨value, found⟩
    obtain ⟨other, member, same⟩ := List.mem_map.1 (List.mem_reverse.1 (Dict.mem_of_lookup found))
    cases same
    exact member
  · intro member
    rw [← List.map_reverse]
    refine Option.ne_none_iff_exists'.1 fun missing => ?_
    exact Dict.lookup_eq_none_iff.1 missing ()
      (List.mem_map.2 ⟨text, List.mem_reverse.2 member, rfl⟩)

end Relay
