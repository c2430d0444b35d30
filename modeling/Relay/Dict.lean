/-!
# Dictionaries kept in key order

A dictionary from text to values is a list of entries in strictly increasing
key order, with the order part of the type.  Strings compare by code point, so
there is exactly one list for every finite map and two dictionaries with equal
lookups are equal (`Dict.ext_get?`).
-/

namespace Relay

universe u v

/-- A finite map from text to values, listed in increasing key order. -/
structure Dict (α : Type u) where
  entries : List (String × α)
  sorted : entries.Pairwise fun left right => left.1 < right.1
  deriving DecidableEq, Repr

namespace Dict

variable {α : Type u} {β : Type v}

/-- The dictionary without entries. -/
def empty : Dict α := ⟨[], .nil⟩

instance : EmptyCollection (Dict α) := ⟨empty⟩

instance : Inhabited (Dict α) := ⟨empty⟩

/-- The value stored under a key. -/
def get? (dict : Dict α) (key : String) : Option α := dict.entries.lookup key

/-- Whether a key has a value. -/
def contains (dict : Dict α) (key : String) : Bool := (dict.get? key).isSome

/-- The keys in increasing order. -/
def keys (dict : Dict α) : List String := dict.entries.map Prod.fst

/-- The values in the order of their keys. -/
def values (dict : Dict α) : List α := dict.entries.map Prod.snd

/-- Number of entries. -/
def size (dict : Dict α) : Nat := dict.entries.length

/-- Whether there is no entry. -/
def isEmpty (dict : Dict α) : Bool := dict.entries.isEmpty

/-- Put an entry where its key belongs, replacing an entry of the same key. -/
def insertEntry (key : String) (value : α) : List (String × α) → List (String × α)
  | [] => [(key, value)]
  | (head, current) :: rest =>
      if key < head then (key, value) :: (head, current) :: rest
      else if key = head then (key, value) :: rest
      else (head, current) :: insertEntry key value rest

theorem mem_insertEntry {key : String} {value : α} {entry : String × α}
    {entries : List (String × α)} (member : entry ∈ insertEntry key value entries) :
    entry = (key, value) ∨ entry ∈ entries := by
  induction entries with
  | nil => simpa [insertEntry] using member
  | cons head rest ih =>
      obtain ⟨headKey, current⟩ := head
      rw [insertEntry] at member
      split at member
      · simpa using member
      · split at member
        · rcases List.mem_cons.1 member with equal | later
          · exact .inl equal
          · exact .inr (List.mem_cons_of_mem _ later)
        · rcases List.mem_cons.1 member with equal | later
          · exact .inr (equal ▸ List.mem_cons_self)
          · exact (ih later).imp id (List.mem_cons_of_mem _)

theorem pairwise_insertEntry {key : String} {value : α} {entries : List (String × α)}
    (sorted : entries.Pairwise fun left right => left.1 < right.1) :
    (insertEntry key value entries).Pairwise fun left right => left.1 < right.1 := by
  induction entries with
  | nil => simp [insertEntry]
  | cons head rest ih =>
      obtain ⟨headKey, current⟩ := head
      obtain ⟨before, tail⟩ := List.pairwise_cons.1 sorted
      rw [insertEntry]
      split
      · next less =>
          refine List.pairwise_cons.2 ⟨?_, sorted⟩
          intro entry member
          rcases List.mem_cons.1 member with equal | later
          · exact equal ▸ less
          · exact String.lt_trans less (before entry later)
      · next notLess =>
          split
          · next equal =>
              refine List.pairwise_cons.2 ⟨?_, tail⟩
              intro entry member
              exact equal ▸ before entry member
          · next different =>
              refine List.pairwise_cons.2 ⟨?_, ih tail⟩
              intro entry member
              rcases mem_insertEntry member with equal | later
              · subst equal
                have notAbove : headKey ≤ key := String.not_lt.1 notLess
                rcases Decidable.em (headKey < key) with below | notBelow
                · exact below
                · exact absurd (String.le_antisymm (String.not_lt.1 notBelow) notAbove) different
              · exact before entry later

/-- Store a value under a key, replacing the value stored there. -/
def insert (dict : Dict α) (key : String) (value : α) : Dict α :=
  ⟨insertEntry key value dict.entries, pairwise_insertEntry dict.sorted⟩

/-- Drop the entry of a key. -/
def erase (dict : Dict α) (key : String) : Dict α :=
  ⟨dict.entries.filter fun entry => entry.1 ≠ key, dict.sorted.filter _⟩

/-- Keep the entries that satisfy a predicate. -/
def filter (dict : Dict α) (keep : String → α → Bool) : Dict α :=
  ⟨dict.entries.filter fun entry => keep entry.1 entry.2, dict.sorted.filter _⟩

/-- Change every value and keep the keys. -/
def map (dict : Dict α) (change : α → β) : Dict β :=
  ⟨dict.entries.map fun entry => (entry.1, change entry.2), by
    rw [List.pairwise_map]
    exact dict.sorted⟩

/-- Change the value of a key, if it has one. -/
def modify (dict : Dict α) (key : String) (change : α → α) : Dict α :=
  match dict.get? key with
  | some value => dict.insert key (change value)
  | none => dict

/-- Insert entries one after another, so that a later entry wins. -/
def insertAll (dict : Dict α) (entries : List (String × α)) : Dict α :=
  entries.foldl (fun collected entry => collected.insert entry.1 entry.2) dict

/-- The dictionary of a list of entries; of several entries for one key the last wins. -/
def ofList (entries : List (String × α)) : Dict α := empty.insertAll entries

theorem lookup_insertEntry (key query : String) (value : α) (entries : List (String × α)) :
    (insertEntry key value entries).lookup query =
      if query = key then some value else entries.lookup query := by
  induction entries with
  | nil =>
      by_cases equal : query = key
      · simp [insertEntry, equal]
      · have missed : (query == key) = false := by simpa using equal
        simp [insertEntry, List.lookup_cons, missed, equal]
  | cons head rest ih =>
      obtain ⟨headKey, current⟩ := head
      rw [insertEntry]
      by_cases equal : query = key
      · subst equal
        split
        · simp
        · split
          · simp
          · next different =>
              have missed : (query == headKey) = false := by simpa using different
              simp [List.lookup_cons, missed, ih]
      · have missed : (query == key) = false := by simpa using equal
        split
        · simp [List.lookup_cons, missed]
        · split
          · next same =>
              subst same
              simp [List.lookup_cons, missed]
          · by_cases atHead : query = headKey
            · subst atHead
              simp
            · have notHead : (query == headKey) = false := by simpa using atHead
              simp [List.lookup_cons, notHead, ih, equal]

/-- Reading after an insertion. -/
theorem get?_insert (dict : Dict α) (key query : String) (value : α) :
    (dict.insert key value).get? query = if query = key then some value else dict.get? query :=
  lookup_insertEntry key query value dict.entries

@[simp] theorem get?_insert_self (dict : Dict α) (key : String) (value : α) :
    (dict.insert key value).get? key = some value := by
  simp [get?_insert]

@[simp] theorem get?_empty (query : String) : (empty : Dict α).get? query = none := rfl

/-- Reading after a removal. -/
theorem get?_erase (dict : Dict α) (key query : String) :
    (dict.erase key).get? query = if query = key then none else dict.get? query := by
  obtain ⟨entries, sorted⟩ := dict
  show (entries.filter _).lookup query = if _ then _ else entries.lookup query
  clear sorted
  induction entries with
  | nil => simp
  | cons head rest ih =>
      obtain ⟨headKey, current⟩ := head
      by_cases same : headKey = key
      · subst same
        by_cases atHead : query = headKey
        · subst atHead; simpa using ih
        · have notHead : (query == headKey) = false := by simpa using atHead
          simpa [List.lookup_cons, notHead, atHead] using ih
      · by_cases atHead : query = headKey
        · subst atHead; simp [same]
        · have notHead : (query == headKey) = false := by simpa using atHead
          simpa [List.lookup_cons, notHead, same] using ih

/-- Two dictionaries that answer every lookup alike are equal. -/
theorem ext_get? {left right : Dict α}
    (agree : ∀ key, left.get? key = right.get? key) : left = right := by
  obtain ⟨leftEntries, leftSorted⟩ := left
  obtain ⟨rightEntries, rightSorted⟩ := right
  have lookups : ∀ key, leftEntries.lookup key = rightEntries.lookup key := agree
  clear agree
  suffices equal : leftEntries = rightEntries by subst equal; rfl
  have absent : ∀ (key : String) (entries : List (String × α)),
      (∀ entry ∈ entries, key < entry.1) → entries.lookup key = none := by
    intro key entries above
    induction entries with
    | nil => rfl
    | cons head rest ih =>
        obtain ⟨headKey, current⟩ := head
        have different : (key == headKey) = false := by
          simpa using String.ne_of_lt (above _ List.mem_cons_self)
        rw [List.lookup_cons, different]
        exact ih fun entry member => above entry (List.mem_cons_of_mem _ member)
  induction leftEntries generalizing rightEntries with
  | nil =>
      cases rightEntries with
      | nil => rfl
      | cons head rest =>
          obtain ⟨headKey, current⟩ := head
          have := lookups headKey
          simp at this
  | cons head rest ih =>
      cases rightEntries with
      | nil =>
          obtain ⟨headKey, current⟩ := head
          have := lookups headKey
          simp at this
      | cons other others =>
          obtain ⟨headKey, headValue⟩ := head
          obtain ⟨otherKey, otherValue⟩ := other
          obtain ⟨aboveHead, restSorted⟩ := List.pairwise_cons.1 leftSorted
          obtain ⟨aboveOther, othersSorted⟩ := List.pairwise_cons.1 rightSorted
          have sameKey : headKey = otherKey := by
            rcases Decidable.em (headKey < otherKey) with below | notBelow
            · have missing := absent headKey ((otherKey, otherValue) :: others) (by
                intro entry member
                rcases List.mem_cons.1 member with equal | later
                · exact equal ▸ below
                · exact String.lt_trans below (aboveOther entry later))
              have := lookups headKey
              rw [missing] at this
              simp at this
            · rcases Decidable.em (otherKey < headKey) with above | notAbove
              · have missing := absent otherKey ((headKey, headValue) :: rest) (by
                  intro entry member
                  rcases List.mem_cons.1 member with equal | later
                  · exact equal ▸ above
                  · exact String.lt_trans above (aboveHead entry later))
                have := lookups otherKey
                rw [missing] at this
                simp at this
              · exact String.le_antisymm (String.not_lt.1 notAbove) (String.not_lt.1 notBelow)
          subst sameKey
          have sameValue : headValue = otherValue := by
            have := lookups headKey
            simpa using this
          subst sameValue
          congr 1
          refine ih restSorted others othersSorted ?_
          intro key
          by_cases equal : key = headKey
          · subst equal
            rw [absent key rest (fun entry member => aboveHead entry member),
              absent key others (fun entry member => aboveOther entry member)]
          · have notHead : (key == headKey) = false := by simpa using equal
            have := lookups key
            simpa [List.lookup_cons, notHead] using this

/-- Inserting the entries of a dictionary that all lie above it only appends them. -/
theorem insertEntry_of_above {key : String} {value : α} {entries : List (String × α)}
    (above : ∀ entry ∈ entries, entry.1 < key) :
    insertEntry key value entries = entries ++ [(key, value)] := by
  induction entries with
  | nil => rfl
  | cons head rest ih =>
      obtain ⟨headKey, current⟩ := head
      have below : headKey < key := above (headKey, current) List.mem_cons_self
      have notLess : ¬ key < headKey := String.lt_asymm below
      have different : key ≠ headKey := fun equal => String.ne_of_lt below equal.symm
      rw [insertEntry, if_neg notLess, if_neg different,
        ih fun entry member => above entry (List.mem_cons_of_mem _ member)]
      rfl

/-- Listing a dictionary and reading the list back gives the dictionary. -/
@[simp] theorem ofList_entries (dict : Dict α) : ofList dict.entries = dict := by
  obtain ⟨entries, sorted⟩ := dict
  suffices general : ∀ (later earlier : List (String × α))
      (earlierSorted : earlier.Pairwise fun left right => left.1 < right.1),
      (earlier ++ later).Pairwise (fun left right => left.1 < right.1) →
      ((⟨earlier, earlierSorted⟩ : Dict α).insertAll later).entries = earlier ++ later by
    have := general entries [] .nil (by simpa using sorted)
    simp only [List.nil_append] at this
    cases collected : ofList entries with
    | mk result resultSorted =>
        have equal : result = entries := by
          have := this
          unfold ofList empty at collected
          rw [collected] at this
          exact this
        subst equal
        rfl
  intro later
  induction later with
  | nil => intro earlier earlierSorted _; simp [insertAll]
  | cons head rest ih =>
      intro earlier earlierSorted bothSorted
      have above : ∀ entry ∈ earlier, entry.1 < head.1 := by
        intro entry member
        exact (List.pairwise_append.1 bothSorted).2.2 entry member head List.mem_cons_self
      have grown : insertEntry head.1 head.2 earlier = earlier ++ [head] :=
        insertEntry_of_above above
      have step := ih (insertEntry head.1 head.2 earlier) (pairwise_insertEntry earlierSorted)
        (by rw [grown]; simpa using bothSorted)
      calc ((⟨earlier, earlierSorted⟩ : Dict α).insertAll (head :: rest)).entries
          = insertEntry head.1 head.2 earlier ++ rest := step
        _ = earlier ++ head :: rest := by rw [grown]; simp

end Dict

/-- The members of a list of texts in increasing order, each once. -/
def sortedSet (texts : List String) : List String :=
  (Dict.ofList (texts.map fun text => (text, ()))).keys

end Relay
