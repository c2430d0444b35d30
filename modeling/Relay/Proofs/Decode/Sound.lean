import Relay.Proofs.Json.Canonical

/-!
# What decoders give

Not every value of a type can stand in a document: a count has to fit its width, and the
members of an object come in increasing key order.  Whatever is decoded, from a value, a
text or a configuration file, in the form of a table or of a list, with or without the
fields that have a default, is well-formed in this sense.
-/

namespace Relay

namespace Decoder

variable {α β : Type}

/-- Whatever a decoder reads has a property. -/
def Yields (decoder : Decoder α) (holds : α → Prop) : Prop :=
  ∀ place document value, decoder place document = .ok value → holds value

theorem yields_trivial (decoder : Decoder α) : decoder.Yields fun _ => True :=
  fun _ _ _ _ => trivial

/-! ## Parts -/

theorem json_yields : Decoder.Yields json Json.Canonical := fun _ document _ read =>
  canonical_of_json document read

theorem natural_yields (limit : Nat) (expected : String) :
    (natural limit expected).Yields (· < limit) := by
  intro place document value read
  unfold natural at read
  split at read
  · split at read
    · next number within =>
        cases read
        omega
    · cases read
  · cases read

theorem optional_yields {decoder : Decoder α} {holds : α → Prop} (yields : decoder.Yields holds) :
    (optional decoder).Yields fun value => ∀ part ∈ value, holds part := by
  intro place document value read part member
  unfold optional at read
  split at read
  · cases read
    cases member
  · cases found : decoder place document with
    | error problem =>
        rw [found] at read
        cases read
    | ok inner =>
        rw [found] at read
        cases read
        cases member
        exact yields place document part found

theorem ok_of_located {step : PathStep} {result : Except DecodeError α} {value : α}
    (read : located step result = .ok value) : result = .ok value := by
  cases result with
  | error problem => cases read
  | ok found => exact read

theorem items_yields {decoder : Decoder α} {holds : α → Prop} (yields : decoder.Yields holds)
    {place : Place} {position : Nat} {found : List Document} {values : List α}
    (read : items decoder place position found = .ok values) : ∀ value ∈ values, holds value := by
  induction found generalizing position values with
  | nil =>
      cases read
      exact fun _ member => absurd member List.not_mem_nil
  | cons item rest ih =>
      simp only [items, bind, Except.bind] at read
      split at read
      · cases read
      · next first isFirst =>
          split at read
          · cases read
          · next others areOthers =>
              cases read
              exact List.forall_mem_cons.2
                ⟨yields _ _ _ (ok_of_located isFirst), ih areOthers⟩

theorem list_yields {decoder : Decoder α} {holds : α → Prop} (yields : decoder.Yields holds) :
    (list decoder).Yields fun values => ∀ value ∈ values, holds value := by
  intro place document values read
  unfold list at read
  split at read
  · simp only [bind, Except.bind] at read
    split at read
    · cases read
    · split at read
      · cases read
      · next inside _ values areItems =>
          split at read
          · cases read
          · cases read
            exact items_yields yields areItems
  · cases read

theorem entries_yields {decoder : Decoder α} {holds : α → Prop} (yields : decoder.Yields holds)
    {place : Place} {found : List (Option String × Document)} {values : List (String × α)}
    (read : entries decoder place found = .ok values) : ∀ entry ∈ values, holds entry.2 := by
  induction found generalizing values with
  | nil =>
      cases read
      exact fun _ member => absurd member List.not_mem_nil
  | cons entry rest ih =>
      obtain ⟨_ | key, document⟩ := entry
      · cases read
      · simp only [entries, bind, Except.bind] at read
        split at read
        · cases read
        · next first isFirst =>
            split at read
            · cases read
            · next others areOthers =>
                cases read
                exact List.forall_mem_cons.2
                  ⟨yields _ _ _ (ok_of_located isFirst), ih areOthers⟩

theorem dict_yields {decoder : Decoder α} {holds : α → Prop} (yields : decoder.Yields holds) :
    (dict decoder).Yields fun values => ∀ entry ∈ values.entries, holds entry.2 := by
  intro place document values read entry member
  unfold dict at read
  split at read
  · simp only [bind, Except.bind] at read
    split at read
    · cases read
    · split at read
      · cases read
      · next inside _ listed areEntries =>
          split at read
          · cases read
          · cases read
            have kept := (Dict.get?_eq_some_iff _ entry.1 entry.2).2 member
            rw [Dict.get?_ofList] at kept
            exact entries_yields yields areEntries (entry.1, entry.2)
              (List.mem_reverse.1 (Dict.mem_of_lookup kept))
  · cases read

/-! ## Structures -/

/-- Reading a field keeps a property of the structure. -/
def Field.Keeps (field : Field α) (holds : α → Prop) : Prop :=
  ∀ place document value next, field.read place document value = .ok next →
    holds value → holds next

/-- Every field of a structure keeps a property of it. -/
def AllKeep (holds : α → Prop) : List (Field α) → Prop
  | [] => True
  | field :: rest => field.Keeps holds ∧ AllKeep holds rest

theorem allKeep_iff {holds : α → Prop} (fields : List (Field α)) :
    AllKeep holds fields ↔ ∀ field ∈ fields, field.Keeps holds := by
  induction fields with
  | nil => simp [AllKeep]
  | cons field rest ih => simp [AllKeep, ih]

theorem Field.keeps_of {decoder : Decoder β} {part : β → Prop} (yields : decoder.Yields part)
    {holds : α → Prop} {name : String} {presence : Presence} {store : α → β → α}
    (stored : ∀ value inner, holds value → part inner → holds (store value inner)) :
    (Field.of name presence decoder store).Keeps holds := by
  intro place document value next read holding
  dsimp only [Field.of] at read
  cases found : decoder place document with
  | error problem =>
      rw [found] at read
      cases read
  | ok inner =>
      rw [found] at read
      cases read
      exact stored value inner holding (yields place document inner found)

theorem tableFields_keeps {fields : List (Field α)} {holds : α → Prop}
    (each : ∀ field ∈ fields, field.Keeps holds) {place : Place}
    {found : List (Option String × Document)} {value : α} {seen : List String}
    {result : α × List String} (read : tableFields fields place found value seen = .ok result)
    (holding : holds value) : holds result.1 := by
  induction found generalizing value seen with
  | nil =>
      cases read
      exact holding
  | cons entry rest ih =>
      obtain ⟨_ | key, document⟩ := entry
      · cases read
      · rw [tableFields] at read
        split at read
        · simp only [bind, Except.bind] at read
          split at read
          · cases read
          · exact ih read holding
        · next field isField =>
            split at read
            · cases read
            · simp only [bind, Except.bind] at read
              split at read
              · cases read
              · next next isNext =>
                  have member := List.mem_of_find?_eq_some isField
                  exact ih read
                    (each field member _ _ _ _ (ok_of_located isNext) holding)

theorem listFields_keeps {fields : List (Field α)} {holds : α → Prop}
    (each : ∀ field ∈ fields, field.Keeps holds) {expected : String} {place : Place}
    {stop : Option Stop} {position : Nat} {found : List Document} {value : α}
    {result : α × List Document}
    (read : listFields expected place stop position fields found value = .ok result)
    (holding : holds value) : holds result.1 := by
  induction fields generalizing position found value with
  | nil => cases found <;> cases read <;> exact holding
  | cons field fields ih =>
      obtain ⟨own, others⟩ := List.forall_mem_cons.1 each
      cases found with
      | nil =>
          simp only [listFields, bind, Except.bind] at read
          split at read
          · cases read
          · split at read
            · exact ih others read holding
            · cases read
      | cons item left =>
          simp only [listFields, bind, Except.bind] at read
          split at read
          · cases read
          · next next isNext =>
              exact ih others read (own _ _ _ _ (ok_of_located isNext) holding)

/-- A structure has a property that its defaults have and every field keeps. -/
theorem record_yields {kind : String} {fields : List (Field α)} {blank : α} {holds : α → Prop}
    (blankHolds : holds blank) (all : AllKeep holds fields) :
    (record kind fields blank).Yields holds := by
  intro place document value read
  have each := (allKeep_iff fields).1 all
  unfold record at read
  split at read
  · simp only [bind, Except.bind] at read
    split at read
    · cases read
    · split at read
      · cases read
      · next result fromTable =>
          have kept := tableFields_keeps each fromTable blankHolds
          split at read
          · cases read
          · split at read
            · cases read
            · cases read
              exact kept
  · simp only [bind, Except.bind] at read
    split at read
    · cases read
    · split at read
      · cases read
      · next result fromList =>
          have kept := listFields_keeps each fromList blankHolds
          split at read
          · cases read
          · split at read
            · cases read
            · cases read
              exact kept
  · cases read

end Decoder

end Relay
