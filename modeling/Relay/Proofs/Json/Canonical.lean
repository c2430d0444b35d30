import Mathlib.Data.List.Basic
import Relay.Decode.Basic
import Relay.Proofs.Dict

/-!
# Canonical JSON values

A value is canonical if every object in it lists its members in increasing key
order.  Whatever is read from a text or built from dictionaries is canonical, and
exactly the canonical values are read back unchanged.
-/

namespace Relay

namespace Json

mutual

/-- Every object in a value lists its members in increasing key order. -/
def Canonical : Json → Prop
  | .null | .bool _ | .number _ | .string _ => True
  | .array items => CanonicalItems items
  | .object members =>
      (members.Pairwise fun left right => left.1 < right.1) ∧ CanonicalMembers members

/-- All items of a list are canonical. -/
def CanonicalItems : List Json → Prop
  | [] => True
  | item :: rest => Canonical item ∧ CanonicalItems rest

/-- The values of all members are canonical. -/
def CanonicalMembers : List (String × Json) → Prop
  | [] => True
  | (_, value) :: rest => Canonical value ∧ CanonicalMembers rest

end

@[simp] theorem canonical_null : Canonical .null := trivial

@[simp] theorem canonical_bool (value : Bool) : Canonical (.bool value) := trivial

@[simp] theorem canonical_number (value : Number) : Canonical (.number value) := trivial

@[simp] theorem canonical_string (value : String) : Canonical (.string value) := trivial

theorem canonicalItems_iff (items : List Json) :
    CanonicalItems items ↔ ∀ item ∈ items, item.Canonical := by
  induction items with
  | nil => simp [CanonicalItems]
  | cons item rest ih => simp [CanonicalItems, ih]

theorem canonicalMembers_iff (members : List (String × Json)) :
    CanonicalMembers members ↔ ∀ member ∈ members, member.2.Canonical := by
  induction members with
  | nil => simp [CanonicalMembers]
  | cons member rest ih =>
      obtain ⟨key, value⟩ := member
      simp [CanonicalMembers, ih]

theorem canonical_array_iff (items : List Json) :
    (array items).Canonical ↔ ∀ item ∈ items, item.Canonical := by
  rw [Canonical, canonicalItems_iff]

theorem canonical_object_iff (members : List (String × Json)) :
    (object members).Canonical ↔ (members.Pairwise fun left right => left.1 < right.1) ∧
      ∀ member ∈ members, member.2.Canonical := by
  rw [Canonical, canonicalMembers_iff]

/-- The object of a dictionary of canonical values is canonical. -/
theorem canonical_ofDict {dict : Dict Json}
    (values : ∀ entry ∈ dict.entries, entry.2.Canonical) : (ofDict dict).Canonical :=
  (canonical_object_iff _).2 ⟨dict.sorted, values⟩

@[simp] theorem canonical_ofStrings (texts : List String) : (ofStrings texts).Canonical := by
  simp [ofStrings, canonical_array_iff]

end Json

/-! ## Reading canonical values -/

namespace Decoder

/-- A decoder reads a value as a result, wherever the value stands. -/
def Reads {α : Type} (decoder : Decoder α) (value : Json) (result : α) : Prop :=
  ∀ depth, decoder ⟨.value, depth⟩ (Document.ofJson value) = .ok result

theorem Reads.decode {α : Type} {decoder : Decoder α} {value : Json} {result : α}
    (reads : decoder.Reads value result) : value.decode decoder = .ok result := reads 0

/-- Inside a value containers nest as deep as they please. -/
@[simp] theorem inside_value (depth : Nat) :
    (⟨.value, depth⟩ : Place).inside = .ok ⟨.value, depth + 1⟩ := by
  simp [Place.inside]

@[simp] theorem located_ok {α : Type} (step : PathStep) (value : α) :
    located step (.ok value) = .ok value := rfl

@[simp] theorem ending_none : ending none = .ok () := rfl

theorem ofList_eq_mk {α : Type} {entries : List (String × α)}
    (sorted : entries.Pairwise fun left right => left.1 < right.1) :
    Dict.ofList entries = ⟨entries, sorted⟩ :=
  Dict.ofList_entries ⟨entries, sorted⟩

mutual

/-- Free-form reading gives a canonical value back. -/
theorem json_ofJson : (value : Json) → value.Canonical →
    ∀ depth, json ⟨.value, depth⟩ (Document.ofJson value) = .ok value
  | .null, _, _ => rfl
  | .bool _, _, _ => rfl
  | .number _, _, _ => rfl
  | .string _, _, _ => rfl
  | .array items, canonical, depth => by
      simp only [Document.ofJson, json, inside_value, bind, Except.bind,
        jsonItems_ofItems items canonical (depth + 1), ending_none, pure, Except.pure]
  | .object members, canonical, depth => by
      simp only [Document.ofJson, json, inside_value, bind, Except.bind,
        jsonEntries_ofMembers members canonical.2 (depth + 1), ending_none, pure, Except.pure,
        Json.record, Json.ofDict, ofList_eq_mk canonical.1]

theorem jsonItems_ofItems : (items : List Json) → Json.CanonicalItems items →
    ∀ depth, jsonItems ⟨.value, depth⟩ (Document.ofItems items) = .ok items
  | [], _, _ => rfl
  | item :: rest, canonical, depth => by
      simp only [Document.ofItems, jsonItems, bind, Except.bind, pure, Except.pure,
        json_ofJson item canonical.1 depth, jsonItems_ofItems rest canonical.2 depth]

theorem jsonEntries_ofMembers : (members : List (String × Json)) →
    Json.CanonicalMembers members →
    ∀ depth, jsonEntries ⟨.value, depth⟩ (Document.ofMembers members) = .ok members
  | [], _, _ => rfl
  | (key, value) :: rest, canonical, depth => by
      simp only [Document.ofMembers, jsonEntries, bind, Except.bind, pure, Except.pure,
        json_ofJson value canonical.1 depth, jsonEntries_ofMembers rest canonical.2 depth]

end

theorem json_reads {value : Json} (canonical : value.Canonical) :
    Reads Decoder.json value value := json_ofJson value canonical

mutual

/-- Whatever free-form reading gives is canonical. -/
theorem canonical_of_json : {place : Place} → {value : Json} → (document : Document) →
    json place document = .ok value → value.Canonical
  | _, _, .null, read => by cases read; trivial
  | _, _, .bool _, read => by cases read; trivial
  | _, _, .number _, read => by cases read; trivial
  | _, _, .string _, read => by cases read; trivial
  | place, value, .list found stop, read => by
      simp only [json, bind, Except.bind] at read
      split at read
      · cases read
      · split at read
        · cases read
        · next values items =>
            split at read
            · cases read
            · cases read
              exact canonicalItems_of_jsonItems found items
  | place, value, .table found stop, read => by
      simp only [json, bind, Except.bind] at read
      split at read
      · cases read
      · split at read
        · cases read
        · next values members =>
            split at read
            · cases read
            · cases read
              have canonical := canonicalMembers_of_jsonEntries found members
              refine Json.canonical_ofDict fun entry member => ?_
              have kept := (Dict.get?_eq_some_iff _ entry.1 entry.2).2 member
              rw [Dict.get?_ofList] at kept
              exact (Json.canonicalMembers_iff values).1 canonical (entry.1, entry.2)
                (List.mem_reverse.1 (Dict.mem_of_lookup kept))
  | _, _, .oversized, read => by cases read
  | _, _, .garbled, read => by cases read
  | _, _, .foreign, read => by cases read
  | _, _, .stop _, read => by cases read

theorem canonicalItems_of_jsonItems : {place : Place} → {values : List Json} →
    (items : List Document) → jsonItems place items = .ok values → Json.CanonicalItems values
  | _, _, [], read => by cases read; trivial
  | place, values, item :: rest, read => by
      simp only [jsonItems, bind, Except.bind] at read
      split at read
      · cases read
      · next value first =>
          split at read
          · cases read
          · next others more =>
              cases read
              exact ⟨canonical_of_json item first, canonicalItems_of_jsonItems rest more⟩

theorem canonicalMembers_of_jsonEntries : {place : Place} → {members : List (String × Json)} →
    (entries : List (Option String × Document)) → jsonEntries place entries = .ok members →
    Json.CanonicalMembers members
  | _, _, [], read => by cases read; trivial
  | _, _, (none, _) :: _, read => by cases read
  | place, members, (some key, document) :: rest, read => by
      simp only [jsonEntries, bind, Except.bind] at read
      split at read
      · cases read
      · next value first =>
          split at read
          · cases read
          · next others more =>
              cases read
              exact ⟨canonical_of_json document first,
                canonicalMembers_of_jsonEntries rest more⟩

end

end Decoder

end Relay
