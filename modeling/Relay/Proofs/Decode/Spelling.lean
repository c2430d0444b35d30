import Mathlib.Data.List.Pairwise
import Mathlib.Data.List.Perm.Basic
import Relay.Proofs.Decode.Sound
import Relay.Task

/-!
# Texts that spell a value

A value can be written in many ways: the members of an object may stand in any order.  A decoder
is faithful if it makes the same of every text that spells a value as of the value itself.  The
two differ in what they complain about, and a text may not nest too deep; so being faithful is
about what is decoded, and about documents that are not too high.
-/

namespace Relay

/-- A dictionary that is listed in any order. -/
theorem Dict.ofList_of_perm {α : Type} {listed members : List (String × α)}
    (perm : listed.Perm members) (sorted : members.Pairwise fun left right => left.1 < right.1) :
    Dict.ofList listed = ⟨members, sorted⟩ := by
  have unique : (members.map Prod.fst).Nodup := by
    rw [List.Nodup, List.pairwise_map]
    exact sorted.imp fun less => String.ne_of_lt less
  refine Dict.ext_get? fun key => Option.ext fun value => ?_
  have reversed : ((listed.reverse).map Prod.fst).Nodup :=
    (((List.reverse_perm listed).trans perm).map Prod.fst).nodup_iff.2 unique
  rw [Dict.get?_ofList, Dict.get?_eq_some_iff]
  show _ ↔ (key, value) ∈ members
  rw [← perm.mem_iff, ← List.mem_reverse]
  exact ⟨Dict.mem_of_lookup, Dict.lookup_eq_some_of_nodup reversed⟩

namespace Document

mutual

/-- A document spells a value, with the members of its objects in any order. -/
inductive Spells : Document → Json → Prop where
  | null : Spells .null .null
  | bool (value : Bool) : Spells (.bool value) (.bool value)
  | number (value : Number) : Spells (.number value) (.number value)
  | string (value : String) : Spells (.string value) (.string value)
  | array {documents : List Document} {items : List Json} (each : SpellsItems documents items) :
      Spells (.list documents none) (.array items)
  | object {documents : List (Option String × Document)} {listed members : List (String × Json)}
      (each : SpellsMembers documents listed) (perm : listed.Perm members)
      (sorted : members.Pairwise fun left right => left.1 < right.1) :
      Spells (.table documents none) (.object members)

/-- Documents spell values one after the other. -/
inductive SpellsItems : List Document → List Json → Prop where
  | nil : SpellsItems [] []
  | cons {document : Document} {documents : List Document} {item : Json} {items : List Json}
      (first : Spells document item) (rest : SpellsItems documents items) :
      SpellsItems (document :: documents) (item :: items)

/-- Entries of a table spell members one after the other. -/
inductive SpellsMembers : List (Option String × Document) → List (String × Json) → Prop where
  | nil : SpellsMembers [] []
  | cons {key : String} {document : Document} {documents : List (Option String × Document)}
      {value : Json} {members : List (String × Json)} (first : Spells document value)
      (rest : SpellsMembers documents members) :
      SpellsMembers ((some key, document) :: documents) ((key, value) :: members)

end

mutual

/-- A value as a document spells it. -/
theorem spells_ofJson : (value : Json) → value.Canonical → (ofJson value).Spells value
  | .null, _ => .null
  | .bool value, _ => .bool value
  | .number value, _ => .number value
  | .string value, _ => .string value
  | .array items, canonical => .array (spells_ofItems items canonical)
  | .object members, canonical =>
      .object (spells_ofMembers members canonical.2) (.refl members) canonical.1

theorem spells_ofItems : (items : List Json) → Json.CanonicalItems items →
    SpellsItems (ofItems items) items
  | [], _ => .nil
  | item :: rest, canonical =>
      .cons (spells_ofJson item canonical.1) (spells_ofItems rest canonical.2)

theorem spells_ofMembers : (members : List (String × Json)) → Json.CanonicalMembers members →
    SpellsMembers (ofMembers members) members
  | [], _ => .nil
  | (_, value) :: rest, canonical =>
      .cons (spells_ofJson value canonical.1) (spells_ofMembers rest canonical.2)

end

mutual

/-- Only canonical values are spelt. -/
theorem Spells.canonical {document : Document} {value : Json} :
    document.Spells value → value.Canonical
  | .null | .bool _ | .number _ | .string _ => trivial
  | .array each => each.canonical
  | .object each perm sorted => by
      have values := (Json.canonicalMembers_iff _).1 each.canonical
      exact ⟨sorted, (Json.canonicalMembers_iff _).2 fun member isMember =>
        values member (perm.mem_iff.2 isMember)⟩

theorem SpellsItems.canonical {documents : List Document} {items : List Json} :
    SpellsItems documents items → Json.CanonicalItems items
  | .nil => trivial
  | .cons first rest => ⟨first.canonical, rest.canonical⟩

theorem SpellsMembers.canonical {documents : List (Option String × Document)}
    {members : List (String × Json)} :
    SpellsMembers documents members → Json.CanonicalMembers members
  | .nil => trivial
  | .cons first rest => ⟨first.canonical, rest.canonical⟩

end

mutual

/-- What spells a value can be passed over. -/
theorem Spells.skip {document : Document} {value : Json} :
    document.Spells value → document.skip = .ok ()
  | .null | .bool _ | .number _ | .string _ => rfl
  | .array each => by rw [Document.skip, each.skip]; rfl
  | .object each _ _ => by rw [Document.skip, each.skip]; rfl

theorem SpellsItems.skip {documents : List Document} {items : List Json} :
    SpellsItems documents items → skipItems documents = .ok ()
  | .nil => rfl
  | .cons first rest => by rw [skipItems, first.skip]; exact rest.skip

theorem SpellsMembers.skip {documents : List (Option String × Document)}
    {members : List (String × Json)} :
    SpellsMembers documents members → skipEntries documents = .ok ()
  | .nil => rfl
  | .cons first rest => by rw [skipEntries, first.skip]; exact rest.skip

end

/-- The entries of a table can be put in the order of the members. -/
theorem SpellsMembers.reorder {documents : List (Option String × Document)}
    {listed members : List (String × Json)} (each : SpellsMembers documents listed)
    (perm : listed.Perm members) :
    ∃ others, documents.Perm others ∧ SpellsMembers others members := by
  induction perm generalizing documents with
  | nil =>
      cases each
      exact ⟨[], .refl _, .nil⟩
  | cons member _ ih =>
      cases each with
      | cons first rest =>
          obtain ⟨others, same, spelt⟩ := ih rest
          exact ⟨_, same.cons _, .cons first spelt⟩
  | swap first second rest =>
      cases each with
      | cons one more =>
          cases more with
          | cons other more => exact ⟨_, .swap _ _ _, .cons other (.cons one more)⟩
  | trans _ _ ih ihAgain =>
      obtain ⟨between, same, spelt⟩ := ih each
      obtain ⟨others, again, speltAgain⟩ := ihAgain spelt
      exact ⟨others, same.trans again, speltAgain⟩

theorem SpellsMembers.keys {documents : List (Option String × Document)}
    {members : List (String × Json)} (each : SpellsMembers documents members) :
    documents.map Prod.fst = members.map fun member => some member.1 := by
  induction members generalizing documents with
  | nil =>
      cases each
      rfl
  | cons member members ih =>
      cases each with
      | cons first rest => rw [List.map_cons, List.map_cons, ih rest]

theorem nodup_keys {documents : List (Option String × Document)}
    {listed members : List (String × Json)} (each : SpellsMembers documents listed)
    (perm : listed.Perm members) (sorted : members.Pairwise fun left right => left.1 < right.1) :
    (documents.map Prod.fst).Nodup := by
  rw [each.keys, (perm.map fun member => some member.1).nodup_iff, List.Nodup, List.pairwise_map]
  exact sorted.imp fun less same => String.ne_of_lt less (Option.some.inj same)

theorem height_le_heightItems {documents : List Document} {document : Document}
    (member : document ∈ documents) : document.height ≤ heightItems documents := by
  induction documents with
  | nil => cases member
  | cons head rest ih =>
      rw [heightItems]
      rcases List.mem_cons.1 member with rfl | later
      · exact Nat.le_max_left _ _
      · exact (ih later).trans (Nat.le_max_right _ _)

theorem height_le_heightEntries {documents : List (Option String × Document)}
    {entry : Option String × Document} (member : entry ∈ documents) :
    entry.2.height ≤ heightEntries documents := by
  induction documents with
  | nil => cases member
  | cons head rest ih =>
      rw [heightEntries]
      rcases List.mem_cons.1 member with rfl | later
      · exact Nat.le_max_left _ _
      · exact (ih later).trans (Nat.le_max_right _ _)

end Document

/-! ## Places -/

/-- A place where a document can stand: in a value, or in a text that does not nest too deep. -/
def Place.Holds (place : Place) (document : Document) : Prop :=
  place.origin = .value ∨
    place.origin = .text ∧ place.depth + document.height ≤ Place.deepest

namespace Place.Holds

variable {place : Place} {stop : Option Stop}

/-- Where a container can stand there is a place for what it holds. -/
theorem inside {document : Document} (holds : place.Holds document) (inner : 0 < document.height) :
    place.inside = .ok { place with depth := place.depth + 1 } := by
  unfold Place.inside
  rw [if_neg]
  rintro ⟨isText, deep⟩
  rcases holds with isValue | ⟨-, fits⟩
  · cases isValue.symm.trans isText
  · omega

theorem part {document inner : Document} (holds : place.Holds document)
    (smaller : inner.height < document.height) :
    ({ place with depth := place.depth + 1 } : Place).Holds inner := by
  refine holds.imp id fun ⟨isText, fits⟩ => ⟨isText, ?_⟩
  show place.depth + 1 + inner.height ≤ Place.deepest
  omega

theorem items {documents : List Document} (holds : place.Holds (.list documents stop)) :
    ∀ document ∈ documents, ({ place with depth := place.depth + 1 } : Place).Holds document :=
  fun _ member => holds.part (Nat.lt_succ_of_le (Document.height_le_heightItems member))

theorem entries {documents : List (Option String × Document)}
    (holds : place.Holds (.table documents stop)) :
    ∀ entry ∈ documents, ({ place with depth := place.depth + 1 } : Place).Holds entry.2 :=
  fun _ member => holds.part (Nat.lt_succ_of_le (Document.height_le_heightEntries member))

end Place.Holds

namespace Decoder

open Document (SpellsItems SpellsMembers)

variable {α β : Type}

/-- A decoder makes the same of everything that spells a value, wherever it stands. -/
def Faithful (decoder : Decoder α) : Prop :=
  ∀ ⦃value : Json⦄ ⦃document other : Document⦄ ⦃place elsewhere : Place⦄ ⦃result : α⦄,
    document.Spells value → other.Spells value → place.Holds document →
    elsewhere.Holds other → decoder place document = .ok result →
    decoder elsewhere other = .ok result

/-! ## Parts -/

theorem string_faithful : string.Faithful := by
  intro value document other place elsewhere result spells again _ _ read
  cases spells <;> cases again <;> exact read

theorem bool_faithful : bool.Faithful := by
  intro value document other place elsewhere result spells again _ _ read
  cases spells <;> cases again <;> exact read

/-- Reading what is not null. -/
theorem optional_of_ne_null (decoder : Decoder α) (place : Place) {document : Document}
    (something : document ≠ .null) :
    optional decoder place document = (decoder place document).map some := by
  unfold optional
  split
  · exact absurd rfl something
  · rfl

theorem optional_faithful {decoder : Decoder α} (faithful : decoder.Faithful) :
    (optional decoder).Faithful := by
  intro value document other place elsewhere result spells again holds holdsAgain read
  by_cases null : value = .null
  · subst null
    cases spells
    cases again
    exact read
  · have something : document ≠ .null := by
      rintro rfl
      cases spells
      exact null rfl
    have somethingElse : other ≠ .null := by
      rintro rfl
      cases again
      exact null rfl
    rw [optional_of_ne_null decoder place something] at read
    rw [optional_of_ne_null decoder elsewhere somethingElse]
    cases found : decoder place document with
    | error problem =>
        rw [found] at read
        cases read
    | ok part =>
        rw [found] at read
        rw [faithful spells again holds holdsAgain found]
        exact read

theorem items_faithful {decoder : Decoder α} (faithful : decoder.Faithful) {items : List Json}
    {documents others : List Document} {place elsewhere : Place}
    (spells : SpellsItems documents items) (again : SpellsItems others items)
    (holds : ∀ document ∈ documents, place.Holds document)
    (holdsAgain : ∀ document ∈ others, elsewhere.Holds document) {position : Nat}
    {result : List α} (read : Decoder.items decoder place position documents = .ok result) :
    Decoder.items decoder elsewhere position others = .ok result := by
  induction items generalizing documents others position result with
  | nil =>
      cases spells
      cases again
      exact read
  | cons item items ih =>
      cases spells with
      | cons first rest =>
          cases again with
          | cons firstAgain restAgain =>
              obtain ⟨here, below⟩ := List.forall_mem_cons.1 holds
              obtain ⟨there, belowAgain⟩ := List.forall_mem_cons.1 holdsAgain
              simp only [Decoder.items, bind, Except.bind] at read ⊢
              split at read
              · cases read
              · next value isFirst =>
                  split at read
                  · cases read
                  · next values areOthers =>
                      have same := faithful first firstAgain here there (ok_of_located isFirst)
                      rw [same, located_ok]
                      dsimp only
                      rw [ih rest restAgain below belowAgain areOthers]
                      exact read

theorem list_faithful {decoder : Decoder α} (faithful : decoder.Faithful) :
    (list decoder).Faithful := by
  intro value document other place elsewhere result spells again holds holdsAgain read
  cases spells with
  | array each =>
      cases again with
      | array eachAgain =>
          simp only [list, holds.inside (Nat.succ_pos _), holdsAgain.inside (Nat.succ_pos _), bind,
            Except.bind] at read ⊢
          split at read
          · cases read
          · next values areItems =>
              rw [items_faithful faithful each eachAgain holds.items holdsAgain.items areItems]
              exact read
  | _ => cases read

mutual

/-- Whatever spells a value is read as the value where any value will do. -/
theorem json_of_spells {place : Place} : {document : Document} → {value : Json} →
    document.Spells value → place.Holds document → json place document = .ok value
  | _, _, .null, _ => rfl
  | _, _, .bool _, _ => rfl
  | _, _, .number _, _ => rfl
  | _, _, .string _, _ => rfl
  | _, _, .array each, holds => by
      simp only [json, holds.inside (Nat.succ_pos _), bind, Except.bind,
        jsonItems_of_spells each holds.items, ending_none, pure, Except.pure]
  | _, _, .object each perm sorted, holds => by
      simp only [json, holds.inside (Nat.succ_pos _), bind, Except.bind,
        jsonEntries_of_spells each holds.entries, ending_none, pure, Except.pure, Json.record,
        Json.ofDict, Dict.ofList_of_perm perm sorted]

theorem jsonItems_of_spells {place : Place} : {documents : List Document} → {items : List Json} →
    SpellsItems documents items → (∀ document ∈ documents, place.Holds document) →
    jsonItems place documents = .ok items
  | _, _, .nil, _ => rfl
  | _, _, .cons first rest, holds => by
      obtain ⟨here, below⟩ := List.forall_mem_cons.1 holds
      simp only [jsonItems, json_of_spells first here, jsonItems_of_spells rest below, bind,
        Except.bind, pure, Except.pure]

theorem jsonEntries_of_spells {place : Place} : {documents : List (Option String × Document)} →
    {members : List (String × Json)} → SpellsMembers documents members →
    (∀ entry ∈ documents, place.Holds entry.2) → jsonEntries place documents = .ok members
  | _, _, .nil, _ => rfl
  | _, _, .cons first rest, holds => by
      obtain ⟨here, below⟩ := List.forall_mem_cons.1 holds
      simp only [jsonEntries, json_of_spells first here, jsonEntries_of_spells rest below, bind,
        Except.bind, pure, Except.pure]

end

theorem json_faithful : Decoder.Faithful json := by
  intro value document other place elsewhere result spells again holds holdsAgain read
  rw [json_of_spells spells holds] at read
  rw [json_of_spells again holdsAgain]
  exact read

/-! ## Structures -/

/-- A field makes the same of everything that spells a value. -/
def Field.Faithful (field : Field α) : Prop :=
  ∀ ⦃value : Json⦄ ⦃document other : Document⦄ ⦃place elsewhere : Place⦄ ⦃whole next : α⦄,
    document.Spells value → other.Spells value → place.Holds document →
    elsewhere.Holds other → field.read place document whole = .ok next →
    field.read elsewhere other whole = .ok next

/-- It does not matter which one of two fields is read first. -/
def Field.Commutes (field another : Field α) : Prop :=
  ∀ place document other whole,
    ((field.read place document whole).toOption.bind fun next =>
        (another.read place other next).toOption) =
      (another.read place other whole).toOption.bind fun next =>
        (field.read place document next).toOption

instance : Std.Symm (@Field.Commutes α) where
  symm _ _ commutes place document other whole := (commutes place other document whole).symm

theorem Field.faithful_of {decoder : Decoder β} (faithful : decoder.Faithful) (name : String)
    (presence : Presence) (store : α → β → α) :
    (Field.of name presence decoder store).Faithful := by
  intro value document other place elsewhere whole next spells again holds holdsAgain read
  dsimp only [Field.of] at read ⊢
  cases found : decoder place document with
  | error problem =>
      rw [found] at read
      cases read
  | ok part =>
      rw [found] at read
      rw [faithful spells again holds holdsAgain found]
      exact read

/-- Fields that are stored in different parts of a structure commute. -/
theorem Field.commutes_of {γ : Type} {decoder : Decoder β} {decoderElse : Decoder γ}
    {name nameElse : String} {presence presenceElse : Presence} {store : α → β → α}
    {storeElse : α → γ → α}
    (apart : ∀ whole part other,
      storeElse (store whole part) other = store (storeElse whole other) part) :
    (Field.of name presence decoder store).Commutes
      (Field.of nameElse presenceElse decoderElse storeElse) := by
  intro place document other whole
  dsimp only [Field.of]
  cases decoder place document <;> cases decoderElse place other <;>
    simp [Except.map, Except.toOption, apart]

theorem eq_ok_of_toOption {read : Except DecodeError α} {result : α}
    (found : read.toOption = some result) : read = .ok result := by
  cases read with
  | error problem => cases found
  | ok value => exact congrArg Except.ok (Option.some.inj found)

/-- What two fields read one after the other they also read the other way round. -/
theorem Field.Commutes.swap {field another : Field α} (commutes : field.Commutes another)
    {place : Place} {document other : Document} {whole next result : α}
    (read : field.read place document whole = .ok next)
    (readElse : another.read place other next = .ok result) :
    ∃ between, another.read place other whole = .ok between ∧
      field.read place document between = .ok result := by
  have same := commutes place document other whole
  simp only [read, readElse, Except.toOption, Option.bind_some] at same
  obtain ⟨between, isBetween, isResult⟩ := Option.bind_eq_some_iff.1 same.symm
  exact ⟨between, eq_ok_of_toOption isBetween, eq_ok_of_toOption isResult⟩

section Fields

variable {fields : List (Field α)} {place elsewhere : Place}

/-- What an entry of a table does to a structure and to the names that were read. -/
inductive Takes (fields : List (Field α)) (place : Place) (entry : Option String × Document)
    (whole : α) (seen : List String) : α → List String → Prop where
  | passed {name : String} (named : entry.1 = some name)
      (unknown : (fields.find? fun field => field.name == name) = none)
      (skipped : entry.2.skip = .ok ()) : Takes fields place entry whole seen whole seen
  | stored {name : String} {field : Field α} {next : α} (named : entry.1 = some name)
      (known : (fields.find? fun field => field.name == name) = some field)
      (fresh : name ∉ seen) (read : field.read place entry.2 whole = .ok next) :
      Takes fields place entry whole seen next (name :: seen)

theorem tableFields_of_takes {entry : Option String × Document}
    {rest : List (Option String × Document)} {whole next : α} {seen after : List String}
    (taken : Takes fields place entry whole seen next after) :
    tableFields fields place (entry :: rest) whole seen =
      tableFields fields place rest next after := by
  obtain ⟨key, document⟩ := entry
  cases taken with
  | passed named unknown skipped =>
      cases named
      dsimp only at skipped
      simp only [tableFields, unknown, skipped, Except.mapError, bind, Except.bind]
  | stored named known fresh isNext =>
      cases named
      dsimp only at isNext
      simp only [tableFields, known, isNext, List.contains_eq_mem, fresh, decide_false,
        Bool.false_eq_true, if_false, located_ok, bind, Except.bind]

/-- The entries of a table are taken one after the other. -/
theorem tableFields_cons_iff {entry : Option String × Document}
    {rest : List (Option String × Document)} {whole : α} {seen : List String}
    {result : α × List String} :
    tableFields fields place (entry :: rest) whole seen = .ok result ↔
      ∃ next after, Takes fields place entry whole seen next after ∧
        tableFields fields place rest next after = .ok result := by
  constructor
  · intro read
    obtain ⟨_ | name, document⟩ := entry
    · cases read
    · rw [tableFields] at read
      split at read
      · next unknown =>
          simp only [bind, Except.bind] at read
          cases skipped : document.skip with
          | error reason =>
              rw [skipped] at read
              cases read
          | ok =>
              rw [skipped] at read
              exact ⟨whole, seen, .passed rfl unknown skipped, read⟩
      · next field known =>
          split at read
          · cases read
          · next fresh =>
              simp only [bind, Except.bind] at read
              split at read
              · cases read
              · next next isNext =>
                  exact ⟨next, name :: seen,
                    .stored rfl known (by simpa using fresh) (ok_of_located isNext), read⟩
  · rintro ⟨next, after, taken, read⟩
    exact (tableFields_of_takes taken).trans read

/-- Tables that spell the same members one after the other give the same structure. -/
theorem tableFields_of_spells (faithful : ∀ field ∈ fields, field.Faithful)
    {members : List (String × Json)} {documents others : List (Option String × Document)}
    (spells : SpellsMembers documents members) (again : SpellsMembers others members)
    (holds : ∀ entry ∈ documents, place.Holds entry.2)
    (holdsAgain : ∀ entry ∈ others, elsewhere.Holds entry.2) {whole : α} {seen : List String}
    {result : α × List String} (read : tableFields fields place documents whole seen = .ok result) :
    tableFields fields elsewhere others whole seen = .ok result := by
  induction members generalizing documents others whole seen with
  | nil =>
      cases spells
      cases again
      exact read
  | cons member members ih =>
      cases spells with
      | cons first rest =>
          cases again with
          | cons firstAgain restAgain =>
              obtain ⟨here, below⟩ := List.forall_mem_cons.1 holds
              obtain ⟨there, belowAgain⟩ := List.forall_mem_cons.1 holdsAgain
              obtain ⟨next, after, taken, readRest⟩ := tableFields_cons_iff.1 read
              refine tableFields_cons_iff.2
                ⟨next, after, ?_, ih rest restAgain below belowAgain readRest⟩
              cases taken with
              | passed named unknown skipped => exact .passed named unknown firstAgain.skip
              | stored named known fresh isNext =>
                  exact .stored named known fresh
                    (faithful _ (List.mem_of_find?_eq_some known) first firstAgain here there isNext)

/-- Two entries with different names may change places. -/
theorem Takes.swap (apart : ∀ field ∈ fields, ∀ other ∈ fields, field.name ≠ other.name →
      field.Commutes other) {one other : Option String × Document} (different : one.1 ≠ other.1)
    {whole next result : α} {seen after final : List String}
    (first : Takes fields place one whole seen next after)
    (second : Takes fields place other next after result final) :
    ∃ between middle ending, Takes fields place other whole seen between middle ∧
      Takes fields place one between middle result ending ∧ final.Perm ending := by
  cases first with
  | passed named unknown skipped =>
      cases second with
      | passed namedElse unknownElse skippedElse =>
          exact ⟨_, _, _, .passed namedElse unknownElse skippedElse,
            .passed named unknown skipped, .refl _⟩
      | stored namedElse knownElse fresh read =>
          exact ⟨_, _, _, .stored namedElse knownElse fresh read,
            .passed named unknown skipped, .refl _⟩
  | @stored name field _ named known fresh read =>
      cases second with
      | passed namedElse unknownElse skippedElse =>
          exact ⟨_, _, _, .passed namedElse unknownElse skippedElse,
            .stored named known fresh read, .refl _⟩
      | @stored nameElse fieldElse _ namedElse knownElse freshElse readElse =>
          obtain ⟨-, freshBefore⟩ := not_or.1 (fun isOld => freshElse (List.mem_cons.2 isOld))
          have notSame : name ≠ nameElse := fun same => different (by rw [named, namedElse, same])
          have isName : field.name = name := by simpa using List.find?_some known
          have isNameElse : fieldElse.name = nameElse := by simpa using List.find?_some knownElse
          have commutes := apart field (List.mem_of_find?_eq_some known) fieldElse
            (List.mem_of_find?_eq_some knownElse) (isName.trans_ne (isNameElse ▸ notSame))
          obtain ⟨between, isBetween, isResult⟩ := commutes.swap read readElse
          exact ⟨between, nameElse :: seen, name :: nameElse :: seen,
            .stored namedElse knownElse freshBefore isBetween,
            .stored named known (fun isOld => (List.mem_cons.1 isOld).elim notSame fresh) isResult,
            .swap _ _ _⟩

theorem Takes.congr {entry : Option String × Document} {whole next : α}
    {seen others after : List String} (same : seen.Perm others)
    (taken : Takes fields place entry whole seen next after) :
    ∃ final, Takes fields place entry whole others next final ∧ after.Perm final := by
  cases taken with
  | passed named unknown skipped => exact ⟨_, .passed named unknown skipped, same⟩
  | stored named known fresh read =>
      exact ⟨_, .stored named known (same.mem_iff.not.1 fresh) read, same.cons _⟩

/-- In which order the names were read does not matter. -/
theorem tableFields_congr {documents : List (Option String × Document)} {whole : α}
    {seen others : List String} (same : seen.Perm others) {result : α × List String}
    (read : tableFields fields place documents whole seen = .ok result) :
    ∃ final, tableFields fields place documents whole others = .ok (result.1, final) ∧
      result.2.Perm final := by
  induction documents generalizing whole seen others with
  | nil =>
      cases read
      exact ⟨others, rfl, same⟩
  | cons entry rest ih =>
      obtain ⟨next, after, taken, more⟩ := tableFields_cons_iff.1 read
      obtain ⟨afterElse, takenElse, sameAfter⟩ := taken.congr same
      obtain ⟨final, readRest, sameFinal⟩ := ih sameAfter more
      exact ⟨final, tableFields_cons_iff.2 ⟨next, afterElse, takenElse, readRest⟩, sameFinal⟩

/-- In which order the entries of a table stand does not matter. -/
theorem tableFields_perm (apart : ∀ field ∈ fields, ∀ other ∈ fields, field.name ≠ other.name →
      field.Commutes other) {documents others : List (Option String × Document)}
    (perm : documents.Perm others) (unique : (documents.map Prod.fst).Nodup) {whole : α}
    {seen : List String} {result : α × List String}
    (read : tableFields fields place documents whole seen = .ok result) :
    ∃ final, tableFields fields place others whole seen = .ok (result.1, final) ∧
      result.2.Perm final := by
  induction perm generalizing whole seen result with
  | nil => exact ⟨_, read, .refl _⟩
  | cons entry _ ih =>
      obtain ⟨next, after, taken, rest⟩ := tableFields_cons_iff.1 read
      obtain ⟨final, readRest, same⟩ := ih (List.nodup_cons.1 unique).2 rest
      exact ⟨final, tableFields_cons_iff.2 ⟨next, after, taken, readRest⟩, same⟩
  | swap one other documents =>
      obtain ⟨next, after, taken, more⟩ := tableFields_cons_iff.1 read
      obtain ⟨later, afterBoth, takenNext, rest⟩ := tableFields_cons_iff.1 more
      have different : other.1 ≠ one.1 := by
        simp only [List.map_cons, List.nodup_cons, List.mem_cons, not_or] at unique
        exact unique.1.1
      obtain ⟨between, middle, ending, first, second, swapped⟩ :=
        taken.swap apart different takenNext
      obtain ⟨final, readRest, same⟩ := tableFields_congr swapped rest
      exact ⟨final, tableFields_cons_iff.2 ⟨between, middle, first,
        tableFields_cons_iff.2 ⟨later, ending, second, readRest⟩⟩, same⟩
  | trans perm _ ih ihAgain =>
      obtain ⟨between, readBetween, same⟩ := ih unique read
      obtain ⟨final, readAgain, sameAgain⟩ :=
        ihAgain ((perm.map Prod.fst).nodup_iff.1 unique) readBetween
      exact ⟨final, readAgain, same.trans sameAgain⟩

/-- Lists that spell the same items give the same structure, with or without items that no field
takes. -/
theorem listFields_of_spells (faithful : ∀ field ∈ fields, field.Faithful) {expected : String}
    {items : List Json} {documents others : List Document}
    (spells : SpellsItems documents items) (again : SpellsItems others items)
    (holds : ∀ document ∈ documents, place.Holds document)
    (holdsAgain : ∀ document ∈ others, elsewhere.Holds document) {position : Nat} {whole : α}
    {result : α × List Document}
    (read : listFields expected place none position fields documents whole = .ok result) :
    ∃ left, listFields expected elsewhere none position fields others whole = .ok (result.1, left) ∧
      left.isEmpty = result.2.isEmpty := by
  induction fields generalizing items documents others position whole with
  | nil =>
      cases spells <;> cases again <;> cases read <;> exact ⟨_, rfl, rfl⟩
  | cons field fields ih =>
      obtain ⟨own, more⟩ := List.forall_mem_cons.1 faithful
      cases spells with
      | nil =>
          cases again
          simp only [listFields, ending_none, bind, Except.bind] at read ⊢
          split at read
          · next defaulted =>
              rw [if_pos defaulted]
              exact ih more .nil .nil holds holdsAgain read
          · cases read
      | cons first rest =>
          cases again with
          | cons firstAgain restAgain =>
              obtain ⟨here, below⟩ := List.forall_mem_cons.1 holds
              obtain ⟨there, belowAgain⟩ := List.forall_mem_cons.1 holdsAgain
              simp only [listFields, bind, Except.bind] at read ⊢
              split at read
              · cases read
              · next next isNext =>
                  rw [own first firstAgain here there (ok_of_located isNext), located_ok]
                  exact ih more rest restAgain below belowAgain read

end Fields

/-- The items of a structure are used up, where more of them are noticed. -/
theorem leftOver_ok_iff {place : Place} {document : Document} (holds : place.Holds document)
    (count : Nat) (left : List Document) :
    leftOver place.origin count left = .ok () ↔ left.isEmpty = true := by
  unfold leftOver
  rcases holds with origin | ⟨origin, -⟩ <;> rw [origin] <;> cases left <;> simp

/-- A structure of faithful fields that do not get in each other's way is faithful. -/
theorem record_faithful {kind : String} {fields : List (Field α)} (blank : α)
    (faithful : ∀ field ∈ fields, field.Faithful) (commute : fields.Pairwise Field.Commutes) :
    (record kind fields blank).Faithful := by
  have apart : ∀ field ∈ fields, ∀ other ∈ fields, field.name ≠ other.name →
      field.Commutes other := fun field member other memberElse different =>
    commute.forall member memberElse fun same => different (congrArg Field.name same)
  intro value document other place elsewhere result spells again holds holdsAgain read
  cases spells with
  | array each =>
      cases again with
      | array eachAgain =>
          simp only [record, holds.inside (Nat.succ_pos _), holdsAgain.inside (Nat.succ_pos _), bind,
            Except.bind, ending_none, pure, Except.pure] at read ⊢
          split at read
          · cases read
          · next pair isPair =>
              split at read
              · cases read
              · next usedUp =>
                  obtain ⟨left, same, empty⟩ := listFields_of_spells faithful each eachAgain
                    holds.items holdsAgain.items isPair
                  rw [same]
                  dsimp only
                  rw [(leftOver_ok_iff holdsAgain _ _).2
                    (empty.trans ((leftOver_ok_iff holds _ _).1 usedUp))]
                  exact read
  | object each perm sorted =>
      cases again with
      | object eachAgain permAgain _ =>
          obtain ⟨ordered, same, spells⟩ := each.reorder (perm.trans permAgain.symm)
          simp only [record, holds.inside (Nat.succ_pos _), holdsAgain.inside (Nat.succ_pos _), bind,
            Except.bind, ending_none] at read ⊢
          split at read
          · cases read
          · next pair isPair =>
              obtain ⟨seen, reordered, sameSeen⟩ :=
                tableFields_perm apart same (Document.nodup_keys each perm sorted) isPair
              rw [tableFields_of_spells faithful spells eachAgain
                (fun entry member => holds.entries entry (same.mem_iff.2 member))
                holdsAgain.entries reordered]
              have complete : (fun field : Field α =>
                  field.presence == .required && !seen.contains field.name) =
                    fun field => field.presence == .required && !pair.2.contains field.name := by
                funext field
                simp only [List.contains_eq_mem, sameSeen.mem_iff]
              simp only [complete]
              exact read
  | _ => cases read

/-- What is decoded of a text that spells a value is what is decoded of the value. -/
theorem Faithful.decode_iff {decoder : Decoder α} (faithful : decoder.Faithful) {value : Json}
    {document : Document} (spells : document.Spells value) (flat : document.height ≤ Place.deepest)
    {result : α} : decoder ⟨.text, 0⟩ document = .ok result ↔ value.decode decoder = .ok result := by
  have here : Place.Holds ⟨.text, 0⟩ document := .inr ⟨rfl, by simpa using flat⟩
  have there : Place.Holds ⟨.value, 0⟩ (.ofJson value) := .inl rfl
  have itself := Document.spells_ofJson value spells.canonical
  exact ⟨faithful spells itself here there, faithful itself spells there here⟩

end Decoder

/-- A list of tasks is the same in every text that spells it. -/
theorem Task.listDecoder_faithful : Task.listDecoder.Faithful := by
  refine Decoder.list_faithful (Decoder.record_faithful _ ?_ ?_)
  · simp only [List.forall_mem_cons]
    refine ⟨?_, ?_, ?_, ?_, ?_, ?_, by simp⟩ <;> refine Decoder.Field.faithful_of ?_ _ _ _
    · exact Decoder.string_faithful
    · exact Decoder.list_faithful Decoder.string_faithful
    · exact Decoder.string_faithful
    · exact Decoder.bool_faithful
    · exact Decoder.json_faithful
    · exact Decoder.optional_faithful Decoder.string_faithful
  · simp only [List.pairwise_cons, List.forall_mem_cons]
    refine ⟨⟨?_, ?_, ?_, ?_, ?_, by simp⟩, ⟨?_, ?_, ?_, ?_, by simp⟩, ⟨?_, ?_, ?_, by simp⟩,
      ⟨?_, ?_, by simp⟩, ⟨?_, by simp⟩, by simp, .nil⟩ <;>
      exact Decoder.Field.commutes_of fun _ _ _ => rfl

end Relay
