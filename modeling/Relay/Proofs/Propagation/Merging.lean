import Relay.Proofs.Decode.RoundTrip
import Relay.Proofs.Dict
import Relay.Propagation

/-!
# Merging what the children of a step know

A step absorbs the envelopes of its children in the order of the children's keys, and where
two of them contradict each other the later one wins (`get?_ofChildren`).  The keys contain
random identifiers, so this order means nothing.  Nor does it matter as long as the envelopes
agree: then a step knows exactly what one of the envelopes tells (`get?_absorbAll_iff`),
whatever the keys are, however often an envelope is there, and whatever stands beside the
envelopes.

Contradictions do not come about by running steps: envelopes that quote from one record of
results are merged into an envelope that quotes from it, too (`quotes_envelope`).
-/

namespace Relay

namespace Envelope

/-- An envelope gives a result for a name, as that of its own step or of an earlier one. -/
def Tells (envelope : Envelope) (name : String) (result : StepResult) : Prop :=
  (envelope.name = name ∧ envelope.result = result) ∨ envelope.ancestors.get? name = some result

/-- What an envelope is taken to tell of a name.  If it contradicts itself, the results
that it carries win over its own. -/
def told? (envelope : Envelope) (name : String) : Option StepResult :=
  (envelope.ancestors.get? name).or (if name = envelope.name then some envelope.result else none)

/-- No name is given two results, be it by one envelope or by two of them. -/
def Agree (envelopes : List Envelope) : Prop :=
  ∀ envelope ∈ envelopes, ∀ other ∈ envelopes, ∀ name result otherResult,
    envelope.Tells name result → other.Tells name otherResult → result = otherResult

/-- Whatever an envelope tells stands in a record of results. -/
def Quotes (results : String → Option StepResult) (envelope : Envelope) : Prop :=
  ∀ name result, envelope.Tells name result → results name = some result

variable {envelope : Envelope} {name : String} {result : StepResult}

theorem tells_of_told? (told : envelope.told? name = some result) : envelope.Tells name result := by
  rcases Option.or_eq_some_iff.1 told with carried | ⟨-, own⟩
  · exact .inr carried
  · obtain ⟨rfl, equal⟩ := Option.ite_none_right_eq_some.1 own
    exact .inl ⟨rfl, Option.some.inj equal⟩

theorem isSome_told? (tells : envelope.Tells name result) : (envelope.told? name).isSome := by
  rcases tells with ⟨rfl, rfl⟩ | carried
  · simp [told?]
  · simp [told?, carried]

theorem agree_of_quotes {results : String → Option StepResult} {envelopes : List Envelope}
    (each : ∀ envelope ∈ envelopes, envelope.Quotes results) : Agree envelopes := by
  intro envelope member other otherMember name result otherResult tells otherTells
  have recorded := each envelope member name result tells
  rw [each other otherMember name otherResult otherTells] at recorded
  exact (Option.some.inj recorded).symm

end Envelope

namespace Ancestors

theorem ext_get? {left right : Ancestors}
    (same : ∀ name, left.results.get? name = right.results.get? name) : left = right :=
  congrArg mk (Dict.ext_get? same)

/-! ## Which result wins -/

/-- What an envelope tells wins over what was known before. -/
theorem get?_absorb (ancestors : Ancestors) (envelope : Envelope) (name : String) :
    (ancestors.absorb envelope).results.get? name =
      (envelope.told? name).or (ancestors.results.get? name) := by
  rw [absorb, Dict.get?_insertAll_entries, Dict.get?_insert, Envelope.told?, Option.or_assoc]
  split
  · rw [Option.some_or]
  · rw [Option.none_or]

/-- Absorb envelopes one after another. -/
def absorbAll (ancestors : Ancestors) (envelopes : List Envelope) : Ancestors :=
  envelopes.foldl absorb ancestors

/-- A name has the result that the last envelope to mention it tells. -/
theorem get?_absorbAll (ancestors : Ancestors) (envelopes : List Envelope) (name : String) :
    (ancestors.absorbAll envelopes).results.get? name =
      (envelopes.reverse.findSome? fun envelope => envelope.told? name).or
        (ancestors.results.get? name) := by
  induction envelopes generalizing ancestors with
  | nil => rfl
  | cons envelope rest ih =>
      have step : ancestors.absorbAll (envelope :: rest) =
          (ancestors.absorb envelope).absorbAll rest := rfl
      rw [step, ih, get?_absorb, List.reverse_cons, List.findSome?_append, Option.or_assoc,
        List.findSome?_singleton]

theorem get?_none_absorbAll (envelopes : List Envelope) (name : String) :
    (none.absorbAll envelopes).results.get? name =
      envelopes.reverse.findSome? fun envelope => envelope.told? name := by
  rw [get?_absorbAll, none, Dict.get?_empty, Option.or_none]

/-- Nothing is known that no envelope tells. -/
theorem tells_of_get?_absorbAll {envelopes : List Envelope} {name : String} {result : StepResult}
    (found : (none.absorbAll envelopes).results.get? name = some result) :
    ∃ envelope ∈ envelopes, envelope.Tells name result := by
  rw [get?_none_absorbAll] at found
  obtain ⟨envelope, member, told⟩ := List.exists_of_findSome?_eq_some found
  exact ⟨envelope, List.mem_reverse.1 member, Envelope.tells_of_told? told⟩

/-- Of envelopes that agree, what any of them tells is known. -/
theorem get?_absorbAll_iff {envelopes : List Envelope} (agree : Envelope.Agree envelopes)
    (name : String) (result : StepResult) :
    (none.absorbAll envelopes).results.get? name = some result ↔
      ∃ envelope ∈ envelopes, envelope.Tells name result := by
  refine ⟨tells_of_get?_absorbAll, ?_⟩
  rintro ⟨envelope, member, tells⟩
  -- Some envelope decides what is known of the name, and it agrees with the given one.
  have known : ((none.absorbAll envelopes).results.get? name).isSome := by
    rw [get?_none_absorbAll, List.findSome?_isSome_iff]
    exact ⟨envelope, List.mem_reverse.2 member, Envelope.isSome_told? tells⟩
  obtain ⟨winning, found⟩ := Option.isSome_iff_exists.1 known
  obtain ⟨other, otherMember, otherTells⟩ := tells_of_get?_absorbAll found
  rw [found, agree envelope member other otherMember name result winning tells otherTells]

/-- Envelopes that agree may be absorbed in any order, and more than once. -/
theorem absorbAll_eq_of_mem_iff {envelopes others : List Envelope}
    (agree : Envelope.Agree envelopes)
    (same : ∀ envelope, envelope ∈ others ↔ envelope ∈ envelopes) :
    none.absorbAll others = none.absorbAll envelopes := by
  have othersAgree : Envelope.Agree others := fun envelope member other otherMember =>
    agree envelope ((same envelope).1 member) other ((same other).1 otherMember)
  refine ext_get? fun name => Option.ext fun result => ?_
  rw [get?_absorbAll_iff othersAgree, get?_absorbAll_iff agree]
  simp only [same]

/-! ## The envelopes among the return values of children -/

/-- The return values that are envelopes, by the keys of the children. -/
def envelopes (values : Dict Json) : Dict Envelope :=
  values.filterMap fun value => (value.decode Envelope.decoder).toOption

theorem ofChildren_eq (values : Dict Json) :
    ofChildren values = none.absorbAll (envelopes values).values := by
  rw [envelopes, Dict.values_filterMap]
  rfl

/-- Where envelopes contradict each other, the one with the greatest key is believed. -/
theorem get?_ofChildren (values : Dict Json) (name : String) :
    (ofChildren values).results.get? name =
      (envelopes values).values.reverse.findSome? fun envelope => envelope.told? name := by
  rw [ofChildren_eq, get?_none_absorbAll]

example :
    let yes := Envelope.toJson ⟨"twin", .proceed .null, .empty⟩
    let no := Envelope.toJson ⟨"twin", .skip .null, .empty⟩
    (ofChildren (.ofList [("ai:1", yes), ("ai:2", no)])).results.get? "twin" = some (.skip .null) ∧
      (ofChildren (.ofList [("ai:1", no), ("ai:2", yes)])).results.get? "twin" =
        some (.proceed .null) := by
  decide +kernel

/-- The envelope of a step that was handed envelopes which quote from a record of results
quotes from it, too. -/
theorem quotes_envelope {results : String → Option StepResult} {children : Dict Json}
    (each : ∀ envelope ∈ (envelopes children).values, envelope.Quotes results) {step : StepData}
    {result : StepResult} (own : results step.taskName = some result) :
    (Propagation.envelope step (ofChildren children) result).Quotes results := by
  rintro name told (⟨rfl, rfl⟩ | carried)
  · exact own
  · simp only [Propagation.envelope, record, Dict.get?_insert] at carried
    split at carried
    · next same =>
        cases carried
        exact same ▸ own
    · rw [ofChildren_eq] at carried
      obtain ⟨envelope, member, tells⟩ := tells_of_get?_absorbAll carried
      exact each envelope member name told tells

section Changes

variable {values : Dict Json}

theorem get?_envelopes (values : Dict Json) (key : String) :
    (envelopes values).get? key =
      (values.get? key).bind fun value => (value.decode Envelope.decoder).toOption :=
  Dict.get?_filterMap ..

theorem get?_envelopes_insert (values : Dict Json) (key query : String) (value : Json) :
    (envelopes (values.insert key value)).get? query =
      if query = key then (value.decode Envelope.decoder).toOption
      else (envelopes values).get? query := by
  rw [get?_envelopes, Dict.get?_insert, get?_envelopes]
  split <;> rfl

theorem get?_envelopes_erase (values : Dict Json) (key query : String) :
    (envelopes (values.erase key)).get? query =
      if query = key then Option.none else (envelopes values).get? query := by
  rw [get?_envelopes, Dict.get?_erase, get?_envelopes]
  split <;> rfl

theorem get?_envelopes_renameKeys_iff {rename : String → String}
    (apart : Set.InjOn rename {key | key ∈ values.keys}) (key : String) (envelope : Envelope) :
    (envelopes (values.renameKeys rename)).get? key = some envelope ↔
      ∃ old, rename old = key ∧ (envelopes values).get? old = some envelope := by
  simp only [get?_envelopes, Option.bind_eq_some_iff, Dict.get?_renameKeys_iff apart]
  constructor
  · rintro ⟨value, ⟨old, renamed, found⟩, read⟩
    exact ⟨old, renamed, value, found, read⟩
  · rintro ⟨old, renamed, value, found, read⟩
    exact ⟨value, ⟨old, renamed, found⟩, read⟩

theorem toOption_decode_of_ne {value : Json}
    (noEnvelope : ∀ envelope, value.decode Envelope.decoder ≠ .ok envelope) :
    (value.decode Envelope.decoder).toOption = Option.none := by
  cases read : value.decode Envelope.decoder with
  | error problem => rfl
  | ok envelope => exact absurd read (noEnvelope envelope)

/-- Values that are no envelopes come and go unnoticed, whether the envelopes agree or not. -/
theorem ofChildren_insert_of_ne {key : String} {value : Json}
    (noEnvelope : ∀ envelope, value.decode Envelope.decoder ≠ .ok envelope)
    (free : (envelopes values).get? key = Option.none) :
    ofChildren (values.insert key value) = ofChildren values := by
  have same : envelopes (values.insert key value) = envelopes values := by
    refine Dict.ext_get? fun query => ?_
    rw [get?_envelopes_insert, toOption_decode_of_ne noEnvelope]
    split
    · next atKey => rw [atKey, free]
    · rfl
  rw [ofChildren_eq, ofChildren_eq, same]

theorem ofChildren_erase_of_none {key : String}
    (free : (envelopes values).get? key = Option.none) :
    ofChildren (values.erase key) = ofChildren values := by
  have same : envelopes (values.erase key) = envelopes values := by
    refine Dict.ext_get? fun query => ?_
    rw [get?_envelopes_erase]
    split
    · next atKey => rw [atKey, free]
    · rfl
  rw [ofChildren_eq, ofChildren_eq, same]

/-- Children that return the same envelopes are worth the same if these agree. -/
theorem ofChildren_eq_of_mem_iff {others : Dict Json}
    (agree : Envelope.Agree (envelopes values).values)
    (same : ∀ envelope, (∃ key, (envelopes others).get? key = some envelope) ↔
      ∃ key, (envelopes values).get? key = some envelope) :
    ofChildren others = ofChildren values := by
  rw [ofChildren_eq, ofChildren_eq]
  refine absorbAll_eq_of_mem_iff agree fun envelope => ?_
  rw [Dict.mem_values_iff, Dict.mem_values_iff, same]

theorem ofChildren_renameKeys (agree : Envelope.Agree (envelopes values).values)
    {rename : String → String} (apart : Set.InjOn rename {key | key ∈ values.keys}) :
    ofChildren (values.renameKeys rename) = ofChildren values := by
  refine ofChildren_eq_of_mem_iff agree fun envelope => ?_
  simp only [get?_envelopes_renameKeys_iff apart]
  constructor
  · rintro ⟨_, old, -, found⟩
    exact ⟨old, found⟩
  · rintro ⟨old, found⟩
    exact ⟨rename old, old, rfl, found⟩

theorem ofChildren_insert_copy (agree : Envelope.Agree (envelopes values).values)
    {key copy : String} {value : Json} (found : values.get? key = some value)
    (free : (envelopes values).get? copy = Option.none) :
    ofChildren (values.insert copy value) = ofChildren values := by
  have original : (envelopes values).get? key = (value.decode Envelope.decoder).toOption := by
    rw [get?_envelopes, found, Option.bind_some]
  refine ofChildren_eq_of_mem_iff agree fun envelope => ?_
  simp only [get?_envelopes_insert]
  constructor
  · rintro ⟨query, there⟩
    split at there
    · exact ⟨key, original.trans there⟩
    · exact ⟨query, there⟩
  · rintro ⟨query, there⟩
    have apart : query ≠ copy := by
      rintro rfl
      rw [free] at there
      cases there
    exact ⟨query, (if_neg apart).trans there⟩

end Changes

/-! ## The merge goes by content -/

/-- What a step makes of the return values of its children, and what it does not depend on. -/
structure MergedByContent (values : Dict Json) : Prop where
  /-- The merge is the union of what the envelopes carry and of their own results. -/
  union : ∀ name result, (ofChildren values).results.get? name = some result ↔
    ∃ envelope ∈ (envelopes values).values, envelope.Tells name result
  /-- The envelopes may be absorbed in any order, and more than once. -/
  anyOrder : ∀ listed : List Envelope,
    (∀ envelope, envelope ∈ listed ↔ envelope ∈ (envelopes values).values) →
      none.absorbAll listed = ofChildren values
  /-- The children may go by other keys. -/
  renamed : ∀ rename : String → String, Set.InjOn rename {key | key ∈ values.keys} →
    ofChildren (values.renameKeys rename) = ofChildren values
  /-- A value may be there again, under a key where no envelope is. -/
  duplicated : ∀ key value copy, values.get? key = some value →
    (envelopes values).get? copy = Option.none →
      ofChildren (values.insert copy value) = ofChildren values
  /-- A value that is no envelope may be put under a key where no envelope is. -/
  added : ∀ key value, (∀ envelope, value.decode Envelope.decoder ≠ .ok envelope) →
    (envelopes values).get? key = Option.none →
      ofChildren (values.insert key value) = ofChildren values
  /-- A value that is no envelope may be taken away. -/
  removed : ∀ key value, values.get? key = some value →
    (∀ envelope, value.decode Envelope.decoder ≠ .ok envelope) →
      ofChildren (values.erase key) = ofChildren values

/-- The keys of the children say nothing.  If the envelopes among the return values agree with
each other, the merge is their union, and it stays the same when the children are given other
keys, when a value is there twice, and when values come or go that are no envelopes. -/
theorem merge_by_content {values : Dict Json} (agree : Envelope.Agree (envelopes values).values) :
    MergedByContent values where
  union name result := by
    rw [ofChildren_eq]
    exact get?_absorbAll_iff agree name result
  anyOrder listed same := by
    rw [ofChildren_eq]
    exact absorbAll_eq_of_mem_iff agree same
  renamed _ apart := ofChildren_renameKeys agree apart
  duplicated _ _ _ found free := ofChildren_insert_copy agree found free
  added _ _ noEnvelope free := ofChildren_insert_of_ne noEnvelope free
  removed key value found noEnvelope := by
    refine ofChildren_erase_of_none ?_
    rw [get?_envelopes, found, Option.bind_some, toOption_decode_of_ne noEnvelope]

/-- Every step gives its own name. -/
def Sample.results (name : String) : Option StepResult := some (.proceed (.string name))

/-- The envelope of a step that gives its own name. -/
def Sample.envelope (name : String) (children : Dict Json) : Envelope :=
  Propagation.envelope (.ofTask (.plain name "work") (Uuid.ofNat 7)) (ofChildren children)
    (.proceed (.string name))

/-- What is returned to the steps after the first one. -/
def Sample.first : Dict Json := .ofList [("db:1", (Sample.envelope "root" .empty).toJson)]

/-- What two steps after the first one return, and a value that is no envelope. -/
def Sample.branches : Dict Json :=
  .ofList [("ai:3", (Sample.envelope "left" Sample.first).toJson), ("ai:4", .string "done"),
    ("db:2", (Sample.envelope "right" Sample.first).toJson)]

theorem merge_by_content_branches :
    Envelope.Agree (envelopes Sample.branches).values ∧ MergedByContent Sample.branches := by
  have first : (envelopes Sample.first).values = [Sample.envelope "root" .empty] := by
    decide +kernel
  have branches : (envelopes Sample.branches).values =
      [Sample.envelope "left" Sample.first, Sample.envelope "right" Sample.first] := by
    decide +kernel
  have root : (Sample.envelope "root" .empty).Quotes Sample.results :=
    quotes_envelope (fun _ member => absurd member List.not_mem_nil) rfl
  have branch (name : String) : (Sample.envelope name Sample.first).Quotes Sample.results :=
    quotes_envelope (first ▸ List.forall_mem_singleton.2 root) rfl
  have agree : Envelope.Agree (envelopes Sample.branches).values := by
    rw [branches]
    exact Envelope.agree_of_quotes (List.forall_mem_cons.2
      ⟨branch "left", List.forall_mem_singleton.2 (branch "right")⟩)
  exact ⟨agree, merge_by_content agree⟩

end Ancestors

end Relay
