import Mathlib.Data.List.TakeWhile
import Mathlib.Data.String.Basic
import Relay.Http.Route
import Relay.Proofs.Decode.RoundTrip

/-!
# The path of a workflow

An identifier is written with digits, six letters and hyphens, none of which has a meaning in a
target.  So the path of a workflow is the whole of its target, the last part of the path is the
identifier, and nothing in it stands for something else.
-/

namespace Relay

namespace Http

/-- A character that stands for itself in a part of a path. -/
def isPlain (char : Char) : Bool := char != '/' && char != '?' && char != '#' && char != '%'

/-- All characters of a text stand for themselves. -/
def Plain (text : String) : Prop := ∀ char ∈ text.toList, isPlain char = true

end Http

namespace Uuid

theorem isPlain_letter : ∀ digit : Fin 16, Http.isPlain (letter digit) = true := by
  decide

theorem plain_text (id : Uuid) : Http.Plain id.text := by
  have letters : ∀ char ∈ id.digits.map letter, Http.isPlain char = true := by
    intro char member
    obtain ⟨digit, -, rfl⟩ := List.mem_map.1 member
    exact isPlain_letter digit
  have hyphen : Http.isPlain '-' = true := by decide
  have group : ∀ before size, ∀ char ∈ ((id.digits.map letter).drop before).take size,
      Http.isPlain char = true := fun _ _ char member =>
    letters char (List.mem_of_mem_drop (List.mem_of_mem_take member))
  intro char member
  simp only [text, String.toList_ofList, List.mem_append, List.mem_cons] at member
  rcases member with (((first | rfl | second) | rfl | third) | rfl | fourth) | rfl | last
  · exact group 0 8 char first
  · exact hyphen
  · exact group 8 4 char second
  · exact hyphen
  · exact group 12 4 char third
  · exact hyphen
  · exact group 16 4 char fourth
  · exact hyphen
  · exact letters char (List.mem_of_mem_drop last)

theorem text_ne_empty (id : Uuid) : id.text ≠ "" := by
  intro empty
  have known := ofText?_text id
  have unknown : ofText? "" = none := by decide
  rw [empty, unknown] at known
  cases known

end Uuid

namespace Http

namespace Route

variable {part : String}

theorem ofPath?_create : ofPath? (pathOf "/workflow/create") = some .create := by
  have path : pathOf "/workflow/create" = "/workflow/create" := by decide
  have parts : "/workflow/create".splitToList (· == '/') = ["", "workflow", "create"] := by
    rw [String.splitToList_of_valid]
    decide
  rw [path, ofPath?, parts]
  rfl

/-- The target of a workflow is a path. -/
theorem pathOf_query (plain : Plain part) :
    pathOf ("/workflow/query/" ++ part) = "/workflow/query/" ++ part := by
  have fixed : "/workflow/query/".toList.all (fun char => char != '?' && char != '#') = true := by
    decide
  have whole : ∀ char ∈ ("/workflow/query/" ++ part).toList,
      (char != '?' && char != '#') = true := by
    intro char member
    rw [String.toList_append, List.mem_append] at member
    rcases member with before | own
    · exact List.all_eq_true.1 fixed char before
    · have stands := plain char own
      simp only [isPlain, Bool.and_eq_true] at stands ⊢
      exact ⟨stands.1.1.2, stands.1.2⟩
  rw [pathOf, List.takeWhile_eq_self_iff.2 whole, String.ofList_toList]

/-- The path of a workflow ends in its identifier. -/
theorem ofPath?_query (plain : Plain part) (something : part ≠ "") :
    ofPath? ("/workflow/query/" ++ part) = some (.query part) := by
  have parts : ("/workflow/query/" ++ part).splitToList (· == '/') =
      ["", "workflow", "query", part] := by
    have joined : ("/workflow/query/" ++ part).toList =
        ['/'].intercalate [[], "workflow".toList, "query".toList, part.toList] := by
      rw [String.toList_append]
      simp [List.intercalate]
    have apart : ∀ letters ∈ [[], "workflow".toList, "query".toList, part.toList],
        '/' ∉ letters := by
      have own : '/' ∉ part.toList := fun member => absurd (plain '/' member) (by decide)
      simp only [List.forall_mem_cons, own, not_false_eq_true, List.not_mem_nil, false_imp_iff,
        implies_true, and_true]
      decide
    have split := List.splitOn_intercalate '/' apart (List.cons_ne_nil _ _)
    rw [String.splitToList_of_valid, joined]
    refine (congrArg (List.map String.ofList) split).trans ?_
    simp
  rw [ofPath?, parts]
  simp [something]

end Route

/-- The bytes of characters that stand for themselves. -/
theorem percentBytes_of_plain {chars : List Char} (plain : ∀ char ∈ chars, isPlain char = true) :
    percentBytes chars = chars.flatMap String.utf8EncodeChar := by
  induction chars with
  | nil => rfl
  | cons char rest ih =>
      obtain ⟨own, others⟩ := List.forall_mem_cons.1 plain
      have notPercent : char ≠ '%' := by
        rintro rfl
        exact absurd own (by decide)
      rw [List.flatMap_cons, ← ih others, percentBytes]
      exact fun high low others isPercent => absurd isPercent notPercent

theorem percentDecode?_of_plain {text : String} (plain : Plain text) :
    percentDecode? text = some text := by
  have bytes : (⟨(percentBytes text.toList).toArray⟩ : ByteArray) = text.toByteArray := by
    rw [percentBytes_of_plain plain, ← String.utf8Encode_toList]
    exact ByteArray.ext (by rw [List.utf8Encode, List.data_toByteArray])
  rw [percentDecode?, bytes, String.fromUTF8?, dif_pos text.isValidUTF8]
  rfl

end Http

end Relay
