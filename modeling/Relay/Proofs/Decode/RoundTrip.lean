import Relay.Ancestors
import Relay.Proofs.Json.Canonical
import Relay.Task

/-!
# Round trips

What the engine writes for a queue it reads back unchanged: an identifier, the
data of a step and the envelope of a result, whatever values they carry.
-/

namespace Relay

namespace Uuid

theorem digit?_letter : ∀ digit : Fin 16, digit? (letter digit) = some digit := by
  decide

theorem mapM_digit?_letters (digits : List (Fin 16)) :
    (digits.map letter).mapM digit? = some digits := by
  induction digits with
  | nil => rfl
  | cons head rest ih => simp [List.mapM_cons, digit?_letter, ih]

theorem ofLetters?_letters (uuid : Uuid) :
    ofLetters? (uuid.digits.map letter) = some uuid := by
  rw [ofLetters?, mapM_digit?_letters]
  exact dif_pos uuid.length_digits

/-- The groups of a hyphenated spelling are the parts between its hyphens. -/
theorem ofHyphenated?_groups {first second third fourth fifth : List Char}
    (one : first.length = 8) (two : second.length = 4) (three : third.length = 4)
    (four : fourth.length = 4) (five : fifth.length = 12) :
    ofHyphenated? (first ++ '-' :: second ++ '-' :: third ++ '-' :: fourth ++ '-' :: fifth) =
      ofLetters? (first ++ second ++ third ++ fourth ++ fifth) := by
  rw [ofHyphenated?, if_pos]
  · simp [List.drop_append, List.drop_of_length_le, one, two, three, four]
  · simp [one, two, three, four, five]

/-- An identifier is read back from its written form. -/
theorem ofText?_text (uuid : Uuid) : ofText? uuid.text = some uuid := by
  have size : (uuid.digits.map letter).length = 32 := by simp [uuid.length_digits]
  have whole := ofLetters?_letters uuid
  simp only [ofText?, text, String.toList_ofList]
  generalize uuid.digits.map letter = letters at size whole
  have parts : letters.take 8 ++ (letters.drop 8).take 4 ++ (letters.drop 12).take 4 ++
      (letters.drop 16).take 4 ++ letters.drop 20 = letters := by
    simp only [← List.take_add]
    simp
  rw [if_neg, if_pos, ofHyphenated?_groups, parts, whole] <;> simp [size]

end Uuid

namespace Decoder

theorem string_reads (text : String) : Reads string (.string text) text := fun _ => rfl

theorem uuid_reads (id : Uuid) : Reads uuid (.string id.text) id := by
  intro depth
  simp only [Document.ofJson, uuid, Uuid.ofText?_text]

/-- A list is read back item by item. -/
theorem list_reads {α : Type} {decoder : Decoder α} {write : α → Json} {values : List α}
    (each : ∀ value ∈ values, decoder.Reads (write value) value) :
    Reads (list decoder) (.array (values.map write)) values := by
  intro depth
  have read : ∀ position, items decoder ⟨.value, depth + 1⟩ position
      (Document.ofItems (values.map write)) = .ok values := by
    induction values with
    | nil => intro position; rfl
    | cons head rest ih =>
        intro position
        obtain ⟨first, others⟩ := List.forall_mem_cons.1 each
        simp only [List.map_cons, Document.ofItems, items, first (depth + 1), located_ok, bind,
          Except.bind, ih others (position + 1), pure, Except.pure]
  simp only [Document.ofJson, list, inside_value, bind, Except.bind, read, ending_none, pure,
    Except.pure]

theorem strings_reads (texts : List String) :
    Reads (list string) (Json.ofStrings texts) texts :=
  list_reads fun text _ => string_reads text

/-- A dictionary is read back entry by entry. -/
theorem dict_reads {α : Type} {decoder : Decoder α} {write : α → Json} {values : Dict α}
    (each : ∀ entry ∈ values.entries, decoder.Reads (write entry.2) entry.2) :
    Reads (dict decoder) (.ofDict (values.map write)) values := by
  intro depth
  have read : entries decoder ⟨.value, depth + 1⟩
      (Document.ofMembers (values.map write).entries) = .ok values.entries := by
    show entries decoder ⟨.value, depth + 1⟩ (Document.ofMembers
      (values.entries.map fun entry => (entry.1, write entry.2))) = .ok values.entries
    revert each
    induction values.entries with
    | nil => exact fun _ => rfl
    | cons head rest ih =>
        intro each
        obtain ⟨first, others⟩ := List.forall_mem_cons.1 each
        simp only [List.map_cons, Document.ofMembers, entries, first (depth + 1), located_ok, bind,
          Except.bind, ih others, pure, Except.pure]
  simp only [Json.ofDict, Document.ofJson, dict, inside_value, bind, Except.bind, read,
    ending_none, pure, Except.pure, Dict.ofList_entries]

end Decoder

/-! ## Results, envelopes and step data -/

section Records

open Decoder

theorem StepResult.reads_toJson {result : StepResult} (canonical : result.data.Canonical) :
    StepResult.decoder.Reads result.toJson result := by
  intro depth
  have data := json_reads canonical (depth + 1)
  simp [StepResult.decoder, StepResult.toJson, record, tableFields, Field.of, Document.ofJson,
    Document.ofMembers, data, Decoder.bool, Except.map, bind, Except.bind]

/-- An envelope is read back if the data of all its results is canonical. -/
theorem Envelope.reads_toJson {envelope : Envelope} (own : envelope.result.data.Canonical)
    (others : ∀ entry ∈ envelope.ancestors.entries, entry.2.data.Canonical) :
    Envelope.decoder.Reads envelope.toJson envelope := by
  intro depth
  have result := StepResult.reads_toJson own (depth + 1)
  have ancestors := dict_reads
    (fun entry member => StepResult.reads_toJson (others entry member)) (depth + 1)
  simp [Envelope.decoder, Envelope.toJson, record, tableFields, Field.of, Document.ofJson,
    Document.ofMembers, result, ancestors, string, Except.map, bind, Except.bind]

/-- The data of a step is read back if its payload is canonical. -/
theorem StepData.reads_toJson {step : StepData} (canonical : step.payload.Canonical) :
    StepData.decoder.Reads step.toJson step := by
  intro depth
  have fathers := strings_reads step.fathers (depth + 1)
  have payload := json_reads canonical (depth + 1)
  have workflowId := uuid_reads step.workflowId (depth + 1)
  rw [Document.ofJson] at workflowId
  simp [StepData.decoder, StepData.toJson, record, tableFields, Field.of, Document.ofJson,
    Document.ofMembers, fathers, payload, workflowId, string, Decoder.bool, Except.map, bind, Except.bind]

theorem optional_string_reads (text : String) :
    (Decoder.optional string).Reads (.string text) (some text) := fun _ => rfl

/-- A task is read back if its payload is canonical, with or without a queue name. -/
theorem Task.reads_toJson {task : Task} (canonical : task.payload.Canonical) :
    Task.decoder.Reads task.toJson task := by
  intro depth
  have fathers := strings_reads task.fathers (depth + 1)
  have payload := json_reads canonical (depth + 1)
  obtain ⟨name, fatherNames, type, track, own, queueName⟩ := task
  cases queueName with
  | none =>
      simp_all [Task.decoder, Task.toJson, Task.plain, record, tableFields, Field.of,
        Document.ofJson, Document.ofMembers, string, Decoder.bool, Except.map, bind, Except.bind]
  | some queue =>
      have queueName := optional_string_reads queue (depth + 1)
      rw [Document.ofJson] at queueName
      simp_all [Task.decoder, Task.toJson, Task.plain, record, tableFields, Field.of,
        Document.ofJson, Document.ofMembers, string, Decoder.bool, Except.map, bind, Except.bind]

theorem Task.reads_listToJson {tasks : List Task}
    (canonical : ∀ task ∈ tasks, task.payload.Canonical) :
    Task.listDecoder.Reads (Task.listToJson tasks) tasks :=
  list_reads fun task member => Task.reads_toJson (canonical task member)

end Records

end Relay
