import Relay.Flow.Event
import Relay.Flow.Tree
import Relay.Proofs.Decode.RoundTrip
import Relay.Proofs.Decode.Sound
import Relay.Queue.Settings
import Relay.Record.Store
import Relay.Routing
import Relay.Workflow.Submission

/-!
# The formats of what is stored and sent

Thirteen types of values are written as JSON and read again: by the store, by the next
step of a chain, by clients and in configuration files.  Writing leaves out what is
absent and puts the kind of an event among its fields; reading fills in defaults and
accepts fields in any order.  For all of them reading undoes writing.
-/

namespace Relay

/-- A format loses nothing: exactly the well-formed values are read back as they were
written, and nothing else is ever read from any document. -/
structure Lossless {α : Type} (write : α → Json) (decoder : Decoder α) (wellFormed : α → Prop) :
    Prop where
  readsBack : ∀ value, (write value).decode decoder = .ok value ↔ wellFormed value
  yields : decoder.Yields wellFormed

section Lossless

variable {α : Type} {write : α → Json} {decoder : Decoder α}

theorem lossless_of_reads {wellFormed : α → Prop}
    (reads : ∀ value, wellFormed value → decoder.Reads (write value) value)
    (yields : decoder.Yields wellFormed) : Lossless write decoder wellFormed where
  readsBack value := ⟨yields _ _ value, fun holds => (reads value holds).decode⟩
  yields := yields

/-- Every value of a type without bounds and free-form parts is read back. -/
theorem lossless_of_reads_all (reads : ∀ value, decoder.Reads (write value) value) :
    Lossless write decoder fun _ => True :=
  lossless_of_reads (fun value _ => reads value) (Decoder.yields_trivial decoder)

end Lossless

namespace Decoder

variable {α : Type} {decoder : Decoder α}

theorem nat_reads {limit value : Nat} (below : value < limit) (expected : String) :
    (natural limit expected).Reads (.ofNat value) value := by
  intro depth
  simp only [Json.ofNat, Document.ofJson, natural]
  rw [if_pos (by omega), Int.toNat_natCast]

theorem nat32_reads {value : Nat} (below : value < Nat.pow 2 32) :
    nat32.Reads (.ofNat value) value := nat_reads below "u32"

theorem nat64_reads {value : Nat} (below : value < Nat.pow 2 64) :
    nat64.Reads (.ofNat value) value := nat_reads below "u64"

theorem size64_reads {value : Nat} (below : value < Nat.pow 2 64) :
    size64.Reads (.ofNat value) value := nat_reads below "usize"

theorem bool_reads (value : Bool) : Reads bool (.bool value) value := fun _ => rfl

/-- A field that stands in a table for the first time is stored. -/
theorem tableFields_cons {β : Type} {fields : List (Field α)} {place : Place} {key : String}
    {document : Document} {rest : List (Option String × Document)} {value : α} {seen : List String}
    {presence : Presence} {decoder : Decoder β} {store : α → β → α} {part : β}
    (isField : (fields.find? fun field => field.name == key) =
      some (.of key presence decoder store))
    (fresh : seen.contains key = false) (read : decoder place document = .ok part)
    {result : Except DecodeError (α × List String)}
    (others : tableFields fields place rest (store value part) (key :: seen) = result) :
    tableFields fields place ((some key, document) :: rest) value seen = result := by
  simp only [tableFields, isField, fresh, Field.of, read, Except.map, located_ok, bind,
    Except.bind, Bool.false_eq_true, if_false, others]

/-- A structure is read from a table that has all fields that are required. -/
theorem record_table {kind : String} {fields : List (Field α)} {blank value : α} {depth : Nat}
    {found : List (Option String × Document)} (seen : List String)
    (read : tableFields fields ⟨.value, depth + 1⟩ found blank [] = .ok (value, seen))
    (complete : (fields.find? fun field =>
      field.presence == .required && !seen.contains field.name) = none) :
    record kind fields blank ⟨.value, depth⟩ (.table found none) = .ok value := by
  simp only [record, inside_value, read, ending_none, complete, bind, Except.bind]

/-- A value that may be missing is read back if null does not stand for any value. -/
theorem optional_reads {write : α → Json} {value : Option α}
    (each : ∀ part ∈ value, decoder.Reads (write part) part ∧ write part ≠ .null) :
    (optional decoder).Reads (.ofOption (value.map write)) value := by
  intro depth
  cases value with
  | none => rfl
  | some part =>
      obtain ⟨reads, present⟩ := each part rfl
      have read := reads depth
      simp only [Option.map_some, Json.ofOption, Option.getD_some]
      cases written : write part with
      | null => exact absurd written present
      | _ =>
          rw [written] at read
          simp only [Document.ofJson] at read ⊢
          rw [optional, read]
          · rfl
          · nofun

/-- No item of a list is higher than the list. -/
theorem height_le_of_mem {items : List Json} {item : Json} (member : item ∈ items) :
    (Document.ofJson item).height ≤ Document.heightItems (Document.ofItems items) := by
  induction items with
  | nil => cases member
  | cons head rest ih =>
      rw [Document.ofItems, Document.heightItems]
      rcases List.mem_cons.1 member with rfl | below
      · exact Nat.le_max_left _ _
      · exact Nat.le_trans (ih below) (Nat.le_max_right _ _)

/-- A list is read back if its reader goes as deep as the documents of its items do. -/
theorem list_reads_within {height : Nat} {write : α → Json} {values : List α}
    (low : Document.heightItems (Document.ofItems (values.map write)) < height)
    (each : ∀ value ∈ values, (Document.ofJson (write value)).height < height →
      decoder.Reads (write value) value) :
    (list decoder).Reads (.array (values.map write)) values := by
  refine list_reads fun value member => each value member ?_
  exact Nat.lt_of_le_of_lt (height_le_of_mem (List.mem_map_of_mem member)) low

end Decoder

open Decoder

/-! ## What steps carry -/

/-- The payload of a task is kept as every value is, with the members of its objects in key
order. -/
def Task.WellFormed (task : Task) : Prop := task.payload.Canonical

def StepData.WellFormed (step : StepData) : Prop := step.payload.Canonical

def StepResult.WellFormed (result : StepResult) : Prop := result.data.Canonical

/-- The own result of an envelope and all results that it carries are well-formed. -/
structure Envelope.WellFormed (envelope : Envelope) : Prop where
  result : envelope.result.WellFormed
  ancestors : ∀ entry ∈ envelope.ancestors.entries, entry.2.WellFormed

theorem Task.decoder_yields : Task.decoder.Yields Task.WellFormed := by
  refine record_yields Json.canonical_null
    ⟨?name, ?fathers, ?type, ?track, ?payload, ?queueName, trivial⟩
  case payload => exact Field.keeps_of json_yields fun _ _ _ canonical => canonical
  all_goals exact Field.keeps_of (yields_trivial _) fun _ _ canonical _ => canonical

theorem Task.lossless : Lossless Task.toJson Task.decoder Task.WellFormed :=
  lossless_of_reads (fun _ wellFormed => Task.reads_toJson wellFormed) Task.decoder_yields

theorem Task.lossless_list : Lossless Task.listToJson Task.listDecoder
    fun tasks => ∀ task ∈ tasks, task.WellFormed :=
  lossless_of_reads (fun _ wellFormed => Task.reads_listToJson wellFormed)
    (list_yields Task.decoder_yields)

theorem StepData.decoder_yields : StepData.decoder.Yields StepData.WellFormed := by
  refine record_yields Json.canonical_null
    ⟨?workflowId, ?taskName, ?taskType, ?track, ?fathers, ?payload, trivial⟩
  case payload => exact Field.keeps_of json_yields fun _ _ _ canonical => canonical
  all_goals exact Field.keeps_of (yields_trivial _) fun _ _ canonical _ => canonical

theorem StepData.lossless : Lossless StepData.toJson StepData.decoder StepData.WellFormed :=
  lossless_of_reads (fun _ wellFormed => StepData.reads_toJson wellFormed)
    StepData.decoder_yields

theorem StepResult.decoder_yields : StepResult.decoder.Yields StepResult.WellFormed := by
  refine record_yields Json.canonical_null ⟨?_, ?_, trivial⟩
  · exact Field.keeps_of (yields_trivial _) fun _ _ canonical _ => canonical
  · exact Field.keeps_of json_yields fun _ _ _ canonical => canonical

theorem StepResult.lossless :
    Lossless StepResult.toJson StepResult.decoder StepResult.WellFormed :=
  lossless_of_reads (fun _ wellFormed => StepResult.reads_toJson wellFormed)
    StepResult.decoder_yields

theorem Envelope.decoder_yields : Envelope.decoder.Yields Envelope.WellFormed := by
  have blank : Envelope.WellFormed ⟨"", ⟨false, .null⟩, .empty⟩ :=
    ⟨Json.canonical_null, fun _ member => absurd member List.not_mem_nil⟩
  refine record_yields blank ⟨?name, ?result, ?ancestors, trivial⟩
  case name =>
    exact Field.keeps_of (yields_trivial _) fun _ _ wellFormed _ =>
      ⟨wellFormed.result, wellFormed.ancestors⟩
  case result =>
    exact Field.keeps_of StepResult.decoder_yields fun _ _ wellFormed result =>
      ⟨result, wellFormed.ancestors⟩
  case ancestors =>
    exact Field.keeps_of (dict_yields StepResult.decoder_yields)
      fun _ _ wellFormed ancestors => ⟨wellFormed.result, ancestors⟩

theorem Envelope.lossless : Lossless Envelope.toJson Envelope.decoder Envelope.WellFormed :=
  lossless_of_reads
    (fun _ wellFormed => Envelope.reads_toJson wellFormed.result wellFormed.ancestors)
    Envelope.decoder_yields

/-- The one envelope that a step is handed is read as it was returned. -/
theorem Ancestors.ofChildren_single {envelope : Envelope} (wellFormed : envelope.WellFormed)
    (key : String) :
    ofChildren (Dict.empty.insert key envelope.toJson) = none.absorb envelope := by
  have values : (Dict.empty.insert key envelope.toJson).values = [envelope.toJson] := rfl
  rw [ofChildren, values]
  simp only [List.filterMap_cons, (Envelope.lossless.readsBack envelope).2 wellFormed,
    Except.toOption, List.filterMap_nil, List.foldl_cons, List.foldl_nil]

/-! ## Configuration -/

theorem Routing.reads_toJson (routing : Routing) :
    Routing.decoder.Reads routing.toJson routing := by
  intro depth
  have queues : (dict string).Reads (.ofDict (routing.queues.map .string)) routing.queues :=
    dict_reads fun entry _ => string_reads entry.2
  refine record_table ["queues", "default_queue"] ?_ rfl
  refine tableFields_cons rfl rfl (string_reads routing.defaultQueue (depth + 1)) ?_
  refine tableFields_cons rfl rfl (queues (depth + 1)) ?_
  rfl

theorem Routing.lossless : Lossless Routing.toJson Routing.decoder fun _ => True :=
  lossless_of_reads_all Routing.reads_toJson

/-- Every limit fits the width that it is kept in. -/
structure QueueSettings.WellFormed (settings : QueueSettings) : Prop where
  concurrencyLimit : settings.concurrencyLimit < Nat.pow 2 64
  maxRequestToken : settings.maxRequestToken < Nat.pow 2 32
  regenerationInterval : settings.regenerationInterval < Nat.pow 2 64
  maxQueueLength : settings.maxQueueLength < Nat.pow 2 64
  maxAttempts : settings.maxAttempts < Nat.pow 2 32
  backoffBase : settings.backoffBase < Nat.pow 2 64

theorem QueueSettings.reads_toJson {settings : QueueSettings} (wellFormed : settings.WellFormed) :
    QueueSettings.decoder.Reads settings.toJson settings := by
  intro depth
  refine record_table
    ["regeneration_interval_ms", "max_request_token", "max_queue_length",
     "max_attempts", "concurrency_limit", "backoff_base_ms"] ?_ rfl
  refine tableFields_cons rfl rfl (nat64_reads wellFormed.backoffBase (depth + 1)) ?_
  refine tableFields_cons rfl rfl (size64_reads wellFormed.concurrencyLimit (depth + 1)) ?_
  refine tableFields_cons rfl rfl (nat32_reads wellFormed.maxAttempts (depth + 1)) ?_
  refine tableFields_cons rfl rfl (size64_reads wellFormed.maxQueueLength (depth + 1)) ?_
  refine tableFields_cons rfl rfl (nat32_reads wellFormed.maxRequestToken (depth + 1)) ?_
  refine tableFields_cons rfl rfl (nat64_reads wellFormed.regenerationInterval (depth + 1)) ?_
  rfl

theorem QueueSettings.decoder_yields :
    QueueSettings.decoder.Yields QueueSettings.WellFormed := by
  have blank : QueueSettings.standard.WellFormed := by constructor <;> decide
  refine record_yields blank ⟨?_, ?_, ?_, ?_, ?_, ?_, trivial⟩
  -- Every field keeps the bounds of the others and brings its own.
  all_goals
    exact Field.keeps_of (natural_yields _ _) fun _ _ wellFormed bound => by
      obtain ⟨_, _, _, _, _, _⟩ := wellFormed
      constructor <;> assumption

theorem QueueSettings.lossless :
    Lossless QueueSettings.toJson QueueSettings.decoder QueueSettings.WellFormed :=
  lossless_of_reads (fun _ wellFormed => QueueSettings.reads_toJson wellFormed)
    QueueSettings.decoder_yields

/-! ## Flows -/

/-- The number of attempts, if there is one, fits its width. -/
def JobOptions.WellFormed (options : JobOptions) : Prop :=
  ∀ attempts ∈ options.attempts, attempts < Nat.pow 2 32

theorem JobOptions.reads_toJson {options : JobOptions} (wellFormed : options.WellFormed) :
    JobOptions.decoder.Reads options.toJson options := by
  intro depth
  have attempts : (Decoder.optional nat32).Reads (.ofOption (options.attempts.map .ofNat))
      options.attempts :=
    optional_reads fun attempts member => ⟨nat32_reads (wellFormed attempts member), nofun⟩
  refine record_table ["fail_parent_on_failure", "attempts"] ?_ rfl
  refine tableFields_cons rfl rfl (attempts (depth + 1)) ?_
  refine tableFields_cons rfl rfl (bool_reads options.failParentOnFailure (depth + 1)) ?_
  rfl

theorem JobOptions.wellFormed_standard : JobOptions.standard.WellFormed := nofun

theorem JobOptions.decoder_yields : JobOptions.decoder.Yields JobOptions.WellFormed := by
  refine record_yields JobOptions.wellFormed_standard ⟨?_, ?_, trivial⟩
  · exact Field.keeps_of (yields_trivial _) fun _ _ wellFormed _ => wellFormed
  · exact Field.keeps_of (optional_yields (natural_yields _ _)) fun _ _ _ attempts => attempts

theorem JobOptions.lossless :
    Lossless JobOptions.toJson JobOptions.decoder JobOptions.WellFormed :=
  lossless_of_reads (fun _ wellFormed => JobOptions.reads_toJson wellFormed)
    JobOptions.decoder_yields

namespace Flow

mutual

/-- The data of all jobs of a flow is canonical, and their options are well-formed. -/
def WellFormed : Flow → Prop
  | ⟨_, _, data, options, children⟩ =>
      data.Canonical ∧ options.WellFormed ∧ AllWellFormed children

/-- All of several flows are well-formed. -/
def AllWellFormed : List Flow → Prop
  | [] => True
  | flow :: rest => WellFormed flow ∧ AllWellFormed rest

end

theorem allWellFormed_iff (flows : List Flow) :
    AllWellFormed flows ↔ ∀ flow ∈ flows, flow.WellFormed := by
  induction flows with
  | nil => simp [AllWellFormed]
  | cons flow rest ih => simp [AllWellFormed, ih]

theorem wellFormed_iff (flow : Flow) : flow.WellFormed ↔ flow.data.Canonical ∧
    flow.options.WellFormed ∧ ∀ child ∈ flow.children, child.WellFormed := by
  cases flow
  rw [← allWellFormed_iff]
  exact Iff.rfl

theorem toJsons_eq_map (flows : List Flow) : toJsons flows = flows.map toJson := by
  induction flows with
  | nil => rfl
  | cons flow rest ih => rw [toJsons, ih, List.map_cons]

/-- A flow is read back if the reader goes as deep as its document does. -/
theorem reads_within {height : Nat} : ∀ {flow : Flow}, flow.WellFormed →
    (Document.ofJson flow.toJson).height < height →
    (decoderWithin height).Reads flow.toJson flow := by
  induction height with
  | zero => exact fun _ low => absurd low (Nat.not_lt_zero _)
  | succ height ih =>
      intro flow wellFormed low depth
      obtain ⟨name, queueName, payload, options, children⟩ := flow
      obtain ⟨canonical, optionsFit, below⟩ := (wellFormed_iff _).1 wellFormed
      simp only [toJson, toJsons_eq_map, Document.ofJson, Document.ofMembers, Document.height,
        Document.heightEntries] at low
      have all : (list (decoderWithin height)).Reads (.array (children.map toJson)) children :=
        list_reads_within (by omega) fun child member => ih (below child member)
      rw [toJson, toJsons_eq_map]
      refine record_table ["queue_name", "opts", "name", "data", "children"] ?_ rfl
      refine tableFields_cons rfl rfl (all (depth + 1)) ?_
      refine tableFields_cons rfl rfl (json_reads canonical (depth + 1)) ?_
      refine tableFields_cons rfl rfl (string_reads name (depth + 1)) ?_
      refine tableFields_cons rfl rfl (JobOptions.reads_toJson optionsFit (depth + 1)) ?_
      refine tableFields_cons rfl rfl (string_reads queueName (depth + 1)) ?_
      rfl

theorem decoderWithin_yields (height : Nat) : (decoderWithin height).Yields WellFormed := by
  induction height with
  | zero => exact fun _ _ _ read => nomatch read
  | succ height ih =>
      have parts : (decoderWithin (height + 1)).Yields fun flow => flow.data.Canonical ∧
          flow.options.WellFormed ∧ ∀ child ∈ flow.children, child.WellFormed := by
        refine record_yields ⟨Json.canonical_null, JobOptions.wellFormed_standard, nofun⟩
          ⟨?name, ?queueName, ?data, ?options, ?children, trivial⟩
        case data =>
          exact Field.keeps_of json_yields fun _ _ ⟨_, options, children⟩ data =>
            ⟨data, options, children⟩
        case options =>
          exact Field.keeps_of JobOptions.decoder_yields fun _ _ ⟨data, _, children⟩ options =>
            ⟨data, options, children⟩
        case children =>
          exact Field.keeps_of (list_yields ih) fun _ _ ⟨data, options, _⟩ children =>
            ⟨data, options, children⟩
        all_goals exact Field.keeps_of (yields_trivial _) fun _ _ wellFormed _ => wellFormed
      exact fun place document flow read => (wellFormed_iff flow).2 (parts place document flow read)

theorem reads_toJson {flow : Flow} (wellFormed : flow.WellFormed) :
    decoder.Reads flow.toJson flow := by
  intro depth
  rw [decoder]
  exact reads_within wellFormed (Nat.lt_succ_self _) depth

theorem decoder_yields : decoder.Yields WellFormed := by
  intro place document flow read
  rw [decoder] at read
  exact decoderWithin_yields _ place document flow read

theorem lossless : Lossless toJson decoder WellFormed :=
  lossless_of_reads (fun _ wellFormed => reads_toJson wellFormed) decoder_yields

end Flow

/-! ## Job states and events -/

theorem JobState.reads_toJson (state : JobState) : JobState.decoder.Reads state.toJson state := by
  intro depth
  cases state <;> rfl

theorem JobState.lossless : Lossless JobState.toJson JobState.decoder fun _ => True :=
  lossless_of_reads_all JobState.reads_toJson

theorem JobSnapshot.reads_toJson (snapshot : JobSnapshot) :
    JobSnapshot.decoder.Reads snapshot.toJson snapshot := by
  intro depth
  have reason : (Decoder.optional string).Reads (.ofOption (snapshot.failedReason.map .string))
      snapshot.failedReason :=
    optional_reads fun reason _ => ⟨string_reads reason, nofun⟩
  refine record_table ["state", "queue_name", "name", "id", "failed_reason"] ?_ rfl
  refine tableFields_cons rfl rfl (reason (depth + 1)) ?_
  refine tableFields_cons rfl rfl (string_reads snapshot.id (depth + 1)) ?_
  refine tableFields_cons rfl rfl (string_reads snapshot.name (depth + 1)) ?_
  refine tableFields_cons rfl rfl (string_reads snapshot.queueName (depth + 1)) ?_
  refine tableFields_cons rfl rfl (snapshot.state.reads_toJson (depth + 1)) ?_
  rfl

theorem JobSnapshot.lossless : Lossless JobSnapshot.toJson JobSnapshot.decoder fun _ => True :=
  lossless_of_reads_all JobSnapshot.reads_toJson

namespace JobTree

theorem toJsons_eq_map (trees : List JobTree) : toJsons trees = trees.map toJson := by
  induction trees with
  | nil => rfl
  | cons tree rest ih => rw [toJsons, ih, List.map_cons]

/-- A tree is read back if the reader goes as deep as its document does. -/
theorem reads_within {height : Nat} : ∀ {tree : JobTree},
    (Document.ofJson tree.toJson).height < height →
    (decoderWithin height).Reads tree.toJson tree := by
  induction height with
  | zero => exact fun low => absurd low (Nat.not_lt_zero _)
  | succ height ih =>
      intro tree low depth
      obtain ⟨snapshot, children⟩ := tree
      simp only [toJson, toJsons_eq_map, Document.ofJson, Document.ofMembers, Document.height,
        Document.heightEntries] at low
      have all : (list (decoderWithin height)).Reads (.array (children.map toJson)) children :=
        list_reads_within (by omega) fun child _ => ih
      rw [toJson, toJsons_eq_map]
      refine record_table ["job", "children"] ?_ rfl
      refine tableFields_cons rfl rfl (all (depth + 1)) ?_
      refine tableFields_cons rfl rfl (snapshot.reads_toJson (depth + 1)) ?_
      rfl

theorem reads_toJson (tree : JobTree) : decoder.Reads tree.toJson tree := by
  intro depth
  rw [decoder]
  exact reads_within (Nat.lt_succ_self _) depth

theorem lossless : Lossless toJson decoder fun _ => True := lossless_of_reads_all reads_toJson

end JobTree

theorem QueueEvent.reads_toJson (event : QueueEvent) :
    QueueEvent.decoder.Reads event.toJson event := by
  intro depth
  cases event <;> rfl

theorem QueueEvent.lossless : Lossless QueueEvent.toJson QueueEvent.decoder fun _ => True :=
  lossless_of_reads_all QueueEvent.reads_toJson

theorem WorkflowStatus.reads_toJson (status : WorkflowStatus) :
    WorkflowStatus.decoder.Reads status.toJson status := by
  intro depth
  cases status <;> rfl

theorem WorkflowStatus.lossless :
    Lossless WorkflowStatus.toJson WorkflowStatus.decoder fun _ => True :=
  lossless_of_reads_all WorkflowStatus.reads_toJson

/-! ## All formats -/

/-- What is written is read back unchanged.  A value is well-formed if its counts fit their
widths and its free-form parts list the members of their objects in key order; types that
have neither counts nor free-form parts have no other values. -/
structure WireFormats : Prop where
  task : Lossless Task.toJson Task.decoder Task.WellFormed
  stepData : Lossless StepData.toJson StepData.decoder StepData.WellFormed
  result : Lossless StepResult.toJson StepResult.decoder StepResult.WellFormed
  envelope : Lossless Envelope.toJson Envelope.decoder Envelope.WellFormed
  routing : Lossless Routing.toJson Routing.decoder fun _ => True
  settings : Lossless QueueSettings.toJson QueueSettings.decoder QueueSettings.WellFormed
  options : Lossless JobOptions.toJson JobOptions.decoder JobOptions.WellFormed
  flow : Lossless Flow.toJson Flow.decoder Flow.WellFormed
  state : Lossless JobState.toJson JobState.decoder fun _ => True
  snapshot : Lossless JobSnapshot.toJson JobSnapshot.decoder fun _ => True
  tree : Lossless JobTree.toJson JobTree.decoder fun _ => True
  event : Lossless QueueEvent.toJson QueueEvent.decoder fun _ => True
  status : Lossless WorkflowStatus.toJson WorkflowStatus.decoder fun _ => True
  /-- The definition in a stored record decodes to the tasks that were submitted. -/
  definition : ∀ now id added tasks,
    (RecordStore.recordOf now (Submission.newRecord id added tasks)).definition.decode
      Task.listDecoder = .ok tasks ↔ ∀ task ∈ tasks, task.WellFormed
  /-- The envelope that a step returns is read unchanged by the step above it. -/
  forwarded : ∀ (envelope : Envelope) (key : String), envelope.WellFormed →
    Ancestors.ofChildren (Dict.empty.insert key envelope.toJson) = Ancestors.none.absorb envelope

/-- All formats are read back as they were written, for values with any texts, any payloads and
any nesting. -/
theorem wire_formats_lossless : WireFormats where
  task := Task.lossless
  stepData := StepData.lossless
  result := StepResult.lossless
  envelope := Envelope.lossless
  routing := Routing.lossless
  settings := QueueSettings.lossless
  options := JobOptions.lossless
  flow := Flow.lossless
  state := JobState.lossless
  snapshot := JobSnapshot.lossless
  tree := JobTree.lossless
  event := QueueEvent.lossless
  status := WorkflowStatus.lossless
  definition _ _ _ tasks := Task.lossless_list.readsBack tasks
  forwarded _ key wellFormed := Ancestors.ofChildren_single wellFormed key

end Relay
