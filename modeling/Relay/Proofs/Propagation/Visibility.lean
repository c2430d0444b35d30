import Mathlib.Data.List.Induction
import Relay.Chain
import Relay.Graph.Order
import Relay.Graph.Validation
import Relay.Proofs.Decode.RoundTrip
import Relay.Proofs.Graph.Order
import Relay.Propagation

/-!
# Visibility in a chain

A chain hands every step the value of the one step before it.  The module follows
the nodes of a chain from the innermost outwards, each run on the value of the node
before it, and proves that every handler is nevertheless shown exactly the results
of the fathers of its step.  The invariant `Restored` says that the envelope of the
last step carries the results of all steps so far.
-/

namespace Relay

namespace Chain

theorem wrapAll_concat (workflowId : Uuid) (routing : Routing) (order : List Task) (task : Task) :
    wrapAll workflowId routing (order ++ [task]) =
      [wrap workflowId routing (wrapAll workflowId routing order) task] := by
  simp [wrapAll]

/-- From the innermost node outwards the nodes of a chain carry the data of the tasks in order. -/
theorem data_spineBelow_wrapAll (workflowId : Uuid) (routing : Routing) (order : List Task) :
    (Flow.spineBelow (wrapAll workflowId routing order)).reverse.map Flow.data =
      order.map fun task => (StepData.ofTask task workflowId).toJson := by
  induction order using List.reverseRecOn with
  | nil => rfl
  | append_singleton order task ih =>
      simp only [wrapAll_concat, Flow.spineBelow, wrap, Flow.spine, List.reverse_cons,
        List.map_append, ih, List.map_cons, List.map_nil]

/-- The nodes of the chain of tasks that can be compiled. -/
theorem compile_ok {workflowId : Uuid} {routing : Routing} {order : List Task}
    (nonempty : order ≠ []) :
    ∃ chain, compile order workflowId routing = .ok chain ∧
      chain.spine.reverse.map Flow.data =
        order.map fun task => (StepData.ofTask task workflowId).toJson := by
  have data := data_spineBelow_wrapAll workflowId routing order
  obtain ⟨before, task, rfl⟩ := (List.eq_nil_or_concat' order).resolve_left nonempty
  rw [wrapAll_concat] at data
  refine ⟨wrap workflowId routing (wrapAll workflowId routing before) task, ?_, data⟩
  rw [compile, wrapAll_concat]

end Chain

namespace Ancestors

theorem mem_filterMap_results (ancestors : Ancestors) (fathers : List String) (name : String)
    (result : StepResult) :
    (name, result) ∈ (fathers.filterMap fun father =>
        (ancestors.results.get? father).map fun result => (father, result)) ↔
      name ∈ fathers ∧ ancestors.results.get? name = some result := by
  simp only [List.mem_filterMap, Option.map_eq_some_iff, Prod.mk.injEq]
  constructor
  · rintro ⟨father, member, found, present, rfl, rfl⟩
    exact ⟨member, present⟩
  · rintro ⟨member, present⟩
    exact ⟨name, member, result, present, rfl, rfl⟩

/-- A father is visible exactly if it has a result. -/
theorem get?_visibleTo (ancestors : Ancestors) (fathers : List String) (name : String) :
    (ancestors.visibleTo fathers).get? name =
      if name ∈ fathers then ancestors.results.get? name else Option.none := by
  rw [visibleTo, Dict.get?_ofList]
  have described := mem_filterMap_results ancestors fathers name
  generalize (fathers.filterMap fun father =>
    (ancestors.results.get? father).map fun result => (father, result)) = shown at described
  cases found : shown.reverse.lookup name with
  | some result =>
      obtain ⟨member, present⟩ :=
        (described result).1 (List.mem_reverse.1 (Dict.mem_of_lookup found))
      rw [if_pos member, present]
  | none =>
      split
      · next member =>
          cases present : ancestors.results.get? name with
          | none => rfl
          | some result =>
              have listed := (described result).2 ⟨member, present⟩
              exact absurd (List.mem_reverse.2 listed) (Dict.lookup_eq_none_iff.1 found result)
      · rfl

/-- The one envelope among the children values of a step is taken over as it is. -/
theorem ofChildren_envelope {envelope : Envelope} {key : String}
    (canonical : ∀ entry ∈ envelope.ancestors.entries, entry.2.data.Canonical)
    (own : envelope.ancestors.get? envelope.name = some envelope.result) :
    (ofChildren (Dict.empty.insert key envelope.toJson)).results = envelope.ancestors := by
  have mine : envelope.result.data.Canonical :=
    canonical (envelope.name, envelope.result) ((Dict.get?_eq_some_iff _ _ _).1 own)
  have values : (Dict.empty.insert key envelope.toJson).values = [envelope.toJson] := rfl
  have read : envelope.toJson.decode Envelope.decoder = .ok envelope :=
    (Envelope.reads_toJson mine canonical).decode
  rw [ofChildren, values]
  simp only [List.filterMap_cons, read, Except.toOption, List.filterMap_nil, List.foldl_cons,
    List.foldl_nil, absorb]
  apply Dict.ext_get?
  intro name
  rw [Dict.get?_insertAll_entries, Dict.get?_insert]
  split
  · next same => rw [same, own, Option.some_or]
  · simp [Ancestors.none]

end Ancestors

/-! ## Running the nodes of a chain -/

/-- How a node of a chain is run: as which job, and under which key it is told the
value of the node before it. -/
structure Visit where
  node : Flow
  jobId : String
  childKey : String

namespace Visit

/-- The children values of a node: the value of the node before it, if there is one. -/
def childrenValues (visit : Visit) : Option Json → Dict Json
  | none => .empty
  | some value => Dict.empty.insert visit.childKey value

/-- Run nodes one after another, each on the value of the one before, until one fails. -/
def runAll {σ : Type} (handlers : Handlers σ) :
    List Visit → Option Json → σ → Except JobError (Option Json) × σ
  | [], last, state => (.ok last, state)
  | visit :: rest, last, state =>
      match Propagation.processWith handlers visit.jobId visit.node.data
          (visit.childrenValues last) state with
      | (.ok value, state) => runAll handlers rest (some value) state
      | (.error problem, state) => (.error problem, state)

end Visit

namespace Propagation

/-- A record of the calls changes nothing about a call. -/
theorem processWith_recording {σ : Type} (handlers : Handlers σ) (jobId : String) (data : Json)
    (children : Dict Json) (state : σ) (calls : List Invocation) :
    let plain := processWith handlers jobId data children state
    let recorded := processWith handlers.recording jobId data children (state, calls)
    recorded.1 = plain.1 ∧ recorded.2.1 = plain.2 := by
  cases decoded : decodeStep data with
  | error problem => simp [processWith, decoded]
  | ok step =>
      cases resolved : handlers.resolve (stepKey step) with
      | error problem => simp [processWith, decoded, Handlers.recording, resolved, Except.map]
      | ok handle =>
          simp only [processWith, decoded, Handlers.recording, resolved, Except.map,
            HandlerFunction.recording]
          generalize handle (context step jobId)
            ((Ancestors.ofChildren children).visibleTo step.fathers) state = reply
          obtain ⟨_ | _, after⟩ := reply <;> exact ⟨rfl, rfl⟩

theorem processWith_of_answer {σ : Type} {handlers : Handlers σ} {step : StepData}
    {handle : HandlerFunction σ} {state after : σ} {result : StepResult} {jobId : String}
    {data : Json} {children : Dict Json} (decoded : decodeStep data = .ok step)
    (resolved : handlers.resolve (stepKey step) = .ok handle)
    (answered : handle (context step jobId)
      ((Ancestors.ofChildren children).visibleTo step.fathers) state = (.ok result, after)) :
    processWith handlers jobId data children state =
      (.ok (envelope step (Ancestors.ofChildren children) result).toJson, after) := by
  simp only [processWith, decoded, resolved, answered]

theorem decodeStep_toJson {step : StepData} (canonical : step.payload.Canonical) :
    decodeStep step.toJson = .ok step := by
  rw [decodeStep, (StepData.reads_toJson canonical).decode]

end Propagation

/-- A record of the calls changes nothing about a run. -/
theorem Visit.runAll_recording {σ : Type} (handlers : Handlers σ) (visits : List Visit)
    (last : Option Json) (state : σ) (calls : List Invocation) :
    (runAll handlers.recording visits last (state, calls)).1 =
        (runAll handlers visits last state).1 ∧
      (runAll handlers.recording visits last (state, calls)).2.1 =
        (runAll handlers visits last state).2 := by
  induction visits generalizing last state calls with
  | nil => exact ⟨rfl, rfl⟩
  | cons visit rest ih =>
      have same := Propagation.processWith_recording handlers visit.jobId visit.node.data
        (visit.childrenValues last) state calls
      simp only [runAll]
      generalize Propagation.processWith handlers.recording visit.jobId visit.node.data
        (visit.childrenValues last) (state, calls) = recorded at same
      generalize Propagation.processWith handlers visit.jobId visit.node.data
        (visit.childrenValues last) state = plain at same
      obtain ⟨outcome, recordedState, recordedCalls⟩ := recorded
      obtain ⟨_, _⟩ := plain
      obtain ⟨rfl, rfl⟩ := same
      cases outcome with
      | error problem => exact ⟨rfl, rfl⟩
      | ok value => exact ih (some value) recordedState recordedCalls

/-! ## What the handlers are shown -/

namespace Invocation

/-- The result of the step of a name, going by the calls of the handlers. -/
def resultOf (calls : List Invocation) (name : String) : Option StepResult :=
  (calls.find? fun call => call.context.taskName == name).bind fun call => call.answer.toOption

/-- A call for another step leaves the result of a step alone. -/
theorem resultOf_concat_of_ne {calls : List Invocation} {call : Invocation} {name : String}
    (different : call.context.taskName ≠ name) :
    resultOf (calls ++ [call]) name = resultOf calls name := by
  have missed : (call.context.taskName == name) = false := by simpa using different
  simp only [resultOf, List.find?_append, List.find?_singleton, missed]
  simp

/-- The first call for a step gives its result. -/
theorem resultOf_concat_self {calls : List Invocation} {call : Invocation} {result : StepResult}
    (fresh : call.context.taskName ∉ calls.map fun call => call.context.taskName)
    (answered : call.answer = .ok result) :
    resultOf (calls ++ [call]) call.context.taskName = some result := by
  have missing : (calls.find? fun earlier =>
      earlier.context.taskName == call.context.taskName) = none := by
    rw [List.find?_eq_none]
    intro earlier member same
    exact fresh (List.mem_map.2 ⟨earlier, member, by simpa using same⟩)
  simp only [resultOf, List.find?_append, missing, List.find?_singleton]
  simp [answered, Except.toOption]

theorem mem_of_resultOf {calls : List Invocation} {name : String} {result : StepResult}
    (found : resultOf calls name = some result) :
    name ∈ calls.map fun call => call.context.taskName := by
  obtain ⟨call, first, -⟩ := Option.bind_eq_some_iff.1 found
  exact List.mem_map.2
    ⟨call, List.mem_of_find?_eq_some first, by simpa using List.find?_some first⟩

end Invocation

/-- A map holds results for some names and for no others. -/
def Results.HoldExactly (visible : Results) (names : List String) : Prop :=
  ∀ name, (visible.get? name).isSome = true ↔ name ∈ names

/-- A task whose handler is there and answers every call for the task with a result, if it is
shown the results of the fathers of the task and no others, and as long as the state of the
handlers is one that they allow, which they preserve. -/
def Answers {σ : Type} (handlers : Handlers σ) (allowed : σ → Prop) (workflowId : Uuid)
    (task : Task) : Prop :=
  ∃ handle, handlers.resolve (handlerKey task.type task.payload) = .ok handle ∧
    ∀ jobId (visible : Results) state, visible.HoldExactly task.fathers → allowed state →
      ∃ result after, handle (Propagation.context (.ofTask task workflowId) jobId) visible state =
        (.ok result, after) ∧ result.data.Canonical ∧ allowed after

/-- The handler of a task was called, shown the results of the fathers of the task and no others,
and has answered. -/
def Invocation.IsFor {σ : Type} (handlers : Handlers σ) (allowed : σ → Prop) (workflowId : Uuid)
    (task : Task) (call : Invocation) : Prop :=
  call.visible.HoldExactly task.fathers ∧ ∃ handle jobId state after,
    handlers.resolve (handlerKey task.type task.payload) = .ok handle ∧ allowed state ∧
    call.context = Propagation.context (.ofTask task workflowId) jobId ∧
    handle call.context call.visible state = (call.answer, after)

/-- What is known after the steps of some tasks.  `last` is the value of the last one. -/
structure Restored (workflowId : Uuid) (done : List Task) (visits : List Visit)
    (calls : List Invocation) (last : Option Json) : Prop where
  /-- Every step was run once, in order, and told of its own task. -/
  contexts : calls.map Invocation.context = List.zipWith
    (fun task visit => Propagation.context (.ofTask task workflowId) visit.jobId) done visits
  /-- Every step has a result. -/
  produced : ∀ call ∈ calls, ∃ result, call.answer = .ok result ∧
    Invocation.resultOf calls call.context.taskName = some result
  /-- The fathers of every step have run. -/
  fathersRan : ∀ task ∈ done, ∀ father ∈ task.fathers, father ∈ done.map Task.name
  /-- A step is shown the results of its fathers and nothing else. -/
  shown : ∀ task ∈ done, ∀ call ∈ calls, call.context.taskName = task.name → ∀ name,
    call.visible.get? name = if name ∈ task.fathers then Invocation.resultOf calls name else none
  /-- The last envelope carries the results of all steps. -/
  carried : ∀ value ∈ last, ∃ envelope : Envelope, value = envelope.toJson ∧
    (∀ entry ∈ envelope.ancestors.entries, entry.2.data.Canonical) ∧
    envelope.ancestors.get? envelope.name = some envelope.result ∧
    ∀ name, envelope.ancestors.get? name = Invocation.resultOf calls name
  /-- There is a last value unless no step has run. -/
  started : last = none → calls = []

namespace Restored

variable {σ : Type} {allowed : σ → Prop} {workflowId : Uuid} {done : List Task} {visits : List Visit}
  {calls : List Invocation} {last : Option Json}

theorem start (workflowId : Uuid) : Restored workflowId [] [] [] none where
  contexts := rfl
  produced := by simp
  fathersRan := by simp
  shown := by simp
  carried := by simp
  started := fun _ => rfl

theorem names (restored : Restored workflowId done visits calls last)
    (paired : visits.length = done.length) :
    (calls.map fun call => call.context.taskName) = done.map Task.name := by
  have same := congrArg (List.map fun context => context.taskName) restored.contexts
  rw [List.map_map] at same
  refine same.trans (List.ext_getElem (by simp [paired]) fun position _ _ => ?_)
  simp [Propagation.context, StepData.ofTask]

/-- Exactly the steps that have run have a result. -/
theorem isSome_resultOf_iff (restored : Restored workflowId done visits calls last)
    (paired : visits.length = done.length) (name : String) :
    (Invocation.resultOf calls name).isSome = true ↔ name ∈ done.map Task.name := by
  rw [← restored.names paired, Option.isSome_iff_exists]
  constructor
  · rintro ⟨result, found⟩
    exact Invocation.mem_of_resultOf found
  · intro member
    obtain ⟨call, isCall, rfl⟩ := List.mem_map.1 member
    obtain ⟨result, -, found⟩ := restored.produced call isCall
    exact ⟨result, found⟩

/-- What a step is told of the steps before it is the result of each of them. -/
theorem ancestors (restored : Restored workflowId done visits calls last) (visit : Visit) :
    let ancestors := Ancestors.ofChildren (visit.childrenValues last)
    (∀ name, ancestors.results.get? name = Invocation.resultOf calls name) ∧
      ∀ entry ∈ ancestors.results.entries, entry.2.data.Canonical := by
  cases last with
  | none =>
      rw [restored.started rfl]
      exact ⟨fun _ => rfl, by intro entry member; exact absurd member List.not_mem_nil⟩
  | some value =>
      obtain ⟨envelope, rfl, canonical, own, results⟩ := restored.carried value rfl
      simp only [Visit.childrenValues, Ancestors.ofChildren_envelope canonical own]
      exact ⟨results, canonical⟩

/-- Recording a result keeps the data of all results in canonical form. -/
theorem canonical_record {ancestors : Ancestors}
    (canonical : ∀ entry ∈ ancestors.results.entries, entry.2.data.Canonical) {name : String}
    {result : StepResult} (resultCanonical : result.data.Canonical) :
    ∀ entry ∈ (ancestors.record name result).results.entries, entry.2.data.Canonical := by
  intro entry member
  have found := (Dict.get?_eq_some_iff _ entry.1 entry.2).2 member
  simp only [Ancestors.record, Dict.get?_insert] at found
  split at found
  · cases found
    exact resultCanonical
  · exact canonical (entry.1, entry.2) ((Dict.get?_eq_some_iff _ _ _).1 found)

/-- One more call keeps the invariant if it was shown the results of its fathers. -/
theorem concat (restored : Restored workflowId done visits calls last)
    (paired : visits.length = done.length) {ancestors : Ancestors}
    (known : ∀ name, ancestors.results.get? name = Invocation.resultOf calls name)
    (canonical : ∀ entry ∈ ancestors.results.entries, entry.2.data.Canonical) {task : Task}
    (fresh : task.name ∉ done.map Task.name)
    (fathersRan : ∀ father ∈ task.fathers, father ∈ done.map Task.name) {result : StepResult}
    (resultCanonical : result.data.Canonical) (visit : Visit) :
    Restored workflowId (done ++ [task]) (visits ++ [visit])
      (calls ++ [⟨Propagation.context (.ofTask task workflowId) visit.jobId,
        ancestors.visibleTo task.fathers, .ok result⟩])
      (some (Propagation.envelope (.ofTask task workflowId) ancestors result).toJson) := by
  have names := restored.names paired
  generalize called : (⟨Propagation.context (.ofTask task workflowId) visit.jobId,
    ancestors.visibleTo task.fathers, .ok result⟩ : Invocation) = call
  have told : call.context.taskName = task.name := by rw [← called]; rfl
  have own : Invocation.resultOf (calls ++ [call]) task.name = some result := by
    rw [← told]
    exact Invocation.resultOf_concat_self (by rw [names, told]; exact fresh) (by rw [← called])
  have earlier : ∀ name, name ≠ task.name →
      Invocation.resultOf (calls ++ [call]) name = Invocation.resultOf calls name :=
    fun name different => Invocation.resultOf_concat_of_ne fun same => different (same ▸ told)
  have ran : ∀ name ∈ done.map Task.name, name ≠ task.name :=
    fun name member same => fresh (same ▸ member)
  have nameOf : ∀ old ∈ calls, old.context.taskName ∈ done.map Task.name := by
    intro old member
    rw [← names]
    exact List.mem_map_of_mem member
  constructor
  case contexts =>
    rw [List.map_append, restored.contexts, List.zipWith_append paired.symm, ← called]
    rfl
  case produced =>
    intro old member
    rcases List.mem_append.1 member with before | now
    · obtain ⟨produced, answer, found⟩ := restored.produced old before
      exact ⟨produced, answer, by rw [earlier _ (ran _ (nameOf old before)), found]⟩
    · rw [List.mem_singleton.1 now, told]
      exact ⟨result, by rw [← called], own⟩
  case fathersRan =>
    intro some member father isFather
    rw [List.map_append, List.mem_append]
    rcases List.mem_append.1 member with before | now
    · exact .inl (restored.fathersRan some before father isFather)
    · exact .inl (fathersRan father (List.mem_singleton.1 now ▸ isFather))
  case shown =>
    intro some member old oldMember same name
    have shown : old.visible.get? name =
        if name ∈ some.fathers then Invocation.resultOf calls name else none := by
      rcases List.mem_append.1 member with before | now <;>
        rcases List.mem_append.1 oldMember with oldBefore | oldNow
      · exact restored.shown some before old oldBefore same name
      · rw [List.mem_singleton.1 oldNow, told] at same
        exact absurd (List.mem_map_of_mem before) (same ▸ fresh)
      · rw [List.mem_singleton.1 now] at same
        exact absurd (same ▸ nameOf old oldBefore) fresh
      · rw [List.mem_singleton.1 now, List.mem_singleton.1 oldNow, ← called,
          Ancestors.get?_visibleTo, known]
    rw [shown]
    split
    · next isFather =>
        -- a father ran before, so the new call is not one for it
        refine (earlier name (ran name ?_)).symm
        rcases List.mem_append.1 member with before | now
        · exact restored.fathersRan some before name isFather
        · exact fathersRan name (List.mem_singleton.1 now ▸ isFather)
    · rfl
  case carried =>
    rintro value ⟨⟩
    refine ⟨_, rfl, canonical_record canonical resultCanonical, Dict.get?_insert_self _ _ _, ?_⟩
    intro name
    simp only [Propagation.envelope, Ancestors.record, Dict.get?_insert]
    split
    · next same => exact same ▸ own.symm
    · next different => rw [known, earlier name different]
  case started => exact fun none => absurd none (Option.some_ne_none _)

/-- If the fathers of a step have run, it is shown their results and no others. -/
theorem holdExactly_visibleTo (restored : Restored workflowId done visits calls last)
    (paired : visits.length = done.length) (visit : Visit) {fathers : List String}
    (fathersRan : ∀ father ∈ fathers, father ∈ done.map Task.name) :
    Results.HoldExactly ((Ancestors.ofChildren (visit.childrenValues last)).visibleTo fathers)
      fathers := by
  intro name
  rw [Ancestors.get?_visibleTo, (restored.ancestors visit).1]
  split
  · next isFather =>
      exact iff_of_true ((restored.isSome_resultOf_iff paired name).2 (fathersRan name isFather))
        isFather
  · next stranger => exact iff_of_false Bool.false_ne_true stranger

/-- Running one more step adds its result and shows it the results of its fathers. -/
theorem step (restored : Restored workflowId done visits calls last)
    (paired : visits.length = done.length) {handlers : Handlers σ} {task : Task} {visit : Visit}
    (canonical : task.payload.Canonical) (answers : Answers handlers allowed workflowId task)
    (fresh : task.name ∉ done.map Task.name)
    (fathersRan : ∀ father ∈ task.fathers, father ∈ done.map Task.name)
    (data : visit.node.data = (StepData.ofTask task workflowId).toJson) {state : σ}
    (permitted : allowed state) :
    ∃ value after call, allowed after ∧
      Propagation.processWith handlers.recording visit.jobId visit.node.data
        (visit.childrenValues last) (state, calls) = (.ok value, after, calls ++ [call]) ∧
      call.IsFor handlers allowed workflowId task ∧
      Restored workflowId (done ++ [task]) (visits ++ [visit]) (calls ++ [call]) (some value) := by
  obtain ⟨known, knownCanonical⟩ := restored.ancestors visit
  obtain ⟨handle, resolved, total⟩ := answers
  have resolved : handlers.resolve (Propagation.stepKey (.ofTask task workflowId)) = .ok handle :=
    resolved
  have exact := restored.holdExactly_visibleTo paired visit fathersRan
  obtain ⟨result, after, replied, resultCanonical, kept⟩ := total visit.jobId
    ((Ancestors.ofChildren (visit.childrenValues last)).visibleTo task.fathers) state exact
    permitted
  refine ⟨_, after, _, kept, ?_,
    ⟨exact, handle, visit.jobId, state, after, resolved, permitted, rfl, replied⟩,
    restored.concat paired known knownCanonical fresh fathersRan resultCanonical visit⟩
  rw [data]
  refine Propagation.processWith_of_answer (Propagation.decodeStep_toJson canonical)
    (congrArg (Except.map HandlerFunction.recording) resolved) ?_
  simp only [HandlerFunction.recording, StepData.ofTask] at replied ⊢
  rw [replied]

/-- Running the remaining steps, all of which have their fathers before them. -/
theorem run {handlers : Handlers σ} {rest : List Task} {restVisits : List Visit}
    (restored : Restored workflowId done visits calls last) (paired : visits.length = done.length)
    (canonical : ∀ task ∈ rest, task.payload.Canonical)
    (answers : ∀ task ∈ rest, Answers handlers allowed workflowId task)
    (unique : ((done ++ rest).map Task.name).Nodup)
    (fathersRan : ∀ before task after, done ++ rest = before ++ task :: after →
      ∀ father ∈ task.fathers, father ∈ before.map Task.name)
    (data : restVisits.map (fun visit => visit.node.data) =
      rest.map fun task => (StepData.ofTask task workflowId).toJson) {state : σ}
    (permitted : allowed state) :
    ∃ final after allCalls,
      Visit.runAll handlers.recording restVisits last (state, calls) =
        (.ok final, after, allCalls) ∧
      Restored workflowId (done ++ rest) (visits ++ restVisits) allCalls final ∧
      ∀ call ∈ allCalls, call ∈ calls ∨
        ∃ task ∈ rest, call.IsFor handlers allowed workflowId task := by
  induction rest generalizing done visits calls last restVisits state with
  | nil =>
      obtain rfl : restVisits = [] := List.map_eq_nil_iff.1 data
      exact ⟨last, state, calls, rfl, by simpa using restored, fun _ => .inl⟩
  | cons task rest ih =>
      obtain _ | ⟨visit, restVisits⟩ := restVisits
      · cases data
      obtain ⟨own, others⟩ := List.cons_eq_cons.1 data
      have fresh : task.name ∉ done.map Task.name := by
        rw [List.map_append, List.nodup_append] at unique
        exact fun again => unique.2.2 task.name again task.name (by simp) rfl
      obtain ⟨value, after, call, kept, stepped, isFor, restored⟩ := restored.step paired
        (canonical task List.mem_cons_self) (answers task List.mem_cons_self) fresh
        (fathersRan done task rest rfl) own permitted
      have joined : done ++ task :: rest = (done ++ [task]) ++ rest := by simp
      have joinedVisits : visits ++ visit :: restVisits = (visits ++ [visit]) ++ restVisits := by
        simp
      obtain ⟨final, finalState, allCalls, ran, restored, asked⟩ := ih restored (by simp [paired])
        (fun task member => canonical task (List.mem_cons_of_mem _ member))
        (fun task member => answers task (List.mem_cons_of_mem _ member)) (joined ▸ unique)
        (joined ▸ fathersRan) others kept
      refine ⟨final, finalState, allCalls, by rw [Visit.runAll, stepped]; exact ran,
        by rwa [joined, joinedVisits], fun one isOne => ?_⟩
      rcases asked one isOne with before | ⟨later, member, isForLater⟩
      · rcases List.mem_append.1 before with earlier | now
        · exact .inl earlier
        · exact .inr ⟨task, List.mem_cons_self, List.mem_singleton.1 now ▸ isFor⟩
      · exact .inr ⟨later, List.mem_cons_of_mem _ member, isForLater⟩

end Restored

/-- What the calls of a whole run and its last envelope have to be. -/
structure SeesExactlyFathers (workflowId : Uuid) (tasks order : List Task) (visits : List Visit)
    (calls : List Invocation) (last : Envelope) : Prop where
  /-- Every handler is called once for every step of its own, in order, and told of that step. -/
  contexts : calls.map Invocation.context = List.zipWith
    (fun task visit => Propagation.context (.ofTask task workflowId) visit.jobId) order visits
  /-- Every call gives the result of its step. -/
  produced : ∀ call ∈ calls, ∃ result, call.answer = .ok result ∧
    Invocation.resultOf calls call.context.taskName = some result
  /-- There are results for exactly the tasks. -/
  complete : ∀ name, (Invocation.resultOf calls name).isSome ↔ name ∈ tasks.map Task.name
  /-- No father is without a result. -/
  fathers : ∀ task ∈ tasks, ∀ father ∈ task.fathers, (Invocation.resultOf calls father).isSome
  /-- A step is shown the results of its fathers and of no other step. -/
  shown : ∀ task ∈ tasks, ∀ call ∈ calls, call.context.taskName = task.name → ∀ name,
    call.visible.get? name = if name ∈ task.fathers then Invocation.resultOf calls name else none
  /-- The last envelope carries the results of all steps. -/
  carried : ∀ name, last.ancestors.get? name = Invocation.resultOf calls name

/-- Visibility is restored exactly.  The nodes of the chain of a valid workflow are run from
the innermost outwards, each on the value of the one before it.  Then every run succeeds,
every step is shown the results of its fathers and of no other step, and the last envelope
carries the results of all steps. -/
theorem visibility_restored {σ : Type} {handlers : Handlers σ} {allowed : σ → Prop}
    {tasks : List Task} (workflowId : Uuid) (routing : Routing)
    (valid : Graph.validate tasks = .ok ())
    (canonical : ∀ task ∈ tasks, task.payload.Canonical)
    (answers : ∀ task ∈ tasks, Answers handlers allowed workflowId task) :
    ∃ order chain, Graph.order tasks = .ok order ∧
      Chain.compile order workflowId routing = .ok chain ∧
      ∀ visits : List Visit, visits.map Visit.node = chain.spine.reverse →
      ∀ state, allowed state → ∃ last after calls,
        Visit.runAll handlers.recording visits none (state, []) =
          (.ok (some last.toJson), after, calls) ∧
        SeesExactlyFathers workflowId tasks order visits calls last := by
  have wellFormed := Graph.wellFormed_of_validate valid
  obtain ⟨order, ordered, perm, fathersFirst⟩ := Graph.order_of_wellFormed wellFormed
  have nonempty : order ≠ [] := fun empty => wellFormed.nonempty (empty ▸ perm).nil_eq.symm
  obtain ⟨chain, compiled, data⟩ := @Chain.compile_ok workflowId routing order nonempty
  refine ⟨order, chain, ordered, compiled, fun visits nodes state permitted => ?_⟩
  have sameData : visits.map (fun visit => visit.node.data) =
      order.map fun task => (StepData.ofTask task workflowId).toJson := by
    rw [← data, ← nodes, List.map_map]
    rfl
  have paired : visits.length = order.length := by simpa using congrArg List.length sameData
  have unique : (order.map Task.name).Nodup := (perm.map Task.name).nodup_iff.2 wellFormed.unique
  obtain ⟨final, after, calls, ran, restored, -⟩ := (Restored.start workflowId).run rfl
    (fun task member => canonical task (perm.subset member))
    (fun task member => answers task (perm.subset member)) unique fathersFirst sameData permitted
  simp only [List.nil_append] at restored
  cases final with
  | none =>
      have names : (calls.map fun call => call.context.taskName) = order.map Task.name :=
        restored.names paired
      rw [restored.started rfl] at names
      exact absurd (List.map_eq_nil_iff.1 names.symm) nonempty
  | some value =>
      obtain ⟨last, rfl, -, -, carried⟩ := restored.carried value rfl
      have complete : ∀ name, (Invocation.resultOf calls name).isSome ↔
          name ∈ tasks.map Task.name := fun name =>
        (restored.isSome_resultOf_iff paired name).trans (perm.map Task.name).mem_iff
      exact ⟨last, after, calls, ran, restored.contexts, restored.produced, complete,
        fun task member father isFather =>
          (complete father).2 (wellFormed.resolved task member father isFather),
        fun task member => restored.shown task (perm.mem_iff.2 member), carried⟩

/-- A fork whose first task names its father twice. -/
def Sample.fork : List Task :=
  [{ Task.plain "left" "work" with fathers := ["root", "root"] },
    { Task.plain "right" "work" with fathers := ["root"], payload := .string "data" },
    Task.plain "root" "work"]

/-- Handlers that number their calls. -/
def Sample.counting : Handlers Nat where
  resolve _ := .ok fun _ _ count => (.ok (.proceed (.ofNat count)), count + 1)

theorem visibility_restored_fork :
    ∃ order chain, Graph.order Sample.fork = .ok order ∧
      Chain.compile order (Uuid.ofNat 7) .standard = .ok chain ∧
      ∀ visits : List Visit, visits.map Visit.node = chain.spine.reverse →
      ∀ state, True → ∃ last after calls,
        Visit.runAll Sample.counting.recording visits none (state, []) =
          (.ok (some last.toJson), after, calls) ∧
        SeesExactlyFathers (Uuid.ofNat 7) Sample.fork order visits calls last :=
  visibility_restored (Uuid.ofNat 7) .standard (by decide)
    (by simp [Sample.fork, Task.plain])
    (fun task _ => ⟨_, rfl, fun _ _ count _ _ => ⟨_, count + 1, rfl, trivial, trivial⟩⟩)

end Relay
