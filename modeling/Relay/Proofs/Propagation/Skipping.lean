import Relay.Proofs.Propagation.Determinism

/-!
# Asking to skip spreads along the fathers

A handler can ask the dependents of its step to skip.  A step that is shown such a result
does no work and asks in turn, so the request travels down the graph.  The chain of the
workflow runs steps right after one another that have nothing to do with each other, and the
envelope of a step that skips is handed to whatever comes next.  Still, a step skips exactly
if it is one that asks, or one from which following fathers leads to one that asks.

The argument goes down the graph, over results that explain each other.  The run of the chain
only has to be explained by them.
-/

namespace Relay

/-! ## Handlers that always answer -/

theorem Handler.canonical_answer {value : Json} (canonical : value.Canonical)
    (context : StepContext) (visible : Results) :
    (Handler.answer value context visible).data.Canonical := by
  unfold Handler.answer
  split
  · exact Json.canonical_null
  · refine Json.canonical_ofDict fun entry member => ?_
    have found := (Dict.get?_eq_some_iff _ entry.1 entry.2).2 member
    rw [Dict.get?_ofList] at found
    rcases List.mem_cons.1 (List.mem_reverse.1 (Dict.mem_of_lookup found)) with named | returned
    · rw [show entry.2 = .string context.taskName from congrArg Prod.snd named]
      exact Json.canonical_string _
    · cases value with
      | object members => exact ((Json.canonical_object_iff members).1 canonical).2 _ returned
      | _ => exact absurd returned List.not_mem_nil

namespace Behaviour

/-- The behaviours that never fail: to ask the dependents to skip, and two ways of working. -/
inductive Reliable : Behaviour → Prop
  | passthrough : Reliable .passthrough
  | returning {value : Json} (canonical : value.Canonical) : Reliable (.returning value)
  | skipping : Reliable .skipping

/-- The answer of a behaviour that never fails. -/
def reply (context : StepContext) (visible : Results) : Behaviour → StepResult
  | .passthrough => Handler.echo context visible
  | .returning value => Handler.answer value context visible
  | _ => .skip .null

/-- What the work of a task gives if nothing makes it skip. -/
def product? (task : Task) : Behaviour → Option Json
  | .passthrough => some (.object [("payload", task.payload), ("task", .string task.name),
      ("upstream", Json.ofStrings (sortedSet task.fathers))])
  | .returning value =>
      some (.record (("task", .string task.name) :: Handler.membersOf value))
  | _ => none

variable {behaviour : Behaviour} {context : StepContext} {visible : Results}

theorem Reliable.handle {handler : Handler} (reliable : handler.behaviour.Reliable)
    (earlier : Nat) (context : StepContext) (visible : Results) :
    handler.handle earlier context visible = .ok (handler.behaviour.reply context visible) := by
  rw [Handler.handle]
  generalize handler.behaviour = behaviour at reliable ⊢
  cases reliable <;> rfl

theorem Reliable.canonical_reply (reliable : behaviour.Reliable)
    (canonical : context.payload.Canonical) :
    (behaviour.reply context visible).data.Canonical := by
  cases reliable with
  | passthrough => exact Handler.canonical_echo canonical visible
  | returning valueCanonical => exact Handler.canonical_answer valueCanonical context visible
  | skipping => exact Json.canonical_null

/-- An answer asks to skip if its handler always does, or if it was shown one that asks. -/
theorem Reliable.skipNextStep_reply (reliable : behaviour.Reliable) :
    (behaviour.reply context visible).skipNextStep = true ↔
      behaviour = .skipping ∨ visible.shouldSkip = true := by
  cases reliable <;> cases asked : visible.shouldSkip <;>
    simp [reply, Handler.echo, Handler.answer, asked, StepResult.skip, StepResult.proceed]

/-- An answer that does not ask to skip is the work of its task. -/
theorem Reliable.product?_of_reply (reliable : behaviour.Reliable) {task : Task}
    (fathers : visible.keys = sortedSet task.fathers)
    (proceeds : (behaviour.reply ⟨task.name, task.payload⟩ visible).skipNextStep ≠ true) :
    behaviour.product? task = some (behaviour.reply ⟨task.name, task.payload⟩ visible).data := by
  have unasked : visible.shouldSkip ≠ true := fun asked =>
    proceeds (reliable.skipNextStep_reply.2 (.inr asked))
  cases reliable with
  | passthrough => simp [product?, reply, Handler.echo, unasked, fathers, StepResult.proceed]
  | returning => simp [product?, reply, Handler.answer, unasked, StepResult.proceed]
  | skipping => exact absurd rfl proceeds

end Behaviour

namespace Registry

variable {registry state : Registry} {task : Task} {behaviour : Behaviour} {key : String}

/-- The handlers in the order of their registration, without the calls that are kept. -/
def kinds (registry : Registry) : List Handler := registry.registrations.map Registration.handler

/-- The step of a task is answered by a handler of the given behaviour. -/
def Serves (registry : Registry) (task : Task) (behaviour : Behaviour) : Prop :=
  ∃ registration, registry.resolve (handlerKey task.type task.payload) = .ok registration ∧
    registration.handler.behaviour = behaviour

theorem Serves.eq {other : Behaviour} (serves : registry.Serves task behaviour)
    (also : registry.Serves task other) : behaviour = other := by
  obtain ⟨registration, resolved, rfl⟩ := serves
  obtain ⟨same, alsoResolved, rfl⟩ := also
  obtain rfl : registration = same := Except.ok.inj (resolved.symm.trans alsoResolved)
  rfl

theorem position?_eq (registry : Registry) (key : String) : registry.position? key =
    (registry.kinds.zipIdx.reverse.find? fun entry => entry.1.key == key).map Prod.snd := by
  simp [position?, kinds, List.zipIdx_map, ← List.map_reverse, List.find?_map]
  rfl

/-- Which handler answers to a key does not depend on the calls that were made before. -/
theorem resolve_of_kinds (same : state.kinds = registry.kinds) {registration : Registration}
    (resolved : registry.resolve key = .ok registration) :
    ∃ calls, state.resolve key = .ok ⟨registration.handler, calls⟩ := by
  have position : state.position? key = registry.position? key := by
    rw [position?_eq, position?_eq, same]
  simp only [resolve, position] at resolved ⊢
  cases found : registry.position? key with
  | none => simp [found] at resolved
  | some index =>
      have alike : (state.registrations[index]?).map Registration.handler =
          (registry.registrations[index]?).map Registration.handler := by
        simpa only [kinds, List.getElem?_map] using congrArg (·[index]?) same
      cases own : registry.registrations[index]? with
      | none => simp [found, own] at resolved
      | some entry =>
          obtain rfl : entry = registration := by simpa [found, own] using resolved
          rw [own, Option.map_some, Option.map_eq_some_iff] at alike
          obtain ⟨other, there, handler⟩ := alike
          exact ⟨other.calls, by simp [there, ← handler]⟩

theorem kinds_recordCall (registry : Registry) (key : String) (call : HandlerCall) :
    (registry.recordCall key call).kinds = registry.kinds := by
  unfold recordCall
  split
  · apply List.ext_getElem?
    intro index
    simp only [kinds, List.getElem?_map, List.getElem?_modify]
    split
    · cases registry.registrations[index]? <;> rfl
    · cases registry.registrations[index]? <;> rfl
  · rfl

/-- A call of a handler that never fails is answered in the same way whatever was asked of
the registry before. -/
theorem call_of_kinds (same : state.kinds = registry.kinds) {registration : Registration}
    (resolved : registry.resolve key = .ok registration)
    (reliable : registration.handler.behaviour.Reliable) (context : StepContext)
    (visible : Results) :
    ∃ after, after.kinds = registry.kinds ∧ state.call key context visible =
      (.ok (registration.handler.behaviour.reply context visible), after) := by
  obtain ⟨calls, present⟩ := resolve_of_kinds same resolved
  refine ⟨_, (kinds_recordCall state key ⟨context.taskName, visible⟩).trans same, ?_⟩
  rw [call, present]
  exact congrArg (·, _) (reliable.handle calls.length context visible)

/-- The work of the handlers of a registry, as far as they never fail. -/
def work (registry : Registry) : Work := fun _ taskName taskType _ payload visible =>
  match registry.resolve (handlerKey taskType payload) with
  | .ok registration => registration.handler.behaviour.reply ⟨taskName, payload⟩ visible
  | .error _ => .skip .null

theorem Serves.work_on (serves : registry.Serves task behaviour) (workflowId : Uuid)
    (visible : Results) : registry.work.on workflowId task visible =
      behaviour.reply ⟨task.name, task.payload⟩ visible := by
  obtain ⟨registration, resolved, rfl⟩ := serves
  simp [Work.on, work, resolved]

/-- Handlers that never fail do their work, whatever was asked of them before. -/
theorem Serves.performs (serves : registry.Serves task behaviour) (reliable : behaviour.Reliable)
    (canonical : task.payload.Canonical) (workflowId : Uuid) :
    Performs registry.handlers (fun state => state.kinds = registry.kinds) registry.work
      workflowId task := by
  have on := serves.work_on workflowId
  obtain ⟨registration, resolved, rfl⟩ := serves
  refine ⟨_, congrArg (Except.map _) resolved, fun jobId visible state _ same => ?_⟩
  obtain ⟨after, kept, called⟩ :=
    call_of_kinds same resolved reliable ⟨task.name, task.payload⟩ visible
  rw [on]
  exact ⟨after, called, reliable.canonical_reply canonical, kept⟩

end Registry

/-! ## Skipping -/

/-- A step asks to skip, or following fathers leads from it to one that does. -/
def Registry.Skips (registry : Registry) (tasks : List Task) (task : Task) : Prop :=
  ∃ source ∈ tasks, registry.Serves source .skipping ∧
    Relation.ReflTransGen (Graph.Lists tasks) source.name task.name

section Skipping

variable {registry : Registry} {tasks : List Task} {task : Task} {workflowId : Uuid}
  {results : String → Option StepResult} {visible : Results}

/-- A task skips if its own step asks to, or if one of its fathers skips. -/
theorem Registry.skips_iff (wellFormed : Graph.WellFormed tasks) (member : task ∈ tasks) :
    registry.Skips tasks task ↔ registry.Serves task .skipping ∨
      ∃ father ∈ tasks, father.name ∈ task.fathers ∧ registry.Skips tasks father := by
  constructor
  · rintro ⟨source, isTask, asks, reaches⟩
    rcases reaches.cases_tail with same | ⟨name, above, child, isChild, named, listed⟩
    · obtain rfl : task = source :=
        List.inj_on_of_nodup_map wellFormed.unique member isTask same
      exact .inl asks
    · obtain rfl : child = task :=
        List.inj_on_of_nodup_map wellFormed.unique isChild member named
      obtain ⟨father, isFather, rfl⟩ :=
        List.mem_map.1 (wellFormed.resolved child member name listed)
      exact .inr ⟨father, isFather, listed, source, isTask, asks, above⟩
  · rintro (asks | ⟨father, isTask, listed, source, isSource, asks, reaches⟩)
    · exact ⟨task, member, asks, .refl⟩
    · exact ⟨source, isSource, asks, reaches.tail ⟨task, member, rfl, listed⟩⟩

/-- What is shown asks to skip if the result of a father does. -/
theorem Results.Shows.shouldSkip_iff (shows : visible.Shows results task.fathers) :
    visible.shouldSkip = true ↔
      ∃ father ∈ task.fathers, ∃ result, results father = some result ∧
        result.skipNextStep = true := by
  rw [Results.shouldSkip, List.any_eq_true]
  constructor
  · rintro ⟨result, shown, asks⟩
    obtain ⟨father, found⟩ := (Dict.mem_values_iff _ _).1 shown
    rw [shows] at found
    split at found
    · next listed => exact ⟨father, listed, result, found, asks⟩
    · cases found
  · rintro ⟨father, listed, result, found, asks⟩
    exact ⟨result, (Dict.mem_values_iff _ _).2 ⟨father, by rw [shows, if_pos listed, found]⟩, asks⟩

/-- Where all fathers have a result, exactly their names are shown. -/
theorem Results.Shows.keys_eq (shows : visible.Shows results task.fathers)
    (complete : ∀ father ∈ task.fathers, (results father).isSome) :
    visible.keys = sortedSet task.fathers := by
  apply Dict.keys_eq_of_mem_iff
  intro name
  change _ ↔ name ∈ sortedSet task.fathers
  rw [Dict.mem_keys_iff, shows name, mem_sortedSet]
  split
  · next listed => exact iff_of_true (Option.isSome_iff_exists.1 (complete name listed)) listed
  · next unlisted => simp [unlisted]

theorem Explains.isSome (explains : Explains registry.work workflowId tasks results)
    (wellFormed : Graph.WellFormed tasks) (member : task ∈ tasks) {father : String}
    (listed : father ∈ task.fathers) : (results father).isSome := by
  obtain ⟨fatherTask, isTask, rfl⟩ :=
    List.mem_map.1 (wellFormed.resolved task member father listed)
  obtain ⟨visible, -, explained⟩ := explains fatherTask isTask
  exact Option.isSome_of_eq_some explained

/-- Of results that the graph explains, exactly those of tasks that skip ask to skip. -/
theorem Explains.skipNextStep_iff (explains : Explains registry.work workflowId tasks results)
    (wellFormed : Graph.WellFormed tasks)
    (reliable : ∀ task ∈ tasks, ∃ behaviour, registry.Serves task behaviour ∧ behaviour.Reliable)
    (member : task ∈ tasks) {result : StepResult} (found : results task.name = some result) :
    result.skipNextStep = true ↔ registry.Skips tasks task := by
  -- Following fathers comes to an end, so the induction is on what lies above a task.
  have accessible := wellFormed.acyclic task member
  generalize named : task.name = name at accessible found
  induction accessible generalizing task result with
  | intro name _ ih =>
      subst named
      obtain ⟨visible, shows, explained⟩ := explains task member
      obtain ⟨behaviour, serves, isReliable⟩ := reliable task member
      obtain rfl : registry.work.on workflowId task visible = result :=
        Option.some.inj (explained.symm.trans found)
      have asks : behaviour = .skipping ↔ registry.Serves task .skipping :=
        ⟨fun same => same ▸ serves, fun also => serves.eq also⟩
      have above : ∀ father ∈ tasks, father.name ∈ task.fathers →
          Graph.IsFather tasks father.name task.name := by
        intro father _ listed
        rwa [Graph.IsFather, Graph.fathersOf_eq wellFormed.unique member]
      rw [serves.work_on, isReliable.skipNextStep_reply, asks, shows.shouldSkip_iff,
        Registry.skips_iff wellFormed member]
      apply or_congr_right
      constructor
      · rintro ⟨father, listed, result, resultFound, skips⟩
        obtain ⟨fatherTask, isTask, rfl⟩ :=
          List.mem_map.1 (wellFormed.resolved task member father listed)
        exact ⟨fatherTask, isTask, listed,
          (ih _ (above fatherTask isTask listed) isTask rfl resultFound).1 skips⟩
      · rintro ⟨father, isTask, listed, skips⟩
        obtain ⟨result, resultFound⟩ :=
          Option.isSome_iff_exists.1 (explains.isSome wellFormed member listed)
        exact ⟨father.name, listed, result, resultFound,
          (ih _ (above father isTask listed) isTask rfl resultFound).2 skips⟩

end Skipping

/-- What the run of a chain gives for one of its tasks. -/
structure Registry.Resulted (registry : Registry) (tasks : List Task) (calls : List Invocation)
    (last : Envelope) (task : Task) (visible : Results) (result : StepResult) : Prop where
  /-- The handler of the step was called once, was shown the results of the fathers, and gave
  the result. -/
  gave : Invocation.Gave calls task.name visible result
  shown : visible.Shows (Invocation.resultOf calls) task.fathers
  /-- The last envelope carries the result. -/
  carried : last.ancestors.get? task.name = some result
  /-- It asks to skip exactly if the task is one that skips. -/
  skips : result.skipNextStep = true ↔ registry.Skips tasks task
  /-- Otherwise it is the result of the normal work of the task. -/
  works : ¬ registry.Skips tasks task →
    ∃ behaviour, registry.Serves task behaviour ∧ behaviour.product? task = some result.data

/-- Asking to skip spreads exactly along the fathers.  The steps of a valid workflow resolve to
handlers that always ask to skip, that echo or that return a value, whatever these were asked
before.  Then the chain can be run.  The result of a task asks to skip if and only if its step
is one that does, or following fathers leads from it to such a step; every other task does its
normal work. -/
theorem skip_spreads_exactly {registry : Registry} {tasks : List Task} (workflowId : Uuid)
    (routing : Routing) (valid : Graph.validate tasks = .ok ())
    (canonical : ∀ task ∈ tasks, task.payload.Canonical)
    (reliable : ∀ task ∈ tasks, ∃ behaviour,
      registry.Serves task behaviour ∧ behaviour.Reliable) :
    ∃ chain, Submission.chainOf routing workflowId tasks = .ok chain ∧
      ∀ visits : List Visit, visits.map Visit.node = chain.spine.reverse →
      ∀ state : Registry, state.kinds = registry.kinds →
      ∃ calls last, Visit.Completes registry.handlers visits state calls last ∧
        ∀ task ∈ tasks, ∃ visible result,
          registry.Resulted tasks calls last task visible result := by
  have wellFormed := Graph.wellFormed_of_validate valid
  have performs : ∀ task ∈ tasks, Performs registry.handlers
      (fun state => state.kinds = registry.kinds) registry.work workflowId task := by
    intro task member
    obtain ⟨behaviour, serves, isReliable⟩ := reliable task member
    exact serves.performs isReliable (canonical task member) workflowId
  obtain ⟨chain, compiled, run⟩ := exists_determined routing valid canonical performs
  refine ⟨chain, compiled, fun visits nodes state same => ?_⟩
  obtain ⟨calls, last, completes, determined⟩ := run visits nodes state same
  refine ⟨calls, last, completes, fun task member => ?_⟩
  obtain ⟨visible, shown, gave⟩ := determined.gave task member
  have explains := determined.explains
  have skips := explains.skipNextStep_iff wellFormed reliable member gave.resultOf
  refine ⟨visible, _, gave, shown, (determined.carried task.name).trans gave.resultOf, skips,
    fun proceeds => ?_⟩
  obtain ⟨behaviour, serves, isReliable⟩ := reliable task member
  rw [serves.work_on] at skips ⊢
  exact ⟨behaviour, serves, isReliable.product?_of_reply
    (shown.keys_eq fun father => explains.isSome wellFormed member) (proceeds ∘ skips.1)⟩

/-- One step asks to skip; one of the others depends on it, one does not. -/
def Sample.newsroom : List Task :=
  [Task.plain "save" "save",
    { Task.plain "censor" "llm" with
      fathers := ["save"], payload := .object [("target", .string "censor")] },
    { Task.plain "update" "update" with fathers := ["censor"] },
    { Task.plain "summary" "llm" with fathers := ["save"] }]

/-- Handlers for the newsroom. -/
def Sample.newsroomHandlers : Registry :=
  .ofList [⟨"save", .returning (.object [("id", .ofNat 1)]), 0⟩, ⟨"llm:censor", .skipping, 0⟩,
    ⟨"update", .passthrough, 0⟩, ⟨"llm", .returning (.string "text"), 0⟩]

theorem skip_spreads_exactly_newsroom :
    ∃ chain, Submission.chainOf .standard (Uuid.ofNat 7) Sample.newsroom = .ok chain ∧
      ∀ visits : List Visit, visits.map Visit.node = chain.spine.reverse →
      ∀ state : Registry, state.kinds = Sample.newsroomHandlers.kinds →
      ∃ calls last, Visit.Completes Sample.newsroomHandlers.handlers visits state calls last ∧
        ∀ task ∈ Sample.newsroom, ∃ visible result,
          Sample.newsroomHandlers.Resulted Sample.newsroom calls last task visible result := by
  refine skip_spreads_exactly (Uuid.ofNat 7) .standard (by decide) ?_ ?_
  · simp [Sample.newsroom, Task.plain, Json.canonical_object_iff]
  · have returned : (Json.object [("id", .ofNat 1)]).Canonical := by
      simp [Json.canonical_object_iff, Json.ofNat]
    simp only [Sample.newsroom, List.forall_mem_cons]
    exact ⟨⟨_, ⟨_, rfl, rfl⟩, .returning returned⟩, ⟨_, ⟨_, rfl, rfl⟩, .skipping⟩,
      ⟨_, ⟨_, rfl, rfl⟩, .passthrough⟩, ⟨_, ⟨_, rfl, rfl⟩, .returning (Json.canonical_string _)⟩,
      fun _ member => absurd member List.not_mem_nil⟩

end Relay
