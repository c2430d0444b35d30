import Relay.Proofs.Workflow.Validation

/-!
# The graph determines the results

A chain runs the steps of a workflow in one order out of many, and every envelope in it
carries results of steps that have nothing to do with the next one.  Neither matters.  The
results of a run are explained by the graph alone: every task has the result of its work on
the results of its fathers.  Where following fathers comes to an end there is only one such
explanation, so runs of the same work agree task by task, and what a task shows depends on
the work above it and on nothing else.
-/

namespace Relay

/-- The work of handlers, as a function of what a handler is told about a step, apart from
the job that runs it, and of what it is shown. -/
def Work := (workflowId : Uuid) → (taskName taskType : String) → (track : Bool) →
  (payload : Json) → Results → StepResult

namespace Work

/-- The work for the step of a task. -/
def on (work : Work) (workflowId : Uuid) (task : Task) : Results → StepResult :=
  work workflowId task.name task.type task.track task.payload

end Work

/-- A task whose handler is there and does the given work, whichever job it is called for
and whatever it was called for before, if it is shown the results of the fathers of the task
and no others, and as long as the state of the handlers is one that they allow, which they
preserve. -/
def Performs {σ : Type} (handlers : Handlers σ) (allowed : σ → Prop) (work : Work)
    (workflowId : Uuid) (task : Task) : Prop :=
  ∃ handle, handlers.resolve (handlerKey task.type task.payload) = .ok handle ∧
    ∀ jobId (visible : Results) state, visible.HoldExactly task.fathers → allowed state →
      ∃ after, handle (Propagation.context (.ofTask task workflowId) jobId) visible state =
        (.ok (work.on workflowId task visible), after) ∧
      (work.on workflowId task visible).data.Canonical ∧ allowed after

/-- A map shows the results of some fathers and nothing else. -/
def Results.Shows (visible : Results) (results : String → Option StepResult)
    (fathers : List String) : Prop :=
  ∀ name, visible.get? name = if name ∈ fathers then results name else none

/-- The step of a name was called once; it was shown some results, and it gave one. -/
def Invocation.Gave (calls : List Invocation) (name : String) (visible : Results)
    (result : StepResult) : Prop :=
  ∃ context, calls.filter (fun call => call.context.taskName == name) =
    [⟨context, visible, .ok result⟩]

/-- The nodes of a chain, run one after another, all succeed, with the given calls of their
handlers and the given last envelope. -/
def Visit.Completes {σ : Type} (handlers : Handlers σ) (visits : List Visit) (state : σ)
    (calls : List Invocation) (last : Envelope) : Prop :=
  ∃ after, runAll handlers.recording visits none (state, []) =
    (.ok (some last.toJson), after, calls)

/-- Handlers that do the given work for every step. -/
def Work.handlers (work : Work) : Handlers Unit where
  resolve _ := .ok fun context visible state =>
    (.ok (work context.workflowId context.taskName context.taskType context.track
      context.payload visible), state)

theorem Work.performs {work : Work} {workflowId : Uuid} {task : Task}
    (canonical : ∀ visible : Results, visible.HoldExactly task.fathers →
      (work.on workflowId task visible).data.Canonical) :
    Performs work.handlers (fun _ => True) work workflowId task :=
  ⟨_, rfl, fun _ visible state exact _ => ⟨state, rfl, canonical visible exact, trivial⟩⟩

/-! ## Explanations -/

/-- Results that the graph explains: every task has the result of its work on the results
of its fathers. -/
def Explains (work : Work) (workflowId : Uuid) (tasks : List Task)
    (results : String → Option StepResult) : Prop :=
  ∀ task ∈ tasks, ∃ visible : Results, visible.Shows results task.fathers ∧
    results task.name = some (work.on workflowId task visible)

section Explanations

variable {work other : Work} {workflowId : Uuid} {tasks others : List Task}
  {results otherResults : String → Option StepResult}

/-- What is shown depends on the results of the fathers only. -/
theorem Results.Shows.eq {visible otherVisible : Results} {fathers : List String}
    (shows : visible.Shows results fathers) (alsoShows : otherVisible.Shows otherResults fathers)
    (same : ∀ father ∈ fathers, results father = otherResults father) :
    visible = otherVisible := by
  apply Dict.ext_get?
  intro name
  rw [shows, alsoShows]
  split
  · next isFather => exact same name isFather
  · rfl

/-- Two explanations agree on a name if the work is the same for it and for everything
above it. -/
theorem Explains.agree (explains : Explains work workflowId tasks results)
    (alsoExplains : Explains other workflowId others otherResults) (inside : tasks ⊆ others)
    (wellFormed : Graph.WellFormed tasks) {task : Task} (member : task ∈ tasks)
    (alike : ∀ above ∈ tasks, Relation.ReflTransGen (Graph.Lists tasks) above.name task.name →
      work.on workflowId above = other.on workflowId above) :
    results task.name = otherResults task.name := by
  -- The induction goes down the graph, where it comes to an end, and not along either run.
  have accessible := wellFormed.acyclic task member
  generalize named : task.name = name at accessible alike ⊢
  induction accessible generalizing task with
  | intro name _ ih =>
      subst named
      obtain ⟨visible, shows, result⟩ := explains task member
      obtain ⟨otherVisible, alsoShows, otherResult⟩ := alsoExplains task (inside member)
      have fathers : ∀ father ∈ task.fathers, results father = otherResults father := by
        intro father isFather
        obtain ⟨fatherTask, isTask, named⟩ :=
          List.mem_map.1 (wellFormed.resolved task member father isFather)
        have below : Graph.IsFather tasks father task.name := by
          rw [Graph.IsFather, Graph.fathersOf_eq wellFormed.unique member]
          exact isFather
        exact ih father below isTask named fun above isAbove reaches =>
          alike above isAbove (reaches.tail ⟨task, member, rfl, isFather⟩)
      rw [result, otherResult, shows.eq alsoShows fathers, alike task member .refl]

end Explanations

/-! ## Runs are explained -/

/-- A call was made for one of the tasks and answered by the work for it. -/
def Invocation.Worked (work : Work) (workflowId : Uuid) (tasks : List Task)
    (call : Invocation) : Prop :=
  ∃ task ∈ tasks, call.context.taskName = task.name ∧
    call.answer = .ok (work.on workflowId task call.visible)

section Runs

variable {σ : Type} {handlers : Handlers σ} {allowed : σ → Prop} {work : Work}
  {workflowId : Uuid} {tasks : List Task} {task : Task} {calls : List Invocation}

theorem Performs.answers (performs : Performs handlers allowed work workflowId task) :
    Answers handlers allowed workflowId task := by
  obtain ⟨handle, resolved, does⟩ := performs
  refine ⟨handle, resolved, fun jobId visible state exact permitted => ?_⟩
  obtain ⟨after, answered, canonical, kept⟩ := does jobId visible state exact permitted
  exact ⟨_, after, answered, canonical, kept⟩

/-- A call that the handler of a task has answered is answered by the work for the task. -/
theorem Performs.worked (performs : Performs handlers allowed work workflowId task)
    (member : task ∈ tasks) {call : Invocation}
    (isFor : call.IsFor handlers allowed workflowId task) :
    call.Worked work workflowId tasks := by
  obtain ⟨handle, resolved, does⟩ := performs
  obtain ⟨exact, again, jobId, state, after, alsoResolved, permitted, told, answered⟩ := isFor
  cases resolved.symm.trans alsoResolved
  obtain ⟨_, worked, -⟩ := does jobId call.visible state exact permitted
  rw [told, worked] at answered
  exact ⟨task, member, congrArg (fun context => context.taskName) told,
    (congrArg Prod.fst answered).symm⟩

/-- The result of a step that was called once. -/
theorem Invocation.Gave.resultOf {name : String} {visible : Results} {result : StepResult}
    (gave : Gave calls name visible result) : resultOf calls name = some result := by
  obtain ⟨context, only⟩ := gave
  have first := congrArg List.head? only
  rw [List.head?_filter, List.head?_cons] at first
  rw [Invocation.resultOf, first]
  rfl

/-- Where no name is called twice, a call is the only one of its name. -/
theorem Invocation.filter_eq_singleton
    (unique : (calls.map fun call => call.context.taskName).Nodup) {call : Invocation}
    (member : call ∈ calls) :
    calls.filter (fun other => other.context.taskName == call.context.taskName) = [call] := by
  induction calls with
  | nil => exact absurd member List.not_mem_nil
  | cons head rest ih =>
      obtain ⟨fresh, uniqueRest⟩ := List.nodup_cons.1 unique
      rcases List.mem_cons.1 member with rfl | later
      · have others : rest.filter (fun other =>
            other.context.taskName == call.context.taskName) = [] := by
          rw [List.filter_eq_nil_iff]
          intro other isOther same
          exact fresh (List.mem_map.2 ⟨other, isOther, by simpa using same⟩)
        rw [List.filter_cons_of_pos (by simp), others]
      · have different : head.context.taskName ≠ call.context.taskName := fun same =>
          fresh (List.mem_map.2 ⟨call, later, same.symm⟩)
        rw [List.filter_cons_of_neg (by simpa using different)]
        exact ih uniqueRest later

/-- What a run of the chain of some tasks has to show: every task was called once and did
its work on the results of its fathers, and the last envelope carries all results. -/
structure Determined (work : Work) (workflowId : Uuid) (tasks : List Task)
    (calls : List Invocation) (last : Envelope) : Prop where
  gave : ∀ task ∈ tasks, ∃ visible : Results,
    visible.Shows (Invocation.resultOf calls) task.fathers ∧
      Invocation.Gave calls task.name visible (work.on workflowId task visible)
  only : ∀ name, name ∉ tasks.map Task.name → Invocation.resultOf calls name = none
  carried : ∀ name, last.ancestors.get? name = Invocation.resultOf calls name

theorem Determined.explains {last : Envelope}
    (determined : Determined work workflowId tasks calls last) :
    Explains work workflowId tasks (Invocation.resultOf calls) := by
  intro task member
  obtain ⟨visible, shows, gave⟩ := determined.gave task member
  exact ⟨visible, shows, gave.resultOf⟩

/-- What is known after the steps of some tasks determines what each of them was shown. -/
theorem Restored.determined {visits : List Visit} {last : Envelope}
    (restored : Restored workflowId tasks visits calls (some last.toJson))
    (carried : ∀ name, last.ancestors.get? name = Invocation.resultOf calls name)
    (paired : visits.length = tasks.length) (unique : (tasks.map Task.name).Nodup)
    (worked : ∀ call ∈ calls, call.Worked work workflowId tasks) :
    Determined work workflowId tasks calls last := by
  have names := restored.names paired
  refine ⟨fun task member => ?_, fun name stranger => ?_, carried⟩
  · have called : task.name ∈ calls.map fun call => call.context.taskName :=
      names ▸ List.mem_map_of_mem member
    obtain ⟨call, isCall, named⟩ := List.mem_map.1 called
    have only := Invocation.filter_eq_singleton (names ▸ unique) isCall
    obtain ⟨other, isTask, otherNamed, answered⟩ := worked call isCall
    obtain rfl : other = task :=
      List.inj_on_of_nodup_map unique isTask member (otherNamed.symm.trans named)
    refine ⟨call.visible, restored.shown other member call isCall named, call.context, ?_⟩
    rw [← named, only, ← answered]
  · rw [Option.eq_none_iff_forall_ne_some]
    intro result found
    exact stranger (names ▸ Invocation.mem_of_resultOf found)

/-- The chain of a workflow can be compiled and run, and the graph determines what it gives. -/
theorem exists_determined (routing : Routing) (valid : Graph.validate tasks = .ok ())
    (canonical : ∀ task ∈ tasks, task.payload.Canonical)
    (performs : ∀ task ∈ tasks, Performs handlers allowed work workflowId task) :
    ∃ chain, Submission.chainOf routing workflowId tasks = .ok chain ∧
      ∀ visits : List Visit, visits.map Visit.node = chain.spine.reverse →
      ∀ state, allowed state → ∃ calls last, Visit.Completes handlers visits state calls last ∧
        Determined work workflowId tasks calls last := by
  obtain ⟨order, ordered, perm, fathersFirst, nonempty⟩ := Graph.order_of_validate valid
  obtain ⟨chain, compiled, data⟩ := @Chain.compile_ok workflowId routing order nonempty
  have chainOf := Submission.chainOf_eq_compile routing workflowId valid ordered
  refine ⟨chain, chainOf.trans compiled, fun visits nodes state permitted => ?_⟩
  have sameData : visits.map (fun visit => visit.node.data) =
      order.map fun task => (StepData.ofTask task workflowId).toJson := by
    rw [← data, ← nodes, List.map_map]
    rfl
  have paired : visits.length = order.length := by simpa using congrArg List.length sameData
  have unique : (order.map Task.name).Nodup :=
    (perm.map Task.name).nodup_iff.2 (Graph.wellFormed_of_validate valid).unique
  obtain ⟨final, after, calls, ran, restored, asked⟩ := (Restored.start workflowId).run rfl
    (fun task member => canonical task (perm.subset member))
    (fun task member => (performs task (perm.subset member)).answers) unique fathersFirst sameData
    permitted
  simp only [List.nil_append] at restored
  have worked : ∀ call ∈ calls, call.Worked work workflowId order := by
    intro call isCall
    obtain ⟨task, member, isFor⟩ := (asked call isCall).resolve_left List.not_mem_nil
    exact (performs task (perm.subset member)).worked member isFor
  cases final with
  | none =>
      have names := restored.names paired
      rw [restored.started rfl] at names
      exact absurd (List.map_eq_nil_iff.1 names.symm) nonempty
  | some value =>
      obtain ⟨last, rfl, -, -, carried⟩ := restored.carried value rfl
      have determined := restored.determined carried paired unique worked
      exact ⟨calls, last, ⟨after, ran⟩,
        fun task member => determined.gave task (perm.mem_iff.2 member),
        fun name stranger => determined.only name fun member =>
          stranger ((perm.map Task.name).mem_iff.1 member),
        determined.carried⟩

end Runs

/-! ## Two runs -/

/-- A step is shown the same results in two runs, and gives the same one. -/
def Invocation.GaveSame (calls otherCalls : List Invocation) (name : String) : Prop :=
  ∃ visible result, Gave calls name visible result ∧ Gave otherCalls name visible result

section TwoRuns

variable {work otherWork : Work} {workflowId : Uuid} {tasks others : List Task}
  {calls otherCalls : List Invocation} {last otherLast : Envelope}

/-- Where the work for a task and for everything above it is the same, so is what the task is
shown and what it gives. -/
theorem Determined.gaveSame (determined : Determined work workflowId tasks calls last)
    (other : Determined otherWork workflowId others otherCalls otherLast)
    (inside : tasks ⊆ others) (wellFormed : Graph.WellFormed tasks) {task : Task}
    (member : task ∈ tasks)
    (alike : ∀ above ∈ tasks, Relation.ReflTransGen (Graph.Lists tasks) above.name task.name →
      work.on workflowId above = otherWork.on workflowId above) :
    Invocation.GaveSame calls otherCalls task.name := by
  obtain ⟨visible, shows, gave⟩ := determined.gave task member
  obtain ⟨otherVisible, alsoShows, alsoGave⟩ := other.gave task (inside member)
  have fathers : ∀ father ∈ task.fathers,
      Invocation.resultOf calls father = Invocation.resultOf otherCalls father := by
    intro father isFather
    obtain ⟨fatherTask, isTask, rfl⟩ :=
      List.mem_map.1 (wellFormed.resolved task member father isFather)
    exact determined.explains.agree other.explains inside wellFormed isTask
      fun above isAbove reaches =>
        alike above isAbove (reaches.tail ⟨task, member, rfl, isFather⟩)
  rw [← shows.eq alsoShows fathers, ← alike task member .refl] at alsoGave
  exact ⟨visible, _, gave, alsoGave⟩

/-- The results of all steps are the same in two runs of the same work. -/
theorem Determined.ancestors_eq (determined : Determined work workflowId tasks calls last)
    (other : Determined work workflowId others otherCalls otherLast) (same : others.Perm tasks)
    (wellFormed : Graph.WellFormed tasks) : last.ancestors = otherLast.ancestors := by
  apply Dict.ext_get?
  intro name
  rw [determined.carried, other.carried]
  by_cases isTask : name ∈ tasks.map Task.name
  · obtain ⟨task, member, rfl⟩ := List.mem_map.1 isTask
    exact determined.explains.agree other.explains same.symm.subset wellFormed member
      fun _ _ _ => rfl
  · rw [determined.only name isTask,
      other.only name fun isOther => isTask ((same.map Task.name).mem_iff.1 isOther)]

end TwoRuns

/-- The results do not depend on the order of the steps.  If handlers work by a function of
what they are told of a step and of what they are shown, then the chain of a workflow and the
chain of a permutation of it can both be run.  Every step does its work on the results of its
fathers; it is shown the same results and gives the same one in both runs, and all results in
the end are the same. -/
theorem results_independent_of_order {σ : Type} {handlers : Handlers σ} {allowed : σ → Prop}
    {work : Work} {tasks permuted : List Task} (workflowId : Uuid) (routing : Routing)
    (valid : Graph.validate tasks = .ok ()) (perm : permuted.Perm tasks)
    (canonical : ∀ task ∈ tasks, task.payload.Canonical)
    (performs : ∀ task ∈ tasks, Performs handlers allowed work workflowId task) :
    ∃ chain permutedChain, Submission.chainOf routing workflowId tasks = .ok chain ∧
      Submission.chainOf routing workflowId permuted = .ok permutedChain ∧
      ∀ visits permutedVisits : List Visit, visits.map Visit.node = chain.spine.reverse →
      permutedVisits.map Visit.node = permutedChain.spine.reverse →
      ∀ state permutedState, allowed state → allowed permutedState →
      ∃ calls last permutedCalls permutedLast,
        Visit.Completes handlers visits state calls last ∧
        Visit.Completes handlers permutedVisits permutedState permutedCalls permutedLast ∧
        Determined work workflowId tasks calls last ∧
        Determined work workflowId permuted permutedCalls permutedLast ∧
        (∀ task ∈ tasks, Invocation.GaveSame calls permutedCalls task.name) ∧
        last.ancestors = permutedLast.ancestors := by
  have permutedValid : Graph.validate permuted = .ok () :=
    Graph.validate_eq_ok_iff.2 ((Graph.validate_eq_ok_iff.1 valid).perm perm)
  have wellFormed := Graph.wellFormed_of_validate valid
  obtain ⟨chain, compiled, run⟩ := exists_determined routing valid canonical performs
  obtain ⟨permutedChain, permutedCompiled, permutedRun⟩ :=
    exists_determined routing permutedValid
      (fun task member => canonical task (perm.subset member))
      fun task member => performs task (perm.subset member)
  refine ⟨chain, permutedChain, compiled, permutedCompiled, ?_⟩
  intro visits permutedVisits nodes permutedNodes state permutedState permitted alsoPermitted
  obtain ⟨calls, last, completes, determined⟩ := run visits nodes state permitted
  obtain ⟨permutedCalls, permutedLast, alsoCompletes, alsoDetermined⟩ :=
    permutedRun permutedVisits permutedNodes permutedState alsoPermitted
  refine ⟨calls, last, permutedCalls, permutedLast, completes, alsoCompletes, determined,
    alsoDetermined, fun task member => ?_, determined.ancestors_eq alsoDetermined perm wellFormed⟩
  exact determined.gaveSame alsoDetermined perm.symm.subset wellFormed member fun _ _ _ => rfl

/-- The work of an echo. -/
def Sample.echo : Work := fun _ taskName _ _ payload visible =>
  Handler.echo ⟨taskName, payload⟩ visible

theorem Handler.canonical_echo {context : StepContext} (canonical : context.payload.Canonical)
    (visible : Results) : (Handler.echo context visible).data.Canonical := by
  have keys : ["payload", "task", "upstream"].Pairwise (· < ·) := by decide
  unfold Handler.echo
  split
  · exact (Json.canonical_object_iff _).2 ⟨.nil, by simp⟩
  · exact (Json.canonical_object_iff _).2 ⟨List.pairwise_map.1 keys, by simp [canonical]⟩

theorem Sample.performs_echo :
    ∀ task ∈ Sample.fork, Performs Sample.echo.handlers (fun _ => True) Sample.echo
      (Uuid.ofNat 7) task := by
  intro task member
  refine Work.performs fun visible _ => Handler.canonical_echo ?_ visible
  revert task
  simp [Sample.fork, Task.plain]

/-- The chains of a fork and of its reversal visit the steps in different orders. -/
theorem results_independent_of_order_fork :
    (Graph.order Sample.fork).map (List.map Task.name) = .ok ["root", "left", "right"] ∧
      (Graph.order Sample.fork.reverse).map (List.map Task.name) =
        .ok ["root", "right", "left"] ∧
      ∃ chain permutedChain,
        Submission.chainOf .standard (Uuid.ofNat 7) Sample.fork = .ok chain ∧
        Submission.chainOf .standard (Uuid.ofNat 7) Sample.fork.reverse = .ok permutedChain ∧
        ∀ visits permutedVisits : List Visit, visits.map Visit.node = chain.spine.reverse →
        permutedVisits.map Visit.node = permutedChain.spine.reverse →
        ∀ state permutedState, True → True → ∃ calls last permutedCalls permutedLast,
          Visit.Completes Sample.echo.handlers visits state calls last ∧
          Visit.Completes Sample.echo.handlers permutedVisits permutedState permutedCalls
            permutedLast ∧
          Determined Sample.echo (Uuid.ofNat 7) Sample.fork calls last ∧
          Determined Sample.echo (Uuid.ofNat 7) Sample.fork.reverse permutedCalls permutedLast ∧
          (∀ task ∈ Sample.fork, Invocation.GaveSame calls permutedCalls task.name) ∧
          last.ancestors = permutedLast.ancestors :=
  ⟨by decide, by decide, results_independent_of_order (Uuid.ofNat 7) .standard (by decide)
    (List.reverse_perm _) (by simp [Sample.fork, Task.plain]) Sample.performs_echo⟩

/-- Unrelated steps have no influence on a step.  Two assignments of handlers may differ in
the work for any task but the given one and those above it.  In both runs of the chain every
step does the work of its own assignment, and yet the given one is shown the same results and
gives the same one. -/
theorem unrelated_steps_inert {σ τ : Type} {handlers : Handlers σ} {otherHandlers : Handlers τ}
    {allowed : σ → Prop} {otherAllowed : τ → Prop} {work otherWork : Work} {tasks : List Task}
    (workflowId : Uuid) (routing : Routing) (valid : Graph.validate tasks = .ok ())
    (canonical : ∀ task ∈ tasks, task.payload.Canonical)
    (performs : ∀ task ∈ tasks, Performs handlers allowed work workflowId task)
    (otherPerforms : ∀ task ∈ tasks,
      Performs otherHandlers otherAllowed otherWork workflowId task)
    {task : Task} (member : task ∈ tasks)
    (alike : ∀ above ∈ tasks, Relation.ReflTransGen (Graph.Lists tasks) above.name task.name →
      work.on workflowId above = otherWork.on workflowId above) :
    ∃ chain, Submission.chainOf routing workflowId tasks = .ok chain ∧
      ∀ visits otherVisits : List Visit, visits.map Visit.node = chain.spine.reverse →
      otherVisits.map Visit.node = chain.spine.reverse →
      ∀ state otherState, allowed state → otherAllowed otherState →
      ∃ calls last otherCalls otherLast,
        Visit.Completes handlers visits state calls last ∧
        Visit.Completes otherHandlers otherVisits otherState otherCalls otherLast ∧
        Determined work workflowId tasks calls last ∧
        Determined otherWork workflowId tasks otherCalls otherLast ∧
        Invocation.GaveSame calls otherCalls task.name := by
  obtain ⟨chain, compiled, run⟩ := exists_determined routing valid canonical performs
  obtain ⟨otherChain, otherCompiled, otherRun⟩ :=
    exists_determined routing valid canonical otherPerforms
  obtain rfl : chain = otherChain := Except.ok.inj (compiled.symm.trans otherCompiled)
  refine ⟨chain, compiled, ?_⟩
  intro visits otherVisits nodes otherNodes state otherState permitted alsoPermitted
  obtain ⟨calls, last, completes, determined⟩ := run visits nodes state permitted
  obtain ⟨otherCalls, otherLast, alsoCompletes, alsoDetermined⟩ :=
    otherRun otherVisits otherNodes otherState alsoPermitted
  exact ⟨calls, last, otherCalls, otherLast, completes, alsoCompletes, determined,
    alsoDetermined, determined.gaveSame alsoDetermined (List.Subset.refl tasks)
      (Graph.wellFormed_of_validate valid) member alike⟩

/-- An echo, except that one step asks the others to skip. -/
def Sample.meddling : Work := fun workflowId taskName taskType track payload visible =>
  if taskName = "left" then .skip .null
  else Sample.echo workflowId taskName taskType track payload visible

theorem Sample.performs_meddling :
    ∀ task ∈ Sample.fork, Performs Sample.meddling.handlers (fun _ => True) Sample.meddling
      (Uuid.ofNat 7) task := by
  intro task member
  refine Work.performs fun visible exact => ?_
  obtain ⟨_, _, does⟩ := Sample.performs_echo task member
  obtain ⟨_, -, canonical, -⟩ := does "" visible () exact trivial
  rw [Work.on, Sample.meddling]
  split
  · exact Json.canonical_null
  · exact canonical

/-- The steps of a fork do not lie above one another. -/
theorem unrelated_steps_inert_fork :
    ∃ chain, Submission.chainOf .standard (Uuid.ofNat 7) Sample.fork = .ok chain ∧
      ∀ visits otherVisits : List Visit, visits.map Visit.node = chain.spine.reverse →
      otherVisits.map Visit.node = chain.spine.reverse →
      ∀ state otherState, True → True → ∃ calls last otherCalls otherLast,
        Visit.Completes Sample.echo.handlers visits state calls last ∧
        Visit.Completes Sample.meddling.handlers otherVisits otherState otherCalls otherLast ∧
        Determined Sample.echo (Uuid.ofNat 7) Sample.fork calls last ∧
        Determined Sample.meddling (Uuid.ofNat 7) Sample.fork otherCalls otherLast ∧
        Invocation.GaveSame calls otherCalls "right" := by
  have right : { Task.plain "right" "work" with
      fathers := ["root"], payload := .string "data" } ∈ Sample.fork := by simp [Sample.fork]
  refine unrelated_steps_inert (Uuid.ofNat 7) .standard (by decide)
    (by simp [Sample.fork, Task.plain]) Sample.performs_echo Sample.performs_meddling right ?_
  intro above isAbove reaches
  have unlisted : ∀ name, ¬ Graph.Lists Sample.fork "left" name := by
    rintro name ⟨task, member, -, listed⟩
    revert task
    simp [Sample.fork, Task.plain]
  have other : above.name ≠ "left" := by
    intro same
    rw [same] at reaches
    rcases reaches.cases_head with same | ⟨child, listed, -⟩
    · exact absurd same (by decide)
    · exact unlisted child listed
  funext visible
  exact (if_neg other).symm

end Relay
