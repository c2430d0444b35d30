import Relay.CommandLine.Program
import Relay.Proofs.Graph.Order
import Relay.Proofs.Graph.Validation
import Relay.Proofs.Propagation.Visibility
import Relay.Workflow.Submission

/-!
# Validation is the last word

The order of a workflow is found by another algorithm than its cycles, and both could tell
the caller that there is no order.  Only validation ever does: whatever it accepts can be
ordered and compiled, so a submission and the program have nothing left to complain about
in the graph.
-/

namespace Relay

namespace Graph

variable {tasks : List Task}

/-- What is valid has an order, in which fathers come first. -/
theorem order_of_validate (valid : validate tasks = .ok ()) :
    ∃ order, Graph.order tasks = .ok order ∧ order.Perm tasks ∧ FathersFirst order ∧
      order ≠ [] := by
  have wellFormed := wellFormed_of_validate valid
  obtain ⟨order, ordered, perm, fathersFirst⟩ := order_of_wellFormed wellFormed
  exact ⟨order, ordered, perm, fathersFirst,
    fun empty => wellFormed.nonempty (empty ▸ perm).nil_eq.symm⟩

/-- What validation decides about some tasks. -/
structure Decided (tasks : List Task) : Prop where
  /-- Exactly the workflows are accepted. -/
  accepted : validate tasks = .ok () ↔ IsWorkflow tasks
  /-- Everything else is rejected with the first check that it fails. -/
  rejected : ¬ IsWorkflow tasks → ∃ problem, validate tasks = .error problem ∧
    FirstProblem tasks problem
  /-- What is accepted can be ordered and compiled. -/
  compiled : validate tasks = .ok () → ∃ order, Graph.order tasks = .ok order ∧
    ∀ id routing, ∃ chain, Chain.compile order id routing = .ok chain
  /-- A submission of what is accepted does not fail because of the graph, whatever the
  queues and the store answer. -/
  submitted : validate tasks = .ok () → ∀ {σ : Type}
    (answer : (action : Action) → σ → action.Reply × σ) (surroundings : σ) (routing : Routing)
    (id : Uuid) (problem : GraphProblem),
    ((Submission.submit routing id tasks).run answer surroundings).1 ≠ .error (.graph problem)
  /-- The program shows the order of what is accepted. -/
  shown : validate tasks = .ok () → ∀ text : String,
    (Reading.ofText text).decode Task.listDecoder = .ok tasks →
    (CommandLine.validateText text).status = 0

end Graph

namespace Submission

/-- What is valid is submitted as the chain of its order. -/
theorem chainOf_eq_compile {tasks order : List Task} (routing : Routing) (id : Uuid)
    (valid : Graph.validate tasks = .ok ()) (ordered : Graph.order tasks = .ok order) :
    chainOf routing id tasks = Chain.compile order id routing := by
  unfold chainOf
  rw [valid, ordered]
  rfl

/-- What a chain is submitted to may fail, but not because of the graph. -/
theorem run_submitChain_ne_graph {σ : Type} (answer : (action : Action) → σ → action.Reply × σ)
    (surroundings : σ) (routing : Routing) (id : Uuid) (tasks : List Task) (chain : Flow)
    (problem : GraphProblem) :
    ((submitChain routing id tasks chain).run answer surroundings).1 ≠
      .error (.graph problem) := by
  simp only [submitChain, Routine.act, Routine.run_bind, Routine.run_step, Routine.run_done]
  split
  · simp
  · simp only [Routine.run_bind, Routine.run_step, Routine.run_done]
    split <;> simp

end Submission

namespace Graph

/-- Validation accepts exactly the workflows, reports the first problem of everything else,
and leaves no problem of the graph to those that go on with what it accepts. -/
theorem validation_decides (tasks : List Task) : Decided tasks where
  accepted := validate_eq_ok_iff
  rejected strange := by
    cases failed : validate tasks with
    | ok => exact absurd (validate_eq_ok_iff.1 failed) strange
    | error problem => exact ⟨problem, rfl, firstProblem_of_validate failed⟩
  compiled valid := by
    obtain ⟨order, ordered, -, -, nonempty⟩ := order_of_validate valid
    exact ⟨order, ordered, fun id routing =>
      (Chain.compile_ok nonempty).imp fun chain facts => facts.1⟩
  submitted valid σ answer surroundings routing id problem := by
    obtain ⟨order, ordered, -, -, nonempty⟩ := order_of_validate valid
    obtain ⟨chain, compiled, -⟩ := Chain.compile_ok nonempty
    rw [Submission.submit, Submission.chainOf_eq_compile routing id valid ordered, compiled]
    exact Submission.run_submitChain_ne_graph answer surroundings routing id tasks chain problem
  shown valid text read := by
    obtain ⟨order, ordered, -⟩ := order_of_validate valid
    simp only [CommandLine.validateText, read, valid, ordered]
    rfl

/-- A cycle of two tasks, and a task below it. -/
def Sample.lasso : List Task :=
  [{ Task.plain "below" "work" with fathers := ["left"] },
    { Task.plain "left" "work" with fathers := ["right"] },
    { Task.plain "right" "work" with fathers := ["left"] }]

-- The search for an order is stuck below the cycle, too, and would name the wrong task.
example : validate Sample.lasso = .error (.cycleDetected "left") ∧
    Graph.order Sample.lasso = .error (.cycleDetected "below") := by decide

end Graph

end Relay
