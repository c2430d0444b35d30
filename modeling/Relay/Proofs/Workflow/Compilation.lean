import Relay.Proofs.Decode.Formats
import Relay.Proofs.Workflow.Links

/-!
# A chain keeps its tasks

A list of tasks is turned inside out when it is compiled: the first task becomes the innermost
job.  Nothing is lost on the way.  Read from the inside out, the nodes of a chain are the jobs of
the tasks in their order, each with the name, the queue, the options and the data of its own
task, whether or not the list was ever validated.
-/

namespace Relay

/-- Every node of a flow has one child, except for the innermost one, which has none.  The nodes
are listed from the innermost one outwards. -/
inductive Flow.Nests : Flow → List Flow → Prop where
  | innermost {flow : Flow} (childless : flow.children = []) : Nests flow [flow]
  | around {flow inner : Flow} {nodes : List Flow} (only : flow.children = [inner])
      (below : Nests inner nodes) : Nests flow (nodes ++ [flow])

namespace Chain

/-- A node of a chain is the job of a task. -/
structure Represents (workflowId : Uuid) (routing : Routing) (task : Task) (node : Flow) :
    Prop where
  name : node.name = task.name
  /-- A queue that the task names comes first. -/
  named : ∀ queue, task.queueName = some queue → node.queueName = queue
  /-- Then comes the queue of its type. -/
  routed : task.queueName = none → ∀ queue, routing.queues.get? task.type = some queue →
    node.queueName = queue
  unrouted : task.queueName = none → routing.queues.get? task.type = none →
    node.queueName = routing.defaultQueue
  binding : node.options.failParentOnFailure = true
  attempts : node.options.attempts = none
  /-- The data is read back as that of the step, for every payload that lists the members of
  its objects in key order; no other payload is ever read. -/
  data : node.data.decode StepData.decoder = .ok (.ofTask task workflowId) ↔ task.WellFormed

/-- A chain holds exactly the jobs of a list of tasks, one around the other. -/
structure Keeps (workflowId : Uuid) (routing : Routing) (order : List Task) (chain : Flow) :
    Prop where
  /-- The nodes, from the innermost one outwards, are the jobs of the tasks in their order. -/
  nodes : ∃ nodes, chain.Nests nodes ∧ List.Forall₂ (Represents workflowId routing) order nodes
  count : chain.jobCount = order.length
  order : chain.executionOrder = order.map Task.name

variable {workflowId : Uuid} {routing : Routing} {order : List Task} {chain : Flow}

theorem represents_wrap (workflowId : Uuid) (routing : Routing) (inner : List Flow) (task : Task) :
    Represents workflowId routing task (wrap workflowId routing inner task) where
  name := rfl
  named queue isNamed := by simp [wrap, Routing.queueFor, isNamed]
  routed unnamed queue isRouted := by simp [wrap, Routing.queueFor, unnamed, isRouted]
  unrouted unnamed isUnrouted := by simp [wrap, Routing.queueFor, unnamed, isUnrouted]
  binding := rfl
  attempts := rfl
  data := StepData.lossless.readsBack (.ofTask task workflowId)

/-- The jobs of tasks are wrapped around each other in the order of the tasks. -/
theorem nests_of_mem (member : chain ∈ wrapAll workflowId routing order) :
    ∃ nodes, chain.Nests nodes ∧ List.Forall₂ (Represents workflowId routing) order nodes := by
  induction order using List.reverseRecOn generalizing chain with
  | nil => exact absurd member List.not_mem_nil
  | append_singleton before task ih =>
      rw [wrapAll_concat, List.mem_singleton] at member
      have last := represents_wrap workflowId routing (wrapAll workflowId routing before) task
      rw [← member] at last
      cases inside : wrapAll workflowId routing before with
      | nil =>
          -- Only the empty list of tasks leaves nothing to wrap the job around.
          obtain rfl : before = [] := by
            rcases List.eq_nil_or_concat' before with empty | ⟨lower, other, rfl⟩
            · exact empty
            · rw [wrapAll_concat] at inside
              cases inside
          exact ⟨[chain], .innermost (by rw [member]; rfl), .cons last .nil⟩
      | cons inner others =>
          have isInner : inner ∈ wrapAll workflowId routing before := by
            rw [inside]
            exact List.mem_cons_self
          obtain ⟨nodes, nests, represents⟩ := ih isInner
          have only : chain.children = [inner] := by
            rw [member, ← wrapAll_eq_singleton isInner]
            rfl
          exact ⟨nodes ++ [chain], .around only nests,
            List.rel_append represents (.cons last .nil)⟩

/-- Every list of tasks but the empty one is compiled to a chain that keeps all of them. -/
theorem compile_keeps_tasks (workflowId : Uuid) (routing : Routing) :
    compile [] workflowId routing = .error .emptyWorkflow ∧
      ∀ first rest, ∃ chain, compile (first :: rest) workflowId routing = .ok chain ∧
        Keeps workflowId routing (first :: rest) chain := by
  refine ⟨rfl, fun first rest => ?_⟩
  obtain ⟨chain, compiled, -⟩ :=
    @compile_ok workflowId routing (first :: rest) (List.cons_ne_nil first rest)
  have member := mem_wrapAll_of_compile compiled
  exact ⟨chain, compiled, nests_of_mem member, jobCount_of_mem member,
    executionOrder_of_mem member⟩

end Chain

end Relay
