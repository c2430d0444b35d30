import Relay.Proofs.Queue.Admission
import Relay.Proofs.Workflow.Links
import Relay.Proofs.Workflow.Reading

/-!
# The circumstances of a submission

A submission is checked and compiled, its queues are followed, and the chain claims places on
all of them before anything is stored.  It can be turned down at every stage.  In which order
the places are claimed is not laid down, and a store may refuse a record, so both are left
open here, and a submission under some circumstances ends in one of four ways.
-/

namespace Relay

/-! ## Requests -/

namespace Submission

/-- What is submitted: a list of tasks, or a template with its parameters. -/
inductive Request where
  | list (tasks : List Task)
  | template (name : String) (parameters : Json)

namespace Request

/-- The submission of a request. -/
def routine (routing : Routing) (id : Uuid) :
    Request → Routine (Except WorkflowProblem SubmittedWorkflow)
  | .list tasks => submit routing id tasks
  | .template name parameters => submitTemplate routing id name parameters

/-- The tasks of a request. -/
def tasks : Request → Except TemplateProblem (List Task)
  | .list tasks => .ok tasks
  | .template name parameters => Template.build name parameters

/-- The tasks of a request and the chain that they are submitted as. -/
def plan (routing : Routing) (id : Uuid) (request : Request) :
    Except WorkflowProblem (List Task × Flow) :=
  match request.tasks with
  | .error problem => .error (.template problem)
  | .ok tasks =>
      match chainOf routing id tasks with
      | .error problem => .error (.graph problem)
      | .ok chain => .ok (tasks, chain)

/-- A request without a plan is returned, any other is carried out. -/
theorem routine_eq (routing : Routing) (id : Uuid) (request : Request) :
    request.routine routing id = match request.plan routing id with
      | .error problem => return .error problem
      | .ok (tasks, chain) => submitChain routing id tasks chain := by
  have submitted : ∀ tasks, submit routing id tasks = match plan routing id (.list tasks) with
      | .error problem => return .error problem
      | .ok (tasks, chain) => submitChain routing id tasks chain := by
    intro tasks
    simp only [submit, plan, Request.tasks]
    cases chainOf routing id tasks <;> rfl
  cases request with
  | list tasks => exact submitted tasks
  | template name parameters =>
      simp only [routine, submitTemplate, plan, Request.tasks]
      cases Template.build name parameters with
      | error problem => rfl
      | ok tasks => exact submitted tasks

/-- Only what is asked for can be the reason that there is no plan. -/
theorem isValidation_of_plan {routing : Routing} {id : Uuid} {request : Request}
    {problem : WorkflowProblem} (invalid : request.plan routing id = .error problem) :
    problem.isValidation = true := by
  unfold plan at invalid
  split at invalid
  · cases invalid; rfl
  · split at invalid
    · cases invalid; rfl
    · cases invalid

/-- The plan for a list of tasks is the chain that the tasks are submitted as. -/
theorem plan_list_eq_ok_iff {routing : Routing} {id : Uuid} {tasks planned : List Task}
    {chain : Flow} : plan routing id (.list tasks) = .ok (planned, chain) ↔
      planned = tasks ∧ chainOf routing id tasks = .ok chain := by
  simp only [plan, Request.tasks]
  cases chainOf routing id tasks <;> simp [eq_comm]

end Request

end Submission

/-! ## Submissions under all circumstances -/

/-- What is left open about the surroundings of a submission. -/
structure Circumstances where
  /-- The places that a flow claims, in the order in which it claims them. -/
  places : Flow → List (String × Nat)
  /-- Why the store refuses a new record, if it does. -/
  refusal : Option StoreError

namespace Circumstances

/-- Places are claimed in order of the names of the queues, and the store takes the record. -/
def usual : Circumstances := ⟨Queues.countsOf, none⟩

/-- What an action gives back and does under some circumstances. -/
def answer (circumstances : Circumstances) :
    (action : Action) → WorkflowSystem → action.Reply × WorkflowSystem
  | .insertRecord new, system =>
      match circumstances.refusal with
      | some problem => (.error problem, system)
      | none => system.answer (.insertRecord new)
  | .addFlow flow, system =>
      let (added, queues) := system.queues.addInOrder (circumstances.places flow) flow
      (added, { system with queues })
  | action, system => system.answer action

@[simp] theorem answer_usual : usual.answer = WorkflowSystem.answer := by
  funext action system
  cases action <;> rfl

theorem run_listenAll (circumstances : Circumstances) (queues : List String)
    (system : WorkflowSystem) : (Submission.listenAll queues).run circumstances.answer system =
      ((), queues.foldl WorkflowSystem.listen system) := by
  induction queues generalizing system with
  | nil => rfl
  | cons queue rest ih => exact ih _

end Circumstances

namespace WorkflowSystem

/-- Submit a request under some circumstances, as a workflow with a fresh identifier. -/
def submitUnder (circumstances : Circumstances) (system : WorkflowSystem) (id : Uuid)
    (request : Submission.Request) :
    Except WorkflowProblem SubmittedWorkflow × WorkflowSystem :=
  (request.routine system.routing id).run circumstances.answer system

/-- Under the usual circumstances a list of tasks is submitted as it always is. -/
theorem submitUnder_usual (system : WorkflowSystem) (id : Uuid) (tasks : List Task) :
    system.submitUnder .usual id (.list tasks) = system.submit id tasks := by
  rw [submitUnder, Circumstances.answer_usual]
  rfl

theorem submitUnder_usual_template (system : WorkflowSystem) (id : Uuid) (name : String)
    (parameters : Json) : system.submitUnder .usual id (.template name parameters) =
      system.submitTemplate id name parameters := by
  rw [submitUnder, Circumstances.answer_usual]
  rfl

/-- The system that follows the queues of a chain. -/
def listening (system : WorkflowSystem) (chain : Flow) : WorkflowSystem :=
  (system.routing.queueNames ++ [chain.queueName]).foldl listen system

/-- How a submission under some circumstances can end. -/
inductive Ends (circumstances : Circumstances) (system : WorkflowSystem) (id : Uuid)
    (request : Submission.Request) :
    Except WorkflowProblem SubmittedWorkflow × WorkflowSystem → Prop where
  | invalid {problem : WorkflowProblem}
      (unplanned : request.plan system.routing id = .error problem) :
      Ends circumstances system id request (.error problem, system)
  | refused {tasks : List Task} {chain : Flow} {problem : QueueError} {queues : Queues}
      (planned : request.plan system.routing id = .ok (tasks, chain))
      (refused : (system.listening chain).queues.addInOrder (circumstances.places chain) chain =
        (.error problem, queues)) :
      Ends circumstances system id request
        (.error (.queue problem), { system.listening chain with queues })
  /-- The queues have taken the chain, but the store does not take the record. -/
  | unrecorded {tasks : List Task} {chain : Flow} {added : AddedFlow} {queues : Queues}
      {problem : StoreError} (planned : request.plan system.routing id = .ok (tasks, chain))
      (accepted : (system.listening chain).queues.addInOrder (circumstances.places chain) chain =
        (.ok added, queues)) (refusal : circumstances.refusal = some problem) :
      Ends circumstances system id request
        (.error (.store problem), { system.listening chain with queues })
  | recorded {tasks : List Task} {chain : Flow} {added : AddedFlow} {queues : Queues}
      {record : WorkflowRecord} (planned : request.plan system.routing id = .ok (tasks, chain))
      (accepted : (system.listening chain).queues.addInOrder (circumstances.places chain) chain =
        (.ok added, queues)) (unhindered : circumstances.refusal = none)
      (isRecord : record = RecordStore.recordOf (.ofMilliseconds queues.now)
        (Submission.newRecord id added tasks)) :
      Ends circumstances system id request
        (.ok ⟨id, added.jobId, added.name, added.queueName⟩,
          { system.listening chain with
            queues, records := (system.listening chain).records.insert record })

theorem submitUnder_ends (circumstances : Circumstances) (system : WorkflowSystem) (id : Uuid)
    (request : Submission.Request) :
    Ends circumstances system id request (system.submitUnder circumstances id request) := by
  rw [submitUnder, Submission.Request.routine_eq]
  cases planned : request.plan system.routing id with
  | error problem => exact .invalid planned
  | ok plan =>
      obtain ⟨tasks, chain⟩ := plan
      dsimp only [Submission.submitChain]
      rw [Routine.run_bind, Circumstances.run_listenAll]
      change Ends _ _ _ _ (Routine.run _ _ (system.listening chain))
      simp only [Routine.act, Routine.run_bind, Routine.run_step, Routine.run_done,
        Circumstances.answer]
      cases submitted : (system.listening chain).queues.addInOrder (circumstances.places chain)
          chain with
      | mk reply queues =>
          cases reply with
          | error problem => exact .refused planned submitted
          | ok added =>
              simp only [Routine.run_bind, Routine.run_step, Routine.run_done,
                Circumstances.answer]
              cases refusal : circumstances.refusal with
              | some problem => exact .unrecorded planned submitted refusal
              | none => exact .recorded planned submitted refusal rfl

/-! ## Following queues -/

/-- A system of which at most some queues were touched and followed. -/
structure OnlyFollowed (system after : WorkflowSystem) : Prop where
  routing : after.routing = system.routing
  records : after.records = system.records
  queues : Queues.Touched system.queues after.queues
  /-- A listener is as it was, or it is new and has everything to come before it. -/
  listeners : ∀ queue, after.listeners.get? queue = system.listeners.get? queue ∨
    system.listeners.get? queue = none ∧
      after.listeners.get? queue = some (.after (system.queues.lane queue).events)

namespace OnlyFollowed

variable {system between after : WorkflowSystem}

theorem refl (system : WorkflowSystem) : OnlyFollowed system system :=
  ⟨rfl, rfl, .refl _, fun _ => .inl rfl⟩

theorem trans (first : OnlyFollowed system between) (second : OnlyFollowed between after) :
    OnlyFollowed system after where
  routing := second.routing.trans first.routing
  records := second.records.trans first.records
  queues := first.queues.trans second.queues
  listeners queue := by
    rcases second.listeners queue with same | ⟨unfollowed, followed⟩
    · exact same ▸ first.listeners queue
    · rw [first.queues.lane] at followed
      rcases first.listeners queue with same | ⟨-, already⟩
      · exact .inr ⟨same.symm.trans unfollowed, followed⟩
      · exact absurd (unfollowed.symm.trans already) (Option.some_ne_none _).symm

theorem listen (system : WorkflowSystem) (queue : String) :
    OnlyFollowed system (system.listen queue) := by
  unfold WorkflowSystem.listen
  split
  · exact .refl system
  · next unfollowed =>
      refine ⟨rfl, rfl, .touch _ queue, fun other => ?_⟩
      rw [Dict.get?_insert]
      split
      · next same =>
          subst same
          exact .inr ⟨by simpa [Dict.contains] using unfollowed, rfl⟩
      · exact .inl rfl

theorem listening (system : WorkflowSystem) (chain : Flow) :
    OnlyFollowed system (system.listening chain) := by
  unfold WorkflowSystem.listening
  generalize system.routing.queueNames ++ [chain.queueName] = queues
  induction queues generalizing system with
  | nil => exact .refl system
  | cons queue rest ih => exact (listen system queue).trans (ih _)

/-- The queues may be replaced by ones of which at most some were touched. -/
theorem touched (followed : OnlyFollowed system between) {queues : Queues}
    (touched : Queues.Touched between.queues queues) :
    OnlyFollowed system { between with queues } :=
  ⟨followed.routing, followed.records, followed.queues.trans touched, followed.listeners⟩

end OnlyFollowed

/-- What the queues have accepted is the chain as a whole, under the first free identifiers. -/
theorem admits_of_accepted {routing : Routing} {settings : Dict QueueSettings}
    {system : WorkflowSystem} (reached : Reached routing settings system) {chain : Flow}
    {counts : List (String × Nat)} (perm : counts.Perm (Queues.countsOf chain))
    {added : AddedFlow} {queues : Queues}
    (accepted : (system.listening chain).queues.addInOrder counts chain = (.ok added, queues)) :
    added = ⟨jobIdOf system.queues.nextSerial, chain.name, chain.queueName⟩ ∧
      Queues.Admits system.queues queues chain := by
  have touched := (OnlyFollowed.listening system chain).queues
  have steady := (reached.listen (system.routing.queueNames ++ [chain.queueName])).sound.1.steady
  obtain ⟨isRoot, admits⟩ := Queues.admits_of_addInOrder steady perm accepted
  exact ⟨touched.nextSerial ▸ isRoot, touched.admits admits⟩

end WorkflowSystem

end Relay
