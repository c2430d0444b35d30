import Relay.CommandLine.Program
import Relay.Proofs.Workflow.Course
import Relay.Proofs.Workflow.Validation

/-!
# The order of a submission

The order of the tasks of a workflow is found once, when they are submitted, and is kept in
other forms from then on: as the nesting of a chain, as jobs that name their children, and as
the tree that is put together of them for a reader.  All of these are the same order, and it is
the one that the program prints for the tasks.
-/

namespace Relay

/-- A view of a submitted workflow lists its steps in the order of the tasks. -/
structure WorkflowView.InOrder (view : WorkflowView) (submitted : SubmittedWorkflow)
    (order : List Task) (keys : List JobKey) : Prop where
  id : view.id = submitted.workflowId
  root : view.rootJobId = submitted.rootJobId ∧ view.queueName = submitted.queueName
  names : view.steps.map StepStatus.jobName = order.map Task.name
  jobs : view.steps.map StepStatus.jobId = keys.map JobKey.id
  /-- The last step is that of the root job. -/
  last : view.steps.getLast?.map (fun step => (step.jobId, step.jobName)) =
    some (submitted.rootJobId, submitted.name)

namespace Traffic

/-- Every reader of a submitted workflow is shown its steps in the order of the tasks. -/
structure ReadInOrder (traffic : Traffic) (submitted : SubmittedWorkflow) (order : List Task)
    (keys : List JobKey) : Prop where
  /-- A reader that has come to its end, whatever the others did meanwhile. -/
  answered : ∀ answer, .done (.answered submitted.workflowId answer) ∈ traffic.underway →
    ∃ view, answer = .ok (some view) ∧ view.InOrder submitted order keys
  /-- A reader that is not interrupted. -/
  readable : ∃ view, (traffic.system.read submitted.workflowId).1 = .ok (some view) ∧
    view.InOrder submitted order keys

/-- What the submission of tasks comes to that are run in an order. -/
structure SubmittedInOrder (routing : Routing) (tasks : List Task) (submitted : SubmittedWorkflow)
    (moments : List Moment) (after : Traffic) (order : List Task) (keys : List JobKey) : Prop where
  perm : order.Perm tasks
  sorted : Graph.order tasks = .ok order
  compiled : ∃ chain, Submission.chainOf routing submitted.workflowId tasks = .ok chain ∧
    chain.executionOrder = order.map Task.name
  /-- The program prints this order for every file in which the tasks are found. -/
  printed : ∀ files config path text, files path = some text →
    (Reading.ofText text).decode Task.listDecoder = .ok tasks →
    CommandLine.execute files config (.validate path) =
      .success ("✅ Workflow is valid. Execution order: " ++
        Text.quotedList (order.map Task.name) ++ "\n")
  adds : Adds routing submitted.workflowId ⟨submitted.queueName, submitted.rootJobId⟩ tasks order
    keys moments
  /-- The answer names the last of the tasks, and its job as the root job. -/
  last : (order.map Task.name).getLast? = some submitted.name ∧
    keys.getLast? = some ⟨submitted.queueName, submitted.rootJobId⟩
  /-- From then on anyone may ask for the workflow, and as long as all its jobs are stored, its
  readers are shown the order, whatever happens. -/
  read : ∀ later, Leads (fun _ => True) after later →
    (∀ key ∈ keys, ∃ job, later.system.queues.job? key = some job) →
    later.ReadInOrder submitted order keys

section Showing

variable {routing : Routing} {settings : Dict QueueSettings} {order : List Task}
  {links : List Link} {submitted : SubmittedWorkflow} {queues : Queues}

theorem inOrder_of_lists {view : WorkflowView}
    (lists : view.Lists submitted.workflowId ⟨submitted.queueName, submitted.rootJobId⟩ links)
    (names : links.map (fun link => link.seed.name) = order.map Task.name)
    (last : (order.map Task.name).getLast? = some submitted.name)
    (top : links.getLast?.map Link.key = some ⟨submitted.queueName, submitted.rootJobId⟩) :
    view.InOrder submitted order (links.map Link.key) := by
  have firsts := congrArg (List.map Prod.fst) lists.steps
  have seconds := congrArg (List.map Prod.snd) lists.steps
  have ends := congrArg List.getLast? lists.steps
  simp only [List.map_map, List.getLast?_map] at firsts seconds ends
  obtain ⟨link, isLast, isTop⟩ := Option.map_eq_some_iff.1 top
  rw [← names, List.getLast?_map, isLast] at last
  have name : link.seed.name = submitted.name := Option.some.inj last
  constructor
  case id => exact lists.id
  case root => exact ⟨congrArg JobKey.id lists.root, congrArg JobKey.queue lists.root⟩
  case names => exact seconds.trans names
  case jobs => rw [List.map_map]; exact firsts
  case last => rw [ends, isLast, Option.map_some, isTop, name]

/-- Where a workflow is attended to, its readers are shown the order, as long as all jobs are
stored. -/
theorem readInOrder_of_attended {traffic : Traffic}
    (taken : Queues.HasTaken settings ⟨submitted.queueName, submitted.rootJobId⟩ links queues)
    (attended : Attended routing settings submitted.workflowId
      ⟨submitted.queueName, submitted.rootJobId⟩ links queues traffic)
    (names : links.map (fun link => link.seed.name) = order.map Task.name)
    (last : (order.map Task.name).getLast? = some submitted.name)
    (stores : traffic.system.queues.Stores links) :
    traffic.ReadInOrder submitted order (links.map Link.key) where
  answered answer isDone := by
    obtain ⟨view, same, lists⟩ := attended.attends stores _ isDone answer rfl
    exact ⟨view, same, inOrder_of_lists lists names last taken.top⟩
  readable := by
    obtain ⟨view, same, lists⟩ := attended.read taken stores
    exact ⟨view, same, inOrder_of_lists lists names last taken.top⟩

end Showing

/-- The order of a submission is what every reader reports.  However a submission is carried out
among everything else that happens, if it succeeds, it has added one record of the tasks and one
job for each.  The order in which the tasks were sorted is that of the chain, it is what the
program prints for them, and from then on every reader of the workflow is shown its steps in this
order, whatever else happens, until one of the jobs is gone. -/
theorem order_seen_by_readers {routing : Routing} {settings : Dict QueueSettings}
    {traffic after : Traffic} {id : Uuid} {tasks : List Task} {submitted : SubmittedWorkflow}
    {moments : List Moment} (awaits : Awaits routing settings id traffic)
    (canonical : ∀ task ∈ tasks, task.payload.Canonical)
    (carried : Carries (· ≠ id) traffic (Submission.submit traffic.system.routing id tasks) moments
      after (.ok submitted)) :
    submitted.workflowId = id ∧ ∃ order keys,
      SubmittedInOrder traffic.system.routing tasks submitted moments after order keys := by
  unfold Submission.submit at carried
  cases compiled : Submission.chainOf traffic.system.routing id tasks with
  | error problem =>
      rw [compiled] at carried
      cases carried.of_done.1
  | ok chain =>
      rw [compiled] at carried
      obtain ⟨valid, order, sorted, member⟩ := chainOf_ok compiled
      obtain ⟨_, sortedAgain, perm, -⟩ := Graph.order_of_validate valid
      cases sorted.symm.trans sortedAgain
      obtain ⟨added, heard, taking, recording, course, rfl⟩ := course_of_carries awaits carried
      have adds := course.adds member canonical
      obtain ⟨isRoot, admits⟩ := course.admits
      have taken := hasTaken_of_plants
        (course.awaits.reached.acts (.addFlow chain)).sound.1 admits.plants member
      subst isRoot
      have last := Chain.name_of_mem member
      refine ⟨rfl, order, (Chain.links id traffic.system.routing
        taking.system.queues.nextSerial order).map Link.key, ?_⟩
      constructor
      case perm => exact perm
      case sorted => exact sorted
      case compiled => exact ⟨chain, compiled, Chain.executionOrder_of_mem member⟩
      case printed =>
        intro files config path text found decoded
        simp only [CommandLine.execute, found, CommandLine.validateText, decoded, valid, sorted]
      case adds => exact adds
      case last => exact ⟨last, List.getLast?_map .. ▸ taken.top⟩
      case read =>
        intro later leads stores
        have attended := (course.attended rfl taken).of_leads taken leads
        exact readInOrder_of_attended taken attended Chain.names_linksBetween last
          fun link isLink => stores link.key (List.mem_map_of_mem isLink)

/-- Three tasks on three queues, listed from the last to the first. -/
def Sample.backwards : List Task :=
  [{ Task.plain "publish" "save" with fathers := ["draft", "check"] },
    { Task.plain "check" "llm" with fathers := ["draft"] }, Task.plain "draft" "work"]

/-- A system at its beginning, in which an identifier is about to be used. -/
def Sample.quiet : Traffic := ⟨.start .standard .empty, [Uuid.ofNat 7], []⟩

theorem order_seen_by_readers_backwards :
    let outcome := Sample.quiet.system.submit (Uuid.ofNat 7) Sample.backwards
    let submitted : SubmittedWorkflow := ⟨Uuid.ofNat 7, jobIdOf 0, "publish", "queue-save"⟩
    outcome.1 = .ok submitted ∧
    (outcome.2.read (Uuid.ofNat 7)).1.toOption.map
        (Option.map fun view => view.steps.map StepStatus.jobName) =
      some (some ["draft", "check", "publish"]) ∧
    ∃ moments, Carries (· ≠ Uuid.ofNat 7) Sample.quiet
        (Submission.submit .standard (Uuid.ofNat 7) Sample.backwards) moments
        { Sample.quiet with system := outcome.2 } (.ok submitted) ∧
      ∃ order keys, SubmittedInOrder .standard Sample.backwards submitted moments
        { Sample.quiet with system := outcome.2 } order keys := by
  intro outcome submitted
  have accepted : outcome.1 = .ok submitted := by decide +kernel
  refine ⟨accepted, by decide +kernel, ?_⟩
  have awaits : Awaits .standard .empty (Uuid.ofNat 7) Sample.quiet :=
    awaits_of_unused .refl List.not_mem_nil
  have canonical : ∀ task ∈ Sample.backwards, task.payload.Canonical := by
    simp [Sample.backwards, Task.plain, Json.Canonical]
  obtain ⟨moments, carried⟩ := carries_perform (· ≠ Uuid.ofNat 7) Sample.quiet
    (Submission.submit .standard (Uuid.ofNat 7) Sample.backwards)
  have carried : Carries (· ≠ Uuid.ofNat 7) Sample.quiet
      (Submission.submit .standard (Uuid.ofNat 7) Sample.backwards) moments
      { Sample.quiet with system := outcome.2 } (.ok submitted) := accepted ▸ carried
  exact ⟨moments, carried, (order_seen_by_readers awaits canonical carried).2⟩

end Traffic

end Relay
