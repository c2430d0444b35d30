import Relay.Http.Service
import Relay.Proofs.Decode.Spelling
import Relay.Proofs.Http.Route
import Relay.Proofs.Workflow.Circumstances
import Relay.Proofs.Workflow.Course
import Relay.Proofs.Workflow.Outcome

/-!
# Requests that create workflows

Between a request to create a workflow and its workflow stand the text of the body, the shape of
what it spells, the checks of the graph, the compilation and the queues, and each of them may fail.
The response tells failures that the caller can mend from all others.  Validation leaves nothing
for the compilation to complain about, so the others are all of one kind: a queue is full.  And
since the caller's mistakes come to light before anything is touched, no failure leaves a record
or a job behind.
-/

namespace Relay

/-- A value asks for a workflow: it stands for a list of tasks that are valid. -/
structure Json.AsksFor (value : Json) (tasks : List Task) : Prop where
  decoded : value.decode Task.listDecoder = .ok tasks
  valid : Graph.validate tasks = .ok ()

/-- A value asks for the jobs of one chain only. -/
theorem Json.AsksFor.chain_unique {value : Json} {tasks others : List Task} {routing : Routing}
    {id : Uuid} {chain other : Flow} (asks : value.AsksFor tasks)
    (compiled : Submission.chainOf routing id tasks = .ok chain) (asksElse : value.AsksFor others)
    (compiledElse : Submission.chainOf routing id others = .ok other) : chain = other := by
  obtain rfl := Except.ok.inj (asks.decoded.symm.trans asksElse.decoded)
  exact Except.ok.inj (compiled.symm.trans compiledElse)

/-! ## Room -/

namespace Queues

/-- A queue has fewer places left than a flow has jobs for it. -/
def LacksRoom (queues : Queues) (flow : Flow) (queue : String) : Prop :=
  (queues.settingsOf queue).maxQueueLength <
    queues.unfinishedCount queue + flow.queueList.count queue

variable {settings : Dict QueueSettings} {queues after : Queues} {flow : Flow} {queue : String}
  {counts : List (String × Nat)}

theorem Touched.lacksRoom_iff (touched : Touched queues after) :
    after.LacksRoom flow queue ↔ queues.LacksRoom flow queue := by
  rw [LacksRoom, LacksRoom, settingsOf, settingsOf, touched.settings, touched.unfinishedCount]

/-- A flow is accepted exactly if no queue lacks room for it. -/
theorem accepted_iff_lacksRoom (reached : Reachable settings queues)
    (perm : counts.Perm (countsOf flow)) :
    (∃ added, (addInOrder counts queues flow).1 = .ok added) ↔
      ∀ queue, ¬ queues.LacksRoom flow queue := by
  have counted := reached.counted
  have distinct : (counts.map Prod.fst).Nodup :=
    (perm.map Prod.fst).nodup_iff.2 (nodup_countsOf flow)
  have room : ∀ queue count, queues.hasRoom queue count = true ↔
      queues.unfinishedCount queue + count ≤ (queues.settingsOf queue).maxQueueLength :=
    fun queue _ => counted.settings queue ▸ hasRoom_iff
  simp only [accepted_iff_reserve, reserve_fst_eq_none_iff distinct, LacksRoom, Nat.not_lt, room]
  constructor
  · intro fits queue
    by_cases member : queue ∈ flow.queueList
    · exact fits (queue, _) (perm.mem_iff.2 (mem_countsOf.2 ⟨member, rfl⟩))
    · -- A queue without a job of the flow holds no more than it may.
      rw [List.count_eq_zero.2 member, Nat.add_zero, unfinishedCount_eq, ← counted.settings]
      exact counted.bounded queue
  · intro fits entry member
    rw [(mem_countsOf.1 (perm.mem_iff.1 member)).2]
    exact fits entry.1

end Queues

/-! ## Reading what was accepted -/

/-- A view of a workflow has one step for every task, in the order in which they run. -/
structure WorkflowView.Covers (view : WorkflowView) (id : Uuid) (tasks : List Task) : Prop where
  id : view.id = id
  steps : ∃ order, Graph.order tasks = .ok order ∧ order.Perm tasks ∧
    view.steps.map StepStatus.jobName = order.map Task.name

/-- A chain that is submitted is the chain of all tasks in their order. -/
theorem Submission.order_of_chainOf {routing : Routing} {id : Uuid} {tasks : List Task}
    {chain : Flow} (compiled : chainOf routing id tasks = .ok chain) :
    ∃ order, Graph.order tasks = .ok order ∧ order.Perm tasks ∧
      chain ∈ Chain.wrapAll id routing order := by
  obtain ⟨valid, order, ordered, member⟩ := chainOf_ok compiled
  obtain ⟨other, isOrder, perm, -⟩ := Graph.order_of_validate valid
  cases ordered.symm.trans isOrder
  exact ⟨order, ordered, perm, member⟩

namespace WorkflowSystem

section Reading

variable {routing : Routing} {settings : Dict QueueSettings} {system : WorkflowSystem}
  {id : Uuid} {tasks : List Task} {chain : Flow} {counts : List (String × Nat)}
  {added : AddedFlow} {queues : Queues} {record : WorkflowRecord}

/-- The system in which the queues have taken a chain and the store its record. -/
theorem Reached.recorded (reached : Reached routing settings system)
    (perm : counts.Perm (Queues.countsOf chain))
    (accepted : (system.listening chain).queues.addInOrder counts chain = (.ok added, queues))
    (isRecord : record = RecordStore.recordOf (.ofMilliseconds queues.now)
      (Submission.newRecord id added tasks)) :
    Reached routing settings
      { system.listening chain with
        queues, records := (system.listening chain).records.insert record } := by
  obtain rfl : _ = queues := congrArg Prod.snd accepted
  rw [isRecord]
  have listening : Reached routing settings (system.listening chain) := reached.listen _
  exact (listening.works (.add perm)).acts (.insertRecord (Submission.newRecord id added tasks))

/-- The queues take a chain exactly if none of them lacked room before they were followed. -/
theorem Reached.accepted_iff (reached : Reached routing settings system)
    (perm : counts.Perm (Queues.countsOf chain)) :
    (∃ added, ((system.listening chain).queues.addInOrder counts chain).1 = .ok added) ↔
      ∀ queue, ¬ system.queues.LacksRoom chain queue := by
  have listening : Reached routing settings (system.listening chain) := reached.listen _
  have touched := (OnlyFollowed.listening system chain).queues
  rw [Queues.accepted_iff_lacksRoom listening.sound.1 perm]
  exact forall_congr' fun _ => touched.lacksRoom_iff.not

/-- A workflow whose jobs are all stored can be read, and has one step for every task. -/
theorem Reached.reads_taken (reached : Reached routing settings system) {root : JobKey}
    {links : List Link} (known : system.records.get? id = some record)
    (isRoot : record.rootKey = root) (taken : Queues.HasTaken settings root links system.queues) :
    ∃ view, (system.read id).1 = .ok (some view) ∧ view.id = id ∧
      view.steps.map StepStatus.jobName = links.map fun link => link.seed.name := by
  subst root
  obtain ⟨job, stored⟩ := taken.root_stored
  obtain ⟨view, after, read, describes, -⟩ := reached.reads_live known stored
  obtain ⟨tree, shows, steps⟩ := describes.steps
  have listed := congrArg (List.map Prod.snd) (taken.lists shows).steps
  rw [← steps, List.map_map, List.map_map] at listed
  exact ⟨view, congrArg Prod.fst read, describes.id.trans (reached.sound.2.id_eq known), listed⟩

/-- A workflow can be read as soon as its record is stored. -/
theorem Reached.reads_recorded (reached : Reached routing settings system)
    (compiled : Submission.chainOf system.routing id tasks = .ok chain)
    (perm : counts.Perm (Queues.countsOf chain))
    (accepted : (system.listening chain).queues.addInOrder counts chain = (.ok added, queues))
    (isRecord : record = RecordStore.recordOf (.ofMilliseconds queues.now)
      (Submission.newRecord id added tasks)) :
    ∃ view, (WorkflowSystem.read { system.listening chain with
        queues, records := (system.listening chain).records.insert record } id).1 =
      .ok (some view) ∧ view.Covers id tasks := by
  obtain ⟨order, ordered, sameTasks, member⟩ := Submission.order_of_chainOf compiled
  have recorded := reached.recorded perm accepted isRecord
  obtain ⟨rfl, admits⟩ := admits_of_accepted reached perm accepted
  have taken := hasTaken_of_plants recorded.sound.1 admits.plants member
  have named : record.id = id := by rw [isRecord]; rfl
  have rooted : record.rootKey = ⟨chain.queueName, jobIdOf system.queues.nextSerial⟩ := by
    rw [isRecord]; rfl
  have known := (RecordStore.get?_insert (system.listening chain).records record id).trans
    (if_pos named.symm)
  obtain ⟨view, read, isView, steps⟩ := recorded.reads_taken known rooted taken
  exact ⟨view, read, isView, order, ordered, sameTasks, steps.trans Chain.names_linksBetween⟩

end Reading

/-- Serve a request under some circumstances; a workflow that it creates gets a fresh
identifier. -/
def serveUnder (circumstances : Circumstances) (system : WorkflowSystem) (fresh : Uuid)
    (request : Http.Request) : Http.Response × WorkflowSystem :=
  (Http.serve system.routing fresh request).run circumstances.answer system

end WorkflowSystem

namespace Http

@[simp] theorem Response.status_failure (status : Nat) (message : String) :
    (failure status message).status = status := rfl

@[simp] theorem Response.status_ok (value : Json) : (ok value).status = 200 := rfl

/-! ## Requests -/

/-- A request posts a value to where workflows are created: its body is announced as JSON and
spells the value, and does not nest too deep. -/
structure Request.Posts (request : Request) (value : Json) : Prop where
  method : request.method = "POST"
  target : Route.ofPath? (Route.pathOf request.target) = some .create
  announced : request.announcesJson = true
  spelt : (Reading.ofText request.body).document.Spells value
  flat : (Reading.ofText request.body).document.height ≤ Place.deepest

/-- A request asks for a workflow by its identifier. -/
structure Request.AsksAbout (request : Request) (id : Uuid) : Prop where
  method : request.method = "GET"
  target : request.target = "/workflow/query/" ++ id.text

section Requests

variable {request : Request} {value : Json} {id : Uuid}

theorem Request.Posts.serve (posts : request.Posts value) (routing : Routing) (fresh : Uuid) :
    Http.serve routing fresh request = create routing fresh request := by
  have isPost : request.method ≠ "OPTIONS" := by
    rw [posts.method]
    decide
  rw [Http.serve, if_neg isPost, posts.target]
  exact if_pos posts.method

/-- The body of a request is decoded as what it spells. -/
theorem Request.Posts.decode_iff (posts : request.Posts value) {tasks : List Task} :
    request.decode Task.listDecoder = .ok tasks ↔ value.decode Task.listDecoder = .ok tasks := by
  rw [Request.decode, if_pos posts.announced,
    ← Task.listDecoder_faithful.decode_iff posts.spelt posts.flat]
  cases Task.listDecoder ⟨.text, 0⟩ (Reading.ofText request.body).document <;>
    simp [Except.mapError]

/-- Somebody who asks for a workflow gets what a reader of the workflow sees. -/
theorem Request.AsksAbout.served (asks : request.AsksAbout id) (system : WorkflowSystem)
    (fresh : Uuid) : (system.perform (Http.serve system.routing fresh request)).1 =
      viewResponse id (system.read id).1 := by
  have isGet : request.method ≠ "OPTIONS" := by
    rw [asks.method]
    decide
  have route : Route.ofPath? (Route.pathOf request.target) = some (.query id.text) := by
    rw [asks.target, Route.pathOf_query id.plain_text,
      Route.ofPath?_query id.plain_text id.text_ne_empty]
  have reads : Http.serve system.routing fresh request =
      Inspection.read id >>= fun answer => return viewResponse id answer := by
    rw [Http.serve, if_neg isGet, route]
    dsimp only
    rw [if_pos asks.method, query, withParameter, percentDecode?_of_plain id.plain_text]
    dsimp only
    rw [Uuid.ofText?_text]
  rw [reads, WorkflowSystem.perform, Routine.run_bind]
  rfl

end Requests

/-! ## The verdict -/

open WorkflowSystem (OnlyFollowed)

/-- The three ways in which a request to create a workflow ends. -/
inductive Verdict (system : WorkflowSystem) (id : Uuid) (value : Json) :
    Response × WorkflowSystem → Prop where
  | invalid {message : String} (nothing : ∀ tasks, ¬ value.AsksFor tasks) :
      Verdict system id value (.failure 400 message, system)
  | full {message : String} {tasks : List Task} {chain : Flow} {queue : String}
      {after : WorkflowSystem} (asks : value.AsksFor tasks)
      (compiled : Submission.chainOf system.routing id tasks = .ok chain)
      (lacks : system.queues.LacksRoom chain queue) (followed : OnlyFollowed system after) :
      Verdict system id value (.failure 500 message, after)
  | created {tasks : List Task} {chain : Flow} {submitted : SubmittedWorkflow}
      {view : WorkflowView} {after : WorkflowSystem} (asks : value.AsksFor tasks)
      (compiled : Submission.chainOf system.routing id tasks = .ok chain)
      (room : ∀ queue, ¬ system.queues.LacksRoom chain queue) (named : submitted.workflowId = id)
      (read : (after.read id).1 = .ok (some view)) (covers : view.Covers id tasks) :
      Verdict system id value (.ok submitted.toJson, after)

section Verdict

variable {routing : Routing} {settings : Dict QueueSettings} {system : WorkflowSystem}
  {circumstances : Circumstances} {id : Uuid} {request : Request} {value : Json}

/-- What is asked for is submitted, and the response tells what became of it. -/
theorem serveUnder_of_decoded (posts : request.Posts value) {tasks : List Task}
    (decoded : request.decode Task.listDecoder = .ok tasks) :
    system.serveUnder circumstances id request =
      (submissionResponse (system.submitUnder circumstances id (.list tasks)).1,
        (system.submitUnder circumstances id (.list tasks)).2) := by
  rw [WorkflowSystem.serveUnder, posts.serve, create, withBody, decoded]
  exact Routine.run_bind _ _ _ _

/-- However a submission ends, the response tells in which of the three ways. -/
theorem verdict_of_ends {tasks : List Task}
    {outcome : Except WorkflowProblem SubmittedWorkflow × WorkflowSystem}
    (reached : WorkflowSystem.Reached routing settings system)
    (places : ∀ flow, (circumstances.places flow).Perm (Queues.countsOf flow))
    (unhindered : circumstances.refusal = none)
    (isList : value.decode Task.listDecoder = .ok tasks)
    (ends : WorkflowSystem.Ends circumstances system id (.list tasks) outcome) :
    Verdict system id value (submissionResponse outcome.1, outcome.2) := by
  cases ends with
  | invalid unplanned =>
      rw [submissionResponse, problemResponse,
        if_pos (Submission.Request.isValidation_of_plan unplanned)]
      refine .invalid fun others asks => ?_
      obtain rfl := Except.ok.inj (isList.symm.trans asks.decoded)
      obtain ⟨order, chain, -, -, compiled⟩ := chainOf_of_validate system.routing id asks.valid
      have planned := Submission.Request.plan_list_eq_ok_iff.2 ⟨Eq.refl tasks, compiled⟩
      cases unplanned.symm.trans planned
  | @refused _ chain problem queues planned refused =>
      obtain ⟨rfl, compiled⟩ := Submission.Request.plan_list_eq_ok_iff.1 planned
      obtain ⟨-, touched⟩ := Queues.touched_of_addInOrder refused
      have lacks : ∃ queue, system.queues.LacksRoom chain queue := by
        by_contra room
        obtain ⟨added, accepted⟩ := (reached.accepted_iff (places chain)).2 (not_exists.1 room)
        rw [refused] at accepted
        cases accepted
      obtain ⟨queue, lacks⟩ := lacks
      exact .full ⟨isList, (chainOf_ok compiled).1⟩ compiled lacks
        ((OnlyFollowed.listening system chain).touched touched)
  | unrecorded planned accepted refusal => cases unhindered.symm.trans refusal
  | @recorded _ chain added queues record planned accepted unhindered isRecord =>
      obtain ⟨rfl, compiled⟩ := Submission.Request.plan_list_eq_ok_iff.1 planned
      have room := (reached.accepted_iff (places chain)).1 ⟨added, by rw [accepted]⟩
      obtain ⟨view, read, covers⟩ :=
        reached.reads_recorded compiled (places chain) accepted isRecord
      exact .created ⟨isList, (chainOf_ok compiled).1⟩ compiled room rfl read covers

/-- Every value that is posted gets a verdict. -/
theorem verdict_of_posts (reached : WorkflowSystem.Reached routing settings system)
    (places : ∀ flow, (circumstances.places flow).Perm (Queues.countsOf flow))
    (unhindered : circumstances.refusal = none) (posts : request.Posts value) :
    Verdict system id value (system.serveUnder circumstances id request) := by
  cases decoded : request.decode Task.listDecoder with
  | error problem =>
      have nothing : ∀ tasks, ¬ value.AsksFor tasks := fun tasks asks => by
        cases decoded.symm.trans (posts.decode_iff.2 asks.decoded)
      rw [WorkflowSystem.serveUnder, posts.serve, create, withBody, decoded]
      exact .invalid nothing
  | ok tasks =>
      rw [serveUnder_of_decoded posts decoded]
      exact verdict_of_ends reached places unhindered (posts.decode_iff.1 decoded)
        (system.submitUnder_ends circumstances id (.list tasks))

end Verdict

/-! ## The classification -/

/-- What the status of the response to a value that is posted tells, and what is left behind. -/
structure Classified (system : WorkflowSystem) (id : Uuid) (value : Json)
    (outcome : Response × WorkflowSystem) : Prop where
  status : outcome.1.status = 200 ∨ outcome.1.status = 400 ∨ outcome.1.status = 500
  /-- The value does not stand for tasks, or the tasks are not valid. -/
  invalid : outcome.1.status = 400 ↔ ∀ tasks, ¬ value.AsksFor tasks
  /-- The tasks are valid, but some queue lacks room for the jobs of their chain. -/
  full : outcome.1.status = 500 ↔ ∃ tasks chain, value.AsksFor tasks ∧
    Submission.chainOf system.routing id tasks = .ok chain ∧
    ∃ queue, system.queues.LacksRoom chain queue
  /-- The tasks are valid, and no queue lacks room. -/
  created : outcome.1.status = 200 ↔ ∃ tasks chain, value.AsksFor tasks ∧
    Submission.chainOf system.routing id tasks = .ok chain ∧
    ∀ queue, ¬ system.queues.LacksRoom chain queue
  /-- Whoever asks for the new workflow right away is shown a step for every task. -/
  readable : outcome.1.status = 200 → ∃ (submitted : SubmittedWorkflow) (tasks : List Task)
    (view : WorkflowView), outcome.1.content = .json submitted.toJson ∧
      submitted.workflowId = id ∧ value.AsksFor tasks ∧ view.Covers submitted.workflowId tasks ∧
      ∀ request, request.AsksAbout submitted.workflowId → ∀ fresh,
        (outcome.2.perform (serve outcome.2.routing fresh request)).1 = .ok view.toJson
  /-- The caller's mistakes change nothing. -/
  untouched : outcome.1.status = 400 → outcome.2 = system
  /-- No failure leaves anything behind but queues that are followed. -/
  rejected : outcome.1.status ≠ 200 → OnlyFollowed system outcome.2 ∧
    outcome.2.records = system.records ∧ outcome.2.queues.jobs = system.queues.jobs

theorem Verdict.classified {system : WorkflowSystem} {id : Uuid} {value : Json}
    {outcome : Response × WorkflowSystem} (verdict : Verdict system id value outcome) :
    Classified system id value outcome := by
  cases verdict with
  | @invalid message nothing =>
      constructor
      case status => exact .inr (.inl rfl)
      case invalid => exact iff_of_true rfl nothing
      case full => exact iff_of_false (by simp) fun ⟨tasks, _, asks, _⟩ => nothing tasks asks
      case created => exact iff_of_false (by simp) fun ⟨tasks, _, asks, _⟩ => nothing tasks asks
      case readable => exact fun isCreated => absurd isCreated (by simp)
      case untouched => exact fun _ => rfl
      case rejected => exact fun _ => ⟨.refl system, rfl, rfl⟩
  | @full message tasks chain queue after asks compiled lacks followed =>
      constructor
      case status => exact .inr (.inr rfl)
      case invalid => exact iff_of_false (by simp) fun nothing => nothing tasks asks
      case full => exact iff_of_true rfl ⟨tasks, chain, asks, compiled, queue, lacks⟩
      case created =>
        refine iff_of_false (by simp) ?_
        rintro ⟨others, other, asksElse, compiledElse, room⟩
        obtain rfl := asks.chain_unique compiled asksElse compiledElse
        exact room queue lacks
      case readable => exact fun isCreated => absurd isCreated (by simp)
      case untouched => exact fun isInvalid => absurd isInvalid (by simp)
      case rejected => exact fun _ => ⟨followed, followed.records, followed.queues.jobs⟩
  | @created tasks chain submitted view after asks compiled room named read covers =>
      subst named
      constructor
      case status => exact .inl rfl
      case invalid => exact iff_of_false (by simp) fun nothing => nothing tasks asks
      case full =>
        refine iff_of_false (by simp) ?_
        rintro ⟨others, other, asksElse, compiledElse, queue, lacks⟩
        obtain rfl := asks.chain_unique compiled asksElse compiledElse
        exact room queue lacks
      case created => exact iff_of_true rfl ⟨tasks, chain, asks, compiled, room⟩
      case readable =>
        intro _
        refine ⟨submitted, tasks, view, rfl, rfl, asks, covers, fun request reads fresh => ?_⟩
        rw [reads.served, read]
        rfl
      case untouched => exact fun isInvalid => absurd isInvalid (by simp)
      case rejected => exact fun failed => absurd rfl failed

/-- Creation is classified exactly.  In every system that can be reached, for every value that is
posted, and in whichever order its chain claims places: the status is 400 exactly if the value
does not stand for a list of valid tasks; otherwise it is 500 exactly if some queue lacks room for
the jobs of the chain that the tasks are compiled to; otherwise it is 200, and the new workflow can
be read at once, with a step for every task.  Whatever is not created leaves the records and the
jobs as they were. -/
theorem creation_classified {routing : Routing} {settings : Dict QueueSettings}
    {system : WorkflowSystem} {circumstances : Circumstances} {id : Uuid} {request : Request}
    {value : Json} (reached : WorkflowSystem.Reached routing settings system)
    (places : ∀ flow, (circumstances.places flow).Perm (Queues.countsOf flow))
    (unhindered : circumstances.refusal = none) (posts : request.Posts value) :
    Classified system id value (system.serveUnder circumstances id request) :=
  (verdict_of_posts reached places unhindered posts).classified

/-- A request whose body lists a single task, with its members in another order than usual. -/
def Sample.posting : Request :=
  { method := "POST", target := "/workflow/create", contentType := some "application/json"
    body := "[\x7b\"type\":\"work\",\"name\":\"only\"\x7d]" }

/-- The value that the body spells. -/
def Sample.posted : Json :=
  .array [.object [("name", .string "only"), ("type", .string "work")]]

theorem Sample.posting_posts : Sample.posting.Posts Sample.posted := by
  have document : (Reading.ofText Sample.posting.body).document =
      .list [.table [(some "type", .string "work"), (some "name", .string "only")] none] none := by
    have chars : Sample.posting.body.toList = ['[', '\x7b', '"', 't', 'y', 'p', 'e', '"', ':', '"',
        'w', 'o', 'r', 'k', '"', ',', '"', 'n', 'a', 'm', 'e', '"', ':', '"', 'o', 'n', 'l', 'y', '"',
        '\x7d', ']'] := by
      decide
    rw [Reading.ofText, chars]
    rfl
  constructor
  case method => rfl
  case target => exact Route.ofPath?_create
  case announced => decide +kernel
  case spelt =>
    rw [document]
    refine .array (.cons (.object (.cons (.string _) (.cons (.string _) .nil)) ?_ ?_) .nil)
    · exact .swap _ _ _
    · decide
  case flat =>
    rw [document]
    decide

theorem creation_classified_posting :
    let system := WorkflowSystem.start .standard .empty
    Sample.posting.Posts Sample.posted ∧
    (system.serveUnder .usual (Uuid.ofNat 7) Sample.posting).1.status = 200 ∧
    Classified system (Uuid.ofNat 7) Sample.posted
      (system.serveUnder .usual (Uuid.ofNat 7) Sample.posting) := by
  intro system
  have created : (system.serveUnder .usual (Uuid.ofNat 7) Sample.posting).1.status = 200 := by
    decide +kernel
  exact ⟨Sample.posting_posts, created, creation_classified .start (fun _ => .refl _) rfl
    Sample.posting_posts⟩

end Http

end Relay
