import Relay.Proofs.Queue.Fate
import Relay.Proofs.Workflow.Pursuit
import Relay.Proofs.Workflow.Schedule
import Relay.Proofs.Workflow.Validation
import Relay.Template

/-!
# The outcome of a workflow

When nothing is pending any more, the jobs of an accepted workflow have ended as its
steps did: all of them have completed, or the first one that fails for good has failed,
those before it have completed, and those after it have inherited its failure without
an attempt.  The steps were started in compiled order, and never two of them at once.

The record of the workflow says how it ended exactly if somebody noticed it.  A listener
looks for the record when the root job has ended, but it may do so before the record is
stored; then only a later reader brings the record up to date.
-/

namespace Relay

/-- Everything that holds in a world that can be reached. -/
structure Account (script : Script) (routing : Routing) (settings : Dict QueueSettings)
    (world : World) (stages : Agent → Stage) : Prop where
  tended : world.Tended stages
  kept : Kept script routing settings world stages
  noticed : ∀ key, Noticed world.journal key ↔ Promised world.system.records stages key
  delivered : Delivered world stages
  pursued : Pursued world stages

namespace Account

variable {script : Script} {routing : Routing} {settings : Dict QueueSettings} {world : World}
  {stages : Agent → Stage}

theorem start (script : Script) (routing : Routing) (settings : Dict QueueSettings) :
    Account script routing settings (.start routing settings) fun _ => .ended where
  tended := .start routing settings
  kept := .start script routing settings
  noticed := by
    intro key
    constructor
    · rintro ⟨entry, member, -⟩
      exact absurd member List.not_mem_nil
    · rintro ⟨id, record, stored, -⟩
      exact (Option.some_ne_none record stored.symm).elim
  delivered := .start routing settings
  pursued := .start routing settings

/-- Every step keeps all of it. -/
theorem step {after : World} (account : Account script routing settings world stages)
    (step : World.Step script world after) :
    ∃ later, Account script routing settings after later := by
  obtain ⟨later, tended, turn⟩ := account.tended.turn step
  have kept := account.kept.turn account.tended.exclusive turn
  have grows := turn.grows account.kept.orderly kept.orderly
  refine ⟨later, tended, kept, ?_, ?_, ?_⟩
  · exact account.kept.noticed_turn account.noticed turn
  · exact account.delivered.turn account.kept grows turn
  · exact account.pursued.turn account.kept turn

end Account

namespace World

variable {script : Script} {routing : Routing} {settings : Dict QueueSettings} {world : World}

theorem Reachable.account (reached : Reachable script routing settings world) :
    ∃ stages, Account script routing settings world stages := by
  induction reached with
  | start => exact ⟨_, .start script routing settings⟩
  | step reached step ih =>
      obtain ⟨stages, account⟩ := ih
      exact account.step step

/-! ## Worlds at rest -/

namespace AtRest

/-- Nothing is pending for a job whose queue has a worker. -/
theorem agenda (rest : AtRest world) {key : JobKey}
    (staffed : world.system.queues.hasWorker key.queue = true) :
    world.system.queues.agenda key = .nothing := by
  obtain ⟨idle, ready⟩ := rest.workers key.queue staffed
  unfold Queues.agenda Queues.starts
  rw [idle, ready, rest.running, rest.timers]
  rfl

/-- At rest no job is under way whose queue has a worker. -/
theorem not_underway (rest : AtRest world) (steady : world.system.queues.Steady none [])
    {trials : Trials} {link : Link}
    (staffed : world.system.queues.hasWorker link.key.queue = true) :
    ¬ link.Underway world.system.queues.job? trials := by
  rintro ⟨job, tries, stored, -, -, state⟩
  have nothing : job.state.agenda = .nothing :=
    (steady.agenda_eq stored).symm.trans (rest.agenda staffed)
  rcases state with ⟨active, -⟩ | ⟨waiting | delayed, -⟩
  · rw [active] at nothing
    cases nothing
  · rw [waiting] at nothing
    cases nothing
  · rw [delayed] at nothing
    cases nothing

/-- At rest a chain has come to its end. -/
theorem settled (rest : AtRest world) (steady : world.system.queues.Steady none [])
    {trials : Trials} {links : List Link} (phase : Phase trials world.system.queues.job? links)
    (staffed : ∀ link ∈ links, world.system.queues.hasWorker link.key.queue = true) :
    (∀ link ∈ links, link.Completed world.system.queues.job? trials) ∨
      ∃ before link after error, links = before ++ link :: after ∧
        Stranded trials world.system.queues.job? before link after error := by
  cases phase with
  | completed all => exact .inl all
  | @live before after link whole live =>
      have member : link ∈ links := whole ▸ List.mem_append_right _ List.mem_cons_self
      exact absurd live.underway (rest.not_underway steady (staffed link member))
  | stranded whole stranded => exact .inr ⟨_, _, _, _, whole, stranded⟩

end AtRest

end World

/-! ## Jobs and records at rest -/

/-- Tasks that are valid can be compiled. -/
theorem chainOf_of_validate {tasks : List Task} (routing : Routing) (id : Uuid)
    (valid : Graph.validate tasks = .ok ()) :
    ∃ order chain, Graph.order tasks = .ok order ∧ order.Perm tasks ∧
      Submission.chainOf routing id tasks = .ok chain := by
  obtain ⟨order, ordered, perm, -, nonempty⟩ := Graph.order_of_validate valid
  obtain ⟨chain, compiled, -⟩ := @Chain.compile_ok id routing order nonempty
  exact ⟨order, chain, ordered, perm,
    (Submission.chainOf_eq_compile routing id valid ordered).trans compiled⟩

/-- The last job of a chain that has failed has failed, too. -/
theorem Stranded.last {trials : Trials} {jobs : JobKey → Option Job} {before after : List Link}
    {link last : Link} {error : JobError} (stranded : Stranded trials jobs before link after error)
    (isLast : (before ++ link :: after).getLast? = some last) :
    ∃ job, jobs last.key = some job ∧ job.state = .failed := by
  rw [List.getLast?_append_of_ne_nil _ (List.cons_ne_nil link after)] at isLast
  rcases List.mem_cons.1 (List.mem_of_getLast? isLast) with rfl | above
  · obtain ⟨job, tries, stored, -, failed, -⟩ := stranded.broken
    exact ⟨job, stored, failed⟩
  · obtain ⟨job, stored, -, failed, -⟩ := stranded.rest last above
    exact ⟨job, stored, failed⟩

namespace Account

variable {script : Script} {routing : Routing} {settings : Dict QueueSettings} {world : World}
  {stages : Agent → Stage} {id : Uuid} {tasks : List Task} {added : AddedFlow}

theorem ended (account : Account script routing settings world stages) (rest : world.AtRest)
    (agent : Agent) : stages agent = .ended :=
  account.tended.idle agent (rest.threads agent)

/-- At rest a valid workflow that was not refused has been accepted. -/
theorem accepted (account : Account script routing settings world stages) (rest : world.AtRest)
    (submitted : world.submitted id = some tasks) (valid : Graph.validate tasks = .ok ())
    (admitted : ¬ Refused world.journal id) : ∃ added, Accepted world.journal id added := by
  obtain ⟨order, chain, -, -, compiled⟩ := chainOf_of_validate world.system.routing id valid
  rcases account.pursued.handed id tasks chain submitted compiled with
    ⟨heard, here⟩ | ⟨problem | added, member⟩
  · rw [account.ended rest] at here
    cases here
  · exact absurd ⟨chain, problem, member⟩ admitted
  · exact ⟨added, chain, member⟩

/-- At rest an accepted workflow has a record. -/
theorem recorded (account : Account script routing settings world stages) (rest : world.AtRest)
    (accepted : Accepted world.journal id added) :
    ∃ record, world.system.records.get? id = some record ∧ record.rootKey = added.rootKey := by
  rcases account.pursued.stored id added accepted with ⟨tasks, here⟩ | ⟨record, stored⟩
  · rw [account.ended rest] at here
    cases here
  · obtain ⟨other, isOther, root⟩ := account.kept.recorded.rooted id record stored
    rw [account.kept.orderly.single id other added isOther accepted] at root
    exact ⟨record, stored, root⟩

/-- At rest the record of a workflow tells how its root job ended exactly if somebody
noticed. -/
theorem status_iff (account : Account script routing settings world stages)
    (rest : world.AtRest) (accepted : Accepted world.journal id added) {record : WorkflowRecord}
    (stored : world.system.records.get? id = some record) (root : record.rootKey = added.rootKey)
    {job : Job} (isRoot : world.system.queues.job? added.rootKey = some job)
    (finished : job.state.isFinished = true) :
    record.status = job.state.text ↔ Noticed world.journal added.rootKey := by
  rw [account.noticed]
  constructor
  · intro told
    refine ⟨id, record, stored, root, .inl ?_⟩
    unfold WorkflowRecord.isTerminal
    rw [told, isTerminal_ofText]
    exact finished
  · rintro ⟨other, found, isFound, rootFound, final | ⟨agent, promises⟩⟩
    · obtain ⟨first, isFirst, rootFirst⟩ := account.kept.recorded.rooted other found isFound
      have sameJob : first.jobId = added.jobId :=
        congrArg JobKey.id (rootFirst.symm.trans rootFound)
      obtain rfl := account.kept.orderly.distinct other id first added isFirst accepted sameJob
      cases stored.symm.trans isFound
      obtain ⟨ended, isEnded, -, told⟩ := account.kept.recorded.truth other record stored final
      rw [root] at isEnded
      cases isRoot.symm.trans isEnded
      exact told.symm
    · rw [account.ended rest] at promises
      cases promises

/-- At rest a listener has looked for the record of every root job that has finished. -/
theorem lookedUp (account : Account script routing settings world stages) (rest : world.AtRest)
    (accepted : Accepted world.journal id added) {job : Job}
    (isRoot : world.system.queues.job? added.rootKey = some job)
    (finished : job.state.isFinished = true) : LookedUp world.journal added.rootKey := by
  have announced := account.kept.orderly.reached.announced
  obtain ⟨event, member, named⟩ := announced.complete added.rootKey job isRoot finished
  obtain ⟨index, below, isEvent⟩ := List.getElem_of_mem member
  obtain ⟨subscription, isFollowed⟩ :=
    Option.isSome_iff_exists.1 (account.delivered.followed id added accepted)
  have through : (world.system.queues.lane added.queueName).events.length ≤
      subscription.position := by
    have nothing := rest.events added.queueName
    unfold WorkflowSystem.receive? at nothing
    rw [isFollowed, Option.bind_some, Option.map_eq_none_iff] at nothing
    unfold Subscription.receive? at nothing
    dsimp only at nothing
    split at nothing
    · cases nothing
    · exact List.getElem?_eq_none_iff.1 (Option.map_eq_none_iff.1 nothing)
  rcases account.delivered.behind id added accepted subscription isFollowed index event
    (List.getElem?_eq_some_iff.2 ⟨below, isEvent⟩) named (Nat.lt_of_lt_of_le below through) with
    handled | lookedUp
  · rw [account.ended rest] at handled
    cases handled
  · exact lookedUp

end Account

/-! ## Outcomes -/

/-- The attempts of a chain of steps are started one after another: each step after the ones
before it, and no two of them at once. -/
structure InTurn (world : World) (links : List Link) : Prop where
  alone : world.system.queues.running.countP (fun call => call.key ∈ links.map Link.key) ≤ 1
  ordered : attemptsAmong links world.started = triedInOrder world.system.queues.job? links

/-- How a workflow has ended, and what its record says of it. -/
structure Outcome (trials : Trials) (world : World) (links : List Link) (root : JobKey)
    (record : WorkflowRecord) : Prop where
  completes : (∀ link ∈ links, link.Succeeding trials) →
    (∀ link ∈ links, link.Completed world.system.queues.job? trials) ∧
      (record.status = "completed" ↔ Noticed world.journal root)
  fails : ∀ before link after error, links = before ++ link :: after →
    FirstFailing trials before link error →
    Stranded trials world.system.queues.job? before link after error ∧
      (record.status = "failed" ↔ Noticed world.journal root)
  /-- One or the other is the case. -/
  decided : (∀ link ∈ links, link.Succeeding trials) ∨
    ∃ before link after error, links = before ++ link :: after ∧
      FirstFailing trials before link error
  /-- A listener has looked for the record, in time or too early. -/
  lookedUp : LookedUp world.journal root

namespace Account

variable {script : Script} {routing : Routing} {settings : Dict QueueSettings} {world : World}
  {stages : Agent → Stage} {id : Uuid} {added : AddedFlow} {order : List Task} {serial : Nat}
  {record : WorkflowRecord}

/-- At every moment the steps of an accepted workflow have been started in turn. -/
theorem inTurn (account : Account script routing settings world stages)
    (enrolled : Enrolled script routing settings world id added order serial) :
    InTurn world (Chain.links id routing serial order) where
  alone := enrolled.phase.oneCall (Chain.linked id routing serial order)
    account.kept.orderly.reached.steady
  ordered := enrolled.tried.symm

/-- At rest an accepted workflow whose queues have workers has an outcome. -/
theorem outcome (account : Account script routing settings world stages) (rest : world.AtRest)
    (accepted : Accepted world.journal id added)
    (enrolled : Enrolled script routing settings world id added order serial)
    (staffed : ∀ task ∈ order, world.system.queues.hasWorker (routing.queueFor task) = true)
    (stored : world.system.records.get? id = some record)
    (root : record.rootKey = added.rootKey) :
    Outcome (script.trials settings) world (Chain.links id routing serial order) added.rootKey
      record := by
  have status : ∀ job, world.system.queues.job? added.rootKey = some job →
      job.state.isFinished = true →
      (record.status = job.state.text ↔ Noticed world.journal added.rootKey) :=
    fun _ => account.status_iff rest accepted stored root
  have lookedUp : ∀ job, world.system.queues.job? added.rootKey = some job →
      job.state.isFinished = true → LookedUp world.journal added.rootKey :=
    fun _ => account.lookedUp rest accepted
  have staffedLinks : ∀ link ∈ Chain.links id routing serial order,
      world.system.queues.hasWorker link.key.queue = true := by
    intro link member
    obtain ⟨task, isTask, -, -, queue, -⟩ := Chain.mem_linksBetween member
    rw [queue]
    exact staffed task isTask
  obtain ⟨last, isLast, member, key⟩ := enrolled.root_mem
  rw [← key] at status lookedUp ⊢
  rcases rest.settled account.kept.orderly.reached.steady enrolled.phase staffedLinks with
    all | ⟨before, link, after, error, whole, stranded⟩
  · obtain ⟨job, -, isRoot, -, completed, -⟩ := all last member
    have finished : job.state.isFinished = true := by rw [completed]; rfl
    have noticed := status job isRoot finished
    rw [completed] at noticed
    constructor
    case completes => exact fun _ => ⟨all, noticed⟩
    case fails =>
      intro before link after error whole first
      have inside : link ∈ Chain.links id routing serial order :=
        whole ▸ List.mem_append_right _ List.mem_cons_self
      exact absurd first.failing (all link inside).succeeding.not_failing
    case decided => exact .inl fun link inside => (all link inside).succeeding
    case lookedUp => exact lookedUp job isRoot finished
  · rw [whole] at isLast ⊢
    obtain ⟨job, isRoot, failed⟩ := stranded.last isLast
    have finished : job.state.isFinished = true := by rw [failed]; rfl
    have noticed := status job isRoot finished
    rw [failed] at noticed
    have first := stranded.firstFailing
    constructor
    case completes =>
      intro succeed
      have inside : link ∈ before ++ link :: after := List.mem_append_right _ List.mem_cons_self
      exact absurd first.failing (succeed link inside).not_failing
    case fails =>
      intro others other more problem same second
      obtain ⟨rfl, rfl, rfl, rfl⟩ := first.unique second same
      exact ⟨stranded, noticed⟩
    case decided => exact .inr ⟨before, link, after, error, rfl, first⟩
    case lookedUp => exact lookedUp job isRoot finished

end Account

/-- The outcome of a workflow that is valid, was submitted, and was not refused for want of
room.  Its steps are started in compiled order, never two at once.  When nothing is pending
any more and there is a worker on every queue of the workflow, its jobs have ended as its
steps did, and its record says so exactly if somebody noticed that the root job had ended. -/
theorem World.workflow_outcome {script : Script} {routing : Routing}
    {settings : Dict QueueSettings} {world : World}
    (reached : World.Reachable script routing settings world) {id : Uuid} {tasks : List Task}
    (submitted : world.submitted id = some tasks) (valid : Graph.validate tasks = .ok ())
    (admitted : ¬ Refused world.journal id) :
    ∃ order, Graph.order tasks = .ok order ∧
      (∀ added, Accepted world.journal id added → ∃ serial, added.jobId = jobIdOf serial ∧
        InTurn world (Chain.links id routing serial order)) ∧
      (world.AtRest →
        (∀ task ∈ tasks, world.system.queues.hasWorker (routing.queueFor task) = true) →
        ∃ added serial record, Accepted world.journal id added ∧ added.jobId = jobIdOf serial ∧
          world.system.records.get? id = some record ∧
          Outcome (script.trials settings) world (Chain.links id routing serial order)
            added.rootKey record) := by
  obtain ⟨stages, account⟩ := reached.account
  obtain ⟨order, -, ordered, perm, -⟩ := chainOf_of_validate routing id valid
  have enrolled : ∀ added, Accepted world.journal id added →
      ∃ serial, Enrolled script routing settings world id added order serial := by
    intro added accepted
    obtain ⟨other, serial, enrolled⟩ := account.kept.orderly.enrolled id added accepted
    obtain ⟨others, isSubmitted, -, isOrder⟩ := enrolled.ordered
    cases submitted.symm.trans isSubmitted
    cases ordered.symm.trans isOrder
    exact ⟨serial, enrolled⟩
  refine ⟨order, ordered, ?_, ?_⟩
  · intro added accepted
    obtain ⟨serial, enrolled⟩ := enrolled added accepted
    exact ⟨serial, enrolled.jobId, account.inTurn enrolled⟩
  · intro rest staffed
    obtain ⟨added, accepted⟩ := account.accepted rest submitted valid admitted
    obtain ⟨serial, enrolled⟩ := enrolled added accepted
    obtain ⟨record, stored, root⟩ := account.recorded rest accepted
    refine ⟨added, serial, record, accepted, enrolled.jobId, stored, ?_⟩
    apply account.outcome rest accepted enrolled
    · exact fun task member => staffed task (perm.subset member)
    · exact stored
    · exact root

/-! ## Two runs -/

namespace Sample

/-- A routing to a single queue. -/
def oneQueue : Routing := { queues := .empty, defaultQueue := "default" }

def workflow : Uuid := Uuid.ofNat 7

def cast : List Agent := [.submitter workflow, .listener "default"]

/-- The world that a schedule leads to. -/
def world (script : Script) (schedule : List Choice) : World :=
  World.follow script cast (.start oneQueue .empty) schedule

/-- An agent begins, makes a number of actions and leaves. -/
def part (agent : Agent) (begins : Choice) (actions : Nat) : List Choice :=
  begins :: .replicate actions (.act agent) ++ [.leave agent]

/-- The listener handles an event. -/
def event (actions : Nat) : List Choice := part (.listener "default") (.receive "default") actions

/-- The worker starts an attempt, which ends at once. -/
def attempt : List Choice := .replicate 3 (.advance "default") ++ [.finish 0]

/-- Three steps, one after another. -/
def steps : List Task :=
  [Task.plain "first" "work", { Task.plain "second" "work" with fathers := ["first"] },
    { Task.plain "third" "work" with fathers := ["second"] }]

/-- The first step succeeds with its second attempt, and the second one fails for good. -/
def failing : Script where
  registered _ := true
  answer context attempt :=
    if context.taskName = "second" then .error (.fatal "broken")
    else if attempt = 1 then .error (.retryable "busy")
    else .ok (.proceed .null)

/-- The record is stored before the first attempt is started. -/
def early : List Choice :=
  part (.submitter workflow) (.submit workflow steps) 4 ++ .startWorker "default" :: attempt ++
    [.tick 1000, .fire 0] ++ attempt ++ attempt ++ event 1 ++ event 1 ++ event 1 ++ event 5

/-- A single step. -/
def only : List Task := [Task.plain "only" "work"]

/-- Every step succeeds at once. -/
def obliging : Script where
  registered _ := true
  answer _ _ := .ok (.proceed .null)

/-- The step ends, and its event is handled, before the record is stored. -/
def late : List Choice :=
  .submit workflow only :: .replicate 3 (.act (.submitter workflow)) ++ .startWorker "default" ::
    attempt ++ event 1 ++ [.act (.submitter workflow), .leave (.submitter workflow)]

/-- Whether the queues refuse a chain. -/
def refuses : Exchange → Bool
  | ⟨.addFlow _, .error _⟩ => true
  | _ => false

theorem not_refused {journal : List Entry} (id : Uuid)
    (none : (journal.all fun entry => !refuses entry.exchange) = true) : ¬ Refused journal id := by
  rintro ⟨chain, problem, member⟩
  cases List.all_eq_true.1 none _ member

theorem reachable_world (script : Script) (schedule : List Choice) :
    World.Reachable script oneQueue .empty (world script schedule) ∧
      (world script schedule).Played cast :=
  World.reachable_follow .start (World.played_start oneQueue .empty cast) schedule

end Sample

theorem World.workflow_outcome_failing :
    (Sample.world Sample.failing Sample.early).AtRest ∧
    ∃ order, Graph.order Sample.steps = .ok order ∧ ∃ added serial record,
      Accepted (Sample.world Sample.failing Sample.early).journal Sample.workflow added ∧
      added.jobId = jobIdOf serial ∧
      (Sample.world Sample.failing Sample.early).system.records.get? Sample.workflow =
        some record ∧
      Outcome (Sample.failing.trials .empty) (Sample.world Sample.failing Sample.early)
        (Chain.links Sample.workflow Sample.oneQueue serial order) added.rootKey record := by
  obtain ⟨reached, played⟩ := Sample.reachable_world Sample.failing Sample.early
  have rest := World.atRest_of_resting played (by decide +kernel)
  obtain ⟨order, ordered, -, outcome⟩ :=
    World.workflow_outcome reached (show _ = some Sample.steps by decide +kernel) (by decide)
      (Sample.not_refused Sample.workflow (by decide +kernel))
  exact ⟨rest, order, ordered, outcome rest (by decide +kernel)⟩

/-- If a listener looks for the record before it is stored, nobody notices the outcome: all
steps have succeeded and nothing is pending, but the record does not say so. -/
theorem World.outcome_unnoticed :
    World.Reachable Sample.obliging Sample.oneQueue .empty
      (Sample.world Sample.obliging Sample.late) ∧
    (Sample.world Sample.obliging Sample.late).submitted Sample.workflow = some Sample.only ∧
    Graph.validate Sample.only = .ok () ∧
    ¬ Refused (Sample.world Sample.obliging Sample.late).journal Sample.workflow ∧
    (Sample.world Sample.obliging Sample.late).AtRest ∧
    (∀ task ∈ Sample.only, (Sample.world Sample.obliging Sample.late).system.queues.hasWorker
      (Sample.oneQueue.queueFor task) = true) ∧
    (∀ context attempt, Sample.obliging.answer context attempt = .ok (.proceed .null)) ∧
    (Sample.world Sample.obliging Sample.late).system.queues.jobState? ⟨"default", jobIdOf 0⟩ =
      some .completed ∧
    ((Sample.world Sample.obliging Sample.late).system.records.get? Sample.workflow).map
      WorkflowRecord.status = some "active" := by
  obtain ⟨reached, played⟩ := Sample.reachable_world Sample.obliging Sample.late
  refine ⟨reached, ?_, by decide, ?_, ?_, ?_, fun _ _ => rfl, ?_, ?_⟩
  · decide +kernel
  · exact Sample.not_refused Sample.workflow (by decide +kernel)
  · exact World.atRest_of_resting played (by decide +kernel)
  · decide +kernel
  · decide +kernel
  · decide +kernel

end Relay
