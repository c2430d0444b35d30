import Relay.Proofs.Workflow.World

/-!
# Accepted workflows

What the queues know of an accepted workflow is a chain of jobs.  Whatever happens,
the chain is in one of its phases, and the calls for its jobs have been started in its
order.
-/

namespace Relay

/-- The queues have accepted the chain of a workflow. -/
def Accepted (journal : List Entry) (id : Uuid) (added : AddedFlow) : Prop :=
  ∃ chain, ⟨.submitter id, .addFlow chain, .ok added⟩ ∈ journal

/-- The queues have refused the chain of a workflow. -/
def Refused (journal : List Entry) (id : Uuid) : Prop :=
  ∃ chain problem, ⟨.submitter id, .addFlow chain, .error problem⟩ ∈ journal

theorem Accepted.mono {journal : List Entry} {id : Uuid} {added : AddedFlow}
    (accepted : Accepted journal id added) (more : List Entry) :
    Accepted (journal ++ more) id added := by
  obtain ⟨chain, member⟩ := accepted
  exact ⟨chain, List.mem_append_left more member⟩

/-- The jobs of an accepted workflow. -/
structure Enrolled (script : Script) (routing : Routing) (settings : Dict QueueSettings)
    (world : World) (id : Uuid) (added : AddedFlow) (order : List Task) (serial : Nat) : Prop where
  ordered : ∃ tasks, world.submitted id = some tasks ∧ Graph.validate tasks = .ok () ∧
    Graph.order tasks = .ok order
  jobId : added.jobId = jobIdOf serial
  root : (Chain.links id routing serial order).getLast?.map Link.key = some added.rootKey
  phase : Phase (script.trials settings) world.system.queues.job?
    (Chain.links id routing serial order)
  tried : triedInOrder world.system.queues.job? (Chain.links id routing serial order) =
    attemptsAmong (Chain.links id routing serial order) world.started

/-- The queues of a world, with the jobs of the accepted workflows. -/
structure Orderly (script : Script) (routing : Routing) (settings : Dict QueueSettings)
    (world : World) : Prop where
  reached : Queues.Reachable settings world.system.queues
  limits : world.system.queues.settings = settings
  routes : world.system.routing = routing
  born : ∀ call ∈ world.started, world.system.queues.view.Born call.key
  enrolled : ∀ id added, Accepted world.journal id added →
    ∃ order serial, Enrolled script routing settings world id added order serial
  /-- A workflow is accepted once. -/
  single : ∀ id first second, Accepted world.journal id first →
    Accepted world.journal id second → first = second
  distinct : ∀ one other first second, Accepted world.journal one first →
    Accepted world.journal other second → first.jobId = second.jobId → one = other

namespace Queues

variable {queues after : Queues} {act : Act}

/-- A call is started for a stored job. -/
theorem Effect.born_of_started {call : Call} (effect : Effect queues after act)
    (steady : Steady queues none []) (started : call ∈ queues.startedCalls after) :
    queues.view.Born call.key := by
  obtain ⟨key, job, starts, rfl⟩ := effect.starts_of_started started
  exact steady.sound.born starts.stored

end Queues

namespace Orderly

variable {script : Script} {routing : Routing} {settings : Dict QueueSettings}
  {world after : World} {act : Queues.Act}

/-- A call for a job of an accepted workflow returns what the script says. -/
theorem foreseen (orderly : Orderly script routing settings world) {links : List Link}
    (phase : Phase (script.trials settings) world.system.queues.job? links)
    {queues : Queues} (step : Queues.Step world.system.queues act queues)
    (regular : act.Regular script) : act.Foreseen (script.trials settings) links := by
  cases step with
  | @finish call outcome isRunning =>
      intro link member here
      obtain ⟨job, stored, stems⟩ := phase.stored member
      have serves := orderly.reached.attended call isRunning job (here ▸ stored)
      rw [show outcome = script.outcome call from regular]
      exact script.outcome_verdict settings here (serves.data.trans stems.data)
  | remove key => exact regular
  | prune found => exact regular
  | _ => trivial

/-- A step of the queues. -/
theorem of_step (orderly : Orderly script routing settings world)
    (step : Queues.Step world.system.queues act after.system.queues)
    (regular : act.Regular script)
    (started : after.started =
      world.started ++ Queues.startedCalls world.system.queues after.system.queues)
    (sameRouting : after.system.routing = world.system.routing)
    (submitted : ∀ id tasks, world.submitted id = some tasks → after.submitted id = some tasks)
    (accepted : ∀ id added, Accepted after.journal id added → Accepted world.journal id added) :
    Orderly script routing settings after := by
  have steady := orderly.reached.steady
  have effect := step.effect steady
  constructor
  case reached => exact orderly.reached.step step
  case limits => exact effect.settings.trans orderly.limits
  case routes => exact sameRouting.trans orderly.routes
  case born =>
    intro call isStarted
    rw [started] at isStarted
    apply effect.born
    rcases List.mem_append.1 isStarted with before | now
    · exact orderly.born call before
    · exact effect.born_of_started steady now
  case enrolled =>
    intro id added isAccepted
    obtain ⟨order, serial, enrolled⟩ := orderly.enrolled id added (accepted id added isAccepted)
    have linked := Chain.linked id routing serial order
    have limits : ∀ link ∈ Chain.links id routing serial order,
        world.system.queues.allowance link.seed = (script.trials settings).limit link.seed := by
      intro link member
      unfold Queues.allowance Queues.settingsOf
      rw [orderly.limits]
      rfl
    have phase := enrolled.phase.step linked steady orderly.reached.attended limits step
      (orderly.foreseen enrolled.phase step regular)
    refine ⟨order, serial, ?_, enrolled.jobId, enrolled.root, phase, ?_⟩
    · obtain ⟨tasks, isSubmitted, rest⟩ := enrolled.ordered
      exact ⟨tasks, submitted id tasks isSubmitted, rest⟩
    · rw [enrolled.phase.tried linked phase effect, enrolled.tried, started, attemptsAmong_append]
  case single =>
    intro id first second isFirst isSecond
    exact orderly.single id first second (accepted _ _ isFirst) (accepted _ _ isSecond)
  case distinct =>
    intro one other first second isFirst isSecond
    exact orderly.distinct one other first second (accepted _ _ isFirst) (accepted _ _ isSecond)

/-- Nothing happens to the queues. -/
theorem of_same (orderly : Orderly script routing settings world)
    (queues : after.system.queues = world.system.queues) (started : after.started = world.started)
    (sameRouting : after.system.routing = world.system.routing)
    (submitted : ∀ id tasks, world.submitted id = some tasks → after.submitted id = some tasks)
    (accepted : ∀ id added, Accepted after.journal id added → Accepted world.journal id added) :
    Orderly script routing settings after := by
  constructor
  case reached => exact queues ▸ orderly.reached
  case limits => exact queues ▸ orderly.limits
  case routes => exact sameRouting.trans orderly.routes
  case born => rw [started, queues]; exact orderly.born
  case enrolled =>
    intro id added isAccepted
    obtain ⟨order, serial, ⟨tasks, isSubmitted, rest⟩, jobId, root, phase, tried⟩ :=
      orderly.enrolled id added (accepted id added isAccepted)
    refine ⟨order, serial, ⟨tasks, submitted id tasks isSubmitted, rest⟩, jobId, root, ?_, ?_⟩
    · rw [queues]; exact phase
    · rw [queues, started]; exact tried
  case single =>
    intro id first second isFirst isSecond
    exact orderly.single id first second (accepted _ _ isFirst) (accepted _ _ isSecond)
  case distinct =>
    intro one other first second isFirst isSecond
    exact orderly.distinct one other first second (accepted _ _ isFirst) (accepted _ _ isSecond)

end Orderly

section Enrolled

variable {script : Script} {routing : Routing} {settings : Dict QueueSettings} {world : World}
  {id : Uuid} {added : AddedFlow} {order : List Task} {serial : Nat}

/-- The root of an accepted workflow is the last of its jobs. -/
theorem Enrolled.root_mem (enrolled : Enrolled script routing settings world id added order serial) :
    ∃ link, (Chain.links id routing serial order).getLast? = some link ∧
      link ∈ Chain.links id routing serial order ∧ link.key = added.rootKey := by
  obtain ⟨link, last, key⟩ := Option.map_eq_some_iff.1 enrolled.root
  exact ⟨link, last, List.mem_of_getLast? last, key⟩

/-- The root of an accepted workflow is stored. -/
theorem Orderly.root_stored (orderly : Orderly script routing settings world)
    (accepted : Accepted world.journal id added) :
    ∃ job, world.system.queues.job? added.rootKey = some job := by
  obtain ⟨order, serial, enrolled⟩ := orderly.enrolled id added accepted
  obtain ⟨link, -, member, key⟩ := enrolled.root_mem
  obtain ⟨job, stored, -⟩ := enrolled.phase.stored member
  exact ⟨job, key ▸ stored⟩

/-- The identifier of the root of an accepted workflow is not a new one. -/
theorem Orderly.root_born (orderly : Orderly script routing settings world)
    (accepted : Accepted world.journal id added) :
    world.system.queues.view.Born added.rootKey := by
  obtain ⟨job, stored⟩ := orderly.root_stored accepted
  exact orderly.reached.steady.sound.born stored

end Enrolled

/-! ## Actions -/

section Actions

variable (action : Action) (system : WorkflowSystem)

theorem routing_answer : (WorkflowSystem.answer action system).2.routing = system.routing := by
  cases action with
  | updateStatus id status =>
      unfold WorkflowSystem.answer
      dsimp only
      split <;> rfl
  | deleteRecord id =>
      unfold WorkflowSystem.answer
      dsimp only
      split <;> rfl
  | listen queue =>
      show (system.listen queue).routing = system.routing
      unfold WorkflowSystem.listen
      split <;> rfl
  | _ => rfl

/-- An action leaves the queues alone, or is a step of theirs that starts no call. -/
theorem queues_answer (script : Script) (steady : system.queues.Steady none []) :
    (WorkflowSystem.answer action system).2.queues = system.queues ∨
      ∃ act, Queues.Step system.queues act (WorkflowSystem.answer action system).2.queues ∧
        act.Regular script ∧
        (WorkflowSystem.answer action system).2.queues.running = system.queues.running := by
  cases action with
  | updateStatus id status =>
      apply Or.inl
      unfold WorkflowSystem.answer
      dsimp only
      split <;> rfl
  | deleteRecord id =>
      apply Or.inl
      unfold WorkflowSystem.answer
      dsimp only
      split <;> rfl
  | listen queue =>
      show (system.listen queue).queues = system.queues ∨ ∃ act,
        Queues.Step system.queues act (system.listen queue).queues ∧ act.Regular script ∧
          (system.listen queue).queues.running = system.queues.running
      unfold WorkflowSystem.listen
      split
      · exact .inl rfl
      · exact .inr ⟨_, .touch queue, trivial, rfl⟩
  | addFlow flow =>
      refine .inr ⟨_, .add (.refl (Queues.countsOf flow)), trivial, ?_⟩
      rcases Queues.quiet_or_plants steady (Queues.countsOf flow) flow with quiet | plants
      · exact quiet.running
      · exact plants.running
  | _ => exact .inl rfl

theorem add_of_answer {system after : WorkflowSystem} {chain : Flow}
    {reply : Except QueueError AddedFlow}
    (answered : WorkflowSystem.answer (.addFlow chain) system = (reply, after)) :
    system.queues.add chain = (reply, after.queues) := by
  have first := congrArg Prod.fst answered
  have second := congrArg (fun result => result.2.queues) answered
  exact Prod.ext first second

end Actions

/-! ## Submissions under way -/

/-- What is true of an agent at a stage of a submission. -/
def Stage.Placed (world : World) (agent : Agent) : Stage → Prop
  | .listening id tasks chain _ => agent = .submitter id ∧ world.submitted id = some tasks ∧
      Submission.chainOf world.system.routing id tasks = .ok chain ∧
      ∀ added, ¬ Accepted world.journal id added
  | .recording id _ added => agent = .submitter id ∧ Accepted world.journal id added
  | _ => True

theorem chainOf_ok {routing : Routing} {id : Uuid} {tasks : List Task} {chain : Flow}
    (compiled : Submission.chainOf routing id tasks = .ok chain) :
    Graph.validate tasks = .ok () ∧ ∃ order, Graph.order tasks = .ok order ∧
      chain ∈ Chain.wrapAll id routing order := by
  unfold Submission.chainOf at compiled
  cases valid : Graph.validate tasks with
  | error problem => rw [valid] at compiled; cases compiled
  | ok checked =>
      cases ordered : Graph.order tasks with
      | error problem => rw [valid, ordered] at compiled; cases compiled
      | ok order =>
          rw [valid, ordered] at compiled
          exact ⟨rfl, order, rfl, Chain.mem_wrapAll_of_compile compiled⟩

theorem accepted_concat {journal : List Entry} {entry : Entry} {id : Uuid} {added : AddedFlow}
    (accepted : Accepted (journal ++ [entry]) id added) :
    Accepted journal id added ∨
      ∃ chain, entry = ⟨.submitter id, .addFlow chain, .ok added⟩ := by
  obtain ⟨chain, member⟩ := accepted
  rcases List.mem_append.1 member with before | now
  · exact .inl ⟨chain, before⟩
  · exact .inr ⟨chain, (List.mem_singleton.1 now).symm⟩

namespace Orderly

variable {script : Script} {routing : Routing} {settings : Dict QueueSettings}
  {world : World} {id : Uuid} {tasks : List Task} {chain : Flow} {added : AddedFlow}

/-- The queues accept a chain. -/
theorem accept (orderly : Orderly script routing settings world) {queues : Queues}
    (submitted : world.submitted id = some tasks)
    (compiled : Submission.chainOf world.system.routing id tasks = .ok chain)
    (fresh : ∀ added, ¬ Accepted world.journal id added)
    (answered : world.system.queues.add chain = (.ok added, queues))
    (between : Orderly script routing settings
      { world with system := { world.system with queues } }) :
    Orderly script routing settings { world with
      system := { world.system with queues }
      journal := world.journal ++ [⟨.submitter id, .addFlow chain, .ok added⟩] } := by
  obtain ⟨valid, order, ordered, member⟩ := chainOf_ok compiled
  rw [orderly.routes] at member
  have steady := orderly.reached.steady
  obtain ⟨problem, after, rejected, -⟩ | ⟨after, same, plants⟩ :=
    Queues.addInOrder_cases steady (Queues.countsOf chain) chain
  · cases answered.symm.trans rejected
  have result := answered.symm.trans same
  cases result
  have old : ∀ other first, Accepted world.journal other first →
      first.jobId ≠ jobIdOf world.system.queues.nextSerial := by
    intro other first isAccepted same
    obtain ⟨number, below, isNumber⟩ := orderly.root_born isAccepted
    have := jobIdOf_injective (isNumber.symm.trans same)
    exact absurd below (this ▸ Nat.lt_irrefl _)
  have cases : ∀ other first, Accepted (world.journal ++ [⟨.submitter id, .addFlow chain,
      .ok ⟨jobIdOf world.system.queues.nextSerial, chain.name, chain.queueName⟩⟩]) other first →
      Accepted world.journal other first ∨ other = id ∧
        first = ⟨jobIdOf world.system.queues.nextSerial, chain.name, chain.queueName⟩ := by
    intro other first isAccepted
    rcases accepted_concat isAccepted with before | ⟨flow, now⟩
    · exact .inl before
    · cases now
      exact .inr ⟨rfl, rfl⟩
  constructor
  case reached => exact between.reached
  case limits => exact between.limits
  case routes => exact between.routes
  case born => exact between.born
  case enrolled =>
    intro other first isAccepted
    rcases cases other first isAccepted with before | ⟨rfl, rfl⟩
    · obtain ⟨order, serial, ordered, jobId, root, phase, tried⟩ :=
        between.enrolled other first before
      exact ⟨order, serial, ordered, jobId, root, phase, tried⟩
    · refine ⟨order, world.system.queues.nextSerial, ⟨tasks, submitted, valid, ordered⟩, rfl, ?_,
        Chain.phase_of_plants _ plants member, ?_⟩
      · exact Chain.root_links member
      · have unborn := Chain.unborn_of_plants plants member
        rw [Chain.triedInOrder_of_plants plants member]
        unfold attemptsAmong
        symm
        rw [List.map_eq_nil_iff, List.filter_eq_nil_iff]
        intro call started inside
        obtain ⟨link, isLink, key⟩ := List.mem_map.1 (of_decide_eq_true inside)
        exact unborn link isLink (key ▸ orderly.born call started)
  case single =>
    intro other first second isFirst isSecond
    rcases cases other first isFirst with before | ⟨rfl, rfl⟩
    · rcases cases other second isSecond with again | ⟨rfl, rfl⟩
      · exact orderly.single other first second before again
      · exact absurd before (fresh first)
    · rcases cases other second isSecond with again | ⟨-, rfl⟩
      · exact absurd again (fresh second)
      · rfl
  case distinct =>
    intro one other first second isFirst isSecond same
    rcases cases one first isFirst with before | ⟨rfl, rfl⟩
    · rcases cases other second isSecond with again | ⟨rfl, rfl⟩
      · exact orderly.distinct one other first second before again same
      · exact absurd same (old one first before)
    · rcases cases other second isSecond with again | ⟨rfl, rfl⟩
      · exact absurd same.symm (old other second again)
      · rfl

/-- The listener of a queue moves on and leaves everything else alone. -/
theorem receive?_some {system after : WorkflowSystem} {queue : String} {delivery : Delivery}
    (received : system.receive? queue = some (delivery, after)) :
    ∃ before subscription, system.listeners.get? queue = some before ∧
      before.receive? (system.queues.lane queue).events = some (delivery, subscription) ∧
      after = { system with listeners := system.listeners.insert queue subscription } := by
  unfold WorkflowSystem.receive? at received
  obtain ⟨before, found, moved⟩ := Option.bind_eq_some_iff.1 received
  obtain ⟨⟨given, subscription⟩, next, same⟩ := Option.map_eq_some_iff.1 moved
  cases same
  exact ⟨before, subscription, found, next, rfl⟩

/-- Every step keeps what is known of accepted workflows. -/
theorem turn {stages later : Agent → Stage} {after : World}
    (orderly : Orderly script routing settings world)
    (placed : ∀ agent, (stages agent).Placed world agent)
    (turn : World.Turn script world stages after later) :
    Orderly script routing settings after := by
  cases turn with
  | works step regular => exact orderly.of_step step regular rfl rfl (fun _ _ => id) fun _ _ => id
  | @submits fresh tasks threads isFresh idle =>
      apply orderly.of_same
      case submitted =>
        intro other others found
        show Function.update world.submitted fresh (some tasks) other = some others
        rw [Function.update_apply, if_neg]
        · exact found
        · rintro rfl
          cases isFresh.symm.trans found
      case accepted => exact fun _ _ => id
      all_goals rfl
  | reads threads idle => exact orderly.of_same rfl rfl rfl (fun _ _ => id) fun _ _ => id
  | leaves threads => exact orderly.of_same rfl rfl rfl (fun _ _ => id) fun _ _ => id
  | receives threads idle received =>
      obtain ⟨before, subscription, -, -, rfl⟩ := receive?_some received
      exact orderly.of_same rfl rfl rfl (fun _ _ => id) fun _ _ => id
  | @moves agent action reply system next threads moves answered =>
      have between : Orderly script routing settings { world with system } := by
        obtain rfl : (WorkflowSystem.answer action world.system).2 = system :=
          congrArg Prod.snd answered
        rcases queues_answer action world.system script orderly.reached.steady with
          same | ⟨act, step, regular, running⟩
        · exact orderly.of_same same rfl (routing_answer action world.system) (fun _ _ => id)
            fun _ _ => id
        · apply orderly.of_step
          case step => exact step
          case regular => exact regular
          case started => rw [Queues.startedCalls_of_running running, List.append_nil]
          case sameRouting => exact routing_answer action world.system
          case submitted => exact fun _ _ => id
          case accepted => exact fun _ _ => id
      by_cases accepts : ∃ id chain added, (⟨agent, action, reply⟩ : Entry) =
          ⟨.submitter id, .addFlow chain, .ok added⟩
      · obtain ⟨id, chain, added, same⟩ := accepts
        cases same
        have here := placed (.submitter id)
        generalize stages (.submitter id) = stage at moves here
        cases moves with
        | accepted other tasks added follows =>
            obtain ⟨same, submitted, compiled, fresh⟩ := here
            cases same
            have result := add_of_answer answered
            have whole : system = { world.system with queues := system.queues } := by
              rw [show system = _ from (congrArg Prod.snd answered).symm]
              rfl
            rw [whole] at between ⊢
            exact (orderly.accept submitted compiled fresh result between).of_same rfl rfl rfl
              (fun _ _ found => found) fun _ _ found => found
      · apply between.of_same
        case submitted => exact fun _ _ => id
        case accepted =>
          intro id added accepted
          rcases accepted_concat accepted with before | ⟨chain, now⟩
          · exact before
          · exact absurd ⟨id, chain, added, now⟩ accepts
        all_goals rfl

end Orderly

end Relay
