import Relay.Proofs.Propagation.Visibility
import Relay.Proofs.Queue.ChainRun

/-!
# The jobs of a compiled chain

Submitting a compiled chain stores one job for every task.  The job of the last task
gets the first free identifier, the one before it the next, and so on, so the key of a
job can be told from the number of tasks after it.
-/

namespace Relay

namespace Chain

section Links

variable (id : Uuid) (routing : Routing)

/-- The key of the job of a task that a number of tasks come after. -/
def keyOf (serial later : Nat) (task : Task) : JobKey :=
  ⟨routing.queueFor task, jobIdOf (serial + later)⟩

/-- The parent of the job that is right below the jobs of some tasks. -/
def parentBelow (serial : Nat) (parent : Option JobKey) : List Task → Option JobKey
  | [] => parent
  | task :: rest => some (keyOf routing serial rest.length task)

/-- The children of the job that is right above the jobs of some tasks. -/
def childrenAbove (serial : Nat) (children : List JobKey) : List Task → List JobKey
  | [] => children
  | task :: rest => childrenAbove serial [keyOf routing serial rest.length task] rest

/-- The job of a task as it is planted. -/
def seedOf (parent : Option JobKey) (children : List JobKey) (task : Task) : Job :=
  Planting.rootJob (wrap id routing [] task) parent children

/-- The jobs of some tasks between a parent and children. -/
def linksBetween (serial : Nat) (parent : Option JobKey) (children : List JobKey) :
    List Task → List Link
  | [] => []
  | task :: rest =>
      ⟨keyOf routing serial rest.length task,
          seedOf id routing (parentBelow routing serial parent rest) children task⟩ ::
        linksBetween serial parent [keyOf routing serial rest.length task] rest

/-- The jobs of a submitted chain, those of the first tasks first. -/
def links (serial : Nat) (order : List Task) : List Link :=
  linksBetween id routing serial none [] order

variable {id routing} {serial : Nat} {parent : Option JobKey} {children : List JobKey}
  {order : List Task}

theorem parentBelow_concat (before : List Task) (task : Task) :
    parentBelow routing serial parent (before ++ [task]) =
      parentBelow routing (serial + 1) (some (keyOf routing serial 0 task)) before := by
  cases before with
  | nil => rfl
  | cons head rest =>
      simp only [List.cons_append, parentBelow, keyOf, List.length_append, List.length_singleton,
        Nat.add_assoc, Nat.add_comm 1]

theorem childrenAbove_concat (before : List Task) (task : Task) :
    childrenAbove routing serial children (before ++ [task]) = [keyOf routing serial 0 task] := by
  induction before generalizing children with
  | nil => rfl
  | cons head rest ih => exact ih

/-- The jobs of some tasks and one more are those of the tasks and one around them. -/
theorem linksBetween_concat (before : List Task) (task : Task) :
    linksBetween id routing serial parent children (before ++ [task]) =
      linksBetween id routing (serial + 1) (some (keyOf routing serial 0 task)) children before ++
        [⟨keyOf routing serial 0 task, seedOf id routing parent
          (childrenAbove routing (serial + 1) children before) task⟩] := by
  induction before generalizing children with
  | nil => rfl
  | cons head rest ih =>
      have key : keyOf routing serial (rest ++ [task]).length head =
          keyOf routing (serial + 1) rest.length head := by
        simp only [keyOf, List.length_append, List.length_singleton, Nat.add_assoc, Nat.add_comm 1]
      rw [List.cons_append, linksBetween, linksBetween, childrenAbove, key, ih,
        parentBelow_concat, List.cons_append]

/-- A compiled chain is planted as the jobs of its tasks. -/
theorem planted {chain : Flow} (member : chain ∈ wrapAll id routing order) (serial : Nat)
    (parent : Option JobKey) :
    (Planting.ofFlow parent serial chain).jobs =
        ((linksBetween id routing serial parent [] order).map fun link => (link.key.id, link.seed)) ∧
      (Planting.ofFlow parent serial chain).roots = childrenAbove routing serial [] order := by
  induction order using List.reverseRecOn generalizing chain serial parent with
  | nil => exact absurd member List.not_mem_nil
  | append_singleton before task ih =>
      rw [wrapAll_concat, List.mem_singleton] at member
      subst member
      rw [linksBetween_concat, childrenAbove_concat, List.map_append]
      rcases List.eq_nil_or_concat' before with rfl | ⟨lower, last, rfl⟩
      · exact ⟨rfl, rfl⟩
      · rw [wrapAll_concat] at ih ⊢
        obtain ⟨jobs, roots⟩ := ih (List.mem_singleton_self _) (serial + 1)
          (some (keyOf routing serial 0 task))
        rw [← jobs, ← roots]
        simp only [wrap, Planting.ofFlow, Planting.ofFlows, List.append_nil]
        exact ⟨rfl, rfl⟩

/-! ## A chain of links -/

theorem names_linksBetween :
    (linksBetween id routing serial parent children order).map (fun link => link.seed.name) =
      order.map Task.name := by
  induction order generalizing children with
  | nil => rfl
  | cons task rest ih => exact congrArg (_ :: ·) ih

theorem queues_linksBetween :
    (linksBetween id routing serial parent children order).map (fun link => link.key.queue) =
      order.map routing.queueFor := by
  induction order generalizing children with
  | nil => rfl
  | cons task rest ih => exact congrArg (_ :: ·) ih

/-- Every job of a chain is that of a task. -/
theorem mem_linksBetween {link : Link}
    (member : link ∈ linksBetween id routing serial parent children order) :
    ∃ task ∈ order, ∃ above below, link.key.queue = routing.queueFor task ∧
      link.seed = seedOf id routing above below task := by
  induction order generalizing children with
  | nil => exact absurd member List.not_mem_nil
  | cons task rest ih =>
      rcases List.mem_cons.1 member with rfl | later
      · exact ⟨task, List.mem_cons_self, _, _, rfl, rfl⟩
      · obtain ⟨other, isOther, above, below, queue, seed⟩ := ih later
        exact ⟨other, List.mem_cons_of_mem _ isOther, above, below, queue, seed⟩

theorem isChain_linksBetween :
    (linksBetween id routing serial parent children order).IsChain Link.Below := by
  induction order generalizing children with
  | nil => exact List.isChain_nil
  | cons task rest ih =>
      cases rest with
      | nil => exact List.isChain_singleton _
      | cons next others =>
          rw [linksBetween, linksBetween]
          apply List.isChain_cons_cons.2
          constructor
          · exact ⟨rfl, rfl, rfl, rfl⟩
          · exact ih

theorem parent_getLast?_linksBetween {link : Link}
    (last : link ∈ (linksBetween id routing serial parent children order).getLast?) :
    link.seed.parent = parent := by
  rcases List.eq_nil_or_concat' order with rfl | ⟨before, task, rfl⟩
  · cases last
  · rw [linksBetween_concat, List.getLast?_concat] at last
    cases last
    rfl

/-- The jobs of a submitted chain form a chain. -/
theorem linked (id : Uuid) (routing : Routing) (serial : Nat) (order : List Task) :
    Linked (links id routing serial order) where
  distinct := by
    rcases List.eq_nil_or_concat' order with rfl | ⟨before, task, rfl⟩
    · exact List.nodup_nil
    · have member : wrap id routing (wrapAll id routing before) task ∈
          wrapAll id routing (before ++ [task]) := by
        rw [wrapAll_concat]
        exact List.mem_singleton_self _
      have unique := (Planting.grown_ofFlow none serial
        (wrap id routing (wrapAll id routing before) task)).unique
      rw [(planted member serial none).1, List.map_map] at unique
      apply List.Nodup.of_map JobKey.id
      rw [List.map_map]
      exact unique
  joined := isChain_linksBetween
  bottom := by
    intro link first
    cases order with
    | nil => cases first
    | cons task rest =>
        cases first
        exact ⟨rfl, rfl⟩
  top _ last := parent_getLast?_linksBetween last
  untried := by
    intro link member
    obtain ⟨task, -, above, below, -, seed⟩ := mem_linksBetween member
    rw [seed]
    rfl
  binding := by
    intro link member
    obtain ⟨task, -, above, below, -, seed⟩ := mem_linksBetween member
    rw [seed]
    rfl

theorem mem_wrapAll_of_compile {chain : Flow} (compiled : compile order id routing = .ok chain) :
    chain ∈ wrapAll id routing order := by
  unfold compile at compiled
  split at compiled
  · next first others shape =>
      cases compiled
      rw [shape]
      exact List.mem_cons_self
  · cases compiled

theorem wrapAll_eq_singleton {chain : Flow} (member : chain ∈ wrapAll id routing order) :
    wrapAll id routing order = [chain] := by
  rcases List.eq_nil_or_concat' order with rfl | ⟨before, task, rfl⟩
  · exact absurd member List.not_mem_nil
  · rw [wrapAll_concat, List.mem_singleton] at member
    rw [wrapAll_concat, member]

/-- A chain has one job for every task, on the queue of the task. -/
theorem queueList_of_mem {chain : Flow} (member : chain ∈ wrapAll id routing order) :
    chain.queueList = (order.map routing.queueFor).reverse := by
  have all : ∀ order, Flow.queueLists (wrapAll id routing order) =
      (order.map routing.queueFor).reverse := by
    intro order
    induction order using List.reverseRecOn with
    | nil => rfl
    | append_singleton before task ih =>
        simp [wrapAll_concat, wrap, Flow.queueLists, Flow.queueList, ih]
  simpa [wrapAll_eq_singleton member, Flow.queueLists] using all order

theorem jobCount_of_mem {chain : Flow} (member : chain ∈ wrapAll id routing order) :
    chain.jobCount = order.length := by
  have all : ∀ order, Flow.jobCounts (wrapAll id routing order) = order.length := by
    intro order
    induction order using List.reverseRecOn with
    | nil => rfl
    | append_singleton before task ih =>
        simp [wrapAll_concat, wrap, Flow.jobCounts, Flow.jobCount, ih, Nat.add_comm]
  simpa [wrapAll_eq_singleton member, Flow.jobCounts] using all order

/-- A chain is carried out in the order of its tasks. -/
theorem executionOrder_of_mem {chain : Flow} (member : chain ∈ wrapAll id routing order) :
    chain.executionOrder = order.map Task.name := by
  have all : ∀ order, ((Flow.spineBelow (wrapAll id routing order)).map Flow.name).reverse =
      order.map Task.name := by
    intro order
    induction order using List.reverseRecOn with
    | nil => rfl
    | append_singleton before task ih =>
        simp only [wrapAll_concat, wrap, Flow.spineBelow, Flow.spine, List.map_cons,
          List.reverse_cons, ih, List.map_append, List.map_nil]
  simpa [wrapAll_eq_singleton member, Flow.spineBelow, Flow.executionOrder] using all order

/-- The name of a chain is that of its last task. -/
theorem name_of_mem {chain : Flow} (member : chain ∈ wrapAll id routing order) :
    (order.map Task.name).getLast? = some chain.name := by
  rcases List.eq_nil_or_concat' order with rfl | ⟨before, task, rfl⟩
  · exact absurd member List.not_mem_nil
  · rw [wrapAll_concat, List.mem_singleton] at member
    simp [member, wrap]

/-- The root of a submitted chain is the job of its last task. -/
theorem root_links {chain : Flow} (member : chain ∈ wrapAll id routing order) :
    (links id routing serial order).getLast?.map Link.key =
      some ⟨chain.queueName, jobIdOf serial⟩ := by
  rcases List.eq_nil_or_concat' order with rfl | ⟨before, task, rfl⟩
  · exact absurd member List.not_mem_nil
  · rw [wrapAll_concat, List.mem_singleton] at member
    rw [links, linksBetween_concat, List.getLast?_concat, member]
    rfl

section Planting

variable {queues after : Queues} {chain : Flow}

/-- A chain is planted as the jobs of its links. -/
theorem holds_of_mem (member : chain ∈ wrapAll id routing order) {link : Link}
    (isLink : link ∈ links id routing serial order) :
    (Planting.ofFlow none serial chain).Holds link.key link.seed := by
  constructor
  · rw [(planted member serial none).1]
    exact List.mem_map_of_mem isLink
  · obtain ⟨task, -, above, below, queue, seed⟩ := mem_linksBetween isLink
    rw [seed, queue]
    rfl

/-- What a chain is planted as are its links. -/
theorem link_of_holds (member : chain ∈ wrapAll id routing order) {key : JobKey} {job : Job}
    (holds : (Planting.ofFlow none serial chain).Holds key job) :
    key ∈ (links id routing serial order).map Link.key := by
  obtain ⟨isJob, queue⟩ := holds
  rw [(planted member serial none).1] at isJob
  obtain ⟨link, isLink, same⟩ := List.mem_map.1 isJob
  obtain ⟨sameId, rfl⟩ := Prod.mk.inj same
  refine List.mem_map.2 ⟨link, isLink, ?_⟩
  have placed := (holds_of_mem member isLink).2
  calc link.key = ⟨link.key.queue, link.key.id⟩ := rfl
    _ = ⟨key.queue, key.id⟩ := by rw [sameId, ← placed, queue]

/-- The jobs of a chain are stored as they are planted. -/
theorem untouched_of_plants
    (plants : queues.Plants after (Planting.ofFlow none queues.nextSerial chain))
    (member : chain ∈ wrapAll id routing order) :
    ∀ link ∈ links id routing queues.nextSerial order, link.Untouched after.job? := by
  intro link isLink
  exact (plants.jobs _ _).2 (.inl (holds_of_mem member isLink))

/-- A chain that was just planted waits for the first attempt of its first job. -/
theorem phase_of_plants (trials : Trials)
    (plants : queues.Plants after (Planting.ofFlow none queues.nextSerial chain))
    (member : chain ∈ wrapAll id routing order) :
    Phase trials after.job? (links id routing queues.nextSerial order) := by
  have untouched := untouched_of_plants plants member
  have linked := linked id routing queues.nextSerial order
  generalize links id routing queues.nextSerial order = chained at untouched linked
  cases chained with
  | nil => exact .completed fun link isLink => absurd isLink List.not_mem_nil
  | cons first rest =>
      apply @Phase.live _ _ _ [] rest first rfl
      constructor
      case before => exact fun other isOther => absurd isOther List.not_mem_nil
      case underway =>
        exact ⟨first.seed, 0, untouched first List.mem_cons_self, ⟨rfl, rfl, rfl, rfl, rfl, rfl⟩,
          retried_zero _ _, .inr ⟨.inl (linked.bottom first rfl).2,
            linked.untried first List.mem_cons_self⟩⟩
      case rest => exact fun other isOther => untouched other (List.mem_cons_of_mem _ isOther)

/-- No attempt of a chain that was just planted has been started. -/
theorem triedInOrder_of_plants
    (plants : queues.Plants after (Planting.ofFlow none queues.nextSerial chain))
    (member : chain ∈ wrapAll id routing order) :
    triedInOrder after.job? (links id routing queues.nextSerial order) = [] := by
  unfold triedInOrder
  rw [List.flatMap_eq_nil_iff]
  intro link isLink
  unfold attemptsOf
  rw [untouched_of_plants plants member link isLink, Option.map_some, Option.getD_some,
    (linked id routing queues.nextSerial order).untried link isLink]
  rfl

/-- The jobs of a chain that was just planted are new. -/
theorem unborn_of_plants
    (plants : queues.Plants after (Planting.ofFlow none queues.nextSerial chain))
    (member : chain ∈ wrapAll id routing order) :
    ∀ link ∈ links id routing queues.nextSerial order, ¬ queues.view.Born link.key := by
  intro link isLink
  exact plants.unborn (holds_of_mem member isLink)

end Planting

end Links

end Chain

end Relay
