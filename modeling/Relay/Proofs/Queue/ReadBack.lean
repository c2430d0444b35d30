import Relay.Proofs.Queue.Admission
import Relay.Proofs.Queue.Tree

/-!
# Reading a submitted flow back

A flow goes into the queues by one recursion and comes out of them by another.  The first one
numbers the jobs, tells every child of its parent before the parent is stored, and collects the
leaves on the way.  The second one follows the stored children and leaves out what it does not
find.  `treeOf` is what the flow looks like in between: a tree whose post order is the list of
the stored jobs, whose leaves are the ready ones, and which is shown by any queues that store
all of these jobs.
-/

namespace Relay

/-- The key of a job that is shown. -/
def JobSnapshot.key (snapshot : JobSnapshot) : JobKey := ⟨snapshot.queueName, snapshot.id⟩

namespace JobTree

mutual

/-- The jobs of a tree that have nothing below them, from left to right. -/
def leaves : JobTree → List JobSnapshot
  | ⟨job, []⟩ => [job]
  | ⟨_, child :: rest⟩ => leaves child ++ leavesOf rest

/-- The leaves of several trees. -/
def leavesOf : List JobTree → List JobSnapshot
  | [] => []
  | tree :: rest => leaves tree ++ leavesOf rest

end

/-- One tree is found in another, at any depth. -/
inductive Within (part : JobTree) : JobTree → Prop where
  | self : Within part part
  | under {tree child : JobTree} (isChild : child ∈ tree.children) (within : Within part child) :
      Within part tree

/-! ## Post order -/

section PostOrder

variable {tree part : JobTree} {trees : List JobTree}

theorem postOrders_eq_flatMap (trees : List JobTree) :
    postOrders trees = trees.flatMap postOrder := by
  induction trees with
  | nil => rfl
  | cons tree rest ih => rw [postOrders, ih, List.flatMap_cons]

theorem postOrder_eq (tree : JobTree) :
    tree.postOrder = tree.children.flatMap postOrder ++ [tree.job] := by
  cases tree
  rw [postOrder, postOrders_eq_flatMap]

theorem infix_flatMap_postOrder (member : tree ∈ trees) :
    tree.postOrder <:+: trees.flatMap postOrder :=
  List.infix_of_mem_flatten (List.mem_map_of_mem member)

/-- The jobs of a part stand together. -/
theorem Within.infix_postOrder (within : part.Within tree) :
    part.postOrder <:+: tree.postOrder := by
  induction within with
  | self => exact List.infix_refl _
  | @under tree child isChild _ ih =>
      rw [postOrder_eq tree]
      exact (ih.trans (infix_flatMap_postOrder isChild)).trans
        (List.prefix_append _ _).isInfix

/-- A job is listed after everything below it. -/
theorem Within.sublist_of_below (within : part.Within tree) {snapshot : JobSnapshot}
    (isBelow : snapshot ∈ part.children.flatMap postOrder) :
    [snapshot, part.job].Sublist tree.postOrder := by
  have here : ([snapshot] ++ [part.job]).Sublist part.postOrder := by
    rw [postOrder_eq part]
    exact (List.singleton_sublist.2 isBelow).append_right [part.job]
  exact here.trans within.infix_postOrder.sublist

/-- Trees are listed one after the other. -/
theorem pairwise_flatMap_postOrder (trees : List JobTree) :
    trees.Pairwise fun left right =>
      (left.postOrder ++ right.postOrder).Sublist (trees.flatMap postOrder) := by
  induction trees with
  | nil => exact .nil
  | cons tree rest ih =>
      rw [List.flatMap_cons]
      refine List.pairwise_cons.2 ⟨fun other member => ?_, ih.imp fun both => ?_⟩
      · exact (infix_flatMap_postOrder member).sublist.append_left tree.postOrder
      · exact both.trans (List.sublist_append_right _ _)

/-- The trees below a job are listed in the order of the children. -/
theorem Within.pairwise_children (within : part.Within tree) :
    part.children.Pairwise fun left right =>
      (left.postOrder ++ right.postOrder).Sublist tree.postOrder := by
  have here : (part.children.flatMap postOrder).Sublist part.postOrder := by
    rw [postOrder_eq part]
    exact List.sublist_append_left _ _
  exact (pairwise_flatMap_postOrder part.children).imp fun both =>
    (both.trans here).trans within.infix_postOrder.sublist

end PostOrder

/-- A tree shows a flow of which nothing has run yet: the same jobs in the same shape, where
those without children are ready and the others wait for theirs. -/
inductive Mirrors : Flow → JobTree → Prop where
  | node {flow : Flow} {tree : JobTree} (name : tree.job.name = flow.name)
      (queue : tree.job.queueName = flow.queueName)
      (state : tree.job.state = if flow.children = [] then .waiting else .waitingChildren)
      (unharmed : tree.job.failedReason = none)
      (below : List.Forall₂ Mirrors flow.children tree.children) : Mirrors flow tree

end JobTree

/-! ## The tree of a flow that is planted -/

namespace Planting

mutual

/-- What a flow looks like whose jobs are numbered from a serial number on. -/
def treeOf (serial : Nat) : Flow → JobTree
  | ⟨name, queueName, _, _, children⟩ =>
      ⟨{ id := jobIdOf serial, name, queueName
         state := if children.isEmpty then .waiting else .waitingChildren
         failedReason := none }, treesOf (serial + 1) children⟩

/-- What several flows look like that are numbered one after the other. -/
def treesOf (serial : Nat) : List Flow → List JobTree
  | [] => []
  | flow :: rest => treeOf serial flow :: treesOf (serial + flow.jobCount) rest

end

mutual

theorem next_ofFlow (parent : Option JobKey) (serial : Nat) :
    (flow : Flow) → (ofFlow parent serial flow).next = serial + flow.jobCount
  | ⟨_, queueName, _, _, children⟩ => by
      rw [ofFlow, next_ofFlows ⟨queueName, jobIdOf serial⟩ (serial + 1) children, Flow.jobCount,
        Nat.add_assoc]

theorem next_ofFlows (parent : JobKey) (serial : Nat) :
    (flows : List Flow) → (ofFlows parent serial flows).next = serial + Flow.jobCounts flows
  | [] => rfl
  | flow :: rest => by
      rw [ofFlows, next_ofFlows parent _ rest, next_ofFlow (some parent) serial flow,
        Flow.jobCounts, Nat.add_assoc]

end

theorem roots_ofFlow (parent : Option JobKey) (serial : Nat) (flow : Flow) :
    (ofFlow parent serial flow).roots = [⟨flow.queueName, jobIdOf serial⟩] := by
  cases flow
  rfl

theorem isEmpty_roots_ofFlows (parent : JobKey) (serial : Nat) (flows : List Flow) :
    (ofFlows parent serial flows).roots.isEmpty = flows.isEmpty := by
  cases flows with
  | nil => rfl
  | cons flow rest => rw [ofFlows, roots_ofFlow]; rfl

/-- A job as it is shown when it is planted. -/
def shown (entry : String × Job) : JobSnapshot :=
  Queues.snapshotOf ⟨entry.2.queue, entry.1⟩ entry.2

mutual

/-- The jobs of a flow are planted in the post order of its tree. -/
theorem postOrder_treeOf (parent : Option JobKey) (serial : Nat) :
    (flow : Flow) → (treeOf serial flow).postOrder = (ofFlow parent serial flow).jobs.map shown
  | ⟨_, queueName, _, _, children⟩ => by
      simp only [treeOf, JobTree.postOrder, ofFlow, List.map_append, List.map_singleton,
        postOrders_treesOf ⟨queueName, jobIdOf serial⟩ (serial + 1) children, shown, rootJob,
        Queues.snapshotOf, isEmpty_roots_ofFlows]

theorem postOrders_treesOf (parent : JobKey) (serial : Nat) :
    (flows : List Flow) →
      JobTree.postOrders (treesOf serial flows) = (ofFlows parent serial flows).jobs.map shown
  | [] => rfl
  | flow :: rest => by
      simp only [treesOf, JobTree.postOrders, ofFlows, List.map_append,
        postOrder_treeOf (some parent) serial flow, next_ofFlow, postOrders_treesOf parent _ rest]

end

mutual

/-- The leaves of a flow are ready when it is planted. -/
theorem leaves_treeOf (parent : Option JobKey) (serial : Nat) :
    (flow : Flow) →
      (treeOf serial flow).leaves.map JobSnapshot.key = (ofFlow parent serial flow).ready
  | ⟨_, _, _, _, []⟩ => rfl
  | ⟨_, queueName, _, _, child :: rest⟩ => by
      have below := leavesOf_treesOf ⟨queueName, jobIdOf serial⟩ (serial + 1) (child :: rest)
      rw [treesOf, JobTree.leavesOf] at below
      rw [treeOf, treesOf, JobTree.leaves, below, ofFlow, isEmpty_roots_ofFlows]
      rfl

theorem leavesOf_treesOf (parent : JobKey) (serial : Nat) :
    (flows : List Flow) →
      (JobTree.leavesOf (treesOf serial flows)).map JobSnapshot.key =
        (ofFlows parent serial flows).ready
  | [] => rfl
  | flow :: rest => by
      simp only [treesOf, JobTree.leavesOf, ofFlows, List.map_append,
        leaves_treeOf (some parent) serial flow, next_ofFlow, leavesOf_treesOf parent _ rest]

end

mutual

theorem mirrors_treeOf (serial : Nat) : (flow : Flow) → JobTree.Mirrors flow (treeOf serial flow)
  | ⟨_, _, _, _, children⟩ =>
      .node rfl rfl (by simp only [treeOf, List.isEmpty_iff]) rfl
        (forall₂_treesOf (serial + 1) children)

theorem forall₂_treesOf (serial : Nat) :
    (flows : List Flow) → List.Forall₂ JobTree.Mirrors flows (treesOf serial flows)
  | [] => .nil
  | flow :: rest => .cons (mirrors_treeOf serial flow) (forall₂_treesOf _ rest)

end

end Planting

namespace Queues

/-! ## Reading -/

section Reading

variable {queues after later : Queues} {key : JobKey}

theorem Shows.stored {tree : JobTree} (shows : queues.Shows key tree) :
    ∃ job, queues.job? key = some job := by
  cases shows with
  | node stored below => exact ⟨_, stored⟩

mutual

/-- There is only one tree that shows what is stored. -/
theorem Shows.unique {key : JobKey} {tree other : JobTree} :
    queues.Shows key tree → queues.Shows key other → tree = other
  | .node stored below, .node again belowAgain => by
      cases stored.symm.trans again
      rw [below.unique belowAgain]

theorem ShowsAll.unique {keys : List JobKey} {trees others : List JobTree} :
    queues.ShowsAll keys trees → queues.ShowsAll keys others → trees = others
  | .nil, .nil => rfl
  | .gone _ rest, .gone _ restAgain => rest.unique restAgain
  | .gone gone _, .cons (.node stored _) _ => nomatch gone.symm.trans stored
  | .cons (.node stored _) _, .gone gone _ => nomatch gone.symm.trans stored
  | .cons shows rest, .cons showsAgain restAgain => by
      rw [shows.unique showsAgain, rest.unique restAgain]

end

mutual

/-- Queues that store all jobs of a flow as they were planted show its tree. -/
theorem shows_treeOf (parent : Option JobKey) (serial : Nat) :
    (flow : Flow) →
      (∀ key job, (Planting.ofFlow parent serial flow).Holds key job →
        queues.job? key = some job) →
      queues.Shows ⟨flow.queueName, jobIdOf serial⟩ (Planting.treeOf serial flow)
  | ⟨name, queueName, data, options, children⟩, stored => by
      have below := shows_treesOf ⟨queueName, jobIdOf serial⟩ (serial + 1) children
        fun key job holds => stored key job ⟨List.mem_append_left _ holds.1, holds.2⟩
      have root := stored ⟨queueName, jobIdOf serial⟩ _
        ⟨List.mem_append_right _ (List.mem_singleton_self _), rfl⟩
      have shows := Shows.node root below
      simpa only [Planting.treeOf, snapshotOf, Planting.rootJob, Planting.isEmpty_roots_ofFlows]
        using shows

theorem shows_treesOf (parent : JobKey) (serial : Nat) :
    (flows : List Flow) →
      (∀ key job, (Planting.ofFlows parent serial flows).Holds key job →
        queues.job? key = some job) →
      queues.ShowsAll (Planting.ofFlows parent serial flows).roots
        (Planting.treesOf serial flows)
  | [], _ => .nil
  | flow :: rest, stored => by
      have first := shows_treeOf (some parent) serial flow fun key job holds =>
        stored key job ⟨List.mem_append_left _ holds.1, holds.2⟩
      have others := shows_treesOf parent _ rest fun key job holds =>
        stored key job ⟨List.mem_append_right _ holds.1, holds.2⟩
      rw [Planting.ofFlows, Planting.treesOf, Planting.roots_ofFlow]
      rw [Planting.next_ofFlow] at others ⊢
      exact .cons first others

end

end Reading

/-! ## What becomes ready -/

section Ready

variable {queues after : Queues} {counts : List (String × Nat)} {flow : Flow}

/-- The same jobs are ready in the same order. -/
def SameReady (queues after : Queues) : Prop :=
  ∀ queue, (after.lane queue).ready = (queues.lane queue).ready

theorem sameReady_changeLane (queues : Queues) {queue : String} {change : Lane → Lane}
    (same : (change (queues.lane queue)).ready = (queues.lane queue).ready) :
    SameReady queues (queues.changeLane queue change) := by
  intro other
  rw [lane_changeLane]
  split
  · next here => rw [same, here]
  · rfl

/-- Claiming places makes no job ready, and none that was ready gets lost. -/
theorem sameReady_reserve (queues : Queues) (counts : List (String × Nat)) :
    SameReady queues (reserve counts queues).2 :=
  reserve_relates (fun _ _ => rfl) (fun first second queue => (second queue).trans (first queue))
    (fun queues _ _ => sameReady_changeLane queues rfl)
    (fun queues _ _ => sameReady_changeLane queues rfl)
    (fun queues queue => @sameReady_changeLane queues queue id rfl) queues counts

/-- Where no worker is stopped, jobs that are handed to their queues line up behind those that
are ready. -/
theorem ready_enqueueAll (working : queues.Working) (keys : List JobKey) (queue : String) :
    ((keys.foldl enqueue queues).lane queue).ready =
      (queues.lane queue).ready ++ (keys.filter (·.queue == queue)).map JobKey.id := by
  induction keys generalizing queues with
  | nil => simp
  | cons key rest ih =>
      rw [List.foldl_cons, ih (working_enqueue working key), enqueue, lane_changeLane,
        if_neg (working key.queue)]
      by_cases same : key.queue = queue
      · subst same
        simp
      · have different : (key.queue == queue) = false := by simpa using same
        simp [different, Ne.symm same]

end Ready

/-! ## From the submission to the reader -/

/-- A tree is what a reader is shown of a flow that was submitted. -/
structure ReadsBack (queues after : Queues) (flow : Flow) (root : JobKey) (tree : JobTree) :
    Prop where
  jobCount : after.jobCount = queues.jobCount + flow.jobCount
  /-- What was stored before is stored as it was. -/
  others : ∀ id job, queues.jobs.get? id = some job → after.jobs.get? id = some job
  read : after.tree? root = some tree
  /-- As long as nothing has happened to the jobs of the flow, this is what is read, whatever
  happens to others. -/
  still : ∀ later, after.Leads later →
    (∀ snapshot ∈ tree.postOrder, later.job? snapshot.key = after.job? snapshot.key) →
    later.tree? root = some tree
  mirrors : tree.Mirrors flow
  /-- Exactly the new jobs are listed. -/
  lists : ∀ snapshot, snapshot ∈ tree.postOrder ↔
    ∃ key job, after.job? key = some job ∧ queues.job? key = none ∧
      snapshot = snapshotOf key job
  /-- Each of them is listed once. -/
  once : (tree.postOrder.map JobSnapshot.id).Nodup ∧ tree.postOrder.length = flow.jobCount
  /-- A job is listed after everything below it. -/
  upwards : ∀ part : JobTree, part.Within tree →
    ∀ snapshot ∈ part.children.flatMap JobTree.postOrder,
      [snapshot, part.job].Sublist tree.postOrder
  /-- What is below one child of a job is listed before what is below the next ones. -/
  rightwards : ∀ part : JobTree, part.Within tree →
    part.children.Pairwise fun left right =>
      (left.postOrder ++ right.postOrder).Sublist tree.postOrder
  /-- The leaves line up in their queues from left to right. -/
  ready : ∀ queue, (after.lane queue).ready = (queues.lane queue).ready ++
    (tree.leaves.filter (·.queueName == queue)).map JobSnapshot.id
  /-- Each of them stands there once, whatever stood there before. -/
  readyOnce : ∀ leaf ∈ tree.leaves, (after.lane leaf.queueName).ready.count leaf.id = 1

section Submission

variable {settings : Dict QueueSettings} {queues after : Queues} {counts : List (String × Nat)}
  {flow : Flow} {added : AddedFlow}

/-- A flow that is accepted becomes ready at its leaves. -/
theorem ready_of_accepted (steady : Steady queues none [])
    (accepted : addInOrder counts queues flow = (.ok added, after)) (queue : String) :
    (after.lane queue).ready = (queues.lane queue).ready ++
      ((Planting.treeOf queues.nextSerial flow).leaves.filter (·.queueName == queue)).map
        JobSnapshot.id := by
  obtain ⟨between, reserved, -, rfl⟩ := planted_of_addInOrder accepted
  obtain ⟨steadyBetween, -, -, serial⟩ := steady.reserve counts
  have ready := sameReady_reserve queues counts queue
  rw [reserved] at steadyBetween serial ready
  dsimp only at steadyBetween serial ready
  have working : ({ between with
      jobs := between.jobs.insertAll (Planting.ofFlow none between.nextSerial flow).jobs
      nextSerial := (Planting.ofFlow none between.nextSerial flow).next } : Queues).Working :=
    steadyBetween.working
  rw [plant, ready_enqueueAll working, serial, ← Planting.leaves_treeOf, List.filter_map,
    List.map_map]
  exact congrArg (· ++ _) ready

/-- A leaf of an accepted flow is ready once. -/
theorem count_ready_of_accepted (steady : Steady queues none []) (steadyAfter : Steady after none [])
    (plants : Plants queues after (Planting.ofFlow none queues.nextSerial flow))
    (accepted : addInOrder counts queues flow = (.ok added, after)) {leaf : JobSnapshot}
    (isLeaf : leaf ∈ (Planting.treeOf queues.nextSerial flow).leaves) :
    (after.lane leaf.queueName).ready.count leaf.id = 1 := by
  have isReady := List.mem_map_of_mem (f := JobSnapshot.key) isLeaf
  rw [Planting.leaves_treeOf none] at isReady
  obtain ⟨job, holds, waiting⟩ := (plants.grown.ready leaf.key).1 isReady
  have pending : after.starts leaf.key = 1 := by
    have agenda := steadyAfter.agenda_eq ((plants.jobs _ _).2 (.inl holds))
    rw [waiting] at agenda
    exact congrArg Agenda.starts agenda
  have lined : leaf.id ∈ (after.lane leaf.queueName).ready := by
    rw [ready_of_accepted steady accepted]
    exact List.mem_append_right _ (List.mem_map_of_mem (List.mem_filter.2 ⟨isLeaf, by simp⟩))
  have counted : 0 < (after.lane leaf.queueName).ready.count leaf.id := List.count_pos_iff.2 lined
  simp only [starts, JobSnapshot.key] at pending
  omega

/-- The tree of an accepted flow is shown by all queues that store its jobs as they are. -/
theorem Plants.shows (plants : Plants queues after (Planting.ofFlow none queues.nextSerial flow))
    {later : Queues} (same : ∀ snapshot ∈ (Planting.treeOf queues.nextSerial flow).postOrder,
      later.job? snapshot.key = after.job? snapshot.key) :
    later.Shows ⟨flow.queueName, jobIdOf queues.nextSerial⟩
      (Planting.treeOf queues.nextSerial flow) := by
  refine shows_treeOf none queues.nextSerial flow fun key job holds => ?_
  have listed : Planting.shown (key.id, job) ∈
      (Planting.treeOf queues.nextSerial flow).postOrder := by
    rw [Planting.postOrder_treeOf none]
    exact List.mem_map_of_mem holds.1
  have isKey : (Planting.shown (key.id, job)).key = key := by
    rw [Planting.shown, snapshotOf, JobSnapshot.key, holds.2]
  have stored := same _ listed
  rw [isKey] at stored
  exact stored.trans ((plants.jobs key job).2 (.inl holds))

/-- Reading the root of an accepted flow gives its tree as long as its jobs are as they were. -/
theorem Plants.tree?_root
    (plants : Plants queues after (Planting.ofFlow none queues.nextSerial flow)) {later : Queues}
    (reached : Reachable settings later)
    (same : ∀ snapshot ∈ (Planting.treeOf queues.nextSerial flow).postOrder,
      later.job? snapshot.key = after.job? snapshot.key) :
    later.tree? ⟨flow.queueName, jobIdOf queues.nextSerial⟩ =
      some (Planting.treeOf queues.nextSerial flow) := by
  have shows := plants.shows same
  obtain ⟨root, stored⟩ := shows.stored
  obtain ⟨tree, read, shown⟩ := reached.shows_tree? stored
  rw [read, shown.unique shows]

/-- The tree of an accepted flow lists the jobs that are new. -/
theorem Plants.mem_postOrder_iff (steady : Steady queues none [])
    (plants : Plants queues after (Planting.ofFlow none queues.nextSerial flow))
    (snapshot : JobSnapshot) :
    snapshot ∈ (Planting.treeOf queues.nextSerial flow).postOrder ↔
      ∃ key job, after.job? key = some job ∧ queues.job? key = none ∧
        snapshot = snapshotOf key job := by
  rw [Planting.postOrder_treeOf none, List.mem_map]
  constructor
  · rintro ⟨⟨id, job⟩, planted, rfl⟩
    have holds : (Planting.ofFlow none queues.nextSerial flow).Holds ⟨job.queue, id⟩ job :=
      ⟨planted, rfl⟩
    refine ⟨⟨job.queue, id⟩, job, (plants.jobs _ _).2 (.inl holds), ?_, rfl⟩
    rw [Option.eq_none_iff_forall_ne_some]
    exact fun old stored => plants.unborn holds (steady.sound.born stored)
  · rintro ⟨key, job, stored, isNew, rfl⟩
    rcases (plants.jobs key job).1 stored with holds | before
    · refine ⟨(key.id, job), holds.1, ?_⟩
      rw [Planting.shown, holds.2]
    · cases isNew.symm.trans before

/-- What is read of a flow after its submission is the flow, before anything runs. -/
theorem reads_back (reached : Reachable settings queues) (perm : counts.Perm (countsOf flow))
    (accepted : addInOrder counts queues flow = (.ok added, after)) :
    added.name = flow.name ∧ added.queueName = flow.queueName ∧
      ∃ tree, ReadsBack queues after flow ⟨added.queueName, added.jobId⟩ tree := by
  obtain ⟨rfl, plants, jobCount, -⟩ := admits_of_addInOrder reached.steady perm accepted
  have reachedAfter : Reachable settings after := by
    have step := reached.step (.add perm)
    rwa [accepted] at step
  refine ⟨rfl, rfl, Planting.treeOf queues.nextSerial flow, ?_⟩
  constructor
  case jobCount => exact jobCount
  case others =>
    intro id job found
    have stored : queues.job? ⟨job.queue, id⟩ = some job := (job?_eq_some_iff _ _ _).2 ⟨found, rfl⟩
    exact ((job?_eq_some_iff _ _ _).1 ((plants.jobs _ _).2 (.inr stored))).1
  case read => exact plants.tree?_root reachedAfter fun _ _ => rfl
  case still =>
    exact fun later leads same => plants.tree?_root (leads.reachable reachedAfter) same
  case mirrors => exact Planting.mirrors_treeOf queues.nextSerial flow
  case lists => exact plants.mem_postOrder_iff reached.steady
  case once =>
    rw [Planting.postOrder_treeOf none, List.map_map, List.length_map, Planting.length_ofFlow]
    exact ⟨plants.grown.unique, rfl⟩
  case upwards => exact fun part within snapshot isBelow => within.sublist_of_below isBelow
  case rightwards => exact fun part within => within.pairwise_children
  case ready => exact ready_of_accepted reached.steady accepted
  case readyOnce =>
    exact fun leaf => count_ready_of_accepted reached.steady reachedAfter.steady plants accepted

/-- A flow over two queues: leaves of different depths on both sides of an inner job. -/
def Sample.branched : Flow :=
  ⟨"root", "wide", .null, .standard,
    [⟨"first", "narrow", .null, .standard, []⟩,
      ⟨"inner", "wide", .null, .standard,
        [⟨"second", "narrow", .null, .standard, []⟩, ⟨"third", "wide", .null, .standard, []⟩]⟩,
      ⟨"fourth", "narrow", .null, .standard, []⟩]⟩

theorem reads_back_branched : ∃ after tree,
    addInOrder (countsOf Sample.branched) (start .empty) Sample.branched =
      (.ok ⟨"j0", "root", "wide"⟩, after) ∧
    ReadsBack (start .empty) after Sample.branched ⟨"wide", "j0"⟩ tree ∧
    (after.tree? ⟨"wide", "j0"⟩).map (fun tree => tree.postOrder.map JobSnapshot.name) =
      some ["first", "second", "third", "inner", "fourth", "root"] ∧
    (after.lane "narrow").ready = ["j1", "j3", "j5"] := by
  have first : (addInOrder (countsOf Sample.branched) (start .empty) Sample.branched).1 =
      .ok ⟨"j0", "root", "wide"⟩ := by decide +kernel
  have accepted : addInOrder (countsOf Sample.branched) (start .empty) Sample.branched =
      (.ok ⟨"j0", "root", "wide"⟩,
        (addInOrder (countsOf Sample.branched) (start .empty) Sample.branched).2) :=
    Prod.ext first rfl
  obtain ⟨-, -, tree, back⟩ := reads_back .start (.refl _) accepted
  exact ⟨_, tree, accepted, back, by decide +kernel, by decide +kernel⟩

end Submission

end Queues

end Relay
