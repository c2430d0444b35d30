import Relay.Proofs.Queue.History
import Relay.Proofs.Queue.Tree

/-!
# The tree of a chain

As long as all jobs of a chain are stored, the tree of its last job has one node below the
other, and read from the inside out it lists the jobs in the order of the chain.  What the
jobs have come to does not matter, because a stored job keeps its name and its children.
-/

namespace Relay

/-- A tree lists the jobs of a chain in their order, by identifier and name. -/
def JobTree.Lists (tree : JobTree) (links : List Link) : Prop :=
  tree.postOrder.map (fun job => (job.id, job.name)) =
    links.map fun link => (link.key.id, link.seed.name)

namespace Queues

/-- Jobs are stored under all keys of a chain. -/
def Stores (queues : Queues) (links : List Link) : Prop :=
  ∀ link ∈ links, ∃ job, queues.job? link.key = some job

/-- All jobs of a chain are stored, as far as each of them may have come. -/
def Keeps (queues : Queues) (links : List Link) : Prop :=
  ∀ link ∈ links, ∃ job, queues.job? link.key = some job ∧ link.seed.Stems job

section Listing

variable {queues later : Queues} {settings : Dict QueueSettings} {links : List Link} {root : Link}
  {key : JobKey} {job : Job} {tree : JobTree}

theorem Shows.of_stored (shows : queues.Shows key tree) (stored : queues.job? key = some job) :
    ∃ children, tree = ⟨snapshotOf key job, children⟩ ∧ queues.ShowsAll job.children children := by
  cases shows with
  | node found below =>
      cases found.symm.trans stored
      exact ⟨_, rfl, below⟩

/-- The only child of a job is shown if it is stored. -/
theorem ShowsAll.of_singleton {trees : List JobTree} (shows : queues.ShowsAll [key] trees)
    (stored : queues.job? key = some job) : ∃ tree, trees = [tree] ∧ queues.Shows key tree := by
  cases shows with
  | gone gone rest => cases gone.symm.trans stored
  | cons shows rest =>
      cases rest
      exact ⟨_, rfl, shows⟩

theorem ShowsAll.of_nil {trees : List JobTree} (shows : queues.ShowsAll [] trees) : trees = [] := by
  cases shows
  rfl

/-- The tree of the last job of stored jobs, each the only child of the next, lists them. -/
theorem Shows.lists (joined : links.IsChain Link.Below)
    (bottom : ∀ link ∈ links.head?, link.seed.children = []) (keeps : queues.Keeps links)
    (last : root ∈ links.getLast?) (shows : queues.Shows root.key tree) : tree.Lists links := by
  induction links using List.reverseRecOn generalizing root tree with
  | nil => cases last
  | append_singleton before link ih =>
      obtain rfl : link = root := by simpa using last
      obtain ⟨job, stored, stems⟩ := keeps link (by simp)
      obtain ⟨children, rfl, below⟩ := shows.of_stored stored
      rw [stems.children] at below
      have snapshot : ((snapshotOf link.key job).id, (snapshotOf link.key job).name) =
          (link.key.id, link.seed.name) := Prod.ext rfl stems.name
      rcases List.eq_nil_or_concat' before with rfl | ⟨lower, child, rfl⟩
      · -- The first job of the chain has nothing below it.
        rw [bottom link (by simp)] at below
        obtain rfl := below.of_nil
        simp [JobTree.Lists, JobTree.postOrder, JobTree.postOrders, snapshot]
      · have under : child.Below link := by
          rw [List.append_assoc, List.singleton_append] at joined
          exact (List.isChain_append_cons_cons.1 joined).2.1
        obtain ⟨_, childStored, -⟩ := keeps child (by simp)
        rw [under.children] at below
        obtain ⟨inner, rfl, shown⟩ := below.of_singleton childStored
        have listed := ih joined.left_of_append (fun first isFirst => bottom first (by
          rw [List.head?_append_of_ne_nil _ (by simp)]
          exact isFirst)) (fun other member => keeps other (List.mem_append_left _ member))
          (by simp) shown
        simp only [JobTree.Lists] at listed
        simp [JobTree.Lists, JobTree.postOrder, JobTree.postOrders, snapshot, listed]

end Listing

/-- Reachable queues that have taken a chain, with a root job. -/
structure HasTaken (settings : Dict QueueSettings) (root : JobKey) (links : List Link)
    (queues : Queues) : Prop where
  reachable : Reachable settings queues
  linked : Linked links
  keeps : queues.Keeps links
  /-- The root job is the last of the chain. -/
  top : links.getLast?.map Link.key = some root

namespace HasTaken

variable {settings : Dict QueueSettings} {root : JobKey} {links : List Link}
  {queues later : Queues}

/-- A chain whose jobs are all stored later has been taken there, too: the jobs are what they
were submitted as. -/
theorem leads (taken : HasTaken settings root links queues) (leads : queues.Leads later)
    (stores : later.Stores links) : HasTaken settings root links later where
  reachable := leads.reachable taken.reachable
  linked := taken.linked
  keeps link member := by
    obtain ⟨old, before, stems⟩ := taken.keeps link member
    obtain ⟨new, stored⟩ := stores link member
    have same := (leads.endures taken.reachable before stored).stems
    exact ⟨new, stored, stems.congr same.queue same.name same.data same.options same.parent
      same.children⟩
  top := taken.top

/-- Jobs of the chain that are stored at some time were stored all the time. -/
theorem stores_between {between : Queues} (taken : HasTaken settings root links queues)
    (first : queues.Leads between) (second : between.Leads later) (stores : later.Stores links) :
    between.Stores links := by
  intro link member
  obtain ⟨old, before, -⟩ := taken.keeps link member
  obtain ⟨new, stored⟩ := stores link member
  have born := first.born taken.reachable (taken.reachable.steady.sound.born before)
  obtain ⟨middle, storedBetween, -⟩ :=
    second.origin (first.reachable taken.reachable) born stored
  exact ⟨middle, storedBetween⟩

/-- The tree of the root job lists the chain. -/
theorem lists (taken : HasTaken settings root links queues) {tree : JobTree}
    (shows : queues.Shows root tree) : tree.Lists links := by
  obtain ⟨link, last, rfl⟩ := Option.map_eq_some_iff.1 taken.top
  exact shows.lists taken.linked.joined (fun first isFirst => (taken.linked.bottom first isFirst).1)
    taken.keeps last

theorem root_stored (taken : HasTaken settings root links queues) :
    ∃ job, queues.job? root = some job := by
  obtain ⟨link, last, rfl⟩ := Option.map_eq_some_iff.1 taken.top
  obtain ⟨job, stored, -⟩ := taken.keeps link (List.mem_of_getLast? last)
  exact ⟨job, stored⟩

end HasTaken

end Queues

end Relay
