import Relay.Proofs.Queue.ChainRun
import Relay.Proofs.Queue.Progress

/-!
# Trees of stored jobs

A reader follows the children of a job down through the table of jobs.  Any of them may
have been evicted, with or without the jobs below it, so the tree of a job is what is left
of the one that was submitted.  `Shows` says what that is, without a bound on the depth.
The bound of the reader is never felt: a child is younger than its parent, so a branch does
not come back to a job, and no branch is longer than the table.
-/

namespace Relay

theorem JobKey.Before.trans {key between other : JobKey} (first : key.Before between)
    (second : between.Before other) : key.Before other := by
  obtain ⟨number, later, isNumber, isLater, less⟩ := first
  obtain ⟨same, latest, isSame, isLatest, more⟩ := second
  obtain rfl := jobIdOf_injective (isLater.symm.trans isSame)
  exact ⟨number, latest, isNumber, isLatest, less.trans more⟩

theorem JobKey.Before.ne {key other : JobKey} (before : key.Before other) : key ≠ other := by
  rintro rfl
  obtain ⟨number, later, isNumber, isLater, less⟩ := before
  obtain rfl := jobIdOf_injective (isNumber.symm.trans isLater)
  exact less.false

namespace Queues

mutual

/-- A tree shows the stored jobs at and below a key as they are. -/
inductive Shows (queues : Queues) : JobKey → JobTree → Prop where
  | node {key : JobKey} {job : Job} {children : List JobTree}
      (stored : queues.job? key = some job) (below : ShowsAll queues job.children children) :
      Shows queues key ⟨snapshotOf key job, children⟩

/-- Trees show what is stored at and below several keys.  What is not stored is left out,
together with all that was below it. -/
inductive ShowsAll (queues : Queues) : List JobKey → List JobTree → Prop where
  | nil : ShowsAll queues [] []
  | gone {key : JobKey} {keys : List JobKey} {trees : List JobTree}
      (gone : queues.job? key = none) (rest : ShowsAll queues keys trees) :
      ShowsAll queues (key :: keys) trees
  | cons {key : JobKey} {keys : List JobKey} {tree : JobTree} {trees : List JobTree}
      (shows : Shows queues key tree) (rest : ShowsAll queues keys trees) :
      ShowsAll queues (key :: keys) (tree :: trees)

end

/-- Stored jobs through which a branch has come down to a key, the last one first. -/
structure Branch (queues : Queues) (path : List JobKey) (key : JobKey) : Prop where
  older : ∀ other ∈ path, other.Before key
  distinct : path.Nodup
  stored : ∀ other ∈ path, ∃ job, queues.job? other = some job

section Trees

variable {queues : Queues} {settings : Dict QueueSettings} {path : List JobKey}
  {key child : JobKey} {job : Job}

theorem branch_nil (queues : Queues) (key : JobKey) : queues.Branch [] key where
  older := by simp
  distinct := .nil
  stored := by simp

theorem Branch.nodup (branch : queues.Branch path key) : (key :: path).Nodup :=
  List.nodup_cons.2 ⟨fun again => (branch.older key again).ne rfl, branch.distinct⟩

theorem Branch.stored_cons (branch : queues.Branch path key) (stored : queues.job? key = some job) :
    ∀ other ∈ key :: path, ∃ job, queues.job? other = some job := by
  intro other member
  rcases List.mem_cons.1 member with rfl | above
  · exact ⟨job, stored⟩
  · exact branch.stored other above

/-- A branch goes on with a child of its last job. -/
theorem Branch.cons (branch : queues.Branch path key) (descending : queues.Descending)
    (stored : queues.job? key = some job) (isChild : child ∈ job.children) :
    queues.Branch (key :: path) child where
  older other member := by
    have younger := descending key job stored child isChild
    rcases List.mem_cons.1 member with rfl | above
    · exact younger
    · exact (branch.older other above).trans younger
  distinct := branch.nodup
  stored := branch.stored_cons stored

/-- A branch to a stored job is shorter than the table of jobs. -/
theorem Branch.length_lt (branch : queues.Branch path key) (stored : queues.job? key = some job) :
    path.length < queues.jobs.size :=
  length_le_size branch.nodup (branch.stored_cons stored)

theorem treeWithin_of_gone (gone : queues.job? key = none) (depth : Nat) :
    queues.treeWithin depth key = none := by
  cases depth with
  | zero => rfl
  | succ depth => rw [treeWithin, gone, Option.map_none]

/-- A search that shows every stored job shows what is left of several. -/
theorem showsAll_filterMap {search : JobKey → Option JobTree} {keys : List JobKey}
    (gone : ∀ key ∈ keys, queues.job? key = none → search key = none)
    (shows : ∀ key ∈ keys, ∀ job, queues.job? key = some job →
      ∃ tree, search key = some tree ∧ queues.Shows key tree) :
    queues.ShowsAll keys (keys.filterMap search) := by
  induction keys with
  | nil => exact .nil
  | cons key rest ih =>
      have others := ih (fun other member => gone other (List.mem_cons_of_mem _ member))
        fun other member => shows other (List.mem_cons_of_mem _ member)
      cases stored : queues.job? key with
      | none =>
          rw [List.filterMap_cons_none (gone key List.mem_cons_self stored)]
          exact .gone stored others
      | some job =>
          obtain ⟨tree, found, shown⟩ := shows key List.mem_cons_self job stored
          rw [List.filterMap_cons_some found]
          exact .cons shown others

/-- A search that may go as deep as the rest of the table finds everything below a branch. -/
theorem Branch.shows_treeWithin (descending : queues.Descending) {depth : Nat}
    (branch : queues.Branch path key) (stored : queues.job? key = some job)
    (deep : queues.jobs.size ≤ depth + path.length) :
    ∃ tree, queues.treeWithin depth key = some tree ∧ queues.Shows key tree := by
  induction depth generalizing path key job with
  | zero =>
      have short := branch.length_lt stored
      omega
  | succ depth ih =>
      refine ⟨_, by rw [treeWithin, stored, Option.map_some], .node stored ?_⟩
      refine showsAll_filterMap (fun child _ gone => treeWithin_of_gone gone depth) ?_
      intro child isChild childJob childStored
      refine ih (branch.cons descending stored isChild) childStored ?_
      rw [List.length_cons]
      omega

/-- The tree of a stored job shows everything that is left of it. -/
theorem Reachable.shows_tree? (reached : Reachable settings queues)
    (stored : queues.job? key = some job) :
    ∃ tree, queues.tree? key = some tree ∧ queues.Shows key tree :=
  (branch_nil queues key).shows_treeWithin reached.descending stored (Nat.le_add_right _ _)

end Trees

end Queues

end Relay
