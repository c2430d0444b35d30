import Relay.Proofs.Queue.Planting
import Relay.Proofs.Queue.View

/-!
# The invariant of the scheduler

`Sound` says of a view that every stored job has exactly what its state asks for on
its agenda, that the counts of pending children are those of the children that have
not completed, and that parents and children agree about each other.  Its two
parameters loosen it for the inside of a step: `idle` is a job whose attempt has
just ended, and `orphans` are jobs whose parent is already dropped.
-/

namespace Relay

namespace View

/-- The key was given to a job at some time. -/
def Born (view : View) (key : JobKey) : Prop :=
  ∃ number, number < view.serial ∧ key.id = jobIdOf number

/-- Number of children that have not completed. -/
def openChildren (view : View) (children : List JobKey) : Nat :=
  children.countP fun child => !view.completed child

/-- The parent and the children of a stored job. -/
def lineage (view : View) (key : JobKey) : Option (Option JobKey × List JobKey) :=
  (view.job? key).map fun job => (job.parent, job.children)

end View

/-- A job has open children exactly as long as its state says so. -/
def Job.Blocked (job : Job) : Prop :=
  match job.state with
  | .waitingChildren => 0 < job.pendingChildren
  | .waiting | .active | .delayed | .completed => job.pendingChildren = 0
  | .failed => True

/-! ## Parents and children -/

/-- Parents and children agree about each other, except that the parent of an orphan
may be gone. -/
structure Family (view : View) (orphans : List JobKey) : Prop where
  /-- The parent of a job is stored and lists the job. -/
  parent : ∀ key above children, view.lineage key = some (some above, children) →
    key ∈ orphans ∨ ∃ grand siblings, view.lineage above = some (grand, siblings) ∧ key ∈ siblings
  /-- The children of a job know their parent. -/
  children : ∀ key above children, view.lineage key = some (above, children) →
    ∀ child ∈ children, ∀ parent below, view.lineage child = some (parent, below) →
      parent = some key
  distinct : ∀ key above children, view.lineage key = some (above, children) → children.Nodup
  /-- Stored jobs and their children were given to a job at some time. -/
  born : ∀ key above children, view.lineage key = some (above, children) →
    view.Born key ∧ ∀ child ∈ children, view.Born child

namespace Family

variable {view after : View} {orphans : List JobKey}

theorem congr (family : Family view orphans) (same : after.lineage = view.lineage)
    (serial : after.serial = view.serial) : Family after orphans where
  parent := same ▸ family.parent
  children := same ▸ family.children
  distinct := same ▸ family.distinct
  born := by
    unfold View.Born
    rw [same, serial]
    exact family.born

/-- Dropping a job makes orphans of its children. -/
theorem drop {key : JobKey} (family : Family view (key :: orphans)) {above : Option JobKey}
    {children : List JobKey} (stored : view.lineage key = some (above, children))
    (others : ∀ other, after.lineage other = if other = key then none else view.lineage other)
    (serial : after.serial = view.serial) : Family after (children ++ orphans) where
  parent other parent below found := by
    rw [others] at found
    split at found
    · cases found
    · next different =>
        rcases family.parent other parent below found with orphan | ⟨grand, siblings, kept, listed⟩
        · exact .inl (List.mem_append_right _ ((List.mem_cons.1 orphan).resolve_left different))
        · by_cases same : parent = key
          · rw [same, stored] at kept
            cases kept
            exact .inl (List.mem_append_left _ listed)
          · exact .inr ⟨grand, siblings, by rw [others, if_neg same, kept], listed⟩
  children other parent below found child member grand deeper kept := by
    rw [others] at found kept
    split at found
    · cases found
    · split at kept
      · cases kept
      · exact family.children other parent below found child member grand deeper kept
  distinct other parent below found := by
    rw [others] at found
    split at found
    · cases found
    · exact family.distinct other parent below found
  born other parent below found := by
    unfold View.Born
    rw [others] at found
    rw [serial]
    split at found
    · cases found
    · exact family.born other parent below found

/-- What is not stored is no orphan. -/
theorem forget {key : JobKey} (family : Family view (key :: orphans))
    (missing : view.lineage key = none) : Family view orphans where
  parent other above children found := by
    refine (family.parent other above children found).imp_left fun orphan => ?_
    rcases List.mem_cons.1 orphan with rfl | later
    · exact absurd (missing.symm.trans found) (by simp)
    · exact later
  children := family.children
  distinct := family.distinct
  born := family.born

theorem adopt (family : Family view []) (orphans : List JobKey) : Family view orphans where
  parent other above children found :=
    .inr ((family.parent other above children found).resolve_left List.not_mem_nil)
  children := family.children
  distinct := family.distinct
  born := family.born

end Family

/-! ## The invariant -/

/-- The invariant of the scheduler. -/
structure Sound (view : View) (idle : Option JobKey) (orphans : List JobKey) : Prop where
  family : Family view orphans
  /-- What is pending for a job is what its state asks for. -/
  agenda : ∀ key job, view.job? key = some job →
    view.agenda key = if idle = some key then .nothing else job.state.agenda
  /-- Pending children are those that have not completed. -/
  pending : ∀ key job, view.job? key = some job →
    job.pendingChildren = view.openChildren job.children
  blocked : ∀ key job, view.job? key = some job → job.Blocked
  /-- The completion of a job is announced when it completes. -/
  completed : ∀ key job, view.job? key = some job →
    (view.completed key = true ↔ job.state = .completed)
  /-- Keys that were given to no job are met nowhere. -/
  bornAgenda : ∀ key, view.agenda key ≠ .nothing → view.Born key
  bornCompleted : ∀ key, view.completed key = true → view.Born key

/-- What a view holds about a stored job is what the job asks for. -/
structure View.InOrder (view : View) (key : JobKey) (job : Job) : Prop where
  agenda : view.agenda key = job.state.agenda
  pending : job.pendingChildren = view.openChildren job.children
  blocked : job.Blocked
  completed : view.completed key = true ↔ job.state = .completed

namespace View

variable {view after : View} {key : JobKey} {job new : Job}

theorem InOrder.congr (inOrder : view.InOrder key job)
    (agenda : after.agenda key = view.agenda key) (completed : after.completed = view.completed) :
    after.InOrder key job where
  agenda := agenda.trans inOrder.agenda
  pending := by
    unfold openChildren
    rw [completed]
    exact inOrder.pending
  blocked := inOrder.blocked
  completed := by
    rw [completed]
    exact inOrder.completed

theorem lineage_of_stored (stored : view.job? key = some job) :
    view.lineage key = some (job.parent, job.children) := by
  rw [lineage, stored, Option.map_some]

/-- A job that keeps its parent and its children keeps its lineage. -/
theorem lineage_setJob (stored : view.job? key = some job) (parent : new.parent = job.parent)
    (children : new.children = job.children) :
    (view.setJob key (some new)).lineage = view.lineage := by
  funext other
  rw [lineage, setJob_job?]
  split
  · next same => rw [same, lineage_of_stored stored, Option.map_some, parent, children]
  · rfl

/-- The completion of a job that is no child changes no count. -/
theorem openChildren_complete_of_notMem {children : List JobKey} (stranger : key ∉ children) :
    (view.complete key).openChildren children = view.openChildren children := by
  refine List.countP_congr fun child member => ?_
  have different : child ≠ key := fun same => stranger (same ▸ member)
  rw [complete_completed, if_neg different]

/-- The completion of a child takes one from the count. -/
theorem openChildren_complete {children : List JobKey} (distinct : children.Nodup)
    (isChild : key ∈ children) (notYet : view.completed key = false) :
    (view.complete key).openChildren children + 1 = view.openChildren children := by
  induction children with
  | nil => exact absurd isChild List.not_mem_nil
  | cons child rest ih =>
      obtain ⟨fresh, distinctRest⟩ := List.nodup_cons.1 distinct
      have cons : ∀ view : View, view.openChildren (child :: rest) =
          view.openChildren rest + if view.completed child then 0 else 1 := by
        intro view
        rw [openChildren, List.countP_cons]
        cases view.completed child <;> rfl
      rw [cons, cons, complete_completed]
      rcases List.mem_cons.1 isChild with rfl | later
      · rw [openChildren_complete_of_notMem fresh]
        simp [notYet]
      · have different : child ≠ key := fun equal => fresh (equal ▸ later)
        have counted := ih distinctRest later
        rw [if_neg different]
        omega

end View

namespace Sound

variable {view : View} {idle : Option JobKey} {orphans : List JobKey} {key : JobKey} {job : Job}

/-- Every stored job but the one whose attempt has just ended is in order. -/
theorem inOrder (sound : Sound view idle orphans) (notIdle : idle ≠ some key)
    (stored : view.job? key = some job) : view.InOrder key job where
  agenda := (sound.agenda key job stored).trans (if_neg notIdle)
  pending := sound.pending key job stored
  blocked := sound.blocked key job stored
  completed := sound.completed key job stored

theorem of_inOrder (family : Family view orphans)
    (inOrder : ∀ key job, view.job? key = some job → view.InOrder key job)
    (bornAgenda : ∀ key, view.agenda key ≠ .nothing → view.Born key)
    (bornCompleted : ∀ key, view.completed key = true → view.Born key) :
    Sound view none orphans where
  family := family
  agenda key job stored := (inOrder key job stored).agenda.trans (if_neg nofun).symm
  pending key job stored := (inOrder key job stored).pending
  blocked key job stored := (inOrder key job stored).blocked
  completed key job stored := (inOrder key job stored).completed
  bornAgenda := bornAgenda
  bornCompleted := bornCompleted

/-- The parent of a job is stored and lists the job. -/
theorem listed_by_parent (sound : Sound view idle []) (stored : view.job? key = some job)
    {above : JobKey} (parent : job.parent = some above) :
    ∃ aboveJob, view.job? above = some aboveJob ∧ key ∈ aboveJob.children := by
  have lineage := View.lineage_of_stored stored
  rw [parent] at lineage
  obtain ⟨grand, siblings, aboveStored, listed⟩ :=
    (sound.family.parent _ _ _ lineage).resolve_left List.not_mem_nil
  obtain ⟨aboveJob, aboveFound, same⟩ := Option.map_eq_some_iff.1 aboveStored
  cases same
  exact ⟨aboveJob, aboveFound, listed⟩

/-- The parent of a job that has not completed waits for it, or has failed. -/
theorem above_open (sound : Sound view idle []) (stored : view.job? key = some job)
    (isOpen : job.state ≠ .completed) {above : JobKey} (parent : job.parent = some above) :
    ∃ aboveJob, view.job? above = some aboveJob ∧ key ∈ aboveJob.children ∧
      0 < aboveJob.pendingChildren ∧
      (aboveJob.state = .waitingChildren ∨ aboveJob.state = .failed) := by
  obtain ⟨aboveJob, aboveFound, listed⟩ := sound.listed_by_parent stored parent
  have notYet : view.completed key = false := by
    rw [Bool.eq_false_iff]
    exact fun done => isOpen ((sound.completed key job stored).1 done)
  have positive : 0 < aboveJob.pendingChildren := by
    rw [sound.pending above aboveJob aboveFound]
    exact List.countP_pos_iff.2 ⟨key, listed, by simp [notYet]⟩
  refine ⟨aboveJob, aboveFound, listed, positive, ?_⟩
  have blocked := sound.blocked above aboveJob aboveFound
  unfold Job.Blocked at blocked
  cases state : aboveJob.state <;> simp [state] at blocked ⊢ <;> omega

/-- What is pending for a key without a job does not matter. -/
theorem setAgenda_of_missing (sound : Sound view idle orphans) (missing : view.job? key = none)
    (born : view.Born key) (pending : Agenda) :
    Sound (view.setAgenda key pending) idle orphans where
  family := sound.family.congr rfl rfl
  agenda other job stored := by
    have different : other ≠ key := by
      rintro rfl
      exact Option.some_ne_none job (stored.symm.trans missing)
    rw [View.setAgenda_agenda, if_neg different]
    exact sound.agenda other job stored
  pending := sound.pending
  blocked := sound.blocked
  completed := sound.completed
  bornAgenda other something := by
    by_cases same : other = key
    · exact same ▸ born
    · rw [View.setAgenda_agenda, if_neg same] at something
      exact sound.bornAgenda other something
  bornCompleted := sound.bornCompleted

theorem born (sound : Sound view idle orphans) (stored : view.job? key = some job) :
    view.Born key :=
  (sound.family.born _ _ _ (View.lineage_of_stored stored)).1

/-- A job may take on a state that does not claim that it has completed, together with
what the state asks for. -/
theorem setState (sound : Sound view idle []) (only : ∀ other, idle = some other → other = key)
    (stored : view.job? key = some job) {new : Job} (parent : new.parent = job.parent)
    (children : new.children = job.children) (count : new.pendingChildren = job.pendingChildren)
    (blocked : new.Blocked) (before : job.state ≠ .completed) (after : new.state ≠ .completed) :
    Sound ((view.setJob key (some new)).setAgenda key new.state.agenda) none [] := by
  apply of_inOrder
  case family => exact sound.family.congr (View.lineage_setJob stored parent children) rfl
  case inOrder =>
    intro other now found
    simp only [View.setAgenda_job?, View.setJob_job?] at found
    split at found
    · next same =>
        cases found
        constructor
        case agenda => simp [same]
        case pending => rw [count, children]; exact sound.pending key job stored
        case blocked => exact blocked
        case completed =>
          have notYet := mt (sound.completed key job stored).1 before
          exact iff_of_false (same ▸ notYet) after
    · next different =>
        have notIdle : idle ≠ some other := fun same => different (only other same)
        exact (sound.inOrder notIdle found).congr (by simp [different]) rfl
  case bornAgenda =>
    intro other something
    simp only [View.setAgenda_agenda] at something
    split at something
    · next same => rw [same]; exact sound.born stored
    · exact sound.bornAgenda other something
  case bornCompleted => exact sound.bornCompleted

/-- The attempt of a job ends and nothing is pending for it any more. -/
theorem endAttempt (sound : Sound view none []) (stored : view.job? key = some job) :
    Sound (view.setAgenda key .nothing) (some key) [] where
  family := sound.family.congr rfl rfl
  agenda other now found := by
    rw [View.setAgenda_agenda]
    split
    · next same => rw [if_pos (congrArg some same.symm)]
    · next different =>
        rw [if_neg fun same => different (Option.some.inj same).symm]
        exact (sound.agenda other now found).trans (if_neg nofun)
  pending := sound.pending
  blocked := sound.blocked
  completed := sound.completed
  bornAgenda other something := by
    by_cases same : other = key
    · rw [same]; exact sound.born stored
    · rw [View.setAgenda_agenda, if_neg same] at something
      exact sound.bornAgenda other something
  bornCompleted := sound.bornCompleted

/-- Only the parent of a job lists it. -/
theorem parent_of_listed (sound : Sound view idle orphans) (stored : view.job? key = some job)
    {other : JobKey} {otherJob : Job} (otherStored : view.job? other = some otherJob)
    (listed : key ∈ otherJob.children) : job.parent = some other :=
  sound.family.children _ _ _ (View.lineage_of_stored otherStored) key listed _ _
    (View.lineage_of_stored stored)

end Sound

/-! ## Completion -/

namespace View

/-- A job is stored as completed and its completion announced; its parent is still to be told. -/
def finish (view : View) (key : JobKey) (done : Job) : View :=
  (view.setJob key (some done)).complete key

end View

/-- A job whose attempt has just ended completes. -/
structure Completing (view : View) (key : JobKey) (job done : Job) : Prop where
  sound : Sound view (some key) []
  stored : view.job? key = some job
  active : job.state = .active
  state : done.state = .completed
  parent : done.parent = job.parent
  children : done.children = job.children
  count : done.pendingChildren = job.pendingChildren

namespace Completing

variable {view : View} {key above : JobKey} {job done aboveJob told : Job}

theorem open_above (completing : Completing view key job done) (parent : job.parent = some above) :
    ∃ aboveJob, view.job? above = some aboveJob ∧ key ∈ aboveJob.children ∧
      0 < aboveJob.pendingChildren ∧
      (aboveJob.state = .waitingChildren ∨ aboveJob.state = .failed) :=
  completing.sound.above_open completing.stored (by rw [completing.active]; decide) parent

theorem above_ne (completing : Completing view key job done) (parent : job.parent = some above) :
    above ≠ key := by
  rintro rfl
  obtain ⟨aboveJob, aboveStored, -, -, waiting⟩ := completing.open_above parent
  rw [completing.stored] at aboveStored
  cases aboveStored
  rw [completing.active] at waiting
  exact waiting.elim (by decide) (by decide)

theorem notYet (completing : Completing view key job done) : view.completed key = false := by
  rw [Bool.eq_false_iff]
  intro already
  have state := (completing.sound.completed key job completing.stored).1 already
  rw [completing.active] at state
  cases state

/-- Whatever is not the job and not its parent stays as it was. -/
theorem inOrder_other (completing : Completing view key job done) {other : JobKey} {otherJob : Job}
    (stored : view.job? other = some otherJob) (different : other ≠ key)
    (stranger : job.parent ≠ some other) : (view.finish key done).InOrder other otherJob := by
  have notIdle : some key ≠ some other := fun same => different (Option.some.inj same).symm
  have before := completing.sound.inOrder notIdle stored
  have notListed : key ∉ otherJob.children := fun listed =>
    stranger (completing.sound.parent_of_listed completing.stored stored listed)
  constructor
  case agenda => exact before.agenda
  case pending => exact before.pending.trans (View.openChildren_complete_of_notMem notListed).symm
  case blocked => exact before.blocked
  case completed =>
    rw [View.finish, View.complete_completed, if_neg different]
    exact before.completed

/-- The completed job itself is in order. -/
theorem inOrder_self (completing : Completing view key job done) :
    (view.finish key done).InOrder key done := by
  have blocked := completing.sound.blocked key job completing.stored
  have pending := completing.sound.pending key job completing.stored
  have notListed : key ∉ job.children := fun listed =>
    completing.above_ne (completing.sound.parent_of_listed completing.stored completing.stored
      listed) rfl
  simp only [Job.Blocked, completing.active] at blocked
  constructor
  case agenda =>
    refine (completing.sound.agenda key job completing.stored).trans ?_
    rw [if_pos rfl, completing.state]
    rfl
  case pending =>
    rw [completing.count, completing.children]
    exact pending.trans (View.openChildren_complete_of_notMem notListed).symm
  case blocked =>
    rw [Job.Blocked, completing.state]
    exact completing.count.trans blocked
  case completed => simp [View.finish, completing.state]

/-- The job that completes and the jobs that are not its parent are in order. -/
theorem inOrder (completing : Completing view key job done) {other : JobKey} {now : Job}
    (stored : (view.finish key done).job? other = some now) (stranger : job.parent ≠ some other) :
    (view.finish key done).InOrder other now := by
  simp only [View.finish, View.complete_job?, View.setJob_job?] at stored
  split at stored
  · next same => cases stored; exact same ▸ completing.inOrder_self
  · next different => exact completing.inOrder_other stored different stranger

theorem bornCompleted (completing : Completing view key job done) (other : JobKey)
    (announced : (view.finish key done).completed other = true) : view.Born other := by
  simp only [View.finish, View.complete_completed] at announced
  split at announced
  · next same => rw [same]; exact completing.sound.born completing.stored
  · exact completing.sound.bornCompleted other announced

/-- A job without parent completes. -/
theorem sound_root (completing : Completing view key job done) (root : job.parent = none) :
    Sound (view.finish key done) none [] := by
  apply Sound.of_inOrder
  case family =>
    exact completing.sound.family.congr
      (View.lineage_setJob completing.stored completing.parent completing.children) rfl
  case inOrder => exact fun other now stored => completing.inOrder stored (root ▸ nofun)
  case bornAgenda => exact completing.sound.bornAgenda
  case bornCompleted => exact completing.bornCompleted

/-- A parent that is told of a completion is in order: one less of its children is to complete,
and it no longer waits if there is none left. -/
theorem inOrder_told (completing : Completing view key job done) (parent : job.parent = some above)
    (aboveStored : view.job? above = some aboveJob)
    (sameChildren : told.children = aboveJob.children)
    (count : told.pendingChildren = aboveJob.pendingChildren - 1)
    (state : told.state = if told.pendingChildren = 0 ∧ aboveJob.state = .waitingChildren
      then .waiting else aboveJob.state) :
    ((view.finish key done).setAgenda above told.state.agenda).InOrder above told := by
  obtain ⟨_, again, listed, positive, waiting⟩ := completing.open_above parent
  obtain rfl : aboveJob = _ := Option.some.inj (aboveStored.symm.trans again)
  have different : above ≠ key := completing.above_ne parent
  constructor
  case agenda => simp
  case pending =>
    have distinct := completing.sound.family.distinct _ _ _ (View.lineage_of_stored aboveStored)
    have one : (view.finish key done).openChildren aboveJob.children + 1 =
        view.openChildren aboveJob.children :=
      View.openChildren_complete distinct listed completing.notYet
    have before := completing.sound.pending above aboveJob aboveStored
    show told.pendingChildren = (view.finish key done).openChildren told.children
    rw [sameChildren]
    omega
  case blocked =>
    unfold Job.Blocked
    rcases waiting with waiting | failed
    · rw [waiting] at state
      split at state
      · next all => rw [state]; exact all.1
      · next notAll => rw [state]; exact Nat.pos_of_ne_zero fun all => notAll ⟨all, rfl⟩
    · rw [state, failed]
      simp
  case completed =>
    have notYet : ¬ view.completed above = true := by
      rw [completing.sound.completed above aboveJob aboveStored]
      rcases waiting with waiting | failed
      · rw [waiting]; decide
      · rw [failed]; decide
    have notCompleted : told.state ≠ .completed := by
      rw [state]
      rcases waiting with waiting | failed
      · rw [waiting]; split <;> decide
      · rw [failed]; split <;> decide
    refine iff_of_false ?_ notCompleted
    simpa [View.finish, different] using notYet

/-- A job completes and its parent is told: one more of its children has completed, and the
state of the parent is what the remaining ones make of it. -/
theorem sound_told (completing : Completing view key job done) (parent : job.parent = some above)
    (aboveStored : view.job? above = some aboveJob) (sameParent : told.parent = aboveJob.parent)
    (sameChildren : told.children = aboveJob.children)
    (count : told.pendingChildren = aboveJob.pendingChildren - 1)
    (state : told.state = if told.pendingChildren = 0 ∧ aboveJob.state = .waitingChildren
      then .waiting else aboveJob.state) :
    Sound (((view.finish key done).setJob above (some told)).setAgenda above told.state.agenda)
      none [] := by
  have aboveFound : (view.finish key done).job? above = some aboveJob := by
    simp [View.finish, completing.above_ne parent, aboveStored]
  apply Sound.of_inOrder
  case family =>
    have lineage : ((view.finish key done).setJob above (some told)).lineage = view.lineage := by
      rw [View.lineage_setJob aboveFound sameParent sameChildren]
      exact View.lineage_setJob completing.stored completing.parent completing.children
    exact completing.sound.family.congr lineage rfl
  case inOrder =>
    intro other now stored
    rw [View.setAgenda_job?, View.setJob_job?] at stored
    split at stored
    · next same =>
        cases stored
        rw [same]
        have inOrder := completing.inOrder_told parent aboveStored sameChildren count state
        exact inOrder.congr rfl rfl
    · next notAbove =>
        have stranger : job.parent ≠ some other :=
          fun own => notAbove (Option.some.inj (own.symm.trans parent))
        exact (completing.inOrder stored stranger).congr (by simp [notAbove]) rfl
  case bornAgenda =>
    intro other something
    simp only [View.setAgenda_agenda] at something
    split at something
    · next same => rw [same]; exact completing.sound.born aboveStored
    · exact completing.sound.bornAgenda other something
  case bornCompleted => exact completing.bornCompleted

end Completing

/-! ## Eviction -/

namespace Sound

variable {view : View} {orphans : List JobKey} {key : JobKey} {job : Job}

theorem adopt (sound : Sound view none []) (orphans : List JobKey) : Sound view none orphans :=
  { sound with family := sound.family.adopt orphans }

theorem forget (sound : Sound view none (key :: orphans)) (missing : view.job? key = none) :
    Sound view none orphans :=
  { sound with family := sound.family.forget (by rw [View.lineage, missing, Option.map_none]) }

/-- Dropping a job leaves its children behind as orphans. -/
theorem drop (sound : Sound view none (key :: orphans)) (stored : view.job? key = some job) :
    Sound (view.setJob key none) none (job.children ++ orphans) := by
  apply of_inOrder
  case family =>
    refine sound.family.drop (View.lineage_of_stored stored) (fun other => ?_) rfl
    rw [View.lineage, View.setJob_job?]
    split <;> rfl
  case inOrder =>
    intro other now found
    rw [View.setJob_job?] at found
    split at found
    · cases found
    · exact (sound.inOrder nofun found).congr rfl rfl
  case bornAgenda => exact sound.bornAgenda
  case bornCompleted => exact sound.bornCompleted

end Sound

/-! ## Submission -/

/-- A family of jobs is added to a view, and its leaves are pending. -/
structure Planted (view after : View) (planting : Planting) : Prop where
  grown : planting.Grown none view.serial
  jobs : ∀ key job, after.job? key = some job ↔
    planting.Holds key job ∨ view.job? key = some job
  ready : ∀ key ∈ planting.ready,
    after.agenda key = { view.agenda key with starts := (view.agenda key).starts + 1 }
  others : ∀ key, key ∉ planting.ready → after.agenda key = view.agenda key
  completed : after.completed = view.completed
  serial : after.serial = planting.next

namespace Planted

variable {view after : View} {planting : Planting} {key : JobKey} {job : Job}

theorem born_mono (planted : Planted view after planting) (born : view.Born key) :
    after.Born key := by
  obtain ⟨number, below, same⟩ := born
  exact ⟨number, planted.serial ▸ Nat.lt_of_lt_of_le below planted.grown.later, same⟩

theorem born_new (planted : Planted view after planting) (holds : planting.Holds key job) :
    after.Born key := by
  obtain ⟨number, -, below, same⟩ := planted.grown.id_eq holds
  exact ⟨number, planted.serial ▸ below, same⟩

/-- The keys of a planting are new. -/
theorem notBorn (planted : Planted view after planting) (holds : planting.Holds key job) :
    ¬ view.Born key := by
  rintro ⟨number, below, same⟩
  obtain ⟨later, above, -, equal⟩ := planted.grown.id_eq holds
  have := jobIdOf_injective (same.symm.trans equal)
  omega

theorem family (planted : Planted view after planting) (family : Family view []) :
    Family after [] := by
  have kept : ∀ {key : JobKey} {job : Job}, view.job? key = some job →
      after.lineage key = some (job.parent, job.children) :=
    fun stored => View.lineage_of_stored ((planted.jobs _ _).2 (.inr stored))
  have new : ∀ {key : JobKey} {job : Job}, planting.Holds key job →
      after.lineage key = some (job.parent, job.children) :=
    fun holds => View.lineage_of_stored ((planted.jobs _ _).2 (.inl holds))
  have cases : ∀ {key : JobKey} {above : Option JobKey} {children : List JobKey},
      after.lineage key = some (above, children) →
      (∃ job, planting.Holds key job ∧ job.parent = above ∧ job.children = children) ∨
        view.lineage key = some (above, children) := by
    intro key above children found
    obtain ⟨job, stored, same⟩ := Option.map_eq_some_iff.1 found
    cases same
    rcases (planted.jobs key job).1 stored with holds | old
    · exact .inl ⟨job, holds, rfl, rfl⟩
    · exact .inr (View.lineage_of_stored old)
  constructor
  case parent =>
    intro key above children found
    refine .inr ?_
    rcases cases found with ⟨job, holds, parent, rfl⟩ | old
    · rcases planted.grown.family key job holds with ⟨-, root⟩ | ⟨next, nextJob, held, same, listed⟩
      · exact absurd (root.symm.trans parent) (by simp)
      · cases same.symm.trans parent
        exact ⟨_, _, new held, listed⟩
    · obtain ⟨grand, siblings, stored, listed⟩ :=
        (family.parent key above children old).resolve_left List.not_mem_nil
      obtain ⟨aboveJob, aboveStored, same⟩ := Option.map_eq_some_iff.1 stored
      cases same
      exact ⟨_, _, kept aboveStored, listed⟩
  case children =>
    intro key above children found child member parent below childFound
    rcases cases found with ⟨job, holds, -, rfl⟩ | old
    · obtain ⟨childJob, held, isParent⟩ :=
        (planted.grown.seedling key job holds).children child member
      rw [new held] at childFound
      cases childFound
      exact isParent
    · have childBorn := (family.born key above children old).2 child member
      rcases cases childFound with ⟨childJob, held, -, -⟩ | childOld
      · exact absurd childBorn (planted.notBorn held)
      · exact family.children key above children old child member parent below childOld
  case distinct =>
    intro key above children found
    rcases cases found with ⟨job, holds, -, rfl⟩ | old
    · exact (planted.grown.seedling key job holds).distinct
    · exact family.distinct key above children old
  case born =>
    intro key above children found
    rcases cases found with ⟨job, holds, -, rfl⟩ | old
    · refine ⟨planted.born_new holds, fun child member => ?_⟩
      obtain ⟨childJob, held, -⟩ := (planted.grown.seedling key job holds).children child member
      exact planted.born_new held
    · have born := family.born key above children old
      exact ⟨planted.born_mono born.1, fun child member => planted.born_mono (born.2 child member)⟩

/-- Nothing was known of a new job before. -/
theorem unknown (planted : Planted view after planting) (sound : Sound view none [])
    (holds : planting.Holds key job) :
    view.agenda key = .nothing ∧ view.completed key = false := by
  have notBorn := planted.notBorn holds
  refine ⟨Decidable.byContradiction fun something => notBorn (sound.bornAgenda key something), ?_⟩
  rw [Bool.eq_false_iff]
  exact fun announced => notBorn (sound.bornCompleted key announced)

/-- A new job is in order. -/
theorem inOrder_new (planted : Planted view after planting) (sound : Sound view none [])
    (holds : planting.Holds key job) : after.InOrder key job := by
  have seedling := planted.grown.seedling key job holds
  have state := seedling.state
  obtain ⟨nothing, notYet⟩ := planted.unknown sound holds
  constructor
  case agenda =>
    have isReady := planted.grown.ready key
    by_cases waiting : job.state = .waiting
    · rw [planted.ready key (isReady.2 ⟨job, holds, waiting⟩), nothing, waiting]
      rfl
    · have notReady : key ∉ planting.ready := by
        intro ready
        obtain ⟨other, held, isWaiting⟩ := isReady.1 ready
        exact waiting (planted.grown.holds_unique held holds ▸ isWaiting)
      have blocked : job.state = .waitingChildren := by
        split at state
        · exact absurd state waiting
        · exact state
      rw [planted.others key notReady, nothing, blocked]
      rfl
  case pending =>
    unfold View.openChildren
    rw [planted.completed, seedling.pending, eq_comm, List.countP_eq_length]
    intro child member
    obtain ⟨childJob, held, -⟩ := seedling.children child member
    simp [(planted.unknown sound held).2]
  case blocked =>
    unfold Job.Blocked
    split at state
    · next none => rw [state]; simp [seedling.pending, none]
    · next some => rw [state]; simpa [seedling.pending] using List.length_pos_iff.2 some
  case completed =>
    rw [planted.completed, notYet, state]
    refine iff_of_false (by decide) ?_
    split <;> decide

/-- The jobs that were stored before stay in order. -/
theorem inOrder_old (planted : Planted view after planting) (sound : Sound view none [])
    (stored : view.job? key = some job) : after.InOrder key job := by
  have notReady : key ∉ planting.ready := by
    intro ready
    obtain ⟨other, held, -⟩ := (planted.grown.ready key).1 ready
    exact planted.notBorn held (sound.born stored)
  exact (sound.inOrder nofun stored).congr (planted.others key notReady) planted.completed

theorem sound (planted : Planted view after planting) (sound : Sound view none []) :
    Sound after none [] := by
  apply Sound.of_inOrder
  case family => exact planted.family sound.family
  case inOrder =>
    intro key job stored
    rcases (planted.jobs key job).1 stored with holds | old
    · exact planted.inOrder_new sound holds
    · exact planted.inOrder_old sound old
  case bornAgenda =>
    intro key something
    by_cases ready : key ∈ planting.ready
    · obtain ⟨job, holds, -⟩ := (planted.grown.ready key).1 ready
      exact planted.born_new holds
    · rw [planted.others key ready] at something
      exact planted.born_mono (sound.bornAgenda key something)
  case bornCompleted =>
    intro key announced
    rw [planted.completed] at announced
    exact planted.born_mono (sound.bornCompleted key announced)

end Planted

end Relay
