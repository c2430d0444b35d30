import Mathlib.Data.List.Perm.Subperm
import Relay.Proofs.Queue.History

/-!
# The run of a chain

Every step of the queues, whatever it is about, leads from one phase of a chain to
another, as long as nothing is evicted and the calls for the jobs of the chain return
what is foreseen.
-/

namespace Relay

namespace Queues

/-! ## Jobs of other flows -/

section Others

variable {queues : Queues} {key other : JobKey}

/-- A job that completes changes itself and its parent. -/
theorem job?_complete_of_ne (away : other ≠ key)
    (notParent : ∀ job, queues.job? key = some job → job.parent ≠ some other) (value : Json) :
    (queues.complete key value).job? other = queues.job? other := by
  unfold complete
  split
  · next job stored =>
      have noted : (queues.noteCompleted key job value).job? other = queues.job? other := by
        rw [job?_noteCompleted stored, Function.update_of_ne away]
      split
      · next parent isParent =>
          have notAbove : other ≠ parent := fun same => notParent job stored (same ▸ isParent)
          cases above : (queues.noteCompleted key job value).job? parent with
          | none =>
              simp only [childCompleted, above]
              exact noted
          | some aboveJob =>
              rw [job?_childCompleted above, Function.update_of_ne notAbove]
              exact noted
      · exact noted
  · rfl

/-- A job that fails changes itself and jobs above it. -/
theorem job?_failUpward_of_ne {inside : JobKey → Prop} (isInside : inside other)
    (inherited : String) (height : Nat) (reason : String) (outside : ¬ inside key)
    (closed : ∀ key job, queues.job? key = some job → ¬ inside key →
      ∀ parent, job.parent = some parent → ¬ inside parent) :
    (failUpward inherited height queues key reason).job? other = queues.job? other := by
  induction height generalizing queues key reason with
  | zero => rfl
  | succ height ih =>
      unfold failUpward
      split
      · next job stored =>
          have away : other ≠ key := fun same => outside (same ▸ isInside)
          have noted : (queues.noteFailed key job reason).job? other = queues.job? other := by
            rw [job?_noteFailed stored, Function.update_of_ne away]
          split
          · rfl
          · split
            · next parent _ isParent =>
                rw [ih _ (closed key job stored outside parent isParent), noted]
                intro again found isFound notInside above isAbove
                rw [job?_noteFailed stored, Function.update_apply] at isFound
                split at isFound
                · cases isFound
                  exact closed key job stored outside above isAbove
                · exact closed again found isFound notInside above isAbove
            · exact noted
      · rfl

theorem job?_retryLater_of_ne (away : other ≠ key) (attempt : Nat) :
    (queues.retryLater key attempt).job? other = queues.job? other := by
  cases stored : queues.job? key with
  | none => rw [job?_retryLater_of_missing stored]
  | some job => rw [job?_retryLater stored, Function.update_of_ne away]

/-- A call that returns changes its job and jobs above it. -/
theorem job?_callReturns_of_ne {inside : JobKey → Prop} (isInside : inside other) {call : Call}
    (outside : ¬ inside call.key) (closed : ∀ key job, queues.job? key = some job →
      ¬ inside key → ∀ parent, job.parent = some parent → ¬ inside parent)
    (outcome : Except JobError Json) :
    (queues.callReturns call outcome).job? other = queues.job? other := by
  have away : other ≠ call.key := fun same => outside (same ▸ isInside)
  unfold callReturns
  dsimp only
  split
  · apply job?_complete_of_ne away
    intro job stored isParent
    exact closed call.key job stored outside other isParent isInside
  · split
    · exact job?_retryLater_of_ne away _
    · exact job?_failUpward_of_ne isInside _ _ _ outside closed
  · exact job?_failUpward_of_ne isInside _ _ _ outside closed

end Others

/-! ## Failing upward -/

/-- There are at least as many stored jobs as keys under which one is found. -/
theorem length_le_size {queues : Queues} {keys : List JobKey} (distinct : keys.Nodup)
    (stored : ∀ key ∈ keys, ∃ job, queues.job? key = some job) :
    keys.length ≤ queues.jobs.size := by
  have ids : (keys.map JobKey.id).Nodup := by
    apply List.Nodup.map_on _ distinct
    intro left isLeft right isRight same
    by_contra different
    obtain ⟨job, found⟩ := stored left isLeft
    obtain ⟨other, foundOther⟩ := stored right isRight
    rw [job?_eq_none_of_id foundOther same different] at found
    cases found
  have listed : keys.map JobKey.id ⊆ queues.jobs.keys := by
    intro jobId member
    obtain ⟨key, isKey, rfl⟩ := List.mem_map.1 member
    obtain ⟨job, found⟩ := stored key isKey
    exact (Dict.mem_keys_iff _ _).2 ⟨job, ((job?_eq_some_iff _ _ _).1 found).1⟩
  have shorter := (List.Nodup.subperm ids listed).length_le
  rw [List.length_map] at shorter
  exact shorter.trans_eq (List.length_map _)

/-- A job of a chain that fails takes the jobs above it along. -/
theorem failUpward_chain {inherited : String} {rest before : List Link} {link : Link}
    {queues : Queues} {job : Job} {height : Nat} {reason : String}
    (linked : Linked (before ++ link :: rest)) (stored : queues.job? link.key = some job)
    (stems : link.seed.Stems job) (unfinished : job.state.isFinished = false)
    (untouched : ∀ other ∈ rest, other.Untouched queues.job?) (high : rest.length < height) :
    ((failUpward inherited height queues link.key reason).job? link.key =
        some (queues.failedJob job reason)) ∧
      (∀ other ∈ rest, other.Inherits
        (failUpward inherited height queues link.key reason).job? inherited) ∧
      ∀ key, key ∉ (link :: rest).map Link.key →
        (failUpward inherited height queues link.key reason).job? key = queues.job? key := by
  induction rest generalizing before link queues job height reason with
  | nil =>
      obtain ⟨height, rfl⟩ := Nat.exists_eq_succ_of_ne_zero (Nat.ne_of_gt high)
      have top : job.parent = none := stems.parent.trans linked.parent_last
      have goesOn : job.options.failParentOnFailure = true := by
        rw [stems.options]
        exact linked.binding link (by simp)
      have whole : failUpward inherited (height + 1) queues link.key reason =
          queues.noteFailed link.key job reason := by
        simp only [failUpward, stored, unfinished, Bool.false_eq_true, if_false, goesOn, top]
      rw [whole, job?_noteFailed stored]
      refine ⟨Function.update_self _ _ _, fun other member => absurd member List.not_mem_nil, ?_⟩
      intro key away
      exact Function.update_of_ne (fun same => away (by simp [same])) _ _
  | cons above rest ih =>
      obtain ⟨height, rfl⟩ := Nat.exists_eq_succ_of_ne_zero (Nat.ne_of_gt (Nat.zero_lt_of_lt high))
      have parent : job.parent = some above.key := stems.parent.trans linked.below.parent
      have goesOn : job.options.failParentOnFailure = true := by
        rw [stems.options]
        exact linked.binding link (by simp)
      have whole : failUpward inherited (height + 1) queues link.key reason =
          failUpward inherited height (queues.noteFailed link.key job reason) above.key
            inherited := by
        simp only [failUpward, stored, unfinished, Bool.false_eq_true, if_false, goesOn, parent]
      have noted := job?_noteFailed stored reason
      have apart := linked.apart.2
      have shifted : Linked ((before ++ [link]) ++ above :: rest) := by
        rwa [List.append_assoc, List.singleton_append]
      have aboveStored : (queues.noteFailed link.key job reason).job? above.key =
          some above.seed := by
        rw [noted, Function.update_of_ne (apart above List.mem_cons_self)]
        exact untouched above List.mem_cons_self
      have waits := linked.waits (List.mem_cons_self : above ∈ above :: rest)
      have aboveUnfinished : above.seed.state.isFinished = false := by rw [waits]; rfl
      have untouchedRest : ∀ other ∈ rest,
          other.Untouched (queues.noteFailed link.key job reason).job? := by
        intro other member
        unfold Link.Untouched
        rw [noted, Function.update_of_ne (apart other (List.mem_cons_of_mem _ member))]
        exact untouched other (List.mem_cons_of_mem _ member)
      obtain ⟨failed, others, frame⟩ := @ih _ _ _ above.seed height inherited shifted aboveStored
        ⟨rfl, rfl, rfl, rfl, rfl, rfl⟩ aboveUnfinished untouchedRest
        (Nat.lt_of_succ_lt_succ high)
      rw [whole]
      refine ⟨?_, ?_, ?_⟩
      · have away : link.key ∉ (above :: rest).map Link.key := by
          intro member
          obtain ⟨other, isOther, same⟩ := List.mem_map.1 member
          exact apart other isOther same
        rw [frame _ away, noted, Function.update_self]
      · intro other member
        rcases List.mem_cons.1 member with rfl | later
        · have untried := linked.untried other (by simp)
          exact ⟨_, failed, ⟨rfl, rfl, rfl, rfl, rfl, rfl⟩, rfl, rfl, untried⟩
        · exact others other later
      · intro key away
        rw [List.map_cons] at away
        have notLink : key ≠ link.key := fun same => away (by simp [same])
        rw [frame key fun member => away (List.mem_cons_of_mem _ member), noted,
          Function.update_of_ne notLink]

theorem job?_complete_top {queues : Queues} {key : JobKey} {job : Job}
    (stored : queues.job? key = some job) (top : job.parent = none) (value : Json) :
    (queues.complete key value).job? =
      Function.update queues.job? key (some (queues.completedJob job value)) := by
  simp only [complete, stored, top]
  exact job?_noteCompleted stored value

theorem job?_complete_below {queues : Queues} {key above : JobKey} {job aboveJob : Job}
    (stored : queues.job? key = some job) (parent : job.parent = some above)
    (aboveStored : queues.job? above = some aboveJob) (different : above ≠ key) (value : Json) :
    (queues.complete key value).job? =
      Function.update (Function.update queues.job? key (some (queues.completedJob job value))) above
        (some (afterChild aboveJob)) := by
  have noted := job?_noteCompleted stored value
  have kept : (queues.noteCompleted key job value).job? above = some aboveJob := by
    rw [noted, Function.update_of_ne different]
    exact aboveStored
  simp only [complete, stored, parent]
  rw [job?_childCompleted kept, noted]

end Queues

/-! ## The job that is under way -/

namespace Live

variable {trials : Trials} {jobs after : JobKey → Option Job} {before rest : List Link} {link : Link}

/-- The job that is under way changes, and stays under way. -/
theorem goesOn (live : Live trials jobs before link rest)
    (linked : Linked (before ++ link :: rest)) {new : Option Job}
    (change : after = Function.update jobs link.key new)
    (underway : link.Underway after trials) : Phase trials after (before ++ link :: rest) := by
  have frame : ∀ other : Link, other.key ≠ link.key → after other.key = jobs other.key := by
    intro other away
    rw [change, Function.update_of_ne away]
  apply Phase.live rfl
  constructor
  case before =>
    intro other member
    exact (live.before other member).congr (frame other (linked.apart.1 other member))
  case underway => exact underway
  case rest =>
    intro other member
    exact (frame other (linked.apart.2 other member)).trans (live.rest other member)

/-- The last job of a chain completes. -/
theorem completesTop (live : Live trials jobs before link [])
    (linked : Linked (before ++ [link])) {new : Option Job}
    (change : after = Function.update jobs link.key new)
    (completed : link.Completed after trials) : Phase trials after (before ++ [link]) := by
  apply Phase.completed
  intro other member
  rcases List.mem_append.1 member with earlier | last
  · apply (live.before other earlier).congr
    rw [change, Function.update_of_ne (linked.apart.1 other earlier)]
  · exact List.mem_singleton.1 last ▸ completed

/-- A job completes, and the one above it becomes ready. -/
theorem completesBelow {above : Link} (live : Live trials jobs before link (above :: rest))
    (linked : Linked (before ++ link :: above :: rest)) {new : Option Job}
    (change : after = Function.update (Function.update jobs link.key new) above.key
      (some (Queues.afterChild above.seed)))
    (completed : link.Completed after trials) :
    Phase trials after (before ++ link :: above :: rest) := by
  have shifted : Linked ((before ++ [link]) ++ above :: rest) := by
    rwa [List.append_assoc, List.singleton_append]
  have frame : ∀ other : Link, other.key ≠ link.key → other.key ≠ above.key →
      after other.key = jobs other.key := by
    intro other notLink notAbove
    rw [change, Function.update_of_ne notAbove, Function.update_of_ne notLink]
  have isBelow := linked.below
  have last : Queues.awaitsLastChild above.seed := by
    unfold Queues.awaitsLastChild
    rw [isBelow.pending]
    exact ⟨rfl, isBelow.state⟩
  have whole : before ++ link :: above :: rest = (before ++ [link]) ++ above :: rest := by simp
  apply Phase.live whole
  constructor
  case before =>
    intro other member
    rcases List.mem_append.1 member with earlier | here
    · apply (live.before other earlier).congr
      exact frame other (linked.apart.1 other earlier) (shifted.apart.1 other (by simp [earlier]))
    · exact List.mem_singleton.1 here ▸ completed
  case underway =>
    have untried := linked.untried above (by simp)
    refine ⟨Queues.afterChild above.seed, 0, by rw [change, Function.update_self],
      ⟨rfl, rfl, rfl, rfl, rfl, rfl⟩, retried_zero _ _, .inr ⟨.inl (if_pos last), untried⟩⟩
  case rest =>
    intro other member
    have notLink := linked.apart.2 other (List.mem_cons_of_mem _ member)
    exact (frame other notLink (shifted.apart.2 other member)).trans
      (live.rest other (List.mem_cons_of_mem _ member))

/-- A job fails for good, and the jobs above it inherit its failure. -/
theorem breaks {error : JobError} (live : Live trials jobs before link rest)
    (linked : Linked (before ++ link :: rest))
    (frame : ∀ key, key ∉ (link :: rest).map Link.key → after key = jobs key)
    (broken : link.Broken after trials error) (inherit : ∀ other ∈ rest,
      other.Inherits after (Queues.inheritedReason link.seed.name error.message)) :
    Phase trials after (before ++ link :: rest) := by
  apply Phase.stranded rfl
  constructor
  case before =>
    intro other member
    apply (live.before other member).congr
    apply frame
    intro inside
    have distinct := linked.distinct
    rw [List.map_append, List.nodup_append] at distinct
    exact distinct.2.2 _ (List.mem_map_of_mem member) _ inside rfl
  case broken => exact broken
  case rest => exact inherit

end Live

/-! ## All steps -/

namespace Phase

variable {trials : Trials} {links : List Link} {link : Link} {queues after : Queues}

/-- The jobs above a job that belongs to no chain belong to none. -/
theorem closed (phase : Phase trials queues.job? links) (linked : Linked links)
    (steady : queues.Steady none []) (key : JobKey) (job : Job)
    (stored : queues.job? key = some job) (outside : key ∉ links.map Link.key)
    (parent : JobKey) (isParent : job.parent = some parent) : parent ∉ links.map Link.key := by
  intro inside
  obtain ⟨link, member, rfl⟩ := List.mem_map.1 inside
  obtain ⟨aboveJob, aboveStored, stems⟩ := phase.stored member
  obtain ⟨found, isFound, listed⟩ := steady.sound.listed_by_parent stored isParent
  obtain rfl := Option.some.inj (aboveStored.symm.trans isFound)
  rw [stems.children] at listed
  exact outside (linked.child_mem member listed)

/-- An attempt of a job of the chain is started. -/
theorem starts {job : Job} (phase : Phase trials queues.job? links) (linked : Linked links)
    (member : link ∈ links) (starts : queues.Starts after link.key job) :
    Phase trials after.job? links := by
  have unfinished : job.state.isFinished = false := by rw [starts.waiting]; rfl
  have ready : job.state ≠ .waitingChildren := by rw [starts.waiting]; decide
  obtain ⟨before, rest, rfl, live⟩ :=
    phase.live_of_state linked member starts.stored unfinished ready
  apply live.goesOn linked starts.jobs
  obtain ⟨stems, retried⟩ :=
    live.underway.resting starts.stored (by rw [starts.waiting]; decide)
  exact ⟨{ job with state := .active, attemptsMade := job.attemptsMade + 1 }, job.attemptsMade,
    by rw [starts.jobs, Function.update_self], stems.congr rfl rfl rfl rfl rfl rfl, retried,
    .inl ⟨rfl, rfl⟩⟩

/-- A delay of a job of the chain ends. -/
theorem wakes {timer : RetryTimer} {job : Job} (phase : Phase trials queues.job? links)
    (linked : Linked links) (member : link ∈ links) (here : timer.key = link.key)
    (stored : queues.job? timer.key = some job) (delayed : job.state = .delayed) :
    Phase trials (queues.timerFires timer).job? links := by
  have change := Queues.job?_timerFires stored delayed
  rw [here] at stored change
  have unfinished : job.state.isFinished = false := by rw [delayed]; rfl
  have ready : job.state ≠ .waitingChildren := by rw [delayed]; decide
  obtain ⟨before, rest, rfl, live⟩ := phase.live_of_state linked member stored unfinished ready
  apply live.goesOn linked change
  obtain ⟨stems, retried⟩ := live.underway.resting stored (by rw [delayed]; decide)
  exact ⟨{ job with state := .waiting }, job.attemptsMade, by rw [change, Function.update_self],
    stems.congr rfl rfl rfl rfl rfl rfl, retried, .inr ⟨.inl rfl, rfl⟩⟩

/-- A call for the job of the chain that is under way returns what is foreseen. -/
theorem returns {call : Call} {outcome : Except JobError Json} {before rest : List Link}
    {job : Job} {tries : Nat} (live : Live trials queues.job? before link rest)
    (linked : Linked (before ++ link :: rest)) (here : call.key = link.key)
    (stored : queues.job? link.key = some job) (stems : link.seed.Stems job)
    (active : job.state = .active) (name : call.name = link.seed.name)
    (attempt : call.attempt = tries + 1) (made : job.attemptsMade = tries + 1)
    (limit : call.maxAttempts = trials.limit link.seed)
    (retried : Retried (trials.verdict link) (trials.limit link.seed) tries)
    (size : rest.length < queues.jobs.size)
    (foreseen : outcome.map (fun _ => ()) = trials.verdict link (tries + 1)) :
    Phase trials (queues.callReturns call outcome).job? (before ++ link :: rest) := by
  have unfinished : job.state.isFinished = false := by rw [active]; rfl
  -- the call is no longer running, which changes no job
  let ended : Queues := { queues with running := queues.running.erase call }
  have storedEnded : ended.job? link.key = some job := stored
  have breaks : ∀ error : JobError, trials.verdict link (tries + 1) = .error error →
      (∀ message, error = .retryable message → trials.limit link.seed ≤ tries + 1) →
      Phase trials (ended.fail call.key call.name error.message).job? (before ++ link :: rest) := by
    intro error ends last
    obtain ⟨failed, others, frame⟩ := Queues.failUpward_chain linked storedEnded stems unfinished
      live.rest size
    unfold Queues.fail
    rw [here, name]
    apply live.breaks linked frame
    · exact ⟨_, tries, failed, stems.congr rfl rfl rfl rfl rfl rfl, rfl, rfl, made, retried, ends,
        last⟩
    · exact others
  unfold Queues.callReturns
  cases outcome with
  | ok value =>
      have succeeds : Succeeds (trials.verdict link) (trials.limit link.seed) tries :=
        ⟨retried, foreseen.symm⟩
      have completed : ∀ after : JobKey → Option Job,
          after link.key = some (ended.completedJob job value) → link.Completed after trials :=
        fun after same =>
          ⟨_, tries, same, stems.congr rfl rfl rfl rfl rfl rfl, rfl, made, succeeds⟩
      dsimp only
      rw [here]
      cases rest with
      | nil =>
          have change := Queues.job?_complete_top storedEnded
            (stems.parent.trans linked.parent_last) value
          apply live.completesTop linked change
          exact completed _ (by rw [change, Function.update_self])
      | cons above rest =>
          have away := linked.apart.2 above List.mem_cons_self
          have change := Queues.job?_complete_below storedEnded
            (stems.parent.trans linked.below.parent) (live.rest above List.mem_cons_self) away value
          apply live.completesBelow linked change
          apply completed
          rw [change, Function.update_of_ne (Ne.symm away), Function.update_self]
  | error error =>
      cases error with
      | unrecoverable message =>
          apply breaks (.unrecoverable message) foreseen.symm
          exact fun other same => by cases same
      | retryable message =>
          dsimp only
          split
          · next again =>
              rw [attempt, limit] at again
              have change := Queues.job?_retryLater storedEnded call.attempt
              rw [here]
              apply live.goesOn linked change
              exact ⟨{ job with state := .delayed }, tries + 1,
                by rw [change, Function.update_self], stems.congr rfl rfl rfl rfl rfl rfl,
                retried.succ again foreseen.symm, .inr ⟨.inr rfl, made⟩⟩
          · next noMore =>
              rw [attempt, limit] at noMore
              apply breaks (.retryable message) foreseen.symm
              exact fun _ _ => Nat.le_of_not_lt noMore

end Phase

namespace Queues

/-- A step evicts nothing, and the calls for some jobs return what is foreseen. -/
def Act.Foreseen (trials : Trials) (links : List Link) : Act → Prop
  | .finish call outcome => ∀ link ∈ links, call.key = link.key →
      outcome.map (fun _ => ()) = trials.verdict link call.attempt
  | .remove _ | .prune _ _ => False
  | .tick _ | .touch _ | .add _ _ | .startWorker _ | .advance _ | .fire _ => True

end Queues

namespace Phase

variable {trials : Trials} {links : List Link} {queues after : Queues}

/-- The jobs of a chain are all stored. -/
theorem length_le_size (phase : Phase trials queues.job? links) (linked : Linked links) :
    links.length ≤ queues.jobs.size := by
  rw [← List.length_map Link.key]
  apply Queues.length_le_size linked.distinct
  intro key isKey
  obtain ⟨link, member, rfl⟩ := List.mem_map.1 isKey
  obtain ⟨job, stored, -⟩ := phase.stored member
  exact ⟨job, stored⟩

/-- What happens to a job outside of a chain does not change the phase of the chain. -/
theorem updates {key : JobKey} {new : Option Job} (phase : Phase trials queues.job? links)
    (outside : key ∉ links.map Link.key)
    (change : after.job? = Function.update queues.job? key new) :
    Phase trials after.job? links := by
  apply phase.congr
  intro link member
  have away : link.key ≠ key := fun same => outside (same ▸ List.mem_map_of_mem member)
  rw [change, Function.update_of_ne away]

/-- A call returns, for a job of the chain what is foreseen. -/
theorem finishes {call : Call} {outcome : Except JobError Json}
    (phase : Phase trials queues.job? links) (linked : Linked links)
    (steady : queues.Steady none []) (attended : queues.Attended)
    (limits : ∀ link ∈ links, queues.allowance link.seed = trials.limit link.seed)
    (isRunning : call ∈ queues.running)
    (foreseen : (Queues.Act.finish call outcome).Foreseen trials links) :
    Phase trials (queues.callReturns call outcome).job? links := by
  by_cases inside : call.key ∈ links.map Link.key
  · obtain ⟨link, member, here⟩ := List.mem_map.1 inside
    obtain ⟨job, stored, -⟩ := phase.stored member
    have storedCall : queues.job? call.key = some job := here ▸ stored
    have active := (steady.endCall isRunning storedCall).1
    have unfinished : job.state.isFinished = false := by rw [active]; rfl
    have ready : job.state ≠ .waitingChildren := by rw [active]; decide
    have serves := attended call isRunning job storedCall
    have size := phase.length_le_size linked
    obtain ⟨before, rest, rfl, live⟩ :=
      phase.live_of_state linked member stored unfinished ready
    obtain ⟨tries, made, stems, retried⟩ := live.underway.running stored active
    have attempt := serves.attempt.trans made
    have limit : call.maxAttempts = trials.limit link.seed := by
      rw [serves.limit, ← limits link member]
      unfold Queues.allowance
      rw [stems.options, stems.queue]
    have expected := foreseen link member here.symm
    rw [attempt] at expected
    apply returns live linked here.symm stored stems active (serves.name.trans stems.name)
      attempt made limit retried _ expected
    simp only [List.length_append, List.length_cons] at size
    omega
  · apply phase.congr
    intro link member
    exact Queues.job?_callReturns_of_ne (List.mem_map_of_mem member) inside
      (phase.closed linked steady) outcome

/-- A timer ends a delay, possibly that of a job of the chain. -/
theorem fires (phase : Phase trials queues.job? links) (linked : Linked links)
    (timer : RetryTimer) : Phase trials (queues.timerFires timer).job? links := by
  rcases Queues.job?_timerFires_cases queues timer with same | ⟨job, stored, delayed, change⟩
  · rwa [same]
  · by_cases inside : timer.key ∈ links.map Link.key
    · obtain ⟨link, member, here⟩ := List.mem_map.1 inside
      exact phase.wakes linked member here.symm stored delayed
    · exact phase.updates inside change

end Phase

/-- Every step leads from one phase of a chain to another. -/
theorem Phase.step {trials : Trials} {links : List Link} {queues after : Queues} {act : Queues.Act}
    (phase : Phase trials queues.job? links) (linked : Linked links)
    (steady : queues.Steady none []) (attended : queues.Attended)
    (limits : ∀ link ∈ links, queues.allowance link.seed = trials.limit link.seed)
    (step : Queues.Step queues act after) (foreseen : act.Foreseen trials links) :
    Phase trials after.job? links := by
  have ofQuiet : ∀ after : Queues, Queues.Quiet queues after → Phase trials after.job? links :=
    fun after quiet => phase.congr fun link _ => congrFun quiet.jobs link.key
  cases step with
  | tick later => exact ofQuiet _ (Queues.quiet_tick queues _)
  | touch queue => exact ofQuiet _ (Queues.quiet_setLane rfl)
  | startWorker queue =>
      apply ofQuiet
      unfold Queues.startWorker
      split <;> exact Queues.quiet_setLane rfl
  | @add flow counts claimed =>
      rcases Queues.quiet_or_plants steady counts flow with quiet | plants
      · exact ofQuiet _ quiet
      · apply phase.congr
        intro link member
        obtain ⟨job, stored, -⟩ := phase.stored member
        rw [stored, plants.jobs]
        exact .inr stored
  | @advance queue _ moved =>
      rcases Queues.advanceWorker?_some moved with ⟨next, rfl, moves⟩ | ⟨jobId, -, -, rfl⟩
      · exact ofQuiet _ (Queues.quiet_setLane moves.events)
      · rcases Queues.quiet_or_starts queues queue ⟨queue, jobId⟩ with quiet | ⟨job, starts⟩
        · exact ofQuiet _ quiet
        · generalize (⟨queue, jobId⟩ : JobKey) = key at starts ⊢
          by_cases inside : key ∈ links.map Link.key
          · obtain ⟨link, member, rfl⟩ := List.mem_map.1 inside
            exact phase.starts linked member starts
          · exact phase.updates inside starts.jobs
  | @finish call outcome isRunning =>
      exact phase.finishes linked steady attended limits isRunning foreseen
  | @fire timer pending due => exact phase.fires linked timer
  | remove key => exact absurd foreseen not_false
  | prune found => exact absurd foreseen not_false

/-! ## The order of the attempts -/

namespace Queues

/-- The calls that a step starts. -/
def startedCalls (queues after : Queues) : List Call :=
  after.running.drop queues.running.length

theorem startedCalls_of_running {queues after : Queues} (same : after.running = queues.running) :
    queues.startedCalls after = [] := by
  rw [startedCalls, same, List.drop_length]

/-- A call that is started is that of a waiting job. -/
theorem Effect.starts_of_started {queues after : Queues} {act : Act} {call : Call}
    (effect : Effect queues after act) (started : call ∈ queues.startedCalls after) :
    ∃ key job, Starts queues after key job ∧ call = queues.callOf key job := by
  cases effect with
  | carries carries =>
      rw [startedCalls_of_running carries.running] at started
      cases started
  | @returns returned outcome isRunning carries =>
      rw [startedCalls, carries.running, List.drop_of_length_le List.length_erase_le] at started
      cases started
  | @starts queue key job starts =>
      rw [startedCalls, starts.running, List.drop_left, List.mem_singleton] at started
      exact ⟨key, job, starts, started⟩
  | plants plants =>
      rw [startedCalls_of_running plants.running] at started
      cases started

end Queues

/-- Number of attempts of a job that were started. -/
def attemptsOf (jobs : JobKey → Option Job) (key : JobKey) : Nat :=
  ((jobs key).map Job.attemptsMade).getD 0

/-- The attempts of the jobs of a chain that were started, in the order of the chain. -/
def triedInOrder (jobs : JobKey → Option Job) (links : List Link) : List (JobKey × Nat) :=
  links.flatMap fun link => (List.range (attemptsOf jobs link.key)).map fun count =>
    (link.key, count + 1)

/-- The attempts among some calls that belong to a chain. -/
def attemptsAmong (links : List Link) (calls : List Call) : List (JobKey × Nat) :=
  (calls.filter fun call => call.key ∈ links.map Link.key).map fun call =>
    (call.key, call.attempt)

theorem attemptsAmong_singleton (links : List Link) (call : Call) :
    attemptsAmong links [call] =
      if call.key ∈ links.map Link.key then [(call.key, call.attempt)] else [] := by
  unfold attemptsAmong
  rw [List.filter_singleton]
  by_cases inside : call.key ∈ links.map Link.key
  · rw [if_pos inside, decide_eq_true inside]
    rfl
  · rw [if_neg inside, decide_eq_false inside]
    rfl

theorem attemptsAmong_append (links : List Link) (first second : List Call) :
    attemptsAmong links (first ++ second) =
      attemptsAmong links first ++ attemptsAmong links second := by
  unfold attemptsAmong
  rw [List.filter_append, List.map_append]

section Order

variable {jobs after : JobKey → Option Job} {before rest links : List Link} {link : Link}

theorem triedInOrder_congr
    (same : ∀ link ∈ links, attemptsOf after link.key = attemptsOf jobs link.key) :
    triedInOrder after links = triedInOrder jobs links := by
  unfold triedInOrder
  rw [List.flatMap_def, List.flatMap_def]
  congr 1
  apply List.map_congr_left
  intro link member
  rw [same link member]

/-- A new attempt of the job that is under way comes after all others. -/
theorem triedInOrder_start {trials : Trials} (live : Live trials jobs before link rest)
    (linked : Linked (before ++ link :: rest)) {job new : Job} (stored : jobs link.key = some job)
    (made : new.attemptsMade = job.attemptsMade + 1)
    (change : after = Function.update jobs link.key (some new)) :
    triedInOrder after (before ++ link :: rest) =
      triedInOrder jobs (before ++ link :: rest) ++ [(link.key, job.attemptsMade + 1)] := by
  have frame : ∀ other : Link, other.key ≠ link.key →
      attemptsOf after other.key = attemptsOf jobs other.key := by
    intro other away
    unfold attemptsOf
    rw [change, Function.update_of_ne away]
  have lower := triedInOrder_congr fun other member => frame other (linked.apart.1 other member)
  have none : ∀ other ∈ rest, attemptsOf jobs other.key = 0 := by
    intro other member
    unfold attemptsOf
    rw [live.rest other member]
    exact linked.untried other (by simp [member])
  have upper : ∀ jobs : JobKey → Option Job, (∀ other ∈ rest, attemptsOf jobs other.key = 0) →
      triedInOrder jobs rest = [] := by
    intro jobs none
    unfold triedInOrder
    rw [List.flatMap_eq_nil_iff]
    intro other member
    rw [none other member]
    rfl
  have noneAfter : ∀ other ∈ rest, attemptsOf after other.key = 0 :=
    fun other member => (frame other (linked.apart.2 other member)).trans (none other member)
  have here : attemptsOf jobs link.key = job.attemptsMade := by
    unfold attemptsOf
    rw [stored]
    rfl
  have hereAfter : attemptsOf after link.key = job.attemptsMade + 1 := by
    unfold attemptsOf
    rw [change, Function.update_self]
    exact made
  have split : ∀ jobs : JobKey → Option Job, triedInOrder jobs (before ++ link :: rest) =
      triedInOrder jobs before ++ ((List.range (attemptsOf jobs link.key)).map fun count =>
        (link.key, count + 1)) ++ triedInOrder jobs rest := by
    intro jobs
    simp only [triedInOrder, List.flatMap_append, List.flatMap_cons, List.append_assoc]
  rw [split, split, lower, upper after noneAfter, upper jobs none, here, hereAfter,
    List.range_succ, List.map_append, List.append_nil, List.append_nil, List.append_assoc]
  rfl

end Order

/-- The attempts of a chain are started in its order, one after another. -/
theorem Phase.tried {trials : Trials} {links : List Link} {queues after : Queues}
    {act : Queues.Act} (phase : Phase trials queues.job? links) (linked : Linked links)
    (later : Phase trials after.job? links) (effect : queues.Effect after act) :
    triedInOrder after.job? links =
      triedInOrder queues.job? links ++ attemptsAmong links (queues.startedCalls after) := by
  have carried : ∀ between : Queues, between.job? = queues.job? → between.Carries after →
      triedInOrder after.job? links = triedInOrder queues.job? links := by
    intro between same carries
    apply triedInOrder_congr
    intro link member
    obtain ⟨new, stored, -⟩ := later.stored member
    obtain ⟨old, before, continues⟩ := carries.jobs _ new stored
    rw [same] at before
    unfold attemptsOf
    rw [stored, before, Option.map_some, Option.map_some, continues.attemptsMade]
  have nothing : after.running.length ≤ queues.running.length →
      attemptsAmong links (queues.startedCalls after) = [] := by
    intro fewer
    unfold Queues.startedCalls
    rw [List.drop_of_length_le fewer]
    rfl
  cases effect with
  | carries carries =>
      rw [carried queues rfl carries, nothing (by rw [carries.running]), List.append_nil]
  | @returns call outcome isRunning carries =>
      rw [carried { queues with running := queues.running.erase call } rfl carries, nothing (by
        rw [carries.running]
        exact List.length_erase_le), List.append_nil]
  | plants plants =>
      rw [nothing (by rw [plants.running]), List.append_nil]
      apply triedInOrder_congr
      intro link member
      obtain ⟨job, stored, -⟩ := phase.stored member
      unfold attemptsOf
      rw [stored, (plants.jobs _ _).2 (.inr stored)]
  | @starts queue key job starts =>
      have started : queues.startedCalls after = [queues.callOf key job] := by
        unfold Queues.startedCalls
        rw [starts.running, List.drop_left]
      rw [started]
      by_cases inside : key ∈ links.map Link.key
      · obtain ⟨link, member, rfl⟩ := List.mem_map.1 inside
        have unfinished : job.state.isFinished = false := by rw [starts.waiting]; rfl
        have ready : job.state ≠ .waitingChildren := by rw [starts.waiting]; decide
        obtain ⟨before, rest, rfl, live⟩ :=
          phase.live_of_state linked member starts.stored unfinished ready
        rw [triedInOrder_start live linked starts.stored rfl starts.jobs]
        have called : (queues.callOf link.key job).key ∈ (before ++ link :: rest).map Link.key :=
          inside
        rw [attemptsAmong_singleton, if_pos called]
        rfl
      · have notCalled : (queues.callOf key job).key ∉ links.map Link.key := inside
        rw [attemptsAmong_singleton, if_neg notCalled, List.append_nil]
        apply triedInOrder_congr
        intro link member
        have away : link.key ≠ key := fun same => inside (same ▸ List.mem_map_of_mem member)
        unfold attemptsOf
        rw [starts.jobs, Function.update_of_ne away]

/-! ## Calls at the same time -/

/-- No two calls for jobs of a chain run at the same time. -/
theorem Phase.oneCall {trials : Trials} {links : List Link} {queues : Queues}
    (phase : Phase trials queues.job? links) (linked : Linked links)
    (steady : queues.Steady none []) :
    queues.running.countP (fun call => call.key ∈ links.map Link.key) ≤ 1 := by
  have active : ∀ call ∈ queues.running, ∀ link ∈ links, link.key = call.key →
      ∃ job, queues.job? link.key = some job ∧ job.state = .active := by
    intro call isRunning link member here
    obtain ⟨job, stored, -⟩ := phase.stored member
    exact ⟨job, stored, (steady.endCall isRunning (here ▸ stored)).1⟩
  rcases Nat.eq_zero_or_pos
      (queues.running.countP fun call => call.key ∈ links.map Link.key) with none | positive
  · exact none ▸ Nat.zero_le 1
  · obtain ⟨call, isRunning, isInside⟩ := List.countP_pos_iff.1 positive
    obtain ⟨link, member, here⟩ := List.mem_map.1 (of_decide_eq_true isInside)
    obtain ⟨job, stored, state⟩ := active call isRunning link member here
    have unfinished : job.state.isFinished = false := by rw [state]; rfl
    have ready : job.state ≠ .waitingChildren := by rw [state]; decide
    obtain ⟨before, rest, rfl, live⟩ := phase.live_of_state linked member stored unfinished ready
    have only : ∀ other ∈ before ++ link :: rest, ∀ found, queues.job? other.key = some found →
        found.state = .active → other.key = link.key := by
      intro other isOther found isFound isActive
      rcases List.mem_append.1 isOther with earlier | later
      · obtain ⟨again, _, isAgain, -, completed, -⟩ := live.before other earlier
        cases isFound.symm.trans isAgain
        rw [isActive] at completed
        cases completed
      · rcases List.mem_cons.1 later with rfl | above
        · rfl
        · cases isFound.symm.trans (live.rest other above)
          rw [linked.waits above] at isActive
          cases isActive
    have atMost : queues.running.countP (fun call => call.key ∈ (before ++ link :: rest).map
        Link.key) ≤ queues.running.countP fun call => call.key == link.key := by
      apply List.countP_mono_left
      intro again isAgain inside
      obtain ⟨other, isOther, same⟩ := List.mem_map.1 (of_decide_eq_true inside)
      obtain ⟨found, isFound, isActive⟩ := active again isAgain other isOther same
      rw [← same, only other isOther found isFound isActive]
      exact beq_self_eq_true _
    have one : (queues.running.countP fun call => call.key == link.key) = 1 := by
      have agenda := steady.agenda_eq stored
      rw [state] at agenda
      exact congrArg Agenda.calls agenda
    exact one ▸ atMost

end Relay
