import Relay.Proofs.Queue.ChainRun
import Relay.Proofs.Queue.Progress
import Relay.Proofs.Queue.Turns

/-!
# What a job sees of its children

Whether a job is ready is a matter of a count, and the results of its children are looked up
later, when an attempt of the job is started; a child that is missing or has no result is left
out without a word.  That nothing is left out or mixed up follows from what a run credits to a
job: a stored job has a result exactly if it has completed, and the result is what the one call
for it has returned that has succeeded.
-/

namespace Relay

/-! ## The keys of results -/

/-- A list is split at its last separator in one way. -/
theorem split_at_last {α : Type} {separator : α} {left right left' right' : List α}
    (clear : separator ∉ right) (clear' : separator ∉ right')
    (same : left ++ separator :: right = left' ++ separator :: right') :
    left = left' ∧ right = right' := by
  rcases List.append_eq_append_iff.1 same with ⟨between, longer, rest⟩ | ⟨between, longer, rest⟩
  all_goals
    cases between with
    | nil => simp_all
    | cons first others =>
        obtain ⟨-, rest⟩ := List.cons.inj rest
        simp_all

theorem colon_notMem_jobIdOf (serial : Nat) : ':' ∉ (jobIdOf serial).toList := by
  intro member
  rw [jobIdOf, String.toList_append, Nat.toList_repr] at member
  rcases List.mem_append.1 member with letter | digit
  · exact absurd letter (by decide)
  · exact absurd (Nat.isDigit_of_mem_toDigits (by decide) (by decide) digit) (by decide)

/-- Jobs have different keys in the eyes of their parents, whatever their queues are called. -/
theorem JobKey.childKey_injective {key other : JobKey} {number otherNumber : Nat}
    (isId : key.id = jobIdOf number) (isOther : other.id = jobIdOf otherNumber)
    (same : key.childKey = other.childKey) : key = other := by
  have characters := congrArg String.toList same
  simp only [childKey, String.toList_append, List.append_assoc] at characters
  obtain ⟨queues, ids⟩ := split_at_last (isId ▸ colon_notMem_jobIdOf number)
    (isOther ▸ colon_notMem_jobIdOf otherNumber) characters
  have sameQueue : key.queue = other.queue := String.toList_inj.1 queues
  have sameId : key.id = other.id := String.toList_inj.1 ids
  cases key
  cases other
  simp_all

theorem JobState.ne_completed {state : JobState} (unfinished : state.isFinished = false) :
    state ≠ .completed := by
  rintro rfl
  cases unfinished

/-- A job has the result that another has, and has completed exactly if the other has. -/
structure Job.SameResult (old new : Job) : Prop where
  value : new.returnValue = old.returnValue
  completed : new.state = .completed ↔ old.state = .completed

theorem Job.SameResult.refl (job : Job) : job.SameResult job := ⟨rfl, Iff.rfl⟩

/-- A turn without a value changes no result. -/
theorem Job.Turn.sameResult {now : Nat} {old new : Job} (turn : old.Turn now none new) :
    old.SameResult new := by
  cases turn with
  | start waiting => exact ⟨rfl, by simp [waiting]⟩
  | delay unfinished => exact ⟨rfl, by simp [JobState.ne_completed unfinished]⟩
  | wake delayed => exact ⟨rfl, by simp [delayed]⟩
  | tell =>
      refine ⟨rfl, ?_⟩
      simp only [Queues.afterChild]
      split
      · next last => simp [last.2]
      · rfl
  | complete isReturned => cases isReturned
  | fail reason unfinished => exact ⟨rfl, by simp [JobState.ne_completed unfinished]⟩

theorem Job.Turns.sameResult {now : Nat} {old new : Job} (turns : old.Turns now none new) :
    old.SameResult new := by
  induction turns with
  | refl => exact .refl old
  | tail _ turn ih =>
      exact ⟨turn.sameResult.value.trans ih.value, turn.sameResult.completed.trans ih.completed⟩

namespace Queues

variable {queues after : Queues} {act : Act} {key : JobKey} {old new job : Job}
  {settings : Dict QueueSettings}

/-! ## What a step credits to a job -/

/-- A job is stored after a step because it has completed with what the step returns to it,
because it was stored before with the same result, or because it is new. -/
inductive Credits (queues : Queues) (act : Act) (key : JobKey) (new : Job) : Prop where
  | completes {old : Job} {value : Json} (stored : queues.job? key = some old)
      (isOpen : old.state ≠ .completed) (returned : act.value? key = some value)
      (credited : new.returnValue = some value) (completed : new.state = .completed)
  | keeps {old : Job} (stored : queues.job? key = some old) (same : old.SameResult new)
      (nothing : act.value? key = none)
  | planted (unborn : ¬ queues.view.Born key) (nothing : act.value? key = none)
      (uncredited : new.returnValue = none) (isOpen : new.state ≠ .completed)

/-- Only a call that returns a value returns a value to a job. -/
theorem Act.value?_eq_some {value : Json} (returned : act.value? key = some value) :
    ∃ call : Call, act = .finish call (.ok value) ∧ call.key = key := by
  cases act with
  | finish call outcome =>
      cases outcome with
      | ok other =>
          obtain ⟨here, same⟩ := Option.ite_none_right_eq_some.1 returned
          exact ⟨call, by rw [Option.some.inj same], here⟩
      | error error => cases returned
  | _ => cases returned

/-- A job to which a value is returned completes with it. -/
theorem job?_callReturns_ok {call : Call} {value : Json}
    (stored : queues.job? call.key = some old)
    (found : (queues.callReturns call (.ok value)).job? call.key = some new) :
    new.returnValue = some value ∧ new.state = .completed := by
  let ended : Queues := { queues with running := queues.running.erase call }
  have storedEnded : ended.job? call.key = some old := stored
  have noted : (ended.noteCompleted call.key old value).job? call.key =
      some (ended.completedJob old value) := by
    rw [job?_noteCompleted storedEnded, Function.update_self]
  -- Telling the parent changes no result, so all that counts is what is noted of the job.
  have told : (ended.completedJob old value).SameResult new := by
    have returned : queues.callReturns call (.ok value) = ended.complete call.key value := rfl
    rw [returned, complete, storedEnded] at found
    dsimp only at found
    split at found
    · next parent _ =>
        have informed : Turns (fun _ => none) (ended.noteCompleted call.key old value) _ :=
          turns_childCompleted _ parent
        obtain ⟨middle, isMiddle, turns⟩ := informed.jobs _ new found
        obtain rfl := Option.some.inj (noted.symm.trans isMiddle)
        exact turns.sameResult
    · obtain rfl := Option.some.inj (noted.symm.trans found)
      exact .refl _
  exact ⟨told.value, told.completed.2 rfl⟩

/-- What is credited to the jobs that are stored after a step. -/
theorem Step.credits (step : Step queues act after) (steady : Steady queues none [])
    (stored : after.job? key = some new) : Credits queues act key new := by
  cases returned : act.value? key with
  | none =>
      rcases step.turns steady stored with ⟨old, before, turns⟩ | ⟨unborn, fresh, unfinished⟩
      · rw [returned] at turns
        exact .keeps before turns.sameResult returned
      · exact .planted unborn returned fresh.returnValue (JobState.ne_completed unfinished)
  | some value =>
      obtain ⟨call, rfl, rfl⟩ := Act.value?_eq_some returned
      cases step with
      | finish outcome isRunning =>
          have born := steady.born_of_call isRunning
          rcases Step.turns (.finish (.ok value) isRunning) steady stored with
            ⟨old, before, -⟩ | ⟨unborn, -⟩
          · have isOpen : old.state ≠ .completed := by
              rw [(steady.endCall isRunning before).1]
              decide
            obtain ⟨credited, completed⟩ := job?_callReturns_ok before stored
            exact .completes before isOpen returned credited completed
          · exact absurd born unborn

/-! ## What a run credits to a job -/

/-- The values that were returned to a job, the first one first. -/
def valuesReturned (acts : List Act) (key : JobKey) : List Json := acts.filterMap (Act.value? key)

theorem valuesReturned_concat (acts : List Act) (act : Act) (key : JobKey) :
    valuesReturned (acts ++ [act]) key = valuesReturned acts key ++ (act.value? key).toList := by
  rw [valuesReturned, valuesReturned, List.filterMap_append]
  cases returned : act.value? key <;> simp [returned]

/-- A stored job has the result that was returned to it, and has completed if it has one. -/
structure Credited (acts : List Act) (queues : Queues) : Prop where
  value : ∀ key job, queues.job? key = some job →
    valuesReturned acts key = job.returnValue.toList
  completed : ∀ key job, queues.job? key = some job →
    (job.state = .completed ↔ job.returnValue.isSome)
  /-- Nothing was returned under keys that were given to no job. -/
  born : ∀ key, valuesReturned acts key ≠ [] → queues.view.Born key

theorem credited_start (settings : Dict QueueSettings) : Credited [] (.start settings) where
  value _ job stored := (Option.some_ne_none job stored.symm).elim
  completed _ job stored := (Option.some_ne_none job stored.symm).elim
  born _ something := absurd rfl something

theorem Credited.step {acts : List Act} (credited : Credited acts queues)
    (steady : Steady queues none []) (step : Step queues act after) :
    Credited (acts ++ [act]) after where
  value key new stored := by
    rw [valuesReturned_concat]
    cases step.credits steady stored with
    | @completes old value before isOpen returned result completed =>
        have nothing : old.returnValue = none := by
          rw [← Option.not_isSome_iff_eq_none, ← credited.completed key old before]
          exact isOpen
        rw [credited.value key old before, nothing, returned, result]
        rfl
    | keeps before same nothing =>
        rw [credited.value key _ before, nothing, same.value]
        exact List.append_nil _
    | planted unborn nothing uncredited =>
        rw [not_imp_comm.1 (credited.born key) unborn, nothing, uncredited]
        rfl
  completed key new stored := by
    cases step.credits steady stored with
    | completes before isOpen returned result completed => simp [result, completed]
    | keeps before same nothing =>
        rw [same.completed, same.value]
        exact credited.completed key _ before
    | planted unborn nothing uncredited isOpen => simp [uncredited, isOpen]
  born key something := by
    have effect := step.effect steady
    by_cases earlier : valuesReturned acts key = []
    · cases returned : act.value? key with
      | none =>
          rw [valuesReturned_concat, earlier, returned] at something
          exact absurd rfl something
      | some value =>
          obtain ⟨call, rfl, rfl⟩ := Act.value?_eq_some returned
          cases step with
          | finish outcome isRunning => exact effect.born (steady.born_of_call isRunning)
    · exact effect.born (credited.born key earlier)

theorem credited_of_follow? {acts : List Act}
    (followed : follow? acts (.start settings) = some queues) : Credited acts queues := by
  induction acts using List.reverseRecOn generalizing queues with
  | nil => exact Option.some.inj followed ▸ credited_start settings
  | append_singleton acts act ih =>
      rw [follow?_concat] at followed
      obtain ⟨between, before, next⟩ := Option.bind_eq_some_iff.1 followed
      have reached := (leads_of_follow? before).reachable .start
      exact (ih before).step reached.steady (step_iff_next?.2 next)

/-! ## What a call is given -/

/-- The children of a waiting job have completed. -/
theorem Steady.completed_of_waiting (steady : Steady queues none [])
    (stored : queues.job? key = some job) (waiting : job.state = .waiting) {child : JobKey}
    (isChild : child ∈ job.children) : queues.hasCompleted child = true := by
  have blocked := steady.sound.blocked key job stored
  rw [Job.Blocked, waiting] at blocked
  have pending : queues.view.openChildren job.children = 0 :=
    (steady.sound.pending key job stored).symm.trans blocked
  have announced := List.countP_eq_zero.1 pending child isChild
  simpa using announced

theorem Steady.child_completed (steady : Steady queues none []) (stored : queues.job? key = some job)
    (waiting : job.state = .waiting) {child : JobKey} (isChild : child ∈ job.children)
    {childJob : Job} (childStored : queues.job? child = some childJob) :
    childJob.state = .completed :=
  (steady.sound.completed child childJob childStored).1
    (steady.completed_of_waiting stored waiting isChild)

/-- The children of a stored job have different keys in its eyes. -/
theorem Steady.nodup_childKeys (steady : Steady queues none [])
    (stored : queues.job? key = some job) : (job.children.map JobKey.childKey).Nodup := by
  have lineage := @View.lineage_of_stored queues.view key job stored
  have born := (steady.sound.family.born _ _ _ lineage).2
  refine List.Nodup.map_on ?_ (steady.sound.family.distinct _ _ _ lineage)
  intro child isChild other isOther same
  obtain ⟨number, -, isId⟩ := born child isChild
  obtain ⟨otherNumber, -, isOtherId⟩ := born other isOther
  exact JobKey.childKey_injective isId isOtherId same

/-- All children are stored, and one value was returned to each of them. -/
structure Delivered (acts : List Act) (queues : Queues) (children : List JobKey) : Prop where
  completed : ∀ child ∈ children, queues.jobState? child = some .completed
  value : ∀ child ∈ children, ∃ job value, queues.job? child = some job ∧
    job.returnValue = some value ∧ valuesReturned acts child = [value]

theorem Credited.delivered {acts : List Act} (credited : Credited acts queues)
    (steady : Steady queues none []) (stored : queues.job? key = some job)
    (waiting : job.state = .waiting)
    (whole : ∀ child ∈ job.children, ∃ childJob, queues.job? child = some childJob) :
    Delivered acts queues job.children where
  completed child isChild := by
    obtain ⟨childJob, childStored⟩ := whole child isChild
    rw [jobState?, childStored, Option.map_some,
      steady.child_completed stored waiting isChild childStored]
  value child isChild := by
    obtain ⟨childJob, childStored⟩ := whole child isChild
    have completed := steady.child_completed stored waiting isChild childStored
    obtain ⟨value, isValue⟩ :=
      Option.isSome_iff_exists.1 ((credited.completed child childJob childStored).1 completed)
    refine ⟨childJob, value, childStored, isValue, ?_⟩
    rw [credited.value child childJob childStored, isValue]
    rfl

/-- The values that are collected from children to each of which one was returned: one for
each child, and no others. -/
structure Collects (acts : List Act) (children : List JobKey) (values : Dict Json) : Prop where
  each : ∀ child ∈ children, ∃ value, valuesReturned acts child = [value] ∧
    values.get? (child.queue ++ ":" ++ child.id) = some value
  only : ∀ name value, values.get? name = some value →
    ∃ child ∈ children, name = child.queue ++ ":" ++ child.id
  size : values.size = children.length

theorem Delivered.collects {acts : List Act} {children : List JobKey}
    (delivered : Delivered acts queues children) (distinct : (children.map JobKey.childKey).Nodup) :
    Collects acts children (queues.childrenValues children) := by
  -- Every child contributes one entry, under a key of its own.
  let result (child : JobKey) : Json := (((queues.job? child).bind Job.returnValue).getD .null)
  have found : ∀ child ∈ children, (queues.job? child).bind Job.returnValue = some (result child) ∧
      valuesReturned acts child = [result child] := by
    intro child isChild
    obtain ⟨job, value, stored, isValue, returned⟩ := delivered.value child isChild
    simp only [result, stored, Option.bind_some, isValue, Option.getD_some, returned, and_self]
  have entries : children.filterMap (fun child => ((queues.job? child).bind Job.returnValue).map
      fun value => (child.childKey, value)) =
        children.map fun child => (child.childKey, result child) := by
    rw [← List.filterMap_eq_map]
    refine List.filterMap_congr fun child isChild => ?_
    rw [(found child isChild).1]
    rfl
  have unique : ((children.map fun child => (child.childKey, result child)).map Prod.fst).Nodup := by
    rw [List.map_map]
    exact distinct
  have lookUp : ∀ name, (queues.childrenValues children).get? name =
      (children.map fun child => (child.childKey, result child)).reverse.lookup name := by
    intro name
    rw [childrenValues, entries, Dict.get?_ofList]
  constructor
  case each =>
    intro child isChild
    refine ⟨result child, (found child isChild).2, (lookUp _).trans ?_⟩
    refine Dict.lookup_eq_some_of_nodup ?_ (List.mem_reverse.2 (List.mem_map.2 ⟨child, isChild, rfl⟩))
    rw [List.map_reverse]
    exact List.nodup_reverse.2 unique
  case only =>
    intro name value isFound
    rw [lookUp] at isFound
    obtain ⟨child, isChild, same⟩ :=
      List.mem_map.1 (List.mem_reverse.1 (Dict.mem_of_lookup isFound))
    exact ⟨child, isChild, (congrArg Prod.fst same).symm⟩
  case size =>
    rw [childrenValues, entries, Dict.ofList, Dict.size_insertAll _ unique fun _ _ => rfl,
      List.length_map]
    exact Nat.zero_add _

/-- What is collected from children that have completed is collected from them ever after. -/
theorem Delivered.childrenValues_eq {acts : List Act} {children : List JobKey} {later : Queues}
    (delivered : Delivered acts queues children) (reached : Reachable settings queues)
    (leads : queues.Leads later)
    (whole : ∀ child ∈ children, ∃ job, later.job? child = some job) :
    later.childrenValues children = queues.childrenValues children := by
  unfold childrenValues
  congr 1
  refine List.filterMap_congr fun child isChild => ?_
  obtain ⟨old, value, before, isValue, -⟩ := delivered.value child isChild
  obtain ⟨new, stored⟩ := whole child isChild
  have completed : old.state = .completed :=
    Option.some.inj ((jobState?_of_stored before).symm.trans (delivered.completed child isChild))
  have ended := (leads.endures reached before stored).ended (by rw [completed]; rfl)
  rw [before, stored, Option.bind_some, Option.bind_some, ended.2.1]

/-- What a call is given of the results of the children of its job, if they are all stored. -/
structure Informed (acts : List Act) (queues after : Queues) (job : Job) (call : Call) :
    Prop where
  completed : ∀ child ∈ job.children, queues.jobState? child = some .completed
  /-- There is one entry for each child, with the one value that was returned to it. -/
  collects : Collects acts job.children call.children
  /-- Later calls for the job are given the same, unless a child is evicted before. -/
  again : ∀ later act final call', after.Leads later → Step later act final →
    call' ∈ later.startedCalls final → call'.key = call.key →
      (∀ child ∈ job.children, ∃ childJob, later.job? child = some childJob) →
        call'.children = call.children

/-- A job sees the results of its children and nothing else, whenever an attempt is started. -/
theorem sees_results_exactly {acts : List Act}
    (followed : follow? acts (.start settings) = some queues) (step : Step queues act after)
    {call : Call} (isStarted : call ∈ queues.startedCalls after) :
    ∃ job, queues.job? call.key = some job ∧
      ((∀ child ∈ job.children, ∃ childJob, queues.job? child = some childJob) →
        Informed acts queues after job call) := by
  have reached : Reachable settings queues := (leads_of_follow? followed).reachable .start
  have steady := reached.steady
  obtain ⟨key, job, starts, rfl⟩ := (step.effect steady).starts_of_started isStarted
  refine ⟨job, starts.stored, fun whole => ?_⟩
  have delivered := (credited_of_follow? followed).delivered steady starts.stored starts.waiting whole
  constructor
  case completed => exact delivered.completed
  case collects => exact delivered.collects (steady.nodup_childKeys starts.stored)
  case again =>
    intro later act' final call' leads stepLater isStartedLater sameKey wholeLater
    have leadsLater : queues.Leads later := .head ⟨act, step⟩ leads
    have steadyLater := (leadsLater.reachable reached).steady
    obtain ⟨key', job', starts', rfl⟩ := (stepLater.effect steadyLater).starts_of_started isStartedLater
    obtain rfl : key' = key := sameKey
    have stems := (leadsLater.endures reached starts.stored starts'.stored).stems
    show later.childrenValues job'.children = queues.childrenValues job.children
    rw [stems.children]
    exact delivered.childrenValues_eq reached leadsLater wholeLater

/-- A job with two jobs below it on different queues. -/
def Sample.forked : Flow :=
  ⟨"top", "default", .null, .standard,
    [⟨"left", "default", .null, .standard, []⟩, ⟨"right", "other", .null, .standard, []⟩]⟩

/-- The calls for the two lower jobs. -/
def Sample.callsForked : List Call :=
  [{ key := ⟨"default", jobIdOf 1⟩, name := "left", data := .null, attempt := 1, maxAttempts := 3
     children := .empty, startedAt := 0 },
    { key := ⟨"other", jobIdOf 2⟩, name := "right", data := .null, attempt := 1, maxAttempts := 3
      children := .empty, startedAt := 0 }]

/-- An attempt of the upper job. -/
def Sample.callTop (attempt startedAt : Nat) : Call :=
  { key := ⟨"default", jobIdOf 0⟩, name := "top", data := .null, attempt, maxAttempts := 3
    children := .ofList [("default:j1", .bool true), ("other:j2", .bool false)], startedAt }

/-- The two lower jobs complete, and the upper one is about to be started. -/
def Sample.forkedDone : List Act :=
  [.add Sample.forked (countsOf Sample.forked), .startWorker "default", .startWorker "other",
    .advance "default", .advance "default", .advance "default", .advance "other", .advance "other",
    .advance "other"] ++
  (Sample.callsForked.zip [.bool true, .bool false]).map (fun (call, value) =>
    .finish call (.ok value)) ++ [.advance "default", .advance "default"]

/-- The upper job is about to be tried again. -/
def Sample.topAgain : List Act :=
  [.finish (Sample.callTop 1 0) (.error (.retryable "busy")), .tick 100,
    .fire ⟨⟨"default", jobIdOf 0⟩, 100⟩, .advance "default", .advance "default"]

theorem sees_results_exactly_forked : ∃ queues after later final job,
    follow? Sample.forkedDone (.start .empty) = some queues ∧
      queues.next? (.advance "default") = some after ∧
      follow? Sample.topAgain after = some later ∧ later.next? (.advance "default") = some final ∧
      queues.startedCalls after = [Sample.callTop 1 0] ∧
      later.startedCalls final = [Sample.callTop 2 100] ∧
      Informed Sample.forkedDone queues after job (Sample.callTop 1 0) := by
  have run : ((follow? Sample.forkedDone (.start .empty)).bind fun queues =>
      (queues.next? (.advance "default")).bind fun after =>
      (follow? Sample.topAgain after).bind fun later =>
      (later.next? (.advance "default")).map fun final =>
        (queues.startedCalls after, later.startedCalls final,
          (queues.job? (Sample.callTop 1 0).key).map fun job =>
            job.children.map fun child => (queues.job? child).isSome)) =
      some ([Sample.callTop 1 0], [Sample.callTop 2 100], some [true, true]) := by decide +kernel
  simp only [Option.bind_eq_some_iff, Option.map_eq_some_iff, Prod.mk.injEq] at run
  obtain ⟨queues, followed, after, next, later, followedLater, final, nextLater, started, again,
    job, stored, whole⟩ := run
  have isStarted : Sample.callTop 1 0 ∈ queues.startedCalls after := by simp [started]
  obtain ⟨found, isFound, informed⟩ :=
    sees_results_exactly followed (step_iff_next?.2 next) isStarted
  obtain rfl := Option.some.inj (stored.symm.trans isFound)
  refine ⟨queues, after, later, final, job, followed, next, followedLater, nextLater, started, again,
    informed fun child isChild => Option.isSome_iff_exists.1 ?_⟩
  have listed : (queues.job? child).isSome ∈ [true, true] :=
    whole ▸ List.mem_map_of_mem isChild
  simpa using listed

end Queues

end Relay
