import Relay.Proofs.Queue.Attempts
import Relay.Proofs.Queue.Limits

/-!
# Fair runs

A run that goes on forever is fair if time passes, every running call returns, every timer that
is due fires, and a worker that is able to make a step makes one.  Along a fair run the worker
of a queue deals with one ready job after another: it is granted a token with its second
question at the latest, and a place becomes free since calls return and nobody else starts any.
So whatever waits for a worker comes to its turn.  There are such runs: whatever comes to rest
goes on fairly.
-/

namespace Relay

namespace Queues

/-- A run that goes on forever and neglects nothing. -/
structure Fair (states : Nat → Queues) (acts : Nat → Act) : Prop where
  step : ∀ index, Step (states index) (acts index) (states (index + 1))
  time : ∀ time, ∃ index, time ≤ (states index).now
  returns : ∀ index, ∀ call ∈ (states index).running,
    ∃ later outcome, index ≤ later ∧ acts later = .finish call outcome
  fires : ∀ index, ∀ timer ∈ (states index).timers, timer.due ≤ (states index).now →
    ∃ later, index ≤ later ∧ acts later = .fire timer
  works : ∀ index queue,
    (∀ later, index ≤ later → ((states later).advanceWorker? queue).isSome = true) →
      ∃ later, index ≤ later ∧ acts later = .advance queue

/-! ## Single steps -/

section Steps

variable {queues after : Queues} {act : Act} {queue jobId : String}

theorem able_of_ready {rest : List String} (idle : (queues.lane queue).worker = .idle)
    (line : (queues.lane queue).ready = jobId :: rest) :
    (queues.advanceWorker? queue).isSome = true := by
  simp [advanceWorker?, takeReady?, idle, line]

theorem able_of_awake {askAt : Nat}
    (asking : (queues.lane queue).worker = .awaitingToken jobId askAt)
    (awake : askAt ≤ queues.now) : (queues.advanceWorker? queue).isSome = true := by
  have token : (queues.takeToken? queue).isSome = true := by
    simp only [takeToken?, asking, if_pos awake]
    split <;> rfl
  simp [advanceWorker?, token]

theorem able_of_free (holding : (queues.lane queue).worker = .awaitingSlot jobId)
    (free : queues.runningCount queue < slots (queues.lane queue)) :
    (queues.advanceWorker? queue).isSome = true := by
  simp [advanceWorker?, takeSlot?, holding, free]

/-- What waits for a worker that does not hold it is ready. -/
theorem mem_ready {key : JobKey} (pending : 0 < queues.starts key)
    (free : (queues.lane key.queue).worker.holds key.id = 0) :
    key.id ∈ (queues.lane key.queue).ready := by
  rw [starts, free] at pending
  exact List.count_pos_iff.1 pending

/-- Only its own worker adds to the running calls of a queue. -/
theorem Step.runningCount_le (step : Step queues act after) (steady : Steady queues none [])
    (away : act ≠ .advance queue) : after.runningCount queue ≤ queues.runningCount queue := by
  cases step.effect steady with
  | carries carries => exact Nat.le_of_eq (congrArg (List.countP _) carries.running)
  | plants plants => exact Nat.le_of_eq (congrArg (List.countP _) plants.running)
  | returns isRunning carries =>
      rw [runningCount, carries.running]
      exact List.erase_sublist.countP_le
  | @starts _ key job starts =>
      have other : key.queue ≠ queue := fun same => away (same ▸ starts.act_eq step steady)
      rw [runningCount, starts.running, List.countP_append,
        List.countP_cons_of_neg (by simpa [callOf] using other)]
      exact Nat.le_refl _

/-- A call that returns leaves its place. -/
theorem runningCount_callReturns {call : Call} (steady : Steady queues none [])
    (isRunning : call ∈ queues.running) (outcome : Except JobError Json) :
    (queues.callReturns call outcome).runningCount call.key.queue + 1 =
      queues.runningCount call.key.queue := by
  have running := (carries_callReturns steady isRunning outcome).running
  let here (other : Call) : Bool := other.key.queue == call.key.queue
  have own : here call = true := beq_self_eq_true call.key.queue
  have all := (List.perm_cons_erase isRunning).countP_eq here
  rw [List.countP_cons_of_pos own] at all
  rw [runningCount, running]
  exact all.symm

/-- A call goes on until it returns. -/
theorem Step.running_or_returns {call : Call} (step : Step queues act after)
    (steady : Steady queues none []) (isRunning : call ∈ queues.running) :
    call ∈ after.running ∨ ∃ outcome, act = .finish call outcome := by
  cases step.effect steady with
  | carries carries => exact .inl (carries.running ▸ isRunning)
  | plants plants => exact .inl (plants.running ▸ isRunning)
  | starts starts => exact .inl (starts.running ▸ List.mem_append_left _ isRunning)
  | @returns other outcome _ carries =>
      by_cases same : call = other
      · exact .inr ⟨outcome, same ▸ rfl⟩
      · exact .inl (carries.running ▸ (List.mem_erase_of_ne same).2 isRunning)

/-- A timer goes on until it fires. -/
theorem Step.pending_or_fires {timer : RetryTimer} (step : Step queues act after)
    (pending : timer ∈ queues.timers) :
    timer ∈ after.timers ∨ act = .fire timer := by
  cases step.timing with
  | leaves same => exact .inl (same ▸ pending)
  | sets _ set => exact .inl (set ▸ List.mem_append_left _ pending)
  | @fires other fired =>
      by_cases same : timer = other
      · exact .inr (same ▸ rfl)
      · exact .inl (fired ▸ (List.mem_erase_of_ne same).2 pending)

end Steps

section Runs

variable {states : Nat → Queues} {acts : Nat → Act} {settings : Dict QueueSettings}
  {queue jobId : String} {key : JobKey} {first last index : Nat}

namespace Fair

theorem reachable (fair : Fair states acts) (reached : Reachable settings (states 0))
    (index : Nat) : Reachable settings (states index) := by
  induction index with
  | zero => exact reached
  | succ index ih => exact ih.step (fair.step index)

theorem leads (fair : Fair states acts) (later : first ≤ last) :
    (states first).Leads (states last) := by
  induction last, later using Nat.le_induction with
  | base => exact .refl
  | succ index _ ih => exact ih.tail ⟨acts index, fair.step index⟩

theorem now_le (fair : Fair states acts) (later : first ≤ last) :
    (states first).now ≤ (states last).now := by
  induction last, later using Nat.le_induction with
  | base => exact Nat.le_refl _
  | succ index _ ih => exact Nat.le_trans ih (fair.step index).now_le

/-- A timer fires some time after it is due. -/
theorem exists_fire (fair : Fair states acts) {timer : RetryTimer}
    (pending : timer ∈ (states first).timers) :
    ∃ turn, first ≤ turn ∧ acts turn = .fire timer := by
  by_contra never
  have goesOn : ∀ index, first ≤ index → timer ∈ (states index).timers := by
    intro index later
    induction index, later using Nat.le_induction with
    | base => exact pending
    | succ index later ih =>
        exact ((fair.step index).pending_or_fires ih).resolve_right fun own =>
          never ⟨index, later, own⟩
  obtain ⟨index, isDue⟩ := fair.time timer.due
  have later := Nat.le_max_left first index
  obtain ⟨turn, after, own⟩ := fair.fires (max first index) timer (goesOn _ later)
    (Nat.le_trans isDue (fair.now_le (Nat.le_max_right first index)))
  exact never ⟨turn, Nat.le_trans later after, own⟩

end Fair

/-! ## Turns of a worker -/

/-- The worker of a queue makes no step before the last one of some states. -/
def Pauses (acts : Nat → Act) (queue : String) (first last : Nat) : Prop :=
  ∀ index, first ≤ index → index < last → acts index ≠ .advance queue

theorem Pauses.mono {middle : Nat} (pauses : Pauses acts queue first last)
    (later : first ≤ middle) : Pauses acts queue middle last :=
  fun index after before => pauses index (Nat.le_trans later after) before

theorem Pauses.before (pauses : Pauses acts queue first (last + 1)) :
    Pauses acts queue first last :=
  fun index after earlier => pauses index after (Nat.lt_succ_of_lt earlier)

namespace Fair

/-- While its worker makes no step, a lane keeps what it holds. -/
theorem keeps (fair : Fair states acts) (later : first ≤ last)
    (pauses : Pauses acts queue first last) :
    ((states first).lane queue).Keeps ((states last).lane queue) := by
  induction last, later using Nat.le_induction with
  | base => exact .refl _
  | succ index later ih =>
      have away := pauses index later (Nat.lt_succ_self _)
      exact (ih pauses.before).trans ((fair.step index).keeps away)

/-- What a worker is about to do it is still about to do. -/
theorem keeps_worker (fair : Fair states acts) {worker : Worker}
    (now : ((states first).lane queue).worker = worker) (present : worker ≠ .absent)
    (later : first ≤ last) (pauses : Pauses acts queue first last) :
    ((states last).lane queue).worker = worker :=
  ((fair.keeps later pauses).worker (now ▸ present)).trans now

/-- A worker that becomes able to make a step, if it makes none, makes one. -/
theorem exists_turn (fair : Fair states acts) {since : Nat} (later : first ≤ since)
    (able : ∀ index, since ≤ index → Pauses acts queue first index →
      ((states index).advanceWorker? queue).isSome = true) :
    ∃ turn, first ≤ turn ∧ acts turn = .advance queue ∧ Pauses acts queue first turn := by
  classical
  by_cases moves : ∃ turn, first ≤ turn ∧ acts turn = .advance queue
  · obtain ⟨after, own⟩ := Nat.find_spec moves
    exact ⟨Nat.find moves, after, own, fun index after before own =>
      Nat.find_min moves before ⟨after, own⟩⟩
  · have never : ∀ index, Pauses acts queue first index :=
      fun _ index after _ own => moves ⟨index, after, own⟩
    obtain ⟨turn, after, own⟩ :=
      fair.works since queue fun index after => able index after (never _)
    exact absurd ⟨turn, Nat.le_trans later after, own⟩ moves

theorem turn (fair : Fair states acts) (own : acts index = .advance queue) :
    Works (states index) (states (index + 1)) queue := by
  have step := fair.step index
  rw [own] at step
  cases step with
  | advance moved => exact works_of_advance moved

/-- An idle worker takes the first ready job. -/
theorem takes (fair : Fair states acts) {rest : List String}
    (idle : ((states first).lane queue).worker = .idle)
    (line : jobId :: rest <+: ((states first).lane queue).ready) :
    ∃ later askAt, first ≤ later ∧
      ((states later).lane queue).worker = .awaitingToken jobId askAt ∧
        rest <+: ((states later).lane queue).ready := by
  have same : ∀ index, first ≤ index → Pauses acts queue first index →
      ((states index).lane queue).worker = .idle ∧
        jobId :: rest <+: ((states index).lane queue).ready := fun index after pauses =>
    ⟨fair.keeps_worker idle nofun after pauses, line.trans (fair.keeps after pauses).ready⟩
  obtain ⟨turn, after, own, pauses⟩ := fair.exists_turn (Nat.le_refl first)
    fun index after pauses => by
      obtain ⟨idle, others, line⟩ := same index after pauses
      exact able_of_ready idle line.symm
  obtain ⟨idle, line⟩ := same turn after pauses
  cases fair.turn own with
  | asks asking => cases idle.symm.trans asking
  | sleeps asking => cases idle.symm.trans asking
  | starts holding => cases idle.symm.trans holding
  | takes _ ready whole =>
      rw [ready, List.cons_prefix_cons] at line
      obtain ⟨rfl, line⟩ := line
      refine ⟨turn + 1, (states turn).now, Nat.le_succ_of_le after, ?_, ?_⟩
      · rw [whole, lane_setLane, if_pos rfl]
      · rw [whole, lane_setLane, if_pos rfl]
        exact line

/-- A worker that waits for a token asks again when it is time to. -/
theorem asks (fair : Fair states acts) {askAt : Nat}
    (asking : ((states first).lane queue).worker = .awaitingToken jobId askAt) :
    ∃ turn, first ≤ turn ∧ askAt ≤ (states turn).now ∧
      ((states first).lane queue).Keeps ((states turn).lane queue) ∧
        (((states (turn + 1)).lane queue).worker = .awaitingSlot jobId ∧
            ((states turn).lane queue).ready = ((states (turn + 1)).lane queue).ready ∨
          ∃ later, ((states turn).lane queue).bucket.take (states turn).now = .error later ∧
            (states (turn + 1)).lane queue =
              { (states turn).lane queue with worker := .awaitingToken jobId later }) := by
  obtain ⟨awake, isAwake⟩ := fair.time askAt
  obtain ⟨turn, after, own, pauses⟩ := fair.exists_turn (Nat.le_max_left first awake)
    fun index after pauses => able_of_awake
      (fair.keeps_worker asking nofun (Nat.le_trans (Nat.le_max_left _ _) after) pauses)
      (Nat.le_trans isAwake (fair.now_le (Nat.le_trans (Nat.le_max_right _ _) after)))
  have asking := fair.keeps_worker asking nofun after pauses
  have keeps := fair.keeps after pauses
  cases fair.turn own with
  | takes idle => cases asking.symm.trans idle
  | starts holding => cases asking.symm.trans holding
  | asks again awake granted whole =>
      cases asking.symm.trans again
      refine ⟨turn, after, awake, keeps, .inl ?_⟩
      rw [whole, lane_setLane, if_pos rfl]
      exact ⟨rfl, rfl⟩
  | @sleeps _ _ later again awake refused whole =>
      cases asking.symm.trans again
      refine ⟨turn, after, awake, keeps, .inr ⟨later, refused, ?_⟩⟩
      rw [whole, lane_setLane, if_pos rfl]

theorem capacity_pos (fair : Fair states acts) (reached : Reachable settings (states 0))
    (index : Nat) : 0 < ((states index).lane queue).bucket.capacity := by
  rw [((fair.reachable reached index).suits queue).capacity]
  exact Nat.lt_of_lt_of_le Nat.zero_lt_one (Nat.le_max_left 1 _)

/-- A worker that was refused a token is granted one when it asks again, for then its bucket is
due to be filled up. -/
theorem token_of_due (fair : Fair states acts) (reached : Reachable settings (states 0))
    {askAt : Nat} (asking : ((states first).lane queue).worker = .awaitingToken jobId askAt)
    (due : ((states first).lane queue).bucket.lastRefill +
      ((states first).lane queue).bucket.interval ≤ askAt) :
    ∃ later, first ≤ later ∧ ((states later).lane queue).worker = .awaitingSlot jobId ∧
      ((states first).lane queue).ready <+: ((states later).lane queue).ready := by
  have present : ((states first).lane queue).worker ≠ .absent := by
    rw [asking]
    exact nofun
  obtain ⟨turn, after, awake, keeps, ⟨granted, ready⟩ | ⟨later, refused, -⟩⟩ := fair.asks asking
  · exact ⟨turn + 1, Nat.le_succ_of_le after, granted, ready ▸ keeps.ready⟩
  · rw [TokenBucket.take_of_due (fair.capacity_pos reached turn)] at refused
    · cases refused
    · rw [keeps.bucket present]
      omega

/-- A worker gets its token. -/
theorem token (fair : Fair states acts) (reached : Reachable settings (states 0)) {askAt : Nat}
    (asking : ((states first).lane queue).worker = .awaitingToken jobId askAt) :
    ∃ later, first ≤ later ∧ ((states later).lane queue).worker = .awaitingSlot jobId ∧
      ((states first).lane queue).ready <+: ((states later).lane queue).ready := by
  obtain ⟨turn, after, awake, keeps, ⟨granted, ready⟩ | ⟨later, refused, lane⟩⟩ := fair.asks asking
  · exact ⟨turn + 1, Nat.le_succ_of_le after, granted, ready ▸ keeps.ready⟩
  · have again : ((states (turn + 1)).lane queue).worker = .awaitingToken jobId later := by
      rw [lane]
    have due : ((states (turn + 1)).lane queue).bucket.lastRefill +
        ((states (turn + 1)).lane queue).bucket.interval ≤ later := by
      rw [lane]
      exact Nat.le_of_eq (TokenBucket.take_error (fair.capacity_pos reached turn) refused)
    obtain ⟨last, afterTurn, granted, ready⟩ := fair.token_of_due reached again due
    refine ⟨last, by omega, granted, keeps.ready.trans ?_⟩
    rw [lane] at ready
    exact ready

theorem runningCount_le (fair : Fair states acts) (reached : Reachable settings (states 0))
    (later : first ≤ last) (pauses : Pauses acts queue first last) :
    (states last).runningCount queue ≤ (states first).runningCount queue := by
  induction last, later using Nat.le_induction with
  | base => exact Nat.le_refl _
  | succ index later ih =>
      have away := pauses index later (Nat.lt_succ_self _)
      have steady := (fair.reachable reached index).steady
      exact Nat.le_trans ((fair.step index).runningCount_le steady away) (ih pauses.before)

/-- The running calls of a queue come to an end as long as no other one is started. -/
theorem frees (fair : Fair states acts) (reached : Reachable settings (states 0)) {count : Nat}
    (bound : (states first).runningCount queue ≤ count) :
    ∃ since, first ≤ since ∧ ∀ index, since ≤ index → Pauses acts queue first index →
      (states index).runningCount queue = 0 := by
  induction count generalizing first with
  | zero =>
      refine ⟨first, Nat.le_refl _, fun index after pauses => Nat.le_zero.1 ?_⟩
      exact Nat.le_trans (fair.runningCount_le reached after pauses) bound
  | succ count ih =>
      rcases Nat.eq_zero_or_pos ((states first).runningCount queue) with none | some
      · exact ih (by omega)
      · obtain ⟨call, isRunning, here⟩ := List.countP_pos_iff.1 some
        obtain rfl := beq_iff_eq.1 here
        obtain ⟨turn, outcome, after, own⟩ := fair.returns first call isRunning
        by_cases pauses : Pauses acts call.key.queue first turn
        · -- When the call returns, one call less is running.
          have step := fair.step turn
          rw [own] at step
          have fewer : (states (turn + 1)).runningCount call.key.queue ≤ count := by
            have before := fair.runningCount_le reached after pauses
            generalize states (turn + 1) = ended at step
            cases step with
            | finish _ running =>
                have one := runningCount_callReturns (fair.reachable reached turn).steady running
                  outcome
                omega
          obtain ⟨since, later, free⟩ := ih fewer
          exact ⟨since, by omega, fun index more quiet =>
            free index more (quiet.mono (Nat.le_succ_of_le after))⟩
        · refine ⟨turn, after, fun index more quiet => absurd (fun other after before => ?_) pauses⟩
          exact quiet other after (Nat.lt_of_lt_of_le before more)

/-- It is the turn of a worker that may start the job that it holds. -/
structure Serves (states : Nat → Queues) (acts : Nat → Act) (queue jobId : String)
    (turn : Nat) : Prop where
  own : acts turn = .advance queue
  holding : ((states turn).lane queue).worker = .awaitingSlot jobId

/-- After it has started a job the worker is idle. -/
theorem lane_of_serves (fair : Fair states acts) {turn : Nat}
    (serves : Serves states acts queue jobId turn) :
    ((states (turn + 1)).lane queue).worker = .idle ∧
      ((states (turn + 1)).lane queue).ready = ((states turn).lane queue).ready := by
  cases fair.turn serves.own with
  | takes idle => cases serves.holding.symm.trans idle
  | asks asking => cases serves.holding.symm.trans asking
  | sleeps asking => cases serves.holding.symm.trans asking
  | starts _ _ whole =>
      rw [whole, lane_startJob, lane_setLane, if_pos rfl]
      exact ⟨rfl, rfl⟩

/-- A worker that has a token starts its job. -/
theorem serves_of_token (fair : Fair states acts) (reached : Reachable settings (states 0))
    (holding : ((states first).lane queue).worker = .awaitingSlot jobId) :
    ∃ turn, first ≤ turn ∧ Serves states acts queue jobId turn ∧
      ((states first).lane queue).ready <+: ((states turn).lane queue).ready := by
  obtain ⟨since, later, free⟩ :=
    fair.frees reached (Nat.le_refl ((states first).runningCount queue))
  obtain ⟨turn, after, own, pauses⟩ := fair.exists_turn later fun index after pauses => by
    have holding := fair.keeps_worker holding nofun (Nat.le_trans later after) pauses
    refine able_of_free holding ?_
    rw [free index after pauses]
    exact Nat.lt_of_lt_of_le Nat.zero_lt_one (Nat.le_max_right _ 1)
  have holding := fair.keeps_worker holding nofun after pauses
  exact ⟨turn, after, ⟨own, holding⟩, (fair.keeps after pauses).ready⟩

/-- A worker that waits for a token starts its job. -/
theorem serves_of_asking (fair : Fair states acts) (reached : Reachable settings (states 0))
    {askAt : Nat} (asking : ((states first).lane queue).worker = .awaitingToken jobId askAt) :
    ∃ turn, first ≤ turn ∧ Serves states acts queue jobId turn ∧
      ((states first).lane queue).ready <+: ((states turn).lane queue).ready := by
  obtain ⟨later, after, holding, ready⟩ := fair.token reached asking
  obtain ⟨turn, afterLater, serves, more⟩ := fair.serves_of_token reached holding
  exact ⟨turn, Nat.le_trans after afterLater, serves, ready.trans more⟩

/-- The worker deals with one ready job after another.  The induction is on the jobs that stand
in line before the job. -/
theorem serves_of_line (fair : Fair states acts) (reached : Reachable settings (states 0))
    {before rest : List String} (idle : ((states first).lane queue).worker = .idle)
    (line : before ++ jobId :: rest <+: ((states first).lane queue).ready) :
    ∃ turn, first ≤ turn ∧ Serves states acts queue jobId turn := by
  induction before generalizing first with
  | nil =>
      obtain ⟨later, askAt, after, asking, -⟩ := fair.takes idle line
      obtain ⟨turn, afterLater, serves, -⟩ := fair.serves_of_asking reached asking
      exact ⟨turn, Nat.le_trans after afterLater, serves⟩
  | cons other before ih =>
      obtain ⟨later, askAt, after, asking, line⟩ := fair.takes idle line
      obtain ⟨turn, afterLater, serves, ready⟩ := fair.serves_of_asking reached asking
      obtain ⟨idle, same⟩ := fair.lane_of_serves serves
      obtain ⟨last, afterTurn, own⟩ := ih idle (same ▸ line.trans ready)
      exact ⟨last, by omega, own⟩

theorem serves_of_mem (fair : Fair states acts) (reached : Reachable settings (states 0))
    (idle : ((states first).lane queue).worker = .idle)
    (member : jobId ∈ ((states first).lane queue).ready) :
    ∃ turn, first ≤ turn ∧ Serves states acts queue jobId turn := by
  obtain ⟨before, rest, split⟩ := List.append_of_mem member
  have line : before ++ jobId :: rest <+: ((states first).lane queue).ready :=
    ⟨[], by rw [List.append_nil, split]⟩
  exact fair.serves_of_line reached idle line

/-- After the worker has started the job that it holds it deals with those that are ready. -/
theorem serves_after (fair : Fair states acts) (reached : Reachable settings (states 0))
    {other : String} {turn : Nat} (after : first ≤ turn)
    (serves : Serves states acts queue other turn)
    (kept : ((states first).lane queue).ready <+: ((states turn).lane queue).ready)
    (member : jobId ∈ ((states first).lane queue).ready) :
    ∃ turn, first ≤ turn ∧ Serves states acts queue jobId turn := by
  obtain ⟨idle, same⟩ := fair.lane_of_serves serves
  obtain ⟨last, afterTurn, own⟩ :=
    fair.serves_of_mem reached idle (same ▸ kept.subset member)
  exact ⟨last, by omega, own⟩

/-- Whatever waits for a worker comes to its turn. -/
theorem serves_of_starts (fair : Fair states acts) (reached : Reachable settings (states 0))
    (present : ((states first).lane key.queue).worker ≠ .absent)
    (pending : 0 < (states first).starts key) :
    ∃ turn, first ≤ turn ∧ Serves states acts key.queue key.id turn := by
  cases worker : ((states first).lane key.queue).worker with
  | absent => exact absurd worker present
  | stopped => exact absurd worker ((fair.reachable reached first).steady.working key.queue)
  | idle => exact fair.serves_of_mem reached worker (mem_ready pending (by rw [worker]; rfl))
  | awaitingToken other askAt =>
      obtain ⟨turn, after, serves, kept⟩ := fair.serves_of_asking reached worker
      by_cases same : other = key.id
      · exact ⟨turn, after, same ▸ serves⟩
      · have member := mem_ready pending (by rw [worker]; exact if_neg same)
        exact fair.serves_after reached after serves kept member
  | awaitingSlot other =>
      obtain ⟨turn, after, serves, kept⟩ := fair.serves_of_token reached worker
      by_cases same : other = key.id
      · exact ⟨turn, after, same ▸ serves⟩
      · have member := mem_ready pending (by rw [worker]; exact if_neg same)
        exact fair.serves_after reached after serves kept member

end Fair

/-! ## There are fair runs -/

/-- Something before all the others. -/
def prepend {α : Type} (first : α) (others : Nat → α) : Nat → α
  | 0 => first
  | index + 1 => others index

/-- A run is fair if it is fair after its first step. -/
theorem Fair.prepend {queues : Queues} {act : Act} (fair : Fair states acts)
    (steady : Steady queues none []) (step : Step queues act (states 0)) :
    Fair (prepend queues states) (prepend act acts) where
  step
    | 0 => step
    | index + 1 => fair.step index
  time time := by
    obtain ⟨index, isLate⟩ := fair.time time
    exact ⟨index + 1, isLate⟩
  returns
    | 0, call, isRunning => by
        rcases step.running_or_returns steady isRunning with goesOn | ⟨outcome, own⟩
        · obtain ⟨later, outcome, -, own⟩ := fair.returns 0 call goesOn
          exact ⟨later + 1, outcome, Nat.zero_le _, own⟩
        · exact ⟨0, outcome, Nat.zero_le _, own⟩
    | index + 1, call, isRunning => by
        obtain ⟨later, outcome, after, own⟩ := fair.returns index call isRunning
        exact ⟨later + 1, outcome, Nat.succ_le_succ after, own⟩
  fires
    | 0, timer, pending, due => by
        rcases step.pending_or_fires pending with goesOn | own
        · obtain ⟨later, -, own⟩ := fair.fires 0 timer goesOn (Nat.le_trans due step.now_le)
          exact ⟨later + 1, Nat.zero_le _, own⟩
        · exact ⟨0, Nat.zero_le _, own⟩
    | index + 1, timer, pending, due => by
        obtain ⟨later, after, own⟩ := fair.fires index timer pending due
        exact ⟨later + 1, Nat.succ_le_succ after, own⟩
  works
    | 0, queue, able => by
        obtain ⟨later, -, own⟩ := fair.works 0 queue fun index _ => able (index + 1) (Nat.zero_le _)
        exact ⟨later + 1, Nat.zero_le _, own⟩
    | index + 1, queue, able => by
        obtain ⟨later, after, own⟩ := fair.works index queue fun other after =>
          able (other + 1) (Nat.succ_le_succ after)
        exact ⟨later + 1, Nat.succ_le_succ after, own⟩

/-- At rest no worker can make a step. -/
theorem AtRest.unable {queues : Queues} (rest : AtRest queues) (queue : String) :
    queues.advanceWorker? queue = none := by
  cases worker : (queues.lane queue).worker with
  | idle =>
      have nothing := (rest.workers queue (by rw [hasWorker, worker])).2
      simp [advanceWorker?, takeReady?, takeToken?, takeSlot?, worker, nothing]
  | absent | stopped => simp [advanceWorker?, takeReady?, takeToken?, takeSlot?, worker]
  | awaitingToken | awaitingSlot =>
      have idle := (rest.workers queue (by rw [hasWorker, worker])).1
      cases worker.symm.trans idle

theorem AtRest.wait {queues : Queues} (rest : AtRest queues) (time : Nat) :
    AtRest { queues with now := time } := by
  have same : ∀ queue,
      (({ queues with now := time } : Queues).lane queue).worker = (queues.lane queue).worker ∧
        (({ queues with now := time } : Queues).lane queue).ready = (queues.lane queue).ready := by
    intro queue
    unfold lane
    cases queues.lanes.get? queue <;> exact ⟨rfl, rfl⟩
  have staffed : ∀ queue,
      ({ queues with now := time } : Queues).hasWorker queue = queues.hasWorker queue := by
    intro queue
    rw [hasWorker, (same queue).1, hasWorker]
  constructor
  case staffed => exact fun key job stored => (staffed _).trans (rest.staffed key job stored)
  case workers =>
    intro queue some
    rw [(same queue).1, (same queue).2]
    exact rest.workers queue ((staffed queue).symm.trans some)
  case running => exact rest.running
  case timers => exact rest.timers

/-- At rest nothing has to happen but that time passes. -/
theorem AtRest.fair {queues : Queues} (rest : AtRest queues) :
    Fair (fun index => { queues with now := queues.now + index })
      (fun index => .tick (queues.now + index + 1)) where
  step index := .tick (Nat.le_succ _)
  time time := ⟨time, Nat.le_add_left _ _⟩
  returns _ call isRunning := by
    have none : call ∈ queues.running := isRunning
    rw [rest.running] at none
    cases none
  fires _ timer pending := by
    have none : timer ∈ queues.timers := pending
    rw [rest.timers] at none
    cases none
  works index queue able := by
    have moves := able index (Nat.le_refl _)
    rw [(rest.wait _).unable queue] at moves
    cases moves

/-- A run that comes to rest can go on fairly. -/
theorem exists_fair_of_follow? {queues later : Queues} {made : List Act}
    (reached : Reachable settings queues) (followed : follow? made queues = some later)
    (rest : AtRest later) :
    ∃ states acts, Fair states acts ∧ states 0 = queues ∧
      ∃ since, ∀ index, since ≤ index → (states index).job? = later.job? := by
  induction made generalizing queues with
  | nil =>
      obtain rfl := Option.some.inj followed
      exact ⟨_, _, rest.fair, rfl, 0, fun _ _ => rfl⟩
  | cons act made ih =>
      obtain ⟨between, next, others⟩ := Option.bind_eq_some_iff.1 followed
      have step := step_iff_next?.2 next
      obtain ⟨states, acts, fair, rfl, since, same⟩ := ih (reached.step step) others
      refine ⟨_, _, fair.prepend reached.steady step, rfl, since + 1, fun index after => ?_⟩
      cases index with
      | zero => exact absurd after (Nat.not_succ_le_zero _)
      | succ index => exact same index (Nat.le_of_succ_le_succ after)

end Runs

end Queues

end Relay
