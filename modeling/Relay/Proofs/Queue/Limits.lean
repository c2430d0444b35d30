import Relay.Proofs.Queue.Capacity
import Relay.Proofs.Queue.History
import Relay.Proofs.Queue.Places
import Relay.Proofs.Queue.Tokens

/-!
# Limits of the workers

No matter what is submitted, how long calls take, what is tried again and what is
evicted, the calls of a queue that are in progress are never more than may run at the
same time, and the calls that were started since the queue was first touched are never
more than the tokens that there were for them.  Both hold all along a run, which is
kept as the list of its states.
-/

namespace Relay

/-! ## Tokens -/

namespace TokenBucket

variable {bucket left : TokenBucket} {created taken now : Nat}

/-- What was taken from a bucket and what is left in it do not exceed what was put into it
at its creation and in every interval that has passed since. -/
structure Accounts (bucket : TokenBucket) (created taken : Nat) : Prop where
  since : created ≤ bucket.lastRefill
  budget : taken + bucket.tokens ≤
    bucket.capacity * (1 + (bucket.lastRefill - created) / bucket.interval)

theorem accounts_full (capacity interval now : Nat) :
    (full capacity interval now).Accounts now 0 where
  since := Nat.le_refl now
  budget := by simp [full]

/-- A bucket is filled up again only after a whole interval. -/
theorem Accounts.refill (accounts : bucket.Accounts created taken) (positive : 0 < bucket.interval)
    (past : bucket.lastRefill ≤ now) : (bucket.refill now).Accounts created taken := by
  rw [TokenBucket.refill]
  split
  · next elapsed =>
      refine ⟨Nat.le_trans accounts.since past, ?_⟩
      have since := accounts.since
      have intervals : (bucket.lastRefill - created) / bucket.interval + 1 ≤
          (now - created) / bucket.interval := by
        rw [← Nat.add_div_right _ positive]
        exact Nat.div_le_div_right (by omega)
      calc taken + bucket.capacity
          ≤ taken + bucket.tokens + bucket.capacity := by omega
        _ ≤ bucket.capacity * (1 + (bucket.lastRefill - created) / bucket.interval) +
              bucket.capacity := Nat.add_le_add_right accounts.budget _
        _ = bucket.capacity * (1 + ((bucket.lastRefill - created) / bucket.interval + 1)) :=
              (Nat.mul_succ _ _).symm
        _ ≤ bucket.capacity * (1 + (now - created) / bucket.interval) :=
              Nat.mul_le_mul_left _ (Nat.add_le_add_left intervals 1)
  · exact accounts

theorem Accounts.take (accounts : bucket.Accounts created taken) (positive : 0 < bucket.interval)
    (past : bucket.lastRefill ≤ now) (granted : bucket.take now = .ok left) :
    left.Accounts created (taken + 1) := by
  obtain ⟨available, rfl⟩ := take_ok granted
  have filled := accounts.refill positive past
  have budget := filled.budget
  exact ⟨filled.since, by dsimp only; omega⟩

end TokenBucket

/-! ## The pace of one queue -/

/-- The calls of a queue that were started so far fit the tokens that it had: `times` are
the times at which they were started. -/
structure Lane.Paced (lane : Lane) (now created : Nat) (times : List Nat) : Prop where
  refilled : lane.bucket.lastRefill ≤ now
  accounts : lane.bucket.Accounts created (times.length + lane.worker.admitted)
  throttled : ∀ span, times.countP (· ≤ created + span) ≤
    lane.bucket.capacity * (1 + span / lane.bucket.interval)

namespace Lane.Paced

variable {lane next : Lane} {now created : Nat} {times : List Nat}

theorem fresh (limits : QueueSettings) (now : Nat) : (Lane.fresh limits now).Paced now now [] where
  refilled := Nat.le_refl now
  accounts := TokenBucket.accounts_full _ _ now
  throttled _ := Nat.zero_le _

theorem wait (paced : lane.Paced now created times) {time : Nat} (later : now ≤ time) :
    lane.Paced time created times :=
  ⟨Nat.le_trans paced.refilled later, paced.accounts, paced.throttled⟩

/-- Calls are started only against tokens that were taken before. -/
theorem start (paced : lane.Paced now created times) (bucket : next.bucket = lane.bucket)
    {count : Nat} (admitted : count + next.worker.admitted ≤ lane.worker.admitted) :
    next.Paced now created (List.replicate count now ++ times) := by
  have accounts := paced.accounts
  refine ⟨bucket ▸ paced.refilled, bucket ▸ ⟨accounts.since, ?_⟩, fun span => ?_⟩
  · have budget := accounts.budget
    rw [List.length_append, List.length_replicate]
    omega
  · rw [bucket, List.countP_append, List.countP_replicate]
    split
    · -- The new calls count, and then so does the time of the last refill.
      next counted =>
        have within : now ≤ created + span := of_decide_eq_true counted
        have before : lane.bucket.lastRefill - created ≤ span := by
          have := paced.refilled
          omega
        have all : times.countP (· ≤ created + span) ≤ times.length := List.countP_le_length
        have budget := accounts.budget
        calc count + times.countP (· ≤ created + span)
            ≤ times.length + lane.worker.admitted + lane.bucket.tokens := by omega
          _ ≤ lane.bucket.capacity *
                (1 + (lane.bucket.lastRefill - created) / lane.bucket.interval) := budget
          _ ≤ lane.bucket.capacity * (1 + span / lane.bucket.interval) :=
                Nat.mul_le_mul_left _ (Nat.add_le_add_left (Nat.div_le_div_right before) 1)
    · rw [Nat.zero_add]
      exact paced.throttled span

theorem take (paced : lane.Paced now created times) (positive : 0 < lane.bucket.interval)
    (unused : lane.worker.admitted = 0) {bucket : TokenBucket}
    (granted : lane.bucket.take now = .ok bucket) (jobId : String) :
    ({ lane with bucket, worker := .awaitingSlot jobId } : Lane).Paced now created times where
  refilled := by
    obtain ⟨-, rfl⟩ := TokenBucket.take_ok granted
    exact TokenBucket.lastRefill_refill paced.refilled
  accounts := by
    have accounts := paced.accounts
    rw [unused] at accounts
    exact accounts.take positive paced.refilled granted
  throttled span := by
    obtain ⟨-, rfl⟩ := TokenBucket.take_ok granted
    dsimp only
    rw [TokenBucket.capacity_refill, TokenBucket.interval_refill]
    exact paced.throttled span

end Lane.Paced

namespace Queues

variable {settings : Dict QueueSettings} {queues after : Queues} {earlier states : List Queues}
  {queue : String}

/-! ## Calls that a step starts -/

/-- Number of calls of a queue that are running after a step and were not before. -/
def startedBy (queue : String) (queues after : Queues) : Nat :=
  (after.running.diff queues.running).countP fun call => call.key.queue == queue

theorem append_diff_left {α : Type} [BEq α] [LawfulBEq α] (first second : List α) :
    (first ++ second).diff first = second := by
  induction first with
  | nil => rfl
  | cons head rest ih => rw [List.cons_append, List.diff_cons, List.erase_cons_head, ih]

theorem diff_self {α : Type} [BEq α] [LawfulBEq α] (list : List α) : list.diff list = [] := by
  simpa using append_diff_left list []

theorem KeepsPace.startedBy (keeps : KeepsPace queues after) (queue : String) :
    startedBy queue queues after = 0 := by
  have less : (after.running.diff queues.running).Sublist (queues.running.diff queues.running) :=
    keeps.running.diff_right
  rw [diff_self, List.sublist_nil] at less
  rw [Queues.startedBy, less, List.countP_nil]

theorem startJob_lanes (queues : Queues) (key : JobKey) :
    (queues.startJob key).lanes = queues.lanes ∧ (queues.startJob key).now = queues.now ∧
      (queues.startJob key).settings = queues.settings := by
  unfold startJob
  split
  · split <;> exact ⟨rfl, rfl, rfl⟩
  · exact ⟨rfl, rfl, rfl⟩

/-- The call that a worker starts is one of its own queue. -/
theorem running_startJob (queues : Queues) (key : JobKey) :
    (queues.startJob key).running = queues.running ∨
      ∃ call, call.key = key ∧ (queues.startJob key).running = queues.running ++ [call] := by
  unfold startJob
  split
  · split
    · exact .inr ⟨_, rfl, rfl⟩
    · exact .inl rfl
  · exact .inl rfl

/-- One call of its own queue is all that a worker starts. -/
theorem startedBy_startJob {freed : Queues} (same : freed.running = queues.running) (key : JobKey)
    (queue : String) :
    startedBy queue queues (freed.startJob key) ≤ if key.queue = queue then 1 else 0 := by
  rw [startedBy]
  rcases running_startJob freed key with nothing | ⟨call, rfl, running⟩
  · rw [nothing, same, diff_self, List.countP_nil]
    exact Nat.zero_le _
  · rw [running, same, append_diff_left, List.countP_singleton]
    simp only [beq_iff_eq, Nat.le_refl]

theorem runningCount_startJob (queues : Queues) (key : JobKey) (queue : String) :
    (queues.startJob key).runningCount queue ≤
      queues.runningCount queue + if key.queue = queue then 1 else 0 := by
  rw [runningCount, runningCount]
  rcases running_startJob queues key with nothing | ⟨call, rfl, running⟩
  · rw [nothing]
    exact Nat.le_add_right _ _
  · rw [running, List.countP_append, List.countP_singleton]
    simp only [beq_iff_eq, Nat.le_refl]

/-! ## Runs -/

/-- The states of a run, the latest first. -/
inductive Trace (settings : Dict QueueSettings) : List Queues → Prop where
  | start : Trace settings [.start settings]
  | step {queues after : Queues} {earlier : List Queues} {act : Act}
      (trace : Trace settings (queues :: earlier)) (step : Step queues act after) :
      Trace settings (after :: queues :: earlier)

/-- The time at which a queue was touched first. -/
def createdAt? (queue : String) : List Queues → Option Nat
  | [] => none
  | state :: earlier => (createdAt? queue earlier).or
      (if (state.lanes.get? queue).isSome then some state.now else none)

/-- The times at which the calls of a queue were started, the latest first.  Every attempt
of a job is a call of its own. -/
def startTimes (queue : String) : List Queues → List Nat
  | after :: queues :: earlier =>
      List.replicate (startedBy queue queues after) after.now ++
        startTimes queue (queues :: earlier)
  | [_] | [] => []

theorem Trace.reachable {state : Queues} (trace : Trace settings states) (member : state ∈ states) :
    Reachable settings state := by
  induction trace generalizing state with
  | start =>
      rw [List.mem_singleton.1 member]
      exact .start
  | @step queues after earlier act trace step ih =>
      rcases List.mem_cons.1 member with rfl | before
      · exact (ih List.mem_cons_self).step step
      · exact ih before

/-- The limits are those that were given at the start. -/
theorem Reachable.settings_eq (reached : Reachable settings queues) :
    queues.settings = settings := by
  induction reached with
  | start => rfl
  | step reached step ih => exact (step.effect reached.steady).settings.trans ih

theorem Reachable.settings_lane (reached : Reachable settings queues) (queue : String) :
    (queues.lane queue).settings = (Queues.start settings).settingsOf queue := by
  rw [reached.counted.settings queue, settingsOf, reached.settings_eq]
  rfl

/-! ## How many calls are in progress -/

/-- A worker starts a call only if fewer than the limit are running. -/
theorem Pace.concurrent (pace : Pace queues after)
    (before : queues.runningCount queue ≤ slots (queues.lane queue)) :
    after.runningCount queue ≤ slots (queues.lane queue) := by
  cases pace with
  | waits later whole => exact whole ▸ before
  | keeps keeps => exact Nat.le_trans (keeps.running.countP_le) before
  | takes unused taken whole => exact whole ▸ before
  | @starts busy jobId holding free whole =>
      subst whole
      have more := runningCount_startJob
        (queues.setLane busy { queues.lane busy with worker := .idle }) ⟨busy, jobId⟩ queue
      refine Nat.le_trans more ?_
      dsimp only
      split
      · next same =>
          subst same
          exact free
      · exact before

theorem Reachable.concurrent (reached : Reachable settings queues) (queue : String) :
    queues.runningCount queue ≤ slots (queues.lane queue) := by
  induction reached with
  | start => exact Nat.zero_le _
  | @step queues after act reached step ih =>
      have within := step.pace.concurrent ih
      rw [slots, reached.settings_lane] at within
      rw [slots, (reached.step step).settings_lane]
      exact within

/-! ## How many calls are started -/

/-- A queue has its lane from the moment at which it is touched first. -/
theorem Pace.lanes (pace : Pace queues after) (present : (queues.lanes.get? queue).isSome) :
    (after.lanes.get? queue).isSome := by
  cases pace with
  | waits later whole => exact whole ▸ present
  | keeps keeps => exact keeps.lanes queue present
  | takes unused taken whole => exact whole ▸ isSome_lanes_setLane present
  | starts holding free whole =>
      rw [whole, (startJob_lanes _ _).1]
      exact isSome_lanes_setLane present

theorem Trace.createdAt?_eq_none_iff (trace : Trace settings (queues :: earlier)) (queue : String) :
    createdAt? queue (queues :: earlier) = none ↔ queues.lanes.get? queue = none := by
  generalize whole : queues :: earlier = states at trace
  induction trace generalizing queues earlier with
  | start =>
      cases whole
      simp [createdAt?]
  | @step before after others act trace step ih =>
      cases whole
      have earlierAbsent := ih rfl
      rw [createdAt?, Option.or_eq_none_iff, earlierAbsent]
      constructor
      · rintro ⟨-, absent⟩
        simpa using absent
      · intro absent
        refine ⟨?_, by simp [absent]⟩
        by_contra present
        have later := step.pace.lanes (Option.isSome_iff_ne_none.2 present)
        rw [absent] at later
        cases later

/-- The time from which the tokens of a queue are counted: when it was touched first, or now if
it was not touched so far. -/
def countedFrom (queue : String) (queues : Queues) (earlier : List Queues) : Nat :=
  (createdAt? queue (queues :: earlier)).getD queues.now

/-- Steps that take no time count from where they did before. -/
theorem countedFrom_step (now : after.now = queues.now) (queue : String) (earlier : List Queues) :
    countedFrom queue after (queues :: earlier) = countedFrom queue queues earlier := by
  unfold countedFrom
  rw [createdAt?]
  cases createdAt? queue (queues :: earlier) with
  | some created => rfl
  | none =>
      rw [Option.none_or, Option.getD_none, ← now]
      split <;> rfl

/-- What a step does to the pace of one queue. -/
inductive PaceOf (queue : String) (queues after : Queues) : Prop where
  | waits {time : Nat} (later : queues.now ≤ time) (whole : after = { queues with now := time })
  | spends (now : after.now = queues.now)
      (bucket : (after.lane queue).bucket = (queues.lane queue).bucket)
      (admitted : startedBy queue queues after + (after.lane queue).worker.admitted ≤
        (queues.lane queue).worker.admitted)
  | takes {jobId : String} {bucket : TokenBucket} (now : after.now = queues.now)
      (nothing : startedBy queue queues after = 0)
      (unused : (queues.lane queue).worker.admitted = 0)
      (granted : (queues.lane queue).bucket.take queues.now = .ok bucket)
      (lane : after.lane queue =
        { queues.lane queue with bucket, worker := .awaitingSlot jobId })

theorem Pace.of (pace : Pace queues after) (queue : String) : PaceOf queue queues after := by
  cases pace with
  | waits later whole => exact .waits later whole
  | keeps keeps =>
      refine .spends keeps.now (keeps.bucket queue) ?_
      rw [keeps.startedBy, Nat.zero_add]
      exact keeps.admitted queue
  | @takes busy jobId bucket unused granted whole =>
      subst whole
      have nothing : startedBy queue queues (queues.setLane busy
          { queues.lane busy with bucket, worker := .awaitingSlot jobId }) = 0 := by
        rw [startedBy, show (queues.setLane busy _).running = queues.running from rfl, diff_self,
          List.countP_nil]
      by_cases same : queue = busy
      · subst same
        exact .takes rfl nothing unused granted (by rw [lane_setLane, if_pos rfl])
      · have lane := lane_setLane queues busy queue
          { queues.lane busy with bucket, worker := .awaitingSlot jobId }
        rw [if_neg same] at lane
        exact .spends rfl (by rw [lane]) (by rw [lane, nothing, Nat.zero_add])
  | @starts busy jobId holding free whole =>
      subst whole
      have started : startedBy queue queues ((queues.setLane busy
          { queues.lane busy with worker := .idle }).startJob ⟨busy, jobId⟩) ≤
          if busy = queue then 1 else 0 := startedBy_startJob rfl ⟨busy, jobId⟩ queue
      have lane := lane_startJob (queues.setLane busy { queues.lane busy with worker := .idle })
        ⟨busy, jobId⟩ queue
      rw [lane_setLane] at lane
      refine .spends (startJob_lanes _ _).2.1 ?_ ?_
      · rw [lane]
        split
        · next same => rw [same]
        · rfl
      · rw [lane]
        by_cases same : busy = queue
        · subst same
          rw [if_pos rfl] at started
          rw [if_pos rfl, holding]
          exact started
        · rw [if_neg same, Nat.le_zero] at started
          rw [if_neg (Ne.symm same), started, Nat.zero_add]

/-- A queue that was not touched begins with its tokens whenever it is. -/
theorem lane_later (queues : Queues) (time : Nat) (queue : String) :
    ({ queues with now := time } : Queues).lane queue =
      (queues.lanes.get? queue).getD (.fresh (queues.settingsOf queue) time) := rfl

/-- A bucket holds what the limits of its queue say. -/
structure Suits (bucket : TokenBucket) (limits : QueueSettings) : Prop where
  capacity : bucket.capacity = max 1 limits.maxRequestToken
  interval : bucket.interval = limits.regenerationInterval

theorem suits_full (limits : QueueSettings) (now : Nat) :
    Suits (.full limits.maxRequestToken limits.regenerationInterval now) limits :=
  ⟨Nat.max_comm _ _, rfl⟩

theorem PaceOf.suits {limits : QueueSettings} (pace : PaceOf queue queues after)
    (same : queues.settingsOf queue = limits)
    (suits : Suits (queues.lane queue).bucket limits) : Suits (after.lane queue).bucket limits := by
  cases pace with
  | @waits time later whole =>
      rw [whole, lane_later]
      rw [lane] at suits
      cases found : queues.lanes.get? queue with
      | none => exact same ▸ suits_full _ time
      | some lane =>
          rw [found] at suits
          exact suits
  | spends now bucket admitted => exact bucket ▸ suits
  | takes now nothing unused granted lane =>
      obtain ⟨-, rfl⟩ := TokenBucket.take_ok granted
      rw [lane]
      exact ⟨TokenBucket.capacity_refill.trans suits.capacity,
        TokenBucket.interval_refill.trans suits.interval⟩

theorem Reachable.suits (reached : Reachable settings queues) (queue : String) :
    Suits (queues.lane queue).bucket ((Queues.start settings).settingsOf queue) := by
  induction reached with
  | start => exact suits_full _ 0
  | step reached step ih =>
      refine (step.pace.of queue).suits ?_ ih
      rw [← reached.counted.settings queue, reached.settings_lane]

/-- A queue that was never touched has started nothing. -/
theorem times_eq_nil_of_fresh {limits : QueueSettings} {now : Nat} {times : List Nat}
    (paced : (Lane.fresh limits now).Paced now now times) : times = [] := by
  have budget := paced.accounts.budget
  have none : times.length = 0 := by
    simp only [Lane.fresh, TokenBucket.full, Nat.sub_self, Nat.zero_div, Nat.add_zero,
      Nat.mul_one] at budget
    omega
  exact List.length_eq_zero_iff.1 none

/-- Time passes: a queue that was not touched begins later, another goes on. -/
theorem Trace.paced_wait (trace : Trace settings (queues :: earlier))
    (paced : (queues.lane queue).Paced queues.now (countedFrom queue queues earlier)
      (startTimes queue (queues :: earlier))) {time : Nat} (later : queues.now ≤ time) :
    (({ queues with now := time } : Queues).lane queue).Paced time
      (countedFrom queue { queues with now := time } (queues :: earlier))
      (startTimes queue (queues :: earlier)) := by
  have absent := trace.createdAt?_eq_none_iff queue
  unfold countedFrom at paced ⊢
  rw [lane] at paced
  rw [lane_later, createdAt?]
  cases created : createdAt? queue (queues :: earlier) with
  | none =>
      have noLane := absent.1 created
      rw [created, noLane] at paced
      rw [noLane, times_eq_nil_of_fresh paced]
      simpa [noLane] using Lane.Paced.fresh (queues.settingsOf queue) time
  | some since =>
      obtain ⟨lane, found⟩ := Option.ne_none_iff_exists'.1 fun none =>
        Option.some_ne_none since (created.symm.trans (absent.2 none))
      rw [created, found] at paced
      rw [found]
      exact paced.wait later

/-- The calls of a queue fit its tokens all along a run. -/
theorem Trace.paced (trace : Trace settings (queues :: earlier)) (queue : String)
    (positive : 0 < ((Queues.start settings).settingsOf queue).regenerationInterval) :
    (queues.lane queue).Paced queues.now (countedFrom queue queues earlier)
      (startTimes queue (queues :: earlier)) := by
  generalize whole : queues :: earlier = states at trace
  induction trace generalizing queues earlier with
  | start =>
      cases whole
      exact .fresh _ 0
  | @step before after others act trace step ih =>
      cases whole
      have paced := ih rfl
      have reached := trace.reachable List.mem_cons_self
      rw [startTimes]
      cases step.pace.of queue with
      | @waits time later whole =>
          subst whole
          rw [startedBy, diff_self, List.countP_nil, List.replicate_zero, List.nil_append]
          exact trace.paced_wait paced later
      | spends now bucket admitted =>
          rw [countedFrom_step now, now]
          exact paced.start bucket admitted
      | takes now nothing unused granted lane =>
          rw [countedFrom_step now, now, nothing, List.replicate_zero, List.nil_append, lane]
          refine paced.take ?_ unused granted _
          rw [(reached.suits queue).interval]
          exact positive

/-! ## The limits over whole runs -/

/-- The calls of a queue stay within its limits all along a run. -/
structure WithinLimits (limits : QueueSettings) (queue : String) (states : List Queues) : Prop where
  /-- Never are more calls in progress than may be; at least one may. -/
  concurrent : ∀ state ∈ states, state.runningCount queue ≤ max 1 limits.concurrencyLimit
  /-- In a time after the creation of the queue no more calls are started than the first
  tokens and those of every whole interval of that time. -/
  throttled : 0 < limits.regenerationInterval → ∀ created, createdAt? queue states = some created →
    ∀ time, (startTimes queue states).countP (· ≤ created + time) ≤
      max 1 limits.maxRequestToken * (1 + time / limits.regenerationInterval)

/-- The limits of the workers hold over whole runs: whatever is submitted, tried again and
evicted, also while it runs, every queue stays within its limits. -/
theorem workers_within_limits (trace : Trace settings states) (queue : String) :
    WithinLimits ((Queues.start settings).settingsOf queue) queue states where
  concurrent state member := by
    have reached := trace.reachable member
    have within := reached.concurrent queue
    rw [slots, reached.settings_lane, Nat.max_comm] at within
    exact within
  throttled positive created createdAt time := by
    cases states with
    | nil => cases createdAt
    | cons state earlier =>
        have paced := trace.paced queue positive
        have suits := (trace.reachable List.mem_cons_self).suits queue
        have throttled := paced.throttled time
        rw [countedFrom, createdAt, Option.getD_some, suits.capacity, suits.interval] at throttled
        exact throttled

/-- The states that several things lead through, if they can happen one after another. -/
def trace? : List Act → List Queues → Option (List Queues)
  | [], states => some states
  | _ :: _, [] => none
  | act :: rest, queues :: earlier =>
      (queues.next? act).bind fun after => trace? rest (after :: queues :: earlier)

theorem trace_of_trace? {acts : List Act} (trace : Trace settings earlier)
    (followed : trace? acts earlier = some states) : Trace settings states := by
  induction acts generalizing earlier with
  | nil => exact Option.some.inj followed ▸ trace
  | cons act rest ih =>
      cases trace with
      | start =>
          obtain ⟨after, next, others⟩ := Option.bind_eq_some_iff.1 followed
          exact ih (.step .start (step_iff_next?.2 next)) others
      | step trace step =>
          obtain ⟨after, next, others⟩ := Option.bind_eq_some_iff.1 followed
          exact ih (.step (.step trace step) (step_iff_next?.2 next)) others

/-- One call at a time, and one in a second. -/
def Sample.tight : Dict QueueSettings :=
  .ofList [("default", { QueueSettings.standard with concurrencyLimit := 1, maxRequestToken := 1 })]

/-- The first call for a job on its own. -/
def Sample.callOnly : Call :=
  { key := ⟨"default", jobIdOf 0⟩, name := "only", data := .null, attempt := 1, maxAttempts := 3
    children := .empty, startedAt := 0 }

/-- A job is tried again, for which it waits until there is a token, and is evicted while its
second call is in progress. -/
def Sample.retried : List Act :=
  [.add ⟨"only", "default", .null, .standard, []⟩ [("default", 1)], .startWorker "default",
    .advance "default", .advance "default", .advance "default",
    .finish Sample.callOnly (.error (.retryable "busy")), .tick 100,
    .fire ⟨⟨"default", jobIdOf 0⟩, 100⟩, .advance "default", .advance "default", .tick 1000,
    .advance "default", .advance "default", .remove ⟨"default", jobIdOf 0⟩]

theorem workers_within_limits_retried : ∃ states,
    trace? Sample.retried [.start Sample.tight] = some states ∧
    createdAt? "default" states = some 0 ∧ startTimes "default" states = [1000, 0] ∧
    WithinLimits ((Queues.start Sample.tight).settingsOf "default") "default" states := by
  have times : (trace? Sample.retried [.start Sample.tight]).map
      (fun states => (createdAt? "default" states, startTimes "default" states)) =
      some (some 0, [1000, 0]) := by decide +kernel
  obtain ⟨states, followed, same⟩ := Option.map_eq_some_iff.1 times
  obtain ⟨created, started⟩ := Prod.mk.inj same
  exact ⟨states, followed, created, started,
    workers_within_limits (trace_of_trace? .start followed) "default"⟩

end Queues

end Relay
