import Mathlib.Data.List.Count
import Relay.Proofs.Queue.Tokens

/-!
# Calls for tokens at the same time

Any number of calls may wait for the tokens of one bucket.  They are made at any time, and one
that sleeps may be late when it asks again.  The bucket is filled up when somebody asks, so its
intervals do not begin at regular times; but no two begin within one interval, and what is
granted in any window of time was left at its start or filled up in it.
-/

namespace Relay

/-! ## Times in a window -/

/-- How many of the times lie in a window, which includes its start and not its end. -/
def countWithin (start stop : Nat) (times : List Nat) : Nat :=
  times.countP fun time => start ≤ time ∧ time < stop

section Windows

variable {start stop time : Nat} {times : List Nat}

theorem countWithin_cons_of_within (within : start ≤ time ∧ time < stop) :
    countWithin start stop (time :: times) = countWithin start stop times + 1 :=
  List.countP_cons_of_pos (decide_eq_true within)

theorem countWithin_cons_of_outside (outside : ¬ (start ≤ time ∧ time < stop)) :
    countWithin start stop (time :: times) = countWithin start stop times :=
  List.countP_cons_of_neg (by simpa using outside)

theorem countWithin_before (before : ∀ time ∈ times, time < start) :
    countWithin start stop times = 0 := by
  refine List.countP_eq_zero.2 fun time member counted => ?_
  have := before time member
  have := (of_decide_eq_true counted).1
  omega

/-- The end of a window may be moved as long as no time is passed over. -/
theorem countWithin_congr {other : Nat} (same : ∀ time ∈ times, time < stop ↔ time < other) :
    countWithin start stop times = countWithin start other times := by
  refine List.countP_congr fun time member => ?_
  simp only [decide_eq_true_eq]
  exact and_congr_right fun _ => same time member

/-- Of times that are apart, a window holds no more than its length allows. -/
theorem countWithin_le_of_apart {interval : Nat}
    (apart : times.Pairwise fun later earlier => earlier + interval ≤ later) (spans : Nat) :
    countWithin start (start + spans * interval) times ≤ spans := by
  induction times generalizing spans with
  | nil => exact Nat.zero_le spans
  | cons latest times ih =>
      obtain ⟨before, apart⟩ := List.pairwise_cons.1 apart
      by_cases within : start ≤ latest ∧ latest < start + spans * interval
      · rw [countWithin_cons_of_within within]
        cases spans with
        | zero => omega
        | succ spans =>
            -- The times before the latest lie in the window without its last interval.
            have shorter : countWithin start (start + (spans + 1) * interval) times =
                countWithin start (start + spans * interval) times := by
              refine countWithin_congr fun time member => ?_
              have := before time member
              rw [Nat.succ_mul] at within ⊢
              omega
            rw [shorter]
            exact Nat.succ_le_succ (ih apart spans)
      · rw [countWithin_cons_of_outside within]
        exact ih apart spans

end Windows

namespace TokenBucket

/-! ## The callers of one bucket -/

/-- The callers of a bucket at some time. -/
structure Crowd where
  now : Nat
  bucket : TokenBucket
  /-- For each call that has no token yet, the time from which it asks. -/
  asking : List Nat
  /-- When calls got their tokens, the latest first. -/
  returned : List Nat
  /-- When the bucket was full, as it was made or filled up, the latest first. -/
  filled : List Nat
  deriving DecidableEq, Repr

namespace Crowd

def start (capacity interval now : Nat) : Crowd :=
  { now, bucket := full capacity interval now, asking := [], returned := [], filled := [now] }

/-- Calls are made and ask one at a time, in any order. -/
inductive Step : Crowd → Crowd → Prop where
  | wait {crowd : Crowd} {later : Nat} (after : crowd.now ≤ later) :
      Step crowd { crowd with now := later }
  | call {crowd : Crowd} : Step crowd { crowd with asking := crowd.now :: crowd.asking }
  /-- A call that was refused sleeps at least until the time that it was told. -/
  | refuse {crowd : Crowd} {since later : Nat} (asks : since ∈ crowd.asking)
      (awake : since ≤ crowd.now) (refused : crowd.bucket.take crowd.now = .error later) :
      Step crowd { crowd with asking := later :: crowd.asking.erase since }
  | grant {crowd : Crowd} {since : Nat} {left : TokenBucket} (asks : since ∈ crowd.asking)
      (awake : since ≤ crowd.now) (granted : crowd.bucket.take crowd.now = .ok left) :
      Step crowd { crowd with
        bucket := left
        asking := crowd.asking.erase since
        returned := crowd.now :: crowd.returned
        filled :=
          if crowd.bucket.interval ≤ crowd.now - crowd.bucket.lastRefill then
            crowd.now :: crowd.filled
          else crowd.filled }

/-- What can come of the calls for a bucket that was made at some time. -/
inductive Reached (capacity interval created : Nat) : Crowd → Prop where
  | start : Reached capacity interval created (start capacity interval created)
  | step {before after : Crowd} (reached : Reached capacity interval created before)
      (step : Step before after) : Reached capacity interval created after

/-! ## What the calls keep -/

/-- The tokens of a bucket of some size are accounted for. -/
structure Metered (size length : Nat) (crowd : Crowd) : Prop where
  positive : 0 < size
  capacity : crowd.bucket.capacity = size
  interval : crowd.bucket.interval = length
  tokens : crowd.bucket.tokens ≤ size
  refilled : crowd.bucket.lastRefill ≤ crowd.now
  latest : crowd.filled.head? = some crowd.bucket.lastRefill
  apart : crowd.filled.Pairwise fun later earlier => earlier + length ≤ later
  past : ∀ time ∈ crowd.returned, time ≤ crowd.now
  /-- Before the end of a window, what is left of the tokens may still be taken in it. -/
  budget : ∀ start stop, countWithin start stop crowd.returned +
    (if crowd.now < stop then crowd.bucket.tokens else 0) ≤
      size * (1 + countWithin start stop crowd.filled)

variable {size length : Nat} {before after crowd : Crowd}

theorem metered_start (capacity interval created : Nat) :
    (start capacity interval created).Metered (max 1 capacity) interval where
  positive := Nat.lt_of_lt_of_le Nat.zero_lt_one (Nat.le_max_left 1 capacity)
  capacity := Nat.max_comm _ _
  interval := rfl
  tokens := Nat.le_of_eq (Nat.max_comm _ _)
  refilled := Nat.le_refl created
  latest := rfl
  apart := List.pairwise_singleton _ _
  past := by simp [start]
  budget first last := by
    have all : (start capacity interval created).bucket.tokens = max 1 capacity := Nat.max_comm _ _
    have some : max 1 capacity ≤ max 1 capacity *
        (1 + countWithin first last (start capacity interval created).filled) :=
      Nat.le_mul_of_pos_right _ (Nat.add_pos_left Nat.one_pos _)
    have none : countWithin first last (start capacity interval created).returned = 0 := rfl
    rw [none, Nat.zero_add, all]
    split
    · exact some
    · exact Nat.zero_le _

theorem Metered.le_lastRefill (metered : crowd.Metered size length) :
    ∀ time ∈ crowd.filled, time ≤ crowd.bucket.lastRefill := by
  obtain ⟨earlier, filled⟩ := List.head?_eq_some_iff.1 metered.latest
  have apart := metered.apart
  rw [filled] at apart ⊢
  intro time member
  rcases List.mem_cons.1 member with rfl | member
  · exact Nat.le_refl _
  · exact Nat.le_trans (Nat.le_add_right _ _) ((List.pairwise_cons.1 apart).1 time member)

theorem Metered.wait (metered : crowd.Metered size length) {later : Nat}
    (after : crowd.now ≤ later) : ({ crowd with now := later } : Crowd).Metered size length where
  positive := metered.positive
  capacity := metered.capacity
  interval := metered.interval
  tokens := metered.tokens
  refilled := Nat.le_trans metered.refilled after
  latest := metered.latest
  apart := metered.apart
  past time member := Nat.le_trans (metered.past time member) after
  budget start stop := by
    refine Nat.le_trans (Nat.add_le_add_left ?_ _) (metered.budget start stop)
    dsimp only
    split <;> split <;> omega

/-- Who asks does not matter. -/
theorem Metered.ask (metered : crowd.Metered size length) (asking : List Nat) :
    ({ crowd with asking } : Crowd).Metered size length :=
  ⟨metered.positive, metered.capacity, metered.interval, metered.tokens, metered.refilled,
    metered.latest, metered.apart, metered.past, metered.budget⟩

/-- A token is taken from those that are left. -/
theorem Metered.take (metered : crowd.Metered size length)
    (left : 0 < crowd.bucket.tokens) (asking : List Nat) :
    ({ crowd with
      bucket := { crowd.bucket with tokens := crowd.bucket.tokens - 1 }
      asking
      returned := crowd.now :: crowd.returned } : Crowd).Metered size length where
  positive := metered.positive
  capacity := metered.capacity
  interval := metered.interval
  tokens := Nat.le_trans (Nat.sub_le _ _) metered.tokens
  refilled := metered.refilled
  latest := metered.latest
  apart := metered.apart
  past := List.forall_mem_cons.2 ⟨Nat.le_refl _, metered.past⟩
  budget start stop := by
    have budget := metered.budget start stop
    dsimp only
    by_cases within : start ≤ crowd.now ∧ crowd.now < stop
    · rw [countWithin_cons_of_within within, if_pos within.2]
      rw [if_pos within.2] at budget
      omega
    · rw [countWithin_cons_of_outside within]
      refine Nat.le_trans (Nat.add_le_add_left ?_ _) budget
      split <;> omega

/-- A bucket that is due is filled up. -/
theorem Metered.refill (metered : crowd.Metered size length)
    (due : length ≤ crowd.now - crowd.bucket.lastRefill) :
    ({ crowd with
      bucket := { crowd.bucket with tokens := crowd.bucket.capacity, lastRefill := crowd.now }
      filled := crowd.now :: crowd.filled } : Crowd).Metered size length where
  positive := metered.positive
  capacity := metered.capacity
  interval := metered.interval
  tokens := Nat.le_of_eq metered.capacity
  refilled := Nat.le_refl _
  latest := rfl
  apart := by
    refine List.pairwise_cons.2 ⟨fun time member => ?_, metered.apart⟩
    have := metered.le_lastRefill time member
    have := metered.refilled
    omega
  past := metered.past
  budget start stop := by
    have budget := metered.budget start stop
    dsimp only
    rw [metered.capacity]
    by_cases within : start ≤ crowd.now ∧ crowd.now < stop
    · rw [countWithin_cons_of_within within, if_pos within.2, ← Nat.add_assoc, Nat.mul_succ]
      exact Nat.add_le_add_right (Nat.le_trans (Nat.le_add_right _ _) budget) size
    · rw [countWithin_cons_of_outside within]
      rcases Nat.lt_or_ge crowd.now stop with early | late
      · -- Nothing was granted in a window that has not begun.
        have nothing : countWithin start stop crowd.returned = 0 :=
          countWithin_before fun time member =>
            Nat.lt_of_le_of_lt (metered.past time member) (by omega)
        rw [nothing, if_pos early, Nat.zero_add]
        exact Nat.le_mul_of_pos_right _ (Nat.add_pos_left Nat.one_pos _)
      · rw [if_neg (Nat.not_lt.2 late)]
        exact Nat.le_trans (Nat.le_add_right _ _) budget

/-- What a call is granted is one of the tokens, after the bucket was filled up if it was due. -/
theorem Metered.grant (metered : crowd.Metered size length) {left : TokenBucket}
    (granted : crowd.bucket.take crowd.now = .ok left) (asking : List Nat) :
    ({ crowd with
      bucket := left
      asking
      returned := crowd.now :: crowd.returned
      filled :=
        if crowd.bucket.interval ≤ crowd.now - crowd.bucket.lastRefill then
          crowd.now :: crowd.filled
        else crowd.filled } : Crowd).Metered size length := by
  obtain ⟨available, rfl⟩ := take_ok granted
  by_cases due : crowd.bucket.interval ≤ crowd.now - crowd.bucket.lastRefill
  · rw [refill_of_due due] at available ⊢
    rw [if_pos due]
    rw [metered.interval] at due
    exact (metered.refill due).take available asking
  · rw [refill_of_early (Nat.lt_of_not_le due)] at available ⊢
    rw [if_neg due]
    exact metered.take available asking

theorem Metered.step (metered : before.Metered size length) (step : Step before after) :
    after.Metered size length := by
  cases step with
  | wait later => exact metered.wait later
  | call => exact metered.ask _
  | refuse => exact metered.ask _
  | grant _ _ granted => exact metered.grant granted _

theorem Reached.metered {capacity interval created : Nat}
    (reached : Reached capacity interval created crowd) :
    crowd.Metered (max 1 capacity) interval := by
  induction reached with
  | start => exact metered_start capacity interval created
  | step _ step ih => exact ih.step step

/-! ## The bounds -/

/-- A bucket of some size keeps to it in all that its callers have seen. -/
structure Bounded (size length : Nat) (crowd : Crowd) : Prop where
  tokens : crowd.bucket.tokens ≤ size
  /-- A token that is granted was there. -/
  counted : ∀ left, crowd.bucket.take crowd.now = .ok left →
    left.tokens + 1 = (crowd.bucket.refill crowd.now).tokens ∧ left.tokens + 1 ≤ size
  latest : crowd.filled.head? = some crowd.bucket.lastRefill
  apart : crowd.filled.Pairwise fun later earlier => earlier + length ≤ later
  window : ∀ start spans,
    countWithin start (start + spans * length) crowd.returned ≤ (spans + 1) * size

theorem Metered.counted (metered : crowd.Metered size length) {left : TokenBucket}
    (granted : crowd.bucket.take crowd.now = .ok left) :
    left.tokens + 1 = (crowd.bucket.refill crowd.now).tokens ∧ left.tokens + 1 ≤ size := by
  obtain ⟨available, rfl⟩ := take_ok granted
  have most : (crowd.bucket.refill crowd.now).tokens ≤ size := by
    rw [TokenBucket.refill]
    split
    · exact Nat.le_of_eq metered.capacity
    · exact metered.tokens
  dsimp only
  omega

theorem Metered.window (metered : crowd.Metered size length) (start spans : Nat) :
    countWithin start (start + spans * length) crowd.returned ≤ (spans + 1) * size := by
  have fillings : countWithin start (start + spans * length) crowd.filled ≤ spans :=
    countWithin_le_of_apart metered.apart spans
  calc countWithin start (start + spans * length) crowd.returned
      ≤ size * (1 + countWithin start (start + spans * length) crowd.filled) :=
        Nat.le_trans (Nat.le_add_right _ _) (metered.budget start _)
    _ ≤ size * (1 + spans) := Nat.mul_le_mul_left _ (Nat.add_le_add_left fillings 1)
    _ = (spans + 1) * size := by rw [Nat.mul_comm, Nat.add_comm]

end Crowd

/-- No matter when calls are made and which of those that wait asks first, the tokens of a bucket
are never more than its size, it is filled up again only after a whole interval, and a window of
some intervals sees no more calls return than fit one filling more than it has intervals. -/
theorem grants_are_bounded {capacity interval created : Nat} {crowd : Crowd}
    (reached : Crowd.Reached capacity interval created crowd) :
    crowd.Bounded (max 1 capacity) interval where
  tokens := reached.metered.tokens
  counted _ := reached.metered.counted
  latest := reached.metered.latest
  apart := reached.metered.apart
  window := reached.metered.window

/-- Two calls for one token, made just before the bucket is due. -/
def Sample.atTheTurn : Crowd :=
  { now := 10, bucket := { capacity := 1, interval := 10, tokens := 0, lastRefill := 10 }
    asking := [], returned := [10, 9], filled := [10, 0] }

theorem reached_atTheTurn : Crowd.Reached 1 10 0 Sample.atTheTurn := by
  have asked : Crowd.Reached 1 10 0 { Crowd.start 1 10 0 with now := 9, asking := [9, 9] } :=
    .step (.step (.step .start (.wait (Nat.zero_le 9))) .call) .call
  have granted : Crowd.Reached 1 10 0
      { now := 9, bucket := { capacity := 1, interval := 10, tokens := 0, lastRefill := 0 }
        asking := [9], returned := [9], filled := [0] } :=
    .step asked (@Crowd.Step.grant _ 9 _ (by decide) (by decide) rfl)
  have slept : Crowd.Reached 1 10 0
      { now := 10, bucket := { capacity := 1, interval := 10, tokens := 0, lastRefill := 0 }
        asking := [10], returned := [9], filled := [0] } :=
    .step (.step granted (@Crowd.Step.refuse _ 9 _ (by decide) (by decide) rfl))
      (.wait (by decide))
  exact .step slept (@Crowd.Step.grant _ 10 _ (by decide) (by decide) rfl)

/-- The bound on a window is reached. -/
theorem grants_are_bounded_at_the_turn :
    Crowd.Reached 1 10 0 Sample.atTheTurn ∧
      countWithin 9 (9 + 1 * 10) Sample.atTheTurn.returned = 2 ∧
      Sample.atTheTurn.Bounded (max 1 1) 10 :=
  ⟨reached_atTheTurn, by decide, grants_are_bounded reached_atTheTurn⟩

end TokenBucket

end Relay
