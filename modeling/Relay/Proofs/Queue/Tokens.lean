import Mathlib.Data.Nat.Basic
import Relay.Queue.TokenBucket

/-!
# Asking for tokens

A call for a token asks until it is granted one and sleeps in between.  It never asks more than
twice: it sleeps until the bucket is due to be filled up, and then there is a token.  So the
times at which a single caller gets its tokens, one call after the other, have a closed form.
-/

namespace Relay

namespace TokenBucket

variable {bucket left : TokenBucket} {now later : Nat}

/-! ## One question -/

theorem refill_of_due (due : bucket.interval ≤ now - bucket.lastRefill) :
    bucket.refill now = { bucket with tokens := bucket.capacity, lastRefill := now } :=
  if_pos due

theorem refill_of_early (early : now - bucket.lastRefill < bucket.interval) :
    bucket.refill now = bucket :=
  if_neg (Nat.not_le.2 early)

theorem lastRefill_refill (past : bucket.lastRefill ≤ now) :
    (bucket.refill now).lastRefill ≤ now := by
  rw [refill]
  split
  · exact Nat.le_refl now
  · exact past

theorem capacity_refill : (bucket.refill now).capacity = bucket.capacity := by
  rw [refill]
  split <;> rfl

theorem interval_refill : (bucket.refill now).interval = bucket.interval := by
  rw [refill]
  split <;> rfl

theorem take_ok (granted : bucket.take now = .ok left) :
    0 < (bucket.refill now).tokens ∧
      left = { bucket.refill now with tokens := (bucket.refill now).tokens - 1 } := by
  dsimp only [take] at granted
  split at granted
  · next available =>
      cases granted
      exact ⟨available, rfl⟩
  · cases granted

theorem take_of_available (available : 0 < (bucket.refill now).tokens) :
    bucket.take now =
      .ok { bucket.refill now with tokens := (bucket.refill now).tokens - 1 } :=
  if_pos available

/-- A bucket that is due to be filled up grants a token. -/
theorem take_of_due (positive : 0 < bucket.capacity)
    (due : bucket.interval ≤ now - bucket.lastRefill) :
    bucket.take now =
      .ok { bucket with tokens := bucket.capacity - 1, lastRefill := now } := by
  rw [take_of_available] <;> rw [refill_of_due due]
  exact positive

theorem take_of_left (early : now - bucket.lastRefill < bucket.interval)
    (left : 0 < bucket.tokens) :
    bucket.take now = .ok { bucket with tokens := bucket.tokens - 1 } := by
  rw [take_of_available] <;> rw [refill_of_early early]
  exact left

theorem take_of_empty (early : now - bucket.lastRefill < bucket.interval)
    (empty : bucket.tokens = 0) :
    bucket.take now = .error (bucket.lastRefill + bucket.interval) := by
  have nothing : ¬ 0 < (bucket.refill now).tokens := by
    rw [refill_of_early early, empty]
    exact Nat.lt_irrefl 0
  rw [take, if_neg nothing, refill_of_early early]

/-- A bucket is filled up, has a token left or refuses one. -/
theorem due_or_early (bucket : TokenBucket) (now : Nat) :
    bucket.interval ≤ now - bucket.lastRefill ∨
      now - bucket.lastRefill < bucket.interval ∧ (0 < bucket.tokens ∨ bucket.tokens = 0) := by
  omega

/-- A bucket that refuses a token tells when it is due to be filled up. -/
theorem take_error (positive : 0 < bucket.capacity) (refused : bucket.take now = .error later) :
    bucket.lastRefill + bucket.interval = later := by
  rcases bucket.due_or_early now with due | ⟨early, left | empty⟩
  · cases (take_of_due positive due).symm.trans refused
  · cases (take_of_left early left).symm.trans refused
  · exact Except.error.inj ((take_of_empty early empty).symm.trans refused)

/-! ## One call -/

/-- A call for a token at a time: after some questions it gets one, at the same time or later. -/
inductive Obtains : TokenBucket → Nat → Nat → Nat → TokenBucket → Prop where
  | granted {bucket left : TokenBucket} {now : Nat} (token : bucket.take now = .ok left) :
      Obtains bucket now 1 now left
  /-- The call sleeps until the time that it is told and asks again. -/
  | sleeps {bucket left : TokenBucket} {now later questions time : Nat}
      (refused : bucket.take now = .error later)
      (again : Obtains bucket later questions time left) :
      Obtains bucket now (questions + 1) time left

/-- How a call comes to its token is settled when it is made. -/
theorem Obtains.unique {questions others time last : Nat} {end_ : TokenBucket}
    (one : Obtains bucket now questions time left) (other : Obtains bucket now others last end_) :
    questions = others ∧ time = last ∧ left = end_ := by
  induction one generalizing others with
  | granted token =>
      cases other with
      | granted same => exact ⟨rfl, rfl, Except.ok.inj (token.symm.trans same)⟩
      | sleeps refused => cases token.symm.trans refused
  | sleeps refused again ih =>
      cases other with
      | granted token => cases refused.symm.trans token
      | sleeps same other =>
          cases Except.error.inj (refused.symm.trans same)
          obtain ⟨questions, time, left⟩ := ih other
          exact ⟨congrArg (· + 1) questions, time, left⟩

/-- When a bucket that has no token left is due to be filled up, there are tokens. -/
theorem take_again (positive : 0 < bucket.capacity) :
    bucket.take (bucket.lastRefill + bucket.interval) =
      .ok { bucket with
        tokens := bucket.capacity - 1, lastRefill := bucket.lastRefill + bucket.interval } :=
  take_of_due positive (by omega)

theorem await_of_take (token : bucket.take now = .ok left) : bucket.await now = (now, left) := by
  rw [await, token]

theorem await_of_empty (positive : 0 < bucket.capacity)
    (early : now - bucket.lastRefill < bucket.interval) (empty : bucket.tokens = 0) :
    bucket.await now = (bucket.lastRefill + bucket.interval, { bucket with
      tokens := bucket.capacity - 1, lastRefill := bucket.lastRefill + bucket.interval }) := by
  rw [await, take_of_empty early empty]
  simp only [take_again positive]

/-- Waiting for a token comes to an end with the second question at the latest. -/
theorem obtains_await (positive : 0 < bucket.capacity) (now : Nat) :
    ∃ questions, questions ≤ 2 ∧
      bucket.Obtains now questions (bucket.await now).1 (bucket.await now).2 := by
  have at_once : ∀ {left}, bucket.take now = .ok left → ∃ questions, questions ≤ 2 ∧
      bucket.Obtains now questions (bucket.await now).1 (bucket.await now).2 := by
    intro left token
    rw [await_of_take token]
    exact ⟨1, by decide, .granted token⟩
  rcases bucket.due_or_early now with due | ⟨early, left | empty⟩
  · exact at_once (take_of_due positive due)
  · exact at_once (take_of_left early left)
  · rw [await_of_empty positive early empty]
    exact ⟨2, by decide, .sleeps (take_of_empty early empty) (.granted (take_again positive))⟩

/-! ## Calls one after another -/

theorem awaitAll_succ (bucket : TokenBucket) (now times : Nat) :
    bucket.awaitAll now (times + 1) =
      (bucket.awaitAll now times).2.await (bucket.awaitAll now times).1 := by
  induction times generalizing bucket now with
  | zero => rfl
  | succ times ih => exact ih (bucket.await now).2 (bucket.await now).1

/-- A bucket of some size after a number of calls by one caller, the last of which has just
returned. -/
structure Served (size length count now : Nat) (bucket : TokenBucket) : Prop where
  positive : 0 < size
  capacity : bucket.capacity = size
  interval : bucket.interval = length
  refilled : bucket.lastRefill = now
  time : now = (count - 1) / size * length
  /-- What is left is what was not taken since the bucket was filled up.  Without an interval
  every question fills it up. -/
  tokens : 0 < length → bucket.tokens = size - (count - (count - 1) / size * size)

theorem served_full (capacity interval : Nat) :
    Served (max 1 capacity) interval 0 0 (full capacity interval 0) where
  positive := Nat.lt_of_lt_of_le Nat.zero_lt_one (Nat.le_max_left 1 capacity)
  capacity := Nat.max_comm _ _
  interval := rfl
  refilled := rfl
  time := by simp
  tokens _ := by simp [full, Nat.max_comm]

/-- Since the bucket was filled up there were fewer calls than tokens, or as many, and then the
next interval begins with the next call. -/
theorem div_of_calls {size count : Nat} (positive : 0 < size) :
    (count - (count - 1) / size * size < size ∧ count / size = (count - 1) / size) ∨
      (count - (count - 1) / size * size = size ∧ count / size = (count - 1) / size + 1) := by
  have lower : (count - 1) / size * size ≤ count - 1 := Nat.div_mul_le_self _ _
  have upper : count - 1 < ((count - 1) / size + 1) * size :=
    (Nat.div_lt_iff_lt_mul positive).1 (Nat.lt_succ_self _)
  generalize (count - 1) / size = intervals at lower upper
  rw [Nat.succ_mul] at upper
  rcases Nat.lt_or_ge (count - intervals * size) size with fewer | all
  · refine .inl ⟨fewer, Nat.div_eq_of_lt_le (by omega) ?_⟩
    rw [Nat.succ_mul]
    omega
  · refine .inr ⟨by omega, Nat.div_eq_of_lt_le ?_ ?_⟩ <;> rw [Nat.succ_mul]
    · omega
    · rw [Nat.succ_mul]
      omega

/-- The next call of the caller returns at a time that the number of calls before it tells. -/
theorem Served.await {size length count : Nat} (served : Served size length count now bucket) :
    (bucket.await now).1 = count / size * length ∧
      Served size length (count + 1) (bucket.await now).1 (bucket.await now).2 := by
  obtain ⟨positive, rfl, rfl, rfl, time, tokens⟩ := served
  rcases bucket.due_or_early bucket.lastRefill with due | ⟨early, left⟩
  · -- Without an interval every question fills the bucket up, and all times are zero.
    have none : bucket.interval = 0 := by omega
    have start : bucket.lastRefill = 0 := by rw [time, none, Nat.mul_zero]
    rw [await_of_take (take_of_due positive due)]
    refine ⟨by rw [start, none, Nat.mul_zero], positive, rfl, rfl, rfl, ?_, ?_⟩
    · rw [start, none, Nat.mul_zero]
    · exact fun some => absurd none (Nat.ne_of_gt some)
  · have some : 0 < bucket.interval := by omega
    have tokens := tokens some
    rcases @div_of_calls bucket.capacity count positive with ⟨fewer, same⟩ | ⟨all, next⟩
    · have before := Nat.div_mul_le_self (count - 1) bucket.capacity
      rw [await_of_take (take_of_left early (by omega))]
      refine ⟨by rw [same]; exact time, positive, rfl, rfl, rfl, ?_, fun _ => ?_⟩
      · rw [Nat.add_sub_cancel, same]
        exact time
      · rw [Nat.add_sub_cancel, same]
        dsimp only
        omega
    · have empty : bucket.tokens = 0 := by omega
      have whole : bucket.lastRefill + bucket.interval =
          count / bucket.capacity * bucket.interval := by
        rw [next, Nat.succ_mul, ← time]
      rw [await_of_empty positive early empty]
      refine ⟨whole, positive, rfl, rfl, rfl, ?_, fun _ => ?_⟩
      · rw [Nat.add_sub_cancel]
        exact whole
      · rw [Nat.add_sub_cancel, next, Nat.succ_mul]
        dsimp only
        omega

theorem served_awaitAll (capacity interval count : Nat) :
    Served (max 1 capacity) interval count ((full capacity interval 0).awaitAll 0 count).1
      ((full capacity interval 0).awaitAll 0 count).2 := by
  induction count with
  | zero => exact served_full capacity interval
  | succ count ih =>
      rw [awaitAll_succ]
      exact ih.await.2

/-- The calls of a single caller that begins when the bucket is made: after `count` calls the next
one comes to a token whatever happens, in one way only, with the second question at the latest,
and at the time that is a whole number of intervals after the first call. -/
theorem calls_return_on_schedule (capacity interval count : Nat) :
    let made := (full capacity interval 0).awaitAll 0 count
    let next := (full capacity interval 0).awaitAll 0 (count + 1)
    next.1 = count / max 1 capacity * interval ∧
      (∃ questions, questions ≤ 2 ∧ made.2.Obtains made.1 questions next.1 next.2) ∧
      ∀ questions time left, made.2.Obtains made.1 questions time left →
        questions ≤ 2 ∧ time = next.1 ∧ left = next.2 := by
  intro made next
  have served : Served (max 1 capacity) interval count made.1 made.2 :=
    served_awaitAll capacity interval count
  have same : next = made.2.await made.1 := awaitAll_succ _ _ _
  have positive : 0 < made.2.capacity := served.capacity ▸ served.positive
  obtain ⟨questions, atMost, obtains⟩ := obtains_await positive made.1
  rw [same]
  refine ⟨served.await.1, ⟨questions, atMost, obtains⟩, fun others time left other => ?_⟩
  obtain ⟨rfl, rfl, rfl⟩ := other.unique obtains
  exact ⟨atMost, rfl, rfl⟩

end TokenBucket

end Relay
