/-!
# Durations

A duration is counted in whole seconds, of which there are at most as many as sixty-four bits can
tell, and in nanoseconds below a second.  Multiplied beyond that it is cut off at the longest
duration there is.
-/

namespace Relay

/-- The number of nanoseconds in a second. -/
def nanosecondsPerSecond : Nat := 1000000000

/-- A length of time. -/
structure Duration where
  seconds : Nat
  nanoseconds : Nat
  lessThanSecond : nanoseconds < nanosecondsPerSecond
  deriving DecidableEq, Repr

namespace Duration

/-- The largest number of seconds. -/
def maxSeconds : Nat := Nat.pow 2 64 - 1

/-- The longest duration. -/
def longest : Duration := ⟨maxSeconds, nanosecondsPerSecond - 1, by decide⟩

/-- A number of seconds. -/
def ofSeconds (seconds : Nat) : Duration := ⟨seconds, 0, by decide⟩

/-- A number of milliseconds. -/
def ofMilliseconds (milliseconds : Nat) : Duration :=
  ⟨milliseconds / 1000, milliseconds % 1000 * 1000000, by unfold nanosecondsPerSecond; omega⟩

/-- The whole milliseconds of a duration. -/
def inMilliseconds (duration : Duration) : Nat :=
  duration.seconds * 1000 + duration.nanoseconds / 1000000

/-- A duration so many times, if there is one of that length. -/
def checkedMul (duration : Duration) (times : Nat) : Option Duration :=
  let nanoseconds := duration.nanoseconds * times
  let seconds := duration.seconds * times
  if seconds ≤ maxSeconds ∧ seconds + nanoseconds / nanosecondsPerSecond ≤ maxSeconds then
    some ⟨seconds + nanoseconds / nanosecondsPerSecond, nanoseconds % nanosecondsPerSecond,
      Nat.mod_lt _ (by decide)⟩
  else none

/-- A duration so many times, or the longest one. -/
def saturatingMul (duration : Duration) (times : Nat) : Duration :=
  (duration.checkedMul times).getD longest

/-- Whether a duration is no longer than another. -/
def atMost (left right : Duration) : Bool :=
  left.seconds < right.seconds ||
    left.seconds == right.seconds && left.nanoseconds ≤ right.nanoseconds

/-- The shorter of two durations. -/
def shorter (left right : Duration) : Duration := if left.atMost right then left else right

/-! ## Durations as numbers -/

/-- All nanoseconds of a duration. -/
def inNanoseconds (duration : Duration) : Nat :=
  duration.seconds * nanosecondsPerSecond + duration.nanoseconds

theorem inNanoseconds_injective {left right : Duration}
    (same : left.inNanoseconds = right.inNanoseconds) : left = right := by
  obtain ⟨leftSeconds, leftRest, leftBelow⟩ := left
  obtain ⟨rightSeconds, rightRest, rightBelow⟩ := right
  unfold inNanoseconds nanosecondsPerSecond at same
  unfold nanosecondsPerSecond at leftBelow rightBelow
  dsimp only at same
  obtain rfl : leftSeconds = rightSeconds := by omega
  obtain rfl : leftRest = rightRest := by omega
  rfl

theorem inMilliseconds_eq (duration : Duration) :
    duration.inMilliseconds = duration.inNanoseconds / 1000000 := by
  unfold inMilliseconds inNanoseconds nanosecondsPerSecond
  omega

@[simp] theorem inNanoseconds_ofMilliseconds (milliseconds : Nat) :
    (ofMilliseconds milliseconds).inNanoseconds = milliseconds * 1000000 := by
  unfold inNanoseconds ofMilliseconds nanosecondsPerSecond
  dsimp only
  omega

@[simp] theorem inMilliseconds_ofMilliseconds (milliseconds : Nat) :
    (ofMilliseconds milliseconds).inMilliseconds = milliseconds := by
  rw [inMilliseconds_eq, inNanoseconds_ofMilliseconds]
  omega

theorem inNanoseconds_longest :
    longest.inNanoseconds = maxSeconds * nanosecondsPerSecond + (nanosecondsPerSecond - 1) := rfl

/-- A product is exact unless it is longer than any duration. -/
theorem inNanoseconds_saturatingMul (duration : Duration) (times : Nat) :
    (duration.saturatingMul times).inNanoseconds =
      min (duration.inNanoseconds * times) longest.inNanoseconds := by
  have whole : duration.inNanoseconds * times =
      duration.seconds * times * nanosecondsPerSecond + duration.nanoseconds * times := by
    rw [inNanoseconds, Nat.add_mul, Nat.mul_right_comm]
  rw [saturatingMul, checkedMul, whole]
  split
  · next fits =>
      rw [Option.getD_some, inNanoseconds, inNanoseconds_longest]
      dsimp only
      generalize duration.seconds * times = seconds at fits ⊢
      generalize duration.nanoseconds * times = nanoseconds at fits ⊢
      unfold nanosecondsPerSecond at fits ⊢
      omega
  · next exceeds =>
      rw [Option.getD_none, inNanoseconds_longest]
      generalize duration.seconds * times = seconds at exceeds ⊢
      generalize duration.nanoseconds * times = nanoseconds at exceeds ⊢
      unfold nanosecondsPerSecond at exceeds ⊢
      omega

theorem atMost_iff {left right : Duration} :
    left.atMost right = true ↔ left.inNanoseconds ≤ right.inNanoseconds := by
  have leftBelow := left.lessThanSecond
  have rightBelow := right.lessThanSecond
  simp only [atMost, Bool.or_eq_true, decide_eq_true_eq, Bool.and_eq_true, beq_iff_eq]
  unfold inNanoseconds nanosecondsPerSecond at *
  omega

theorem inNanoseconds_shorter (left right : Duration) :
    (left.shorter right).inNanoseconds = min left.inNanoseconds right.inNanoseconds := by
  unfold shorter
  split
  · next within => exact (Nat.min_eq_left (atMost_iff.1 within)).symm
  · next longer =>
      rw [atMost_iff, Nat.not_le] at longer
      exact (Nat.min_eq_right (Nat.le_of_lt longer)).symm

end Duration

end Relay
