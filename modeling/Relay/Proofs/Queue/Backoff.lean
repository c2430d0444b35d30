import Relay.Queue.Settings

/-!
# Delays between attempts

The delay is computed with a factor of at most thirty-two bits and with durations that cannot
be longer than the longest one.  Both are cut off far above an hour, which no delay exceeds, so
that neither is ever noticed: what comes out is what unbounded numbers give.
-/

namespace Relay

namespace QueueSettings

/-- A delay in exact arithmetic, in milliseconds: the first one, doubled after every attempt but
the first, and at most an hour. -/
def exactBackoff (base attempts : Nat) : Nat := min (base * Nat.pow 2 (attempts - 1)) 3600000

/-- No matter where the factor is cut off, the delay has reached an hour before, or is none. -/
theorem min_mul_backoffFactor (base attempts : Nat) :
    min (base * backoffFactor attempts) 3600000 = exactBackoff base attempts := by
  unfold backoffFactor exactBackoff
  split
  · rfl
  · next late =>
      rcases Nat.eq_zero_or_pos base with rfl | some
      · rw [Nat.zero_mul, Nat.zero_mul]
      · have factor : 3600000 ≤ maxFactor := by decide
        have power : 3600000 ≤ Nat.pow 2 (attempts - 1) :=
          calc 3600000 ≤ Nat.pow 2 32 := by decide
            _ ≤ Nat.pow 2 (attempts - 1) := Nat.pow_le_pow_right (by decide) (Nat.le_of_not_lt late)
        rw [Nat.min_eq_right (Nat.le_trans factor (Nat.le_mul_of_pos_left _ some)),
          Nat.min_eq_right (Nat.le_trans power (Nat.le_mul_of_pos_left _ some))]

/-- No matter where durations end, a product has exceeded an hour before. -/
theorem shorter_saturatingMul (base factor : Nat) :
    ((Duration.ofMilliseconds base).saturatingMul factor).shorter maxBackoff =
      .ofMilliseconds (min (base * factor) 3600000) := by
  apply Duration.inNanoseconds_injective
  have hour : maxBackoff.inNanoseconds = 3600000 * 1000000 := rfl
  have longer : 3600000 * 1000000 ≤ Duration.longest.inNanoseconds := by decide
  rw [Duration.inNanoseconds_shorter, Duration.inNanoseconds_saturatingMul,
    Duration.inNanoseconds_ofMilliseconds, Duration.inNanoseconds_ofMilliseconds, hour,
    Nat.mul_right_comm]
  omega

theorem backoffFactor_le (attempts : Nat) : backoffFactor attempts ≤ maxFactor := by
  unfold backoffFactor
  split
  · next early =>
      calc Nat.pow 2 (attempts - 1) ≤ Nat.pow 2 31 := Nat.pow_le_pow_right (by decide) (by omega)
        _ ≤ maxFactor := by decide
  · exact Nat.le_refl _

theorem exactBackoff_le_of_le (base : Nat) {fewer attempts : Nat} (le : fewer ≤ attempts) :
    exactBackoff base fewer ≤ exactBackoff base attempts := by
  have power : Nat.pow 2 (fewer - 1) ≤ Nat.pow 2 (attempts - 1) :=
    Nat.pow_le_pow_right (by decide) (Nat.sub_le_sub_right le 1)
  have product := Nat.mul_le_mul_left base power
  unfold exactBackoff
  omega

/-- What is promised of the delay after an attempt. -/
structure DelaysExactly (settings : QueueSettings) (attempts : Nat) : Prop where
  /-- The delay is a whole number of milliseconds, the one that exact arithmetic gives. -/
  delay : settings.backoffDelay attempts =
    .ofMilliseconds (exactBackoff settings.backoffBase attempts)
  milliseconds : settings.backoff attempts = exactBackoff settings.backoffBase attempts
  /-- The true power of two instead of the one that is cut off makes no difference. -/
  power : settings.backoffDelay attempts =
    ((Duration.ofMilliseconds settings.backoffBase).saturatingMul (Nat.pow 2 (attempts - 1))).shorter
      maxBackoff
  /-- Nor does the true product, which may be longer than any duration. -/
  product : (settings.backoffDelay attempts).inNanoseconds =
    min ((Duration.ofMilliseconds settings.backoffBase).inNanoseconds * backoffFactor attempts)
      maxBackoff.inNanoseconds
  /-- The only product that is not checked fits into sixty-four bits. -/
  fits : (Duration.ofMilliseconds settings.backoffBase).nanoseconds * backoffFactor attempts <
    Nat.pow 2 64
  /-- After a later attempt the delay is not shorter. -/
  grows : ∀ fewer ≤ attempts, settings.backoff fewer ≤ settings.backoff attempts

/-- The delays between attempts are exact, whatever the first one is and however many attempts
were made. -/
theorem backoff_exact (settings : QueueSettings) (attempts : Nat) :
    settings.DelaysExactly attempts := by
  have delay : ∀ attempts, settings.backoffDelay attempts =
      .ofMilliseconds (exactBackoff settings.backoffBase attempts) := fun attempts => by
    rw [backoffDelay, shorter_saturatingMul, min_mul_backoffFactor]
  have milliseconds : ∀ attempts, settings.backoff attempts =
      exactBackoff settings.backoffBase attempts := fun attempts => by
    rw [backoff, delay, Duration.inMilliseconds_ofMilliseconds]
  constructor
  case delay => exact delay attempts
  case milliseconds => exact milliseconds attempts
  case power => rw [delay, shorter_saturatingMul, exactBackoff]
  case product =>
    have longer : maxBackoff.inNanoseconds ≤ Duration.longest.inNanoseconds := by decide
    rw [backoffDelay, Duration.inNanoseconds_shorter, Duration.inNanoseconds_saturatingMul]
    omega
  case fits =>
    calc (Duration.ofMilliseconds settings.backoffBase).nanoseconds * backoffFactor attempts
        ≤ nanosecondsPerSecond * maxFactor :=
          Nat.mul_le_mul (Nat.le_of_lt (Duration.lessThanSecond _)) (backoffFactor_le attempts)
      _ < Nat.pow 2 64 := by decide
  case grows =>
    intro fewer le
    rw [milliseconds, milliseconds]
    exact exactBackoff_le_of_le settings.backoffBase le

end QueueSettings

end Relay
