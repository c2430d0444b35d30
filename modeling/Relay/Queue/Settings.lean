import Relay.Decode.Basic
import Relay.Duration

/-!
# Limits of a queue

How many jobs of a queue run at once, how many start in an interval, how many
may be unfinished, and how often and with what delays a job is tried.
-/

namespace Relay

/-- The limits of one queue. -/
structure QueueSettings where
  /-- Jobs that may run at the same time; at least one may. -/
  concurrencyLimit : Nat
  /-- Jobs that may start in one interval; at least one may. -/
  maxRequestToken : Nat
  /-- Length of the interval in milliseconds. -/
  regenerationInterval : Nat
  /-- Jobs that may be unfinished. -/
  maxQueueLength : Nat
  /-- Attempts after which a job that could be tried again fails. -/
  maxAttempts : Nat
  /-- Delay after the first attempt in milliseconds. -/
  backoffBase : Nat
  deriving DecidableEq, Repr

namespace QueueSettings

/-- The limits of a queue for which none are given. -/
def standard : QueueSettings :=
  { concurrencyLimit := 2, maxRequestToken := 20, regenerationInterval := 1000
    maxQueueLength := 1000, maxAttempts := 3, backoffBase := 100 }

/-- The limits of the queues of an unconfigured system. -/
def defaults : Dict QueueSettings :=
  .ofList [("queue-save", standard),
    ("queue-ai", { standard with
      concurrencyLimit := 10, maxRequestToken := 50, maxQueueLength := 2000 }),
    ("queue-update", standard), ("default", standard)]

/-- The longest delay between two attempts: an hour. -/
def maxBackoff : Duration := .ofSeconds 3600

/-- The largest factor by which the delay after the first attempt grows. -/
def maxFactor : Nat := Nat.pow 2 32 - 1

/-- How much longer than the first delay the one after a given attempt is. -/
def backoffFactor (attempts : Nat) : Nat :=
  if attempts - 1 < 32 then Nat.pow 2 (attempts - 1) else maxFactor

/-- The delay between the end of an attempt and the next one.  It doubles with
every attempt until it reaches an hour. -/
def backoffDelay (settings : QueueSettings) (attempts : Nat) : Duration :=
  ((Duration.ofMilliseconds settings.backoffBase).saturatingMul (backoffFactor attempts)).shorter
    maxBackoff

/-- The milliseconds of the delay. -/
def backoff (settings : QueueSettings) (attempts : Nat) : Nat :=
  (settings.backoffDelay attempts).inMilliseconds

/-- The value that stands for the limits. -/
def toJson (settings : QueueSettings) : Json :=
  .object [("backoff_base_ms", .ofNat settings.backoffBase),
    ("concurrency_limit", .ofNat settings.concurrencyLimit),
    ("max_attempts", .ofNat settings.maxAttempts),
    ("max_queue_length", .ofNat settings.maxQueueLength),
    ("max_request_token", .ofNat settings.maxRequestToken),
    ("regeneration_interval_ms", .ofNat settings.regenerationInterval)]

/-- Read limits; a missing one is the standard one. -/
def decoder : Decoder QueueSettings :=
  .record "struct QueueSettings"
    [.of "concurrency_limit" .defaulted .size64 fun settings concurrencyLimit =>
        { settings with concurrencyLimit },
      .of "max_request_token" .defaulted .nat32 fun settings maxRequestToken =>
        { settings with maxRequestToken },
      .of "regeneration_interval_ms" .defaulted .nat64 fun settings regenerationInterval =>
        { settings with regenerationInterval },
      .of "max_queue_length" .defaulted .size64 fun settings maxQueueLength =>
        { settings with maxQueueLength },
      .of "max_attempts" .defaulted .nat32 fun settings maxAttempts =>
        { settings with maxAttempts },
      .of "backoff_base_ms" .defaulted .nat64 fun settings backoffBase =>
        { settings with backoffBase }]
    standard

/-- Read the limits of several queues. -/
def dictDecoder : Decoder (Dict QueueSettings) := .dict decoder

/-- The value that stands for the limits of several queues. -/
def dictToJson (settings : Dict QueueSettings) : Json := .ofDict (settings.map toJson)

end QueueSettings

end Relay
