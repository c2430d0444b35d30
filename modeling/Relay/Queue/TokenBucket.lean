/-!
# Token bucket

A queue starts a job only against a token.  A bucket holds as many tokens as its
capacity, at least one, and is filled up again when a token is asked for at
least one interval after it was last filled.  Times are milliseconds.
-/

namespace Relay

/-- The tokens of a queue. -/
structure TokenBucket where
  capacity : Nat
  interval : Nat
  tokens : Nat
  lastRefill : Nat
  deriving DecidableEq, Repr

namespace TokenBucket

/-- A full bucket. -/
def full (capacity interval now : Nat) : TokenBucket :=
  { capacity := max capacity 1, interval, tokens := max capacity 1, lastRefill := now }

/-- Fill the bucket up if an interval has passed since it was last filled. -/
def refill (bucket : TokenBucket) (now : Nat) : TokenBucket :=
  if now - bucket.lastRefill ≥ bucket.interval then
    { bucket with tokens := bucket.capacity, lastRefill := now }
  else bucket

/-- Ask for a token: the bucket without it, or the time at which to ask again. -/
def take (bucket : TokenBucket) (now : Nat) : Except Nat TokenBucket :=
  let bucket := bucket.refill now
  if 0 < bucket.tokens then .ok { bucket with tokens := bucket.tokens - 1 }
  else .error (bucket.lastRefill + bucket.interval)

/-- Wait for a token alone: the time at which it is there, and the bucket without it. -/
def await (bucket : TokenBucket) (now : Nat) : Nat × TokenBucket :=
  match bucket.take now with
  | .ok bucket => (now, bucket)
  | .error later =>
      match bucket.take later with
      | .ok bucket => (later, bucket)
      | .error _ => (later, bucket)

/-- Wait for several tokens, one after another. -/
def awaitAll (bucket : TokenBucket) (now : Nat) : Nat → Nat × TokenBucket
  | 0 => (now, bucket)
  | times + 1 =>
      let (later, bucket) := bucket.await now
      awaitAll bucket later times

end TokenBucket

end Relay
