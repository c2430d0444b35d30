import Relay.Flow.Event

/-!
# Following the events of a queue

A subscriber receives the events that are published after its subscription, one
by one and in order.  A queue holds the last 1024 events for its subscribers; a
subscriber that is further behind is told once how many it has missed.
-/

namespace Relay

/-- How far a subscriber has read. -/
structure Subscription where
  /-- Number of events of the queue that are behind the subscriber. -/
  position : Nat
  deriving DecidableEq, Repr

/-- What a subscriber receives. -/
inductive Delivery where
  | event (event : QueueEvent)
  /-- So many events are no longer held. -/
  | lagged (missed : Nat)
  deriving DecidableEq, Repr

namespace Subscription

/-- Number of events that a queue holds for its subscribers. -/
def capacity : Nat := 1024

/-- A subscription that begins after the events published so far. -/
def after (events : List QueueEvent) : Subscription := ⟨events.length⟩

/-- Receive what comes next, if there is anything. -/
def receive? (subscription : Subscription) (events : List QueueEvent) :
    Option (Delivery × Subscription) :=
  let oldest := events.length - capacity
  if subscription.position < oldest then
    some (.lagged (oldest - subscription.position), ⟨oldest⟩)
  else
    events[subscription.position]?.map fun event =>
      (.event event, ⟨subscription.position + 1⟩)

end Subscription

end Relay
