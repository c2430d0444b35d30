/-!
# Problems of the queues
-/

namespace Relay

/-- Why the queues refuse. -/
inductive QueueError where
  | queueFull (queue : String) (limit : Nat)
  | workerAlreadyRunning (queue : String)
  /-- The queues cannot be reached. -/
  | unavailable (reason : String)
  deriving DecidableEq, Repr

/-- The wording of a queue error. -/
def QueueError.message : QueueError → String
  | .queueFull queue limit =>
      "queue '" ++ queue ++ "' is full (" ++ toString limit ++ " waiting jobs)"
  | .workerAlreadyRunning queue => "a worker is already running for queue '" ++ queue ++ "'"
  | .unavailable reason => "queue backend unavailable: " ++ reason

end Relay
