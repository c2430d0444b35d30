import Relay.Task

/-!
# Routing of tasks to queues

An explicit queue name comes first, then the queue of the task's type, then the
default queue.
-/

namespace Relay

/-- Decides on which queue a task runs. -/
structure Routing where
  /-- Queue names by task type. -/
  queues : Dict String
  /-- The queue of the types without an entry. -/
  defaultQueue : String
  deriving DecidableEq, Repr

namespace Routing

/-- The routing of a system that was not configured. -/
def standard : Routing :=
  { queues := .ofList [("save", "queue-save"), ("llm", "queue-ai"), ("update", "queue-update")]
    defaultQueue := "default" }

/-- The queue on which a task runs. -/
def queueFor (routing : Routing) (task : Task) : String :=
  task.queueName.getD ((routing.queues.get? task.type).getD routing.defaultQueue)

/-- Every queue that a task without a queue name can be sent to. -/
def queueNames (routing : Routing) : List String :=
  sortedSet (routing.queues.values ++ [routing.defaultQueue])

/-- The value that stands for a routing. -/
def toJson (routing : Routing) : Json :=
  .object [("default_queue", .string routing.defaultQueue),
    ("queues", .ofDict (routing.queues.map .string))]

/-- Read a routing; a missing part is that of the standard routing. -/
def decoder : Decoder Routing :=
  .record "struct QueueRouting"
    [.of "queues" .defaulted (.dict .string) fun routing queues => { routing with queues },
      .of "default_queue" .defaulted .string fun routing defaultQueue =>
        { routing with defaultQueue }]
    standard

end Routing

end Relay
