import Relay.Ancestors
import Relay.Chain
import Relay.CommandLine.Arguments
import Relay.CommandLine.Commands
import Relay.CommandLine.Program
import Relay.Config
import Relay.Decimal.Double
import Relay.Decimal.Shortest
import Relay.Decode.Basic
import Relay.Decode.Problem
import Relay.Dict
import Relay.Duration
import Relay.Flow.Basic
import Relay.Flow.Event
import Relay.Flow.Tree
import Relay.Graph.Order
import Relay.Graph.Problem
import Relay.Graph.Validation
import Relay.Handler.Arbitrary
import Relay.Handler.Basic
import Relay.Handler.Registry
import Relay.Handler.Result
import Relay.Http.MediaType
import Relay.Http.Message
import Relay.Http.Route
import Relay.Http.Service
import Relay.Json.Basic
import Relay.Json.Document
import Relay.Json.Reader
import Relay.Json.Writer
import Relay.Main
import Relay.Proofs.Decode.Formats
import Relay.Proofs.Decode.RoundTrip
import Relay.Proofs.Decode.Sound
import Relay.Proofs.Decode.Spelling
import Relay.Proofs.Dict
import Relay.Proofs.Graph.Acyclic
import Relay.Proofs.Graph.Order
import Relay.Proofs.Graph.TieBreak
import Relay.Proofs.Graph.Unvalidated
import Relay.Proofs.Graph.Validation
import Relay.Proofs.Http.Creation
import Relay.Proofs.Http.Route
import Relay.Proofs.Json.Canonical
import Relay.Proofs.Propagation.Determinism
import Relay.Proofs.Propagation.Merging
import Relay.Proofs.Propagation.Skipping
import Relay.Proofs.Propagation.Visibility
import Relay.Proofs.Queue.Admission
import Relay.Proofs.Queue.Announced
import Relay.Proofs.Queue.Attempts
import Relay.Proofs.Queue.Backoff
import Relay.Proofs.Queue.CallLog
import Relay.Proofs.Queue.Capacity
import Relay.Proofs.Queue.Chain
import Relay.Proofs.Queue.ChainRun
import Relay.Proofs.Queue.ChainTree
import Relay.Proofs.Queue.Conservation
import Relay.Proofs.Queue.Contention
import Relay.Proofs.Queue.Eviction
import Relay.Proofs.Queue.Failure
import Relay.Proofs.Queue.Fairness
import Relay.Proofs.Queue.Fate
import Relay.Proofs.Queue.Finality
import Relay.Proofs.Queue.History
import Relay.Proofs.Queue.Jobs
import Relay.Proofs.Queue.Limits
import Relay.Proofs.Queue.Pace
import Relay.Proofs.Queue.Places
import Relay.Proofs.Queue.Planting
import Relay.Proofs.Queue.Progress
import Relay.Proofs.Queue.ReadBack
import Relay.Proofs.Queue.Results
import Relay.Proofs.Queue.RetryPolicy
import Relay.Proofs.Queue.Run
import Relay.Proofs.Queue.Sound
import Relay.Proofs.Queue.Tokens
import Relay.Proofs.Queue.Tree
import Relay.Proofs.Queue.Turns
import Relay.Proofs.Queue.View
import Relay.Proofs.Workflow.Acceptance
import Relay.Proofs.Workflow.Circumstances
import Relay.Proofs.Workflow.Compilation
import Relay.Proofs.Workflow.Course
import Relay.Proofs.Workflow.Delivery
import Relay.Proofs.Workflow.Kept
import Relay.Proofs.Workflow.Links
import Relay.Proofs.Workflow.Notice
import Relay.Proofs.Workflow.Outcome
import Relay.Proofs.Workflow.Protocol
import Relay.Proofs.Workflow.Pursuit
import Relay.Proofs.Workflow.Reading
import Relay.Proofs.Workflow.Records
import Relay.Proofs.Workflow.Rejection
import Relay.Proofs.Workflow.Resubmission
import Relay.Proofs.Workflow.Rules
import Relay.Proofs.Workflow.Schedule
import Relay.Proofs.Workflow.Script
import Relay.Proofs.Workflow.Service
import Relay.Proofs.Workflow.Shape
import Relay.Proofs.Workflow.Status
import Relay.Proofs.Workflow.SubmissionOrder
import Relay.Proofs.Workflow.Traffic
import Relay.Proofs.Workflow.Validation
import Relay.Proofs.Workflow.World
import Relay.Propagation
import Relay.Queue.Basic
import Relay.Queue.Evict
import Relay.Queue.Finish
import Relay.Queue.Job
import Relay.Queue.Problem
import Relay.Queue.Settings
import Relay.Queue.Submit
import Relay.Queue.Subscription
import Relay.Queue.TokenBucket
import Relay.Queue.Worker
import Relay.Record.Basic
import Relay.Record.Store
import Relay.Routing
import Relay.Session.Bench
import Relay.Session.Disturbance
import Relay.Session.Queues
import Relay.Session.Workflow
import Relay.Task
import Relay.Template
import Relay.Text.Blank
import Relay.Text.Hexadecimal
import Relay.Text.Hidden
import Relay.Text.Quoted
import Relay.Timestamp
import Relay.Toml.Lexeme
import Relay.Toml.Reader
import Relay.Toml.Scalar
import Relay.Toml.Table
import Relay.Uuid
import Relay.Workflow.Inspection
import Relay.Workflow.Problem
import Relay.Workflow.Routine
import Relay.Workflow.Submission
import Relay.Workflow.System
import Relay.Workflow.Tracking
import Relay.Workflow.View
