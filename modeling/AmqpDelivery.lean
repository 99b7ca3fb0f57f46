import AmqpDelivery.Assign
import AmqpDelivery.Connection.Backoff
import AmqpDelivery.Connection.Cells
import AmqpDelivery.Connection.Channels
import AmqpDelivery.Connection.Uri
import AmqpDelivery.Decimal.Layout
import AmqpDelivery.Decimal.Natural
import AmqpDelivery.Decimal.Shortest
import AmqpDelivery.Definition
import AmqpDelivery.Dispatch.Plan
import AmqpDelivery.Dispatch.Run
import AmqpDelivery.Document.Failure
import AmqpDelivery.Document.Message
import AmqpDelivery.Document.Read
import AmqpDelivery.Document.Settings
import AmqpDelivery.Document.Topology
import AmqpDelivery.Document.Value
import AmqpDelivery.Exchange
import AmqpDelivery.Failure
import AmqpDelivery.FairLock
import AmqpDelivery.Field.Properties
import AmqpDelivery.Field.Value
import AmqpDelivery.Json.Basic
import AmqpDelivery.Json.Fault
import AmqpDelivery.Json.Reader
import AmqpDelivery.Json.Record
import AmqpDelivery.Json.Skip
import AmqpDelivery.Json.Writer
import AmqpDelivery.Keyed
import AmqpDelivery.Message
import AmqpDelivery.Pool.Basic
import AmqpDelivery.Pool.Limiter
import AmqpDelivery.Pool.Session
import AmqpDelivery.Producer
import AmqpDelivery.Queue
import AmqpDelivery.Rendezvous.Basic
import AmqpDelivery.Rendezvous.Correlation
import AmqpDelivery.Rendezvous.History
import AmqpDelivery.Rendezvous.Requests
import AmqpDelivery.Rendezvous.Session
import AmqpDelivery.Rendezvous.Slot
import AmqpDelivery.Settings.Basic
import AmqpDelivery.Settings.Decode
import AmqpDelivery.Settings.Load
import AmqpDelivery.Settings.Path
import AmqpDelivery.Settings.Source
import AmqpDelivery.Simulation.Handler
import AmqpDelivery.Simulation.World
import AmqpDelivery.Task
import AmqpDelivery.Text.CaseData
import AmqpDelivery.Text.Hidden
import AmqpDelivery.Text.Lowercase
import AmqpDelivery.Text.Quoted
import AmqpDelivery.Topology
import AmqpDelivery.Trace
import AmqpDelivery.Worker.Basic
import AmqpDelivery.Worker.Crew
import AmqpDelivery.Worker.Engine
import AmqpDelivery.Worker.Fleet
import AmqpDelivery.Worker.State
import AmqpDelivery.Proofs.RetryCount
import AmqpDelivery.Proofs.Redelivery
import AmqpDelivery.Proofs.Routing
import AmqpDelivery.Proofs.Pool.Bound
import AmqpDelivery.Proofs.Worker.Effect
import AmqpDelivery.Proofs.Worker.Deliveries
import AmqpDelivery.Proofs.Worker.Course
import AmqpDelivery.Proofs.Worker.Lifecycle
import AmqpDelivery.Proofs.Worker.Teardown
import AmqpDelivery.Proofs.Engine.Change
import AmqpDelivery.Proofs.Engine.Standing
import AmqpDelivery.Proofs.Engine.Conduct
import AmqpDelivery.Proofs.Engine.Lifecycle
import AmqpDelivery.Proofs.Engine.Staff
import AmqpDelivery.Proofs.Engine.Handles
import AmqpDelivery.Proofs.Engine.Shutdown
import AmqpDelivery.Proofs.Rendezvous.Acts
import AmqpDelivery.Proofs.Rendezvous.Begun
import AmqpDelivery.Proofs.Rendezvous.Facing
import AmqpDelivery.Proofs.Rendezvous.Reach
import AmqpDelivery.Proofs.Rendezvous.Buffer
import AmqpDelivery.Proofs.Rendezvous.Wakeup
import AmqpDelivery.Proofs.Rendezvous.Answers
import AmqpDelivery.Proofs.Rendezvous.Filing
import AmqpDelivery.Proofs.Rendezvous.Ledger
import AmqpDelivery.Proofs.Rendezvous.Books
import AmqpDelivery.Proofs.Rendezvous.Spent
import AmqpDelivery.Proofs.Rendezvous.Desk
import AmqpDelivery.Proofs.Rendezvous.Closed
import AmqpDelivery.Proofs.Rendezvous.Closing
import AmqpDelivery.Proofs.Rendezvous.Shadow
import AmqpDelivery.Proofs.Rendezvous.Parted
import AmqpDelivery.Proofs.Rendezvous.Replies
import AmqpDelivery.Proofs.Rendezvous.Errands
import AmqpDelivery.Proofs.Rendezvous.Traces
import AmqpDelivery.Proofs.Rendezvous.Generations
import AmqpDelivery.Proofs.Rendezvous.Loss
import AmqpDelivery.Proofs.Rendezvous.Deserted
import AmqpDelivery.Proofs.FairLock
import AmqpDelivery.Proofs.Channels.Change
import AmqpDelivery.Proofs.Channels.Standing
import AmqpDelivery.Proofs.Channels.Cap
import AmqpDelivery.Proofs.Connections.Change
import AmqpDelivery.Proofs.Connections.Moves
import AmqpDelivery.Proofs.Connections.Standing
import AmqpDelivery.Proofs.Connections.Single
import AmqpDelivery.Proofs.Connections.Sharing
import AmqpDelivery.Proofs.Connections.Invalidation
import AmqpDelivery.Proofs.Connections.Pools
import AmqpDelivery.Proofs.Worker.Dealing
import AmqpDelivery.Proofs.Channels.Requests
import AmqpDelivery.Proofs.Fleet.Turns
import AmqpDelivery.Proofs.Fleet.Accounts
import AmqpDelivery.Proofs.Fleet.Room
import AmqpDelivery.Proofs.Decimal
import AmqpDelivery.Proofs.Connections.Address
import AmqpDelivery.Proofs.Topology.Arguments
import AmqpDelivery.Proofs.Topology.Declarable
import AmqpDelivery.Proofs.Topology.DeadLetters
import AmqpDelivery.Proofs.Text.Lowercase
import AmqpDelivery.Proofs.Settings.Filing
import AmqpDelivery.Proofs.Settings.Sources
import AmqpDelivery.Proofs.Settings.Reading
import AmqpDelivery.Proofs.Settings.Pools
import AmqpDelivery.Proofs.Counters
import AmqpDelivery.Proofs.Republication
import AmqpDelivery.Proofs.Topology.Installation
import AmqpDelivery.Proofs.Pool.Order
import AmqpDelivery.Proofs.Worker.Entering
import AmqpDelivery.Proofs.Crew.Turns
import AmqpDelivery.Proofs.Crew.Order
import AmqpDelivery.Proofs.Numeral
import AmqpDelivery.Proofs.Rendezvous.Correlation
import AmqpDelivery.Proofs.Text.Utf8
import AmqpDelivery.Proofs.Keyed
import AmqpDelivery.Proofs.Propagation
import AmqpDelivery.Proofs.Layering
import AmqpDelivery.Proofs.Engine.Registration
import AmqpDelivery.Proofs.Connections.Attempts
import AmqpDelivery.Proofs.Connections.Dialing
import AmqpDelivery.Proofs.Connections.Redialing
import AmqpDelivery.Proofs.Connections.Backoff
