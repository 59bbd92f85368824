import ControlPlane.Accumulator.Basic
import ControlPlane.Accumulator.Sink
import ControlPlane.Bundle
import ControlPlane.Client.Connect
import ControlPlane.Client.Control
import ControlPlane.Client.Handle
import ControlPlane.Client.Link
import ControlPlane.Client.Pool
import ControlPlane.Client.Session
import ControlPlane.Cluster.Basic
import ControlPlane.Cluster.Call
import ControlPlane.Cluster.Error
import ControlPlane.Cluster.Execution
import ControlPlane.Cluster.Operation
import ControlPlane.Cluster.Schedule
import ControlPlane.Command.Node
import ControlPlane.Command.Options
import ControlPlane.Command.Program
import ControlPlane.Command.Scaffold
import ControlPlane.Command.Submit
import ControlPlane.Config
import ControlPlane.Digest.Sha256
import ControlPlane.FileTree.Basic
import ControlPlane.FileTree.Path
import ControlPlane.Gateway.Basic
import ControlPlane.Gateway.Envelope
import ControlPlane.Gateway.Remote
import ControlPlane.Graph
import ControlPlane.Health.Kernel
import ControlPlane.Health.Level
import ControlPlane.Health.Metrics
import ControlPlane.Health.Monitor
import ControlPlane.Http.MediaType
import ControlPlane.Http.Message
import ControlPlane.Http.Target
import ControlPlane.Job.Error
import ControlPlane.Job.Machine
import ControlPlane.Job.Name
import ControlPlane.Job.Operation
import ControlPlane.Job.State
import ControlPlane.Json.Access
import ControlPlane.Json.Decoder
import ControlPlane.Json.Literal
import ControlPlane.Json.Number
import ControlPlane.Json.Pretty
import ControlPlane.Json.Tree
import ControlPlane.Json.Value
import ControlPlane.Main
import ControlPlane.Number.Decimal
import ControlPlane.Number.Double
import ControlPlane.Number.Exact
import ControlPlane.Number.Fixed
import ControlPlane.Number.Reading
import ControlPlane.Number.Shortest
import ControlPlane.Registry.Record
import ControlPlane.Registry.Store
import ControlPlane.Resource.Basic
import ControlPlane.Resource.CodeLoader
import ControlPlane.Resource.Locator
import ControlPlane.Table
import ControlPlane.Text.Blank
import ControlPlane.Text.Hex
import ControlPlane.Toml.Datetime
import ControlPlane.Toml.Decoder
import ControlPlane.Toml.Document
import ControlPlane.Toml.Number
import ControlPlane.Toml.Text
import ControlPlane.Toml.Value
import ControlPlane.Toml.Writer
import ControlPlane.Proofs.Json.Text
import ControlPlane.Proofs.Cluster.Plan
import ControlPlane.Proofs.Registry.Row
import ControlPlane.Proofs.Cluster.Run
import ControlPlane.Proofs.Cluster.Frame
import ControlPlane.Proofs.Registry.Life
import ControlPlane.Proofs.Cluster.Progress
import ControlPlane.Proofs.Cluster.Alike
import ControlPlane.Proofs.Cluster.Errands
import ControlPlane.Proofs.Cluster.Destroy
import ControlPlane.Proofs.Client.Exclusion
import ControlPlane.Proofs.Gateway.Paths
import ControlPlane.Proofs.Command.Refusal
import ControlPlane.Proofs.Json.Doubles
import ControlPlane.Proofs.Json.Values
import ControlPlane.Proofs.Registry.Graphs
import ControlPlane.Proofs.Cluster.Acceptance
import ControlPlane.Proofs.Client.Desk
import ControlPlane.Proofs.Client.Freezing
import ControlPlane.Proofs.Cluster.Standing
import ControlPlane.Proofs.Client.Scene
import ControlPlane.Proofs.Client.Proxy
import ControlPlane.Proofs.Cluster.Counters
import ControlPlane.Proofs.Cluster.Crash
import ControlPlane.Proofs.Cluster.Stale
import ControlPlane.Proofs.Text.Bytes
import ControlPlane.Proofs.Text.Words
import ControlPlane.Proofs.Registry.Order
import ControlPlane.Proofs.Registry.Holdings
import ControlPlane.Proofs.Json.Sources
import ControlPlane.Proofs.Gateway.Transport
import ControlPlane.Proofs.Cluster.Race
import ControlPlane.Proofs.Cluster.Advances
import ControlPlane.Proofs.Cluster.Overlap
import ControlPlane.Proofs.Cluster.Posted
import ControlPlane.Proofs.Cluster.Restart
import ControlPlane.Proofs.Cluster.Outcomes
import ControlPlane.Proofs.Cluster.Registration
import ControlPlane.Proofs.Cluster.Apart
import ControlPlane.Proofs.Cluster.Concord
import ControlPlane.Proofs.Cluster.Refusals
import ControlPlane.Proofs.Client.Bundles
import ControlPlane.Proofs.Client.Lines
import ControlPlane.Proofs.Client.Retries
import ControlPlane.Proofs.Job.Contention
import ControlPlane.Proofs.Registry.Identity
import ControlPlane.Proofs.Client.Edits
import ControlPlane.Proofs.Cluster.Batches
import ControlPlane.Proofs.Cluster.Account
import ControlPlane.Proofs.Cluster.Disguises
import ControlPlane.Proofs.Health.Figures
import ControlPlane.Proofs.Accumulator.Totals
import ControlPlane.Proofs.FileTree.Descent
import ControlPlane.Proofs.Resource.CodeUnits
import ControlPlane.Proofs.Toml.Strings
import ControlPlane.Proofs.Toml.Integers
import ControlPlane.Proofs.Toml.Bounds
import ControlPlane.Proofs.Toml.Tables
import ControlPlane.Proofs.Toml.Shapes
import ControlPlane.Proofs.Toml.Documents
import ControlPlane.Proofs.Client.Configuration
