import GameIngress.Assoc
import GameIngress.Backoff
import GameIngress.Cluster.Follower
import GameIngress.Cluster.Reply
import GameIngress.Cluster.Server
import GameIngress.Cluster.World
import GameIngress.CommandLine.Arguments
import GameIngress.CommandLine.Flag
import GameIngress.CommandLine.Help
import GameIngress.CommandLine.Session
import GameIngress.CommandLine.Task
import GameIngress.Config.Basic
import GameIngress.Config.File
import GameIngress.Config.Flags
import GameIngress.Controller
import GameIngress.Dispatch.Delivery
import GameIngress.Dispatch.Dispatcher
import GameIngress.Dispatch.Queue
import GameIngress.Dispatch.Script
import GameIngress.Dispatch.Simulation
import GameIngress.Dispatch.Slots
import GameIngress.Duration.Basic
import GameIngress.Duration.Reader
import GameIngress.Failure
import GameIngress.GameServer.Basic
import GameIngress.GameServer.Codec
import GameIngress.Gate
import GameIngress.Health
import GameIngress.Http.Status
import GameIngress.Json.Basic
import GameIngress.Json.Decode
import GameIngress.Json.MergePatch
import GameIngress.Json.Printer
import GameIngress.Json.Reader
import GameIngress.Log.Filter
import GameIngress.Log.Record
import GameIngress.Main
import GameIngress.Manifest.Custom
import GameIngress.Manifest.Ingress
import GameIngress.Manifest.Owned
import GameIngress.Manifest.Service
import GameIngress.Metrics.Counter
import GameIngress.Metrics.Exposition
import GameIngress.Net.Address
import GameIngress.Net.Uri
import GameIngress.Number.Binary
import GameIngress.Number.Natural
import GameIngress.Number.ScaledDigits
import GameIngress.Number.Shortest
import GameIngress.Object.Ingress
import GameIngress.Object.Meta
import GameIngress.Object.Service
import GameIngress.Object.Shape
import GameIngress.Reconcile.Basic
import GameIngress.Reconcile.Ensure
import GameIngress.Reconcile.InMemory
import GameIngress.Reconcile.Readiness
import GameIngress.Retry
import GameIngress.Routing
import GameIngress.Store.Memory
import GameIngress.Store.Program
import GameIngress.Template.Expr
import GameIngress.Template.FieldDot
import GameIngress.Template.Filter
import GameIngress.Template.Grammar
import GameIngress.Template.Operator
import GameIngress.Template.Predicate
import GameIngress.Template.Render
import GameIngress.Template.Token
import GameIngress.Template.Value
import GameIngress.Text.Blank
import GameIngress.Text.Case
import GameIngress.Text.CaseTable
import GameIngress.Text.PrintableTable
import GameIngress.Text.Quoted
import GameIngress.TextMap
import GameIngress.Timestamp
import GameIngress.Watch.Cache
import GameIngress.Yaml.Cursor
import GameIngress.Yaml.Event
import GameIngress.Yaml.Scalar
import GameIngress.Yaml.Stream
import GameIngress.Yaml.Token
import GameIngress.Proofs.Dispatch.Profile
import GameIngress.Proofs.Dispatch.Coherence
import GameIngress.Proofs.Dispatch.Operation
import GameIngress.Proofs.Dispatch.Step
import GameIngress.Proofs.Dispatch.Chronicle
import GameIngress.Proofs.Dispatch.Faithful
import GameIngress.Proofs.Dispatch.Handover
import GameIngress.Proofs.Dispatch.Retries
import GameIngress.Proofs.Dispatch.Simulation
import GameIngress.Proofs.Watch.Order
import GameIngress.Proofs.Dispatch.Timeline
import GameIngress.Proofs.Dispatch.Deletion
import GameIngress.Proofs.TextMap
import GameIngress.Proofs.Json.Merge
import GameIngress.Proofs.Cluster.Annotations
import GameIngress.Proofs.Reconcile.Careful
import GameIngress.Proofs.Reconcile.Marker
import GameIngress.Proofs.Store.Transcript
import GameIngress.Proofs.Reconcile.Sequence
import GameIngress.Proofs.Store.Faultless
import GameIngress.Proofs.Manifest.Owned
import GameIngress.Proofs.Reconcile.Sharing
import GameIngress.Proofs.Reconcile.Crowd
import GameIngress.Proofs.Routing
import GameIngress.Proofs.Manifest.Custom
import GameIngress.Proofs.Manifest.Dressed
import GameIngress.Proofs.Manifest.Defect
import GameIngress.Proofs.Manifest.Rebuilt
import GameIngress.Proofs.Manifest.Matching
import GameIngress.Proofs.Manifest.Secret
import GameIngress.Proofs.Reconcile.Replay
import GameIngress.Proofs.Dispatch.Turn
import GameIngress.Proofs.Dispatch.Delay
import GameIngress.Proofs.Dispatch.Spared
import GameIngress.Proofs.Dispatch.Resync
import GameIngress.Proofs.Dispatch.Concurrency
import GameIngress.Proofs.Dispatch.Renumbering
import GameIngress.Proofs.Dispatch.Mirror
import GameIngress.Proofs.Dispatch.Isolation
import GameIngress.Proofs.Store.Interruption
import GameIngress.Proofs.Reconcile.Cancellation
import GameIngress.Proofs.Cluster.Calm
import GameIngress.Proofs.Reconcile.Lag
import GameIngress.Proofs.Cluster.Decoding
import GameIngress.Proofs.Reconcile.Writeback
import GameIngress.Proofs.Reconcile.Existence
import GameIngress.Proofs.Reconcile.Ownership
import GameIngress.Proofs.Manifest.HandedOn
import GameIngress.Proofs.Reconcile.Report
import GameIngress.Proofs.Reconcile.Bookkeeping
import GameIngress.Proofs.Backoff
import GameIngress.Proofs.Dispatch.Waits
import GameIngress.Proofs.Dispatch.Upheld
import GameIngress.Proofs.Dispatch.Limits
import GameIngress.Proofs.Dispatch.Aftermath
import GameIngress.Proofs.Store.Repetition
import GameIngress.Proofs.Reconcile.Attempts
import GameIngress.Proofs.Manifest.Inputs
import GameIngress.Proofs.Manifest.Confined
import GameIngress.Proofs.Config.Document
import GameIngress.Proofs.Config.Layers
import GameIngress.Proofs.Failure
import GameIngress.Proofs.Retry
import GameIngress.Proofs.Cluster.Clock
import GameIngress.Proofs.Cluster.Sync
import GameIngress.Proofs.Text.Cut
import GameIngress.Proofs.Duration
import GameIngress.Proofs.Template.FieldDot
import GameIngress.Proofs.Template.Block
import GameIngress.Proofs.Template.Segment
import GameIngress.Proofs.Template.Token
import GameIngress.Proofs.Template.Grammar
import GameIngress.Proofs.Template.Interpolation
import GameIngress.Proofs.Json.Codec
import GameIngress.Proofs.Timestamp
import GameIngress.Proofs.Object.NormalForm
import GameIngress.Proofs.GameServer.NormalForm
