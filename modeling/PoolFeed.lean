import PoolFeed.Agenda
import PoolFeed.Base58
import PoolFeed.Batcher.Basic
import PoolFeed.Batcher.Turn
import PoolFeed.Batches
import PoolFeed.Binary64.Basic
import PoolFeed.Binary64.Decimal
import PoolFeed.Bytes
import PoolFeed.Calendar
import PoolFeed.Chain.Layouts
import PoolFeed.Chain.Migrations
import PoolFeed.Chain.Swaps
import PoolFeed.Clock
import PoolFeed.Component
import PoolFeed.Config.Check
import PoolFeed.Config.DefaultFile
import PoolFeed.Config.Dotenv
import PoolFeed.Config.Environment
import PoolFeed.Config.Issue
import PoolFeed.Config.Loader
import PoolFeed.Config.Override
import PoolFeed.Config.Settings
import PoolFeed.Document
import PoolFeed.Document.Text
import PoolFeed.Event
import PoolFeed.Gateway.Basic
import PoolFeed.Gateway.Subscription
import PoolFeed.Intake
import PoolFeed.Json
import PoolFeed.Json.Reading
import PoolFeed.Launch
import PoolFeed.Layout
import PoolFeed.Ledger
import PoolFeed.Link.Basic
import PoolFeed.Link.Turn
import PoolFeed.Log
import PoolFeed.Log.Line
import PoolFeed.Log.Output
import PoolFeed.Log.Template
import PoolFeed.Lookups.Basic
import PoolFeed.Lookups.Turn
import PoolFeed.Main
import PoolFeed.Proofs.Batcher.Coherence
import PoolFeed.Proofs.Batcher.Draining
import PoolFeed.Proofs.Batcher.Durations
import PoolFeed.Proofs.Batcher.Flushes
import PoolFeed.Proofs.Batcher.History
import PoolFeed.Proofs.Batcher.Loops
import PoolFeed.Proofs.Batcher.Oversight
import PoolFeed.Proofs.Batcher.Runs
import PoolFeed.Proofs.Batcher.Stages
import PoolFeed.Proofs.Batcher.Ticking
import PoolFeed.Proofs.Batcher.Timed
import PoolFeed.Proofs.Batcher.Turns
import PoolFeed.Proofs.Batches
import PoolFeed.Proofs.Binary64.Arithmetic
import PoolFeed.Proofs.Binary64.Finite
import PoolFeed.Proofs.Binary64.Rounding
import PoolFeed.Proofs.Calendar
import PoolFeed.Proofs.Chain.Attempts
import PoolFeed.Proofs.Chain.Authority
import PoolFeed.Proofs.Chain.Confirmation
import PoolFeed.Proofs.Chain.EventBounds
import PoolFeed.Proofs.Chain.MigrationReading
import PoolFeed.Proofs.Chain.References
import PoolFeed.Proofs.Chain.Strictness
import PoolFeed.Proofs.Chain.SwapReading
import PoolFeed.Proofs.Changes
import PoolFeed.Proofs.Config.Blanks
import PoolFeed.Proofs.Config.Failures
import PoolFeed.Proofs.Config.Layers
import PoolFeed.Proofs.Config.Placeholders
import PoolFeed.Proofs.Gateway.Iteration
import PoolFeed.Proofs.Intake.Corrections
import PoolFeed.Proofs.Intake.Fanout
import PoolFeed.Proofs.Intake.Faults
import PoolFeed.Proofs.Intake.Filing
import PoolFeed.Proofs.Intake.Order
import PoolFeed.Proofs.Intake.Reference
import PoolFeed.Proofs.Intake.Traffic
import PoolFeed.Proofs.Intake.Turns
import PoolFeed.Proofs.Json.RoundTrip
import PoolFeed.Proofs.Layout.Offsets
import PoolFeed.Proofs.Layout.RoundTrip
import PoolFeed.Proofs.Ledger
import PoolFeed.Proofs.Ledger.Readings
import PoolFeed.Proofs.Link.Annals
import PoolFeed.Proofs.Link.Bystanders
import PoolFeed.Proofs.Link.Carries
import PoolFeed.Proofs.Link.Ceiling
import PoolFeed.Proofs.Link.Courses
import PoolFeed.Proofs.Link.Credit
import PoolFeed.Proofs.Link.Custody
import PoolFeed.Proofs.Link.Deeds
import PoolFeed.Proofs.Link.Delivery
import PoolFeed.Proofs.Link.EventLoop
import PoolFeed.Proofs.Link.Finality
import PoolFeed.Proofs.Link.Halted
import PoolFeed.Proofs.Link.Keeps
import PoolFeed.Proofs.Link.Overlap
import PoolFeed.Proofs.Link.Pacing
import PoolFeed.Proofs.Link.Phases
import PoolFeed.Proofs.Link.Records
import PoolFeed.Proofs.Link.Resources
import PoolFeed.Proofs.Link.Retrial
import PoolFeed.Proofs.Link.Runs
import PoolFeed.Proofs.Link.Sound
import PoolFeed.Proofs.Link.Steady
import PoolFeed.Proofs.Link.Tidings
import PoolFeed.Proofs.Link.Turns
import PoolFeed.Proofs.Log.Lines
import PoolFeed.Proofs.Lookups.Conservation
import PoolFeed.Proofs.Lookups.Courses
import PoolFeed.Proofs.Lookups.Crossing
import PoolFeed.Proofs.Lookups.Forgetting
import PoolFeed.Proofs.Lookups.Hearing
import PoolFeed.Proofs.Lookups.Holding
import PoolFeed.Proofs.Lookups.Joining
import PoolFeed.Proofs.Lookups.Runs
import PoolFeed.Proofs.Lookups.Serving
import PoolFeed.Proofs.Lookups.Stopping
import PoolFeed.Proofs.Lookups.Turns
import PoolFeed.Proofs.Lookups.Waking
import PoolFeed.Proofs.PoolBook.Mirroring
import PoolFeed.Proofs.PoolBook.Moves
import PoolFeed.Proofs.Registry
import PoolFeed.Proofs.Registry.Runs
import PoolFeed.Proofs.Rooms.Delivery
import PoolFeed.Proofs.Rooms.Membership
import PoolFeed.Proofs.Rooms.Races
import PoolFeed.Proofs.Rooms.Sendings
import PoolFeed.Proofs.Rooms.Steps
import PoolFeed.Proofs.Roster
import PoolFeed.Proofs.Scaling
import PoolFeed.Proofs.Tasks
import PoolFeed.Proofs.Text.Integer
import PoolFeed.Proofs.TradeLine
import PoolFeed.Proofs.Wire.Spelling
import PoolFeed.Proofs.Wire.Updates
import PoolFeed.Registry
import PoolFeed.Rehearsal.Desk
import PoolFeed.Rehearsal.Dialogue
import PoolFeed.Rehearsal.Emitter
import PoolFeed.Rehearsal.Report
import PoolFeed.Rehearsal.Resolver
import PoolFeed.Rehearsal.Stage
import PoolFeed.Rehearsal.Upstream
import PoolFeed.Report
import PoolFeed.Rooms
import PoolFeed.Roster
import PoolFeed.Service
import PoolFeed.SharedStore
import PoolFeed.Stopwatch
import PoolFeed.Tasks
import PoolFeed.Text.Blank
import PoolFeed.Text.Integer
import PoolFeed.Text.Printable
import PoolFeed.Text.Quoted
import PoolFeed.Text.UpperCase
import PoolFeed.TradeLine
import PoolFeed.Transaction
import PoolFeed.Wire.Message
import PoolFeed.Wire.Stream
import PoolFeed.Wire.Update
import PoolFeed.Wire.Varint
import PoolFeed.Yaml.Cursor
import PoolFeed.Yaml.Kind
import PoolFeed.Yaml.Lexing
import PoolFeed.Yaml.Load
import PoolFeed.Yaml.Node
import PoolFeed.Yaml.Scalar
import PoolFeed.Yaml.Token
