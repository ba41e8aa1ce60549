import SpanWeave.Clock
import SpanWeave.Clock.Skew
import SpanWeave.Command.Arguments
import SpanWeave.Command.Files
import SpanWeave.Command.Help
import SpanWeave.Command.Run
import SpanWeave.Device.Completion
import SpanWeave.Durations
import SpanWeave.Engine
import SpanWeave.Engine.Drain
import SpanWeave.Engine.HostCalls
import SpanWeave.Fault
import SpanWeave.Forest
import SpanWeave.Forest.Assembly
import SpanWeave.Forest.Mark
import SpanWeave.Forest.Path
import SpanWeave.Host.Call
import SpanWeave.Identity
import SpanWeave.Json.Fields
import SpanWeave.Json.Number
import SpanWeave.Json.Reader
import SpanWeave.Json.Value
import SpanWeave.Json.Writer
import SpanWeave.Main
import SpanWeave.NameFilter
import SpanWeave.NameFilter.Catalogue
import SpanWeave.NameHash
import SpanWeave.Pattern.Alphabet
import SpanWeave.Pattern.Bracket
import SpanWeave.Pattern.CharSet
import SpanWeave.Pattern.Escape
import SpanWeave.Pattern.Folding
import SpanWeave.Pattern.Footprint
import SpanWeave.Pattern.Language
import SpanWeave.Pattern.Match
import SpanWeave.Pattern.Mode
import SpanWeave.Pattern.Reader
import SpanWeave.Pattern.Syntax
import SpanWeave.Proofs.Clock.Accuracy
import SpanWeave.Proofs.Clock.Settled
import SpanWeave.Proofs.Engine.Accounts
import SpanWeave.Proofs.Engine.Apart
import SpanWeave.Proofs.Engine.Background
import SpanWeave.Proofs.Engine.Batches
import SpanWeave.Proofs.Engine.Bench
import SpanWeave.Proofs.Engine.Deeds
import SpanWeave.Proofs.Engine.Delay
import SpanWeave.Proofs.Engine.Drained
import SpanWeave.Proofs.Engine.Drawing
import SpanWeave.Proofs.Engine.Fates
import SpanWeave.Proofs.Engine.Gains
import SpanWeave.Proofs.Engine.Intake
import SpanWeave.Proofs.Engine.Laps
import SpanWeave.Proofs.Engine.Marking
import SpanWeave.Proofs.Engine.Renaming
import SpanWeave.Proofs.Engine.Samples
import SpanWeave.Proofs.Engine.Sides
import SpanWeave.Proofs.Engine.Steps
import SpanWeave.Proofs.Engine.Telling
import SpanWeave.Proofs.Engine.Views
import SpanWeave.Proofs.Forest.Ascent
import SpanWeave.Proofs.Forest.Delay
import SpanWeave.Proofs.Forest.Depths
import SpanWeave.Proofs.Forest.Descent
import SpanWeave.Proofs.Forest.Ends
import SpanWeave.Proofs.Forest.Heaviest
import SpanWeave.Proofs.Forest.Levels
import SpanWeave.Proofs.Forest.Links
import SpanWeave.Proofs.Forest.Matching
import SpanWeave.Proofs.Forest.Optimal
import SpanWeave.Proofs.Forest.Outline
import SpanWeave.Proofs.Forest.Pairing
import SpanWeave.Proofs.Forest.Placement
import SpanWeave.Proofs.Forest.Search
import SpanWeave.Proofs.Forest.Ways
import SpanWeave.Proofs.Json.Fields
import SpanWeave.Proofs.Json.RoundTrip
import SpanWeave.Proofs.Json.Tokens
import SpanWeave.Proofs.Lists
import SpanWeave.Proofs.NameFilter.Meaning
import SpanWeave.Proofs.NameFilter.Merging
import SpanWeave.Proofs.NameFilter.Slashes
import SpanWeave.Proofs.Recorded.Lines
import SpanWeave.Proofs.Recorded.RoundTrip
import SpanWeave.Proofs.Recorded.Rows
import SpanWeave.Proofs.Recorded.Sheets
import SpanWeave.Proofs.Registry.OneMap
import SpanWeave.Proofs.Replay.Agreement
import SpanWeave.Proofs.Replay.Begins
import SpanWeave.Proofs.Replay.Closing
import SpanWeave.Proofs.Replay.Commuting
import SpanWeave.Proofs.Replay.Desk
import SpanWeave.Proofs.Replay.Distinct
import SpanWeave.Proofs.Replay.Erasing
import SpanWeave.Proofs.Replay.Exchange
import SpanWeave.Proofs.Replay.Finished
import SpanWeave.Proofs.Replay.Innermost
import SpanWeave.Proofs.Replay.Intervals
import SpanWeave.Proofs.Replay.Launches
import SpanWeave.Proofs.Replay.Lineage
import SpanWeave.Proofs.Replay.Nesting
import SpanWeave.Proofs.Replay.Numbering
import SpanWeave.Proofs.Replay.OpenRecords
import SpanWeave.Proofs.Replay.Paired
import SpanWeave.Proofs.Replay.Registered
import SpanWeave.Proofs.Replay.Runs
import SpanWeave.Proofs.Replay.Samples
import SpanWeave.Proofs.Replay.Soundness
import SpanWeave.Proofs.Replay.Stacks
import SpanWeave.Proofs.Replay.Trail
import SpanWeave.Proofs.Replay.Translation
import SpanWeave.Proofs.Replay.Workers
import SpanWeave.Proofs.Session.Accounts
import SpanWeave.Proofs.Session.Dealings
import SpanWeave.Proofs.Session.Lifecycle
import SpanWeave.Proofs.Session.Shutdown
import SpanWeave.Proofs.Settings.Overrides
import SpanWeave.Proofs.Span.Balance
import SpanWeave.Proofs.Span.Brackets
import SpanWeave.Proofs.Span.Export
import SpanWeave.Proofs.Span.Markers
import SpanWeave.Proofs.Text.Hexadecimal
import SpanWeave.Proofs.Text.Parts
import SpanWeave.Proofs.Thread.Laps
import SpanWeave.Proofs.Thread.Stack
import SpanWeave.Proofs.WorkQueue.Barrier
import SpanWeave.Proofs.WorkQueue.Calls
import SpanWeave.Proofs.WorkQueue.Conservation
import SpanWeave.Proofs.WorkQueue.Counters
import SpanWeave.Proofs.WorkQueue.Effects
import SpanWeave.Proofs.WorkQueue.ExactlyOnce
import SpanWeave.Proofs.WorkQueue.Fifo
import SpanWeave.Proofs.WorkQueue.Flush
import SpanWeave.Proofs.WorkQueue.Moments
import SpanWeave.Proofs.WorkQueue.Order
import SpanWeave.Proofs.WorkQueue.Pool
import SpanWeave.Proofs.WorkQueue.Rounds
import SpanWeave.Proofs.WorkQueue.Tickets
import SpanWeave.Proofs.WorkQueue.Upkeep
import SpanWeave.Recorded
import SpanWeave.Recorded.Document
import SpanWeave.Registry
import SpanWeave.Replay
import SpanWeave.Rounding
import SpanWeave.Session
import SpanWeave.Settings
import SpanWeave.Settings.Document
import SpanWeave.Settings.Environment
import SpanWeave.Span
import SpanWeave.Span.Fanout
import SpanWeave.Span.Recorder
import SpanWeave.Text.Blank
import SpanWeave.Text.Numeral
import SpanWeave.Thread.Laps
import SpanWeave.Thread.State
import SpanWeave.Toml.Reader
import SpanWeave.Toml.Scalar
import SpanWeave.Toml.Value
import SpanWeave.Toml.Writer
import SpanWeave.Tracer
import SpanWeave.WorkQueue
import SpanWeave.Proofs.Durations.Tallies
