import HotSwap.Codec.Bytes
import HotSwap.Codec.Crc32
import HotSwap.Codec.Deflate.CodeLengths
import HotSwap.Codec.Deflate.Decoder
import HotSwap.Codec.Deflate.Encoder
import HotSwap.Codec.Deflate.Matches
import HotSwap.Codec.Deflate.Symbols
import HotSwap.Codec.Gzip
import HotSwap.Codec.Sha256
import HotSwap.Configuration.FilePaths
import HotSwap.Configuration.FileSet
import HotSwap.Data.Access
import HotSwap.Data.Basic
import HotSwap.Data.Compare
import HotSwap.Data.Keys
import HotSwap.Disk.Basic
import HotSwap.Document.Json
import HotSwap.Document.Toml
import HotSwap.Document.Yaml.Block
import HotSwap.Document.Yaml.Flow
import HotSwap.Document.Yaml.Scalar
import HotSwap.Flow.Condition
import HotSwap.Flow.Connection
import HotSwap.Flow.Drain
import HotSwap.Flow.Graph
import HotSwap.Flow.Poll
import HotSwap.Flow.Reload
import HotSwap.Flow.Request
import HotSwap.History.Archive
import HotSwap.History.Store
import HotSwap.History.Url
import HotSwap.Log.Arguments
import HotSwap.Log.Console
import HotSwap.Log.Loggers
import HotSwap.Log.Record
import HotSwap.Number.Binary64
import HotSwap.Number.Quantity
import HotSwap.Number.Reading
import HotSwap.Number.Shortest
import HotSwap.Number.Significant
import HotSwap.Observe.Bus
import HotSwap.Path.Basic
import HotSwap.Proofs.Acceptance
import HotSwap.Proofs.Accesses
import HotSwap.Proofs.Agreement
import HotSwap.Proofs.Announcements
import HotSwap.Proofs.Attempts
import HotSwap.Proofs.Backouts
import HotSwap.Proofs.CallSafety
import HotSwap.Proofs.Calls
import HotSwap.Proofs.Cancellation
import HotSwap.Proofs.Certainties
import HotSwap.Proofs.Chronicle
import HotSwap.Proofs.Classification
import HotSwap.Proofs.Clearances
import HotSwap.Proofs.Codec.Bits
import HotSwap.Proofs.Codec.Blocks
import HotSwap.Proofs.Codec.CanonicalCodes
import HotSwap.Proofs.Codec.CodeLengths
import HotSwap.Proofs.Codec.Descriptions
import HotSwap.Proofs.Codec.Forests
import HotSwap.Proofs.Codec.Gzip
import HotSwap.Proofs.Codec.Matches
import HotSwap.Proofs.Codec.Spelling
import HotSwap.Proofs.Collisions
import HotSwap.Proofs.Completions
import HotSwap.Proofs.Confinement
import HotSwap.Proofs.Custody
import HotSwap.Proofs.Deliveries
import HotSwap.Proofs.Directories
import HotSwap.Proofs.Discretion
import HotSwap.Proofs.DrainAccounts
import HotSwap.Proofs.Drainage
import HotSwap.Proofs.Drops
import HotSwap.Proofs.Endings
import HotSwap.Proofs.Ends
import HotSwap.Proofs.Expansions
import HotSwap.Proofs.FileOperations
import HotSwap.Proofs.FourFiles
import HotSwap.Proofs.Frames
import HotSwap.Proofs.Grants
import HotSwap.Proofs.Hosts
import HotSwap.Proofs.Instants
import HotSwap.Proofs.Interludes
import HotSwap.Proofs.Journeys
import HotSwap.Proofs.Junctures
import HotSwap.Proofs.Lockstep
import HotSwap.Proofs.Meters
import HotSwap.Proofs.Naming
import HotSwap.Proofs.Notes
import HotSwap.Proofs.Onlookers
import HotSwap.Proofs.Pairs
import HotSwap.Proofs.Partings
import HotSwap.Proofs.Passages
import HotSwap.Proofs.PathTexts
import HotSwap.Proofs.Patience
import HotSwap.Proofs.Pauses
import HotSwap.Proofs.Places
import HotSwap.Proofs.Readings
import HotSwap.Proofs.Records
import HotSwap.Proofs.Refusals
import HotSwap.Proofs.Renewal
import HotSwap.Proofs.Repetitions
import HotSwap.Proofs.Restorations
import HotSwap.Proofs.Safekeeping
import HotSwap.Proofs.Scopes
import HotSwap.Proofs.Scripts
import HotSwap.Proofs.Series
import HotSwap.Proofs.Shadows
import HotSwap.Proofs.SimulatedHosts
import HotSwap.Proofs.SingleFlight
import HotSwap.Proofs.Sources
import HotSwap.Proofs.Spans
import HotSwap.Proofs.Startups
import HotSwap.Proofs.Stops
import HotSwap.Proofs.Stretches
import HotSwap.Proofs.Submissions
import HotSwap.Proofs.Surveys
import HotSwap.Proofs.Tallies
import HotSwap.Proofs.Tellings
import HotSwap.Proofs.Traffic
import HotSwap.Proofs.Transience
import HotSwap.Proofs.Turns
import HotSwap.Proofs.Twins
import HotSwap.Proofs.Undoing
import HotSwap.Proofs.Verdicts
import HotSwap.Proofs.Writes
import HotSwap.Settings.Coerce
import HotSwap.Settings.Loading
import HotSwap.Settings.Problem
import HotSwap.Settings.Schema
import HotSwap.Settings.Template
import HotSwap.Settings.View
import HotSwap.Simulation.Flow
import HotSwap.Simulation.Scenario
import HotSwap.Simulation.Stage
import HotSwap.Simulation.Transcript
import HotSwap.Text.Lowercase
import HotSwap.Text.Printable
import HotSwap.Text.Quoted
import HotSwap.Text.Word
import HotSwap.Time.Display
import HotSwap.Time.Stamp
import HotSwap.Update.Attempt
import HotSwap.Update.Event
import HotSwap.Update.Fault
import HotSwap.Update.NamedFault
import HotSwap.Update.Phase
import HotSwap.Update.Report
import HotSwap.Update.SystemError
import HotSwap.Update.Tracing
import HotSwap.Update.Updater
import HotSwap.World.Act
import HotSwap.World.Basic
import HotSwap.World.Host
import HotSwap.World.Journal
import HotSwap.World.Link
