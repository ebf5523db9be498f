import LineShell.Binary
import LineShell.Bindings
import LineShell.Cache.Artifact
import LineShell.Cache.Key
import LineShell.Cache.Store
import LineShell.Cache.UnitCache
import LineShell.CommandLine.Arguments
import LineShell.CommandLine.Ending
import LineShell.CommandLine.Execute
import LineShell.CommandLine.Grammar
import LineShell.CommandLine.Report
import LineShell.CompiledUnit
import LineShell.Digest
import LineShell.Environment
import LineShell.Errors
import LineShell.FileSystem
import LineShell.History.Address
import LineShell.History.Backend
import LineShell.History.Database
import LineShell.History.DatabasePlace
import LineShell.History.File
import LineShell.History.Journal
import LineShell.History.OpenDatabase
import LineShell.History.Opening
import LineShell.History.Record
import LineShell.Host
import LineShell.Intake
import LineShell.Json.Basic
import LineShell.Json.Decode
import LineShell.Json.Reader
import LineShell.Language.Code
import LineShell.Language.Execute
import LineShell.Language.Parse
import LineShell.Language.Program
import LineShell.Language.Scan
import LineShell.Literal
import LineShell.Main
import LineShell.Output.Encoding
import LineShell.Output.Streams
import LineShell.Output.Tee
import LineShell.Path
import LineShell.Proofs.Binary.Budget
import LineShell.Proofs.Binary.Spelling
import LineShell.Proofs.Cache.Artifact
import LineShell.Proofs.Cache.Disk
import LineShell.Proofs.Cache.Entries
import LineShell.Proofs.Cache.EntryNames
import LineShell.Proofs.Cache.Filings
import LineShell.Proofs.Cache.KeyText
import LineShell.Proofs.Cache.Mirror
import LineShell.Proofs.Cache.Stores
import LineShell.Proofs.CommandLine.Setup
import LineShell.Proofs.Directories
import LineShell.Proofs.Faults
import LineShell.Proofs.FileSystem
import LineShell.Proofs.History.Backends
import LineShell.Proofs.History.Queries
import LineShell.Proofs.Intake.Buffering
import LineShell.Proofs.Intake.Continuation
import LineShell.Proofs.Intake.ExplicitSource
import LineShell.Proofs.Intake.OpenQuote
import LineShell.Proofs.Intake.Scripts
import LineShell.Proofs.Intake.Transparency
import LineShell.Proofs.Language.Code
import LineShell.Proofs.Language.Continuation
import LineShell.Proofs.Language.Decoding
import LineShell.Proofs.Language.Execute
import LineShell.Proofs.Language.FaultPlaces
import LineShell.Proofs.Language.Layout
import LineShell.Proofs.Language.LineEnds
import LineShell.Proofs.Language.LookAhead
import LineShell.Proofs.Language.QuoteAgreement
import LineShell.Proofs.Language.Rendering
import LineShell.Proofs.Language.RepetitionCounts
import LineShell.Proofs.Language.RoundTrip
import LineShell.Proofs.Language.Unrolling
import LineShell.Proofs.Language.Variables
import LineShell.Proofs.Language.WellFormed
import LineShell.Proofs.Language.Zone
import LineShell.Proofs.Literal.Closing
import LineShell.Proofs.Literal.Opening
import LineShell.Proofs.Literal.Prefix
import LineShell.Proofs.Literal.Walk
import LineShell.Proofs.Output.Capture
import LineShell.Proofs.Output.OpenDecorations
import LineShell.Proofs.Output.Policies
import LineShell.Proofs.Output.Slots
import LineShell.Proofs.Output.Tees
import LineShell.Proofs.Path
import LineShell.Proofs.Session.Accounting
import LineShell.Proofs.Session.Calls
import LineShell.Proofs.Session.Capture
import LineShell.Proofs.Session.Directory
import LineShell.Proofs.Session.Drive
import LineShell.Proofs.Session.ReturnCodes
import LineShell.Proofs.Session.TypedText
import LineShell.Proofs.Session.Unrecorded
import LineShell.Proofs.Session.Waiting
import LineShell.Proofs.Text.Cut
import LineShell.Proofs.Text.Numeral
import LineShell.Proofs.Text.Spelled
import LineShell.Proofs.Text.Utf8
import LineShell.Session.Basic
import LineShell.Session.Drive
import LineShell.Session.Routine
import LineShell.Settings
import LineShell.Stream
import LineShell.Text.Blank
import LineShell.Text.Decimal
import LineShell.Text.Numeral
import LineShell.Text.Search
import LineShell.Text.Utf8
import LineShell.Text.WordCharacter
import LineShell.Value
import LineShell.WorkingDirectory
