import LineRepl.Attempt
import LineRepl.Buffer.Basic
import LineRepl.Buffer.Index
import LineRepl.Build.Date
import LineRepl.Build.Duration
import LineRepl.Build.Journal
import LineRepl.Build.Report
import LineRepl.Build.Toolchain
import LineRepl.Command.Basic
import LineRepl.Command.Dispatch
import LineRepl.Command.Grammar
import LineRepl.Failure
import LineRepl.Files.Path
import LineRepl.Files.Tree
import LineRepl.Main
import LineRepl.Proofs.AlikeSessions
import LineRepl.Proofs.BufferPages
import LineRepl.Proofs.BufferSteps
import LineRepl.Proofs.ClosedPages
import LineRepl.Proofs.ClosedSessions
import LineRepl.Proofs.ClosingLine
import LineRepl.Proofs.ColouredPages
import LineRepl.Proofs.Commits
import LineRepl.Proofs.Consent
import LineRepl.Proofs.Durations
import LineRepl.Proofs.EncodedLine
import LineRepl.Proofs.Ends
import LineRepl.Proofs.FailedLines
import LineRepl.Proofs.FileLaws
import LineRepl.Proofs.FilesApart
import LineRepl.Proofs.FoundCommands
import LineRepl.Proofs.FreshRows
import LineRepl.Proofs.HomePaths
import LineRepl.Proofs.KeyDecoding
import LineRepl.Proofs.KeyStreams
import LineRepl.Proofs.LineEditor
import LineRepl.Proofs.LineEffects
import LineRepl.Proofs.Listings
import LineRepl.Proofs.Lockstep
import LineRepl.Proofs.LogFiles
import LineRepl.Proofs.MissingFiles
import LineRepl.Proofs.Observed
import LineRepl.Proofs.Offsets
import LineRepl.Proofs.Outlooks
import LineRepl.Proofs.Page
import LineRepl.Proofs.Precedence
import LineRepl.Proofs.PrintableLines
import LineRepl.Proofs.RawMode
import LineRepl.Proofs.RecallGaps
import LineRepl.Proofs.RecallOrder
import LineRepl.Proofs.Recalls
import LineRepl.Proofs.Recovery
import LineRepl.Proofs.Refusals
import LineRepl.Proofs.RefusedLoads
import LineRepl.Proofs.RememberedLines
import LineRepl.Proofs.Removals
import LineRepl.Proofs.Reports
import LineRepl.Proofs.Resealing
import LineRepl.Proofs.SessionEndings
import LineRepl.Proofs.SessionInvariants
import LineRepl.Proofs.SessionPages
import LineRepl.Proofs.SessionRounds
import LineRepl.Proofs.SessionRules
import LineRepl.Proofs.ShadowedSettings
import LineRepl.Proofs.ShownLine
import LineRepl.Proofs.Spellings
import LineRepl.Proofs.SplitLine
import LineRepl.Proofs.StartingOver
import LineRepl.Proofs.StoppedChanges
import LineRepl.Proofs.StoreAgreement
import LineRepl.Proofs.StoreInvariants
import LineRepl.Proofs.StoreLaws
import LineRepl.Proofs.StoredBytes
import LineRepl.Proofs.StoredLines
import LineRepl.Proofs.SubmittedLines
import LineRepl.Proofs.TerminalFailures
import LineRepl.Proofs.TerminalRow
import LineRepl.Proofs.Tokens
import LineRepl.Proofs.ToolCalls
import LineRepl.Proofs.TypedInserts
import LineRepl.Proofs.TypedLines
import LineRepl.Proofs.Writes
import LineRepl.Release
import LineRepl.Session.Basic
import LineRepl.Session.Rehearsal
import LineRepl.Session.Run
import LineRepl.Session.Workshop
import LineRepl.Settings.Basic
import LineRepl.Settings.Fields
import LineRepl.Settings.Load
import LineRepl.Shell.Arithmetic
import LineRepl.Shell.Builtin
import LineRepl.Shell.Condition
import LineRepl.Shell.Format
import LineRepl.Shell.Pattern
import LineRepl.Shell.Process
import LineRepl.Shell.Run
import LineRepl.Shell.Script
import LineRepl.Shell.Syntax
import LineRepl.Shell.Tool
import LineRepl.Startup.Options
import LineRepl.Startup.Preflight
import LineRepl.Startup.Program
import LineRepl.Startup.SourceFile
import LineRepl.Store.Basic
import LineRepl.Store.Disk
import LineRepl.Store.Faulty
import LineRepl.Store.Place
import LineRepl.Terminal.EditLine
import LineRepl.Terminal.Escape
import LineRepl.Terminal.History
import LineRepl.Terminal.Input
import LineRepl.Terminal.Key
import LineRepl.Terminal.Mode
import LineRepl.Terminal.Reader
import LineRepl.Terminal.Screen
import LineRepl.Terminal.Sink
import LineRepl.Text.Basic
import LineRepl.Text.Blank
import LineRepl.Text.CaseTable
import LineRepl.Text.Lines
import LineRepl.Text.Lower
import LineRepl.Text.Number
import LineRepl.Text.Utf8
import LineRepl.Toml.Document
import LineRepl.Toml.Scan
import LineRepl.Toml.Value
