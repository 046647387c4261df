import ChangePairs.Console.LogFile
import ChangePairs.Main
import ChangePairs.Statement.ParserCache
import ChangePairs.Proofs.Diff.Section
import ChangePairs.Proofs.Diff.Header
import ChangePairs.Proofs.Diff.Unified
import ChangePairs.Proofs.Diff.Numbering
import ChangePairs.Proofs.Snapshot
import ChangePairs.Proofs.Reduction.Hunks
import ChangePairs.Proofs.Diff.DigitLimit
import ChangePairs.Proofs.Reduction.Escape
import ChangePairs.Proofs.Statement.Outline
import ChangePairs.Proofs.Statement.Span
import ChangePairs.Proofs.Statement.Layout
import ChangePairs.Proofs.Correlation
import ChangePairs.Proofs.Correlation.Interior
import ChangePairs.Proofs.Snapshot.Slicing
import ChangePairs.Proofs.Diff.Opening
import ChangePairs.Proofs.Reduction.Account
import ChangePairs.Proofs.Reversal
import ChangePairs.Proofs.Correlation.Position
import ChangePairs.Proofs.Reduction.Newline
import ChangePairs.Proofs.Git.Source
import ChangePairs.Proofs.Collection
import ChangePairs.Proofs.Result
import ChangePairs.Proofs.Reduction.Outcome
import ChangePairs.Proofs.Session.Interaction
import ChangePairs.Proofs.Session.Target
import ChangePairs.Proofs.Diff.Grammar
import ChangePairs.Proofs.Reduction.Hunkless
import ChangePairs.Proofs.Git.Commit
import ChangePairs.Proofs.Number.Double
import ChangePairs.Proofs.Submission
import ChangePairs.Proofs.Diff.Concatenation
import ChangePairs.Proofs.Correlation.Indifference
import ChangePairs.Proofs.Snapshot.Excerpt
import ChangePairs.Proofs.Pairing
import ChangePairs.Proofs.Correlation.Widening
import ChangePairs.Proofs.Path
import ChangePairs.Proofs.Shell
import ChangePairs.Proofs.Git.Quoting
import ChangePairs.Proofs.Url.Basic
import ChangePairs.Proofs.Url.Form
import ChangePairs.Proofs.StudioLink
import ChangePairs.Proofs.Reduction.Report
import ChangePairs.Proofs.Statement.ParserCache
import ChangePairs.Proofs.Path.Normal
import ChangePairs.Proofs.Session.Resolution
import ChangePairs.Proofs.Settings.Load
import ChangePairs.Proofs.Settings.Layers
import ChangePairs.Proofs.Settings.Extension
import ChangePairs.Proofs.Console.Selection
import ChangePairs.Proofs.Console.LogFile
import ChangePairs.Proofs.Session.Discovery
