import CompressionSweep.Algorithm
import CompressionSweep.Call.Ending
import CompressionSweep.Call.Launch
import CompressionSweep.Call.Lines
import CompressionSweep.Call.Machine
import CompressionSweep.Call.Schedule
import CompressionSweep.CommandLine.Command
import CompressionSweep.CommandLine.Options
import CompressionSweep.CommandLine.Usage
import CompressionSweep.Comparison
import CompressionSweep.Decimal.Nearest
import CompressionSweep.Decimal.Notation
import CompressionSweep.Decimal.Shortest
import CompressionSweep.Document
import CompressionSweep.Document.Decoder
import CompressionSweep.Document.Printer
import CompressionSweep.FileTree.Basic
import CompressionSweep.FileTree.Error
import CompressionSweep.FileTree.Path
import CompressionSweep.FileTree.Save
import CompressionSweep.Json.Problem
import CompressionSweep.Json.Reader
import CompressionSweep.Json.Value
import CompressionSweep.Main
import CompressionSweep.Measurement
import CompressionSweep.Measurement.Line
import CompressionSweep.Pattern.Ast
import CompressionSweep.Pattern.Property
import CompressionSweep.Pattern.Reader
import CompressionSweep.Pattern.Valid
import CompressionSweep.Program
import CompressionSweep.Proofs.Decimal.Bits
import CompressionSweep.Proofs.Decimal.Finite
import CompressionSweep.Proofs.Decimal.ReadBack
import CompressionSweep.Proofs.Document.Codec
import CompressionSweep.Proofs.Document.Decoded
import CompressionSweep.Proofs.Document.Members
import CompressionSweep.Proofs.Document.Storable
import CompressionSweep.Proofs.FileTree.Entries
import CompressionSweep.Proofs.FileTree.Save
import CompressionSweep.Proofs.Json.Number
import CompressionSweep.Proofs.Json.Takes
import CompressionSweep.Proofs.Json.Yields
import CompressionSweep.Proofs.RoundTrip
import CompressionSweep.Proofs.Sweep.Control
import CompressionSweep.Proofs.Sweep.Durability
import CompressionSweep.Proofs.Sweep.Filing
import CompressionSweep.Proofs.Sweep.Invariant
import CompressionSweep.Proofs.Sweep.Order
import CompressionSweep.Proofs.Sweep.Projection
import CompressionSweep.Proofs.Sweep.Record
import CompressionSweep.Report.Cell
import CompressionSweep.Report.Table
import CompressionSweep.Setup
import CompressionSweep.Shell.Arithmetic
import CompressionSweep.Shell.Behaviour
import CompressionSweep.Shell.Builtin
import CompressionSweep.Shell.Command
import CompressionSweep.Shell.Evaluation
import CompressionSweep.Shell.Executable
import CompressionSweep.Shell.Expansion
import CompressionSweep.Shell.Format
import CompressionSweep.Shell.Glob
import CompressionSweep.Shell.Grammar
import CompressionSweep.Shell.Program
import CompressionSweep.Shell.Redirect
import CompressionSweep.Shell.State
import CompressionSweep.Shell.Token
import CompressionSweep.Shell.Utility
import CompressionSweep.Statistics
import CompressionSweep.Store
import CompressionSweep.Sweep
import CompressionSweep.Text.Blank
import CompressionSweep.Text.CodePoints
import CompressionSweep.Text.DecimalDigit
import CompressionSweep.Text.Letter
import CompressionSweep.Text.Quoted
import CompressionSweep.Text.Utf8
import CompressionSweep.Text.Visible
import CompressionSweep.Text.WordCharacter
import CompressionSweep.Proofs.Persistence
import CompressionSweep.Proofs.Document.Arrivals
import CompressionSweep.Proofs.Statistics.Groups
import CompressionSweep.Proofs.Sweep.Independence
import CompressionSweep.Proofs.Statistics.ArrivalOrder
import CompressionSweep.Proofs.Comparison.Names
import CompressionSweep.Proofs.Sweep.Isolation
import CompressionSweep.Proofs.Call.Lines
import CompressionSweep.Proofs.Call.Delivery
import CompressionSweep.Proofs.Call.Child
import CompressionSweep.Proofs.Call.Course
import CompressionSweep.Proofs.Call.Deadline
import CompressionSweep.Proofs.Call.Interruption
import CompressionSweep.Proofs.Sweep.Interruption
import CompressionSweep.Proofs.Document.Grouping
import CompressionSweep.Proofs.Sweep.Keys
import CompressionSweep.Proofs.FileTree.Directory
import CompressionSweep.Proofs.Output
import CompressionSweep.Proofs.Program.Exit
import CompressionSweep.Proofs.Text.ByteOrder
import CompressionSweep.Proofs.Statistics.Files
import CompressionSweep.Proofs.Document.Merging
import CompressionSweep.Proofs.Decimal.Rounding
import CompressionSweep.Proofs.Measurement.Noise
import CompressionSweep.Proofs.Statistics.Aggregate
import CompressionSweep.Proofs.Statistics.Partition
import CompressionSweep.Proofs.Statistics.MeasuredRuns
import CompressionSweep.Proofs.Comparison.Rows
import CompressionSweep.Proofs.Report.Summary
import CompressionSweep.Proofs.Comparison.Percentages
import CompressionSweep.Proofs.Comparison.Identity
import CompressionSweep.Proofs.Statistics.Totals
import CompressionSweep.Proofs.Text.Decoding
import CompressionSweep.Proofs.Call.Characters
import CompressionSweep.Proofs.Call.Reassembly
import CompressionSweep.Proofs.Report.Agreement
import CompressionSweep.Proofs.Decimal.Thousands
import CompressionSweep.Proofs.Tool
import CompressionSweep.Proofs.Json.Grammar
import CompressionSweep.Proofs.Json.Skip
import CompressionSweep.Proofs.Json.Items
import CompressionSweep.Proofs.Json.Structs
import CompressionSweep.Proofs.ForeignTexts
