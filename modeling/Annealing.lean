import Annealing.Acceptance
import Annealing.CommandLine.Arguments
import Annealing.CommandLine.Program
import Annealing.Configuration
import Annealing.Dataset
import Annealing.Document.Json.Reader
import Annealing.Document.Json.Writer
import Annealing.Document.Yaml.Cursor
import Annealing.Document.Yaml.Node
import Annealing.Document.Yaml.Number
import Annealing.Document.Yaml.Reader
import Annealing.Document.Yaml.Scalar
import Annealing.Document.Yaml.Schema
import Annealing.Document.Yaml.Token
import Annealing.Effect
import Annealing.Fault
import Annealing.Fault.Message
import Annealing.Grouping.Basic
import Annealing.Grouping.Canonical
import Annealing.Grouping.Cost
import Annealing.Grouping.Strategy
import Annealing.Grouping.Swap
import Annealing.Grouping.Table
import Annealing.Grouping.Validity
import Annealing.Main
import Annealing.Number.Binary64
import Annealing.Number.Layout
import Annealing.Number.Numeral
import Annealing.Number.Power
import Annealing.Number.Shortest
import Annealing.Options
import Annealing.Packed.BitCursor
import Annealing.Packed.Bzip
import Annealing.Packed.Checksum
import Annealing.Packed.CodePage
import Annealing.Packed.Contents
import Annealing.Packed.Deflate
import Annealing.Packed.Digest
import Annealing.Packed.Gzip
import Annealing.Packed.Lzma
import Annealing.Packed.Message
import Annealing.Packed.Problem
import Annealing.Packed.Scramble
import Annealing.Packed.Tape
import Annealing.Packed.Unpack
import Annealing.Packed.Xz
import Annealing.Packed.Zip
import Annealing.Preferences
import Annealing.Preferences.Size
import Annealing.Preferences.Table
import Annealing.Proofs.Acceptance
import Annealing.Proofs.Configuration.Load
import Annealing.Proofs.Dataset.Rated
import Annealing.Proofs.Dataset.Rows
import Annealing.Proofs.Dataset.Safety
import Annealing.Proofs.Dataset.Stable
import Annealing.Proofs.Document.Json.Native
import Annealing.Proofs.Document.Json.Number
import Annealing.Proofs.Document.Json.Quote
import Annealing.Proofs.Document.Json.Refusal
import Annealing.Proofs.Document.Json.Return
import Annealing.Proofs.Document.Json.Written
import Annealing.Proofs.Effect
import Annealing.Proofs.Grouping.Best
import Annealing.Proofs.Grouping.ByKey
import Annealing.Proofs.Grouping.Canonical
import Annealing.Proofs.Grouping.Cost
import Annealing.Proofs.Grouping.Draw
import Annealing.Proofs.Grouping.Exchange
import Annealing.Proofs.Grouping.Exchanged
import Annealing.Proofs.Grouping.Grouped
import Annealing.Proofs.Grouping.Proposal
import Annealing.Proofs.Grouping.Reach
import Annealing.Proofs.Grouping.Readings
import Annealing.Proofs.Grouping.Rearranged
import Annealing.Proofs.Grouping.Requests
import Annealing.Proofs.Grouping.Score
import Annealing.Proofs.Grouping.Stored
import Annealing.Proofs.Grouping.Swaps
import Annealing.Proofs.Grouping.Validity
import Annealing.Proofs.Number.Layout
import Annealing.Proofs.Number.Logarithm
import Annealing.Proofs.Number.Mixed
import Annealing.Proofs.Number.Monotone
import Annealing.Proofs.Number.Nearest
import Annealing.Proofs.Number.Operations
import Annealing.Proofs.Number.Order
import Annealing.Proofs.Number.Product
import Annealing.Proofs.Number.Quotient
import Annealing.Proofs.Number.Rounding
import Annealing.Proofs.Number.Shortest
import Annealing.Proofs.Number.Signed
import Annealing.Proofs.Number.Units
import Annealing.Proofs.Options
import Annealing.Proofs.Options.ByName
import Annealing.Proofs.Preferences.Rated
import Annealing.Proofs.Preferences.Size
import Annealing.Proofs.Preferences.Table
import Annealing.Proofs.Random.Bounds
import Annealing.Proofs.Report.Groups
import Annealing.Proofs.Report.Log
import Annealing.Proofs.Report.Parameters
import Annealing.Proofs.Report.Summary
import Annealing.Proofs.Report.Tables
import Annealing.Proofs.Run.Agreement
import Annealing.Proofs.Run.Artifacts
import Annealing.Proofs.Run.Leaves
import Annealing.Proofs.Run.Publish
import Annealing.Proofs.Schedule.ClosedForm
import Annealing.Proofs.Schedule.Cooling
import Annealing.Proofs.Schedule.Count
import Annealing.Proofs.Schedule.Estimate
import Annealing.Proofs.Schedule.Levels
import Annealing.Proofs.Search.Agenda
import Annealing.Proofs.Search.Attempt
import Annealing.Proofs.Search.Calls
import Annealing.Proofs.Search.Coherence
import Annealing.Proofs.Search.Contents
import Annealing.Proofs.Search.Course
import Annealing.Proofs.Search.Extension
import Annealing.Proofs.Search.Failure
import Annealing.Proofs.Search.InPlace
import Annealing.Proofs.Search.Interruption
import Annealing.Proofs.Search.Journal
import Annealing.Proofs.Search.Leader
import Annealing.Proofs.Search.Logged
import Annealing.Proofs.Search.Minimum
import Annealing.Proofs.Search.Mirror
import Annealing.Proofs.Search.Safety
import Annealing.Proofs.Search.Shelter
import Annealing.Proofs.Search.Sight
import Annealing.Proofs.Search.Tally
import Annealing.Proofs.Search.Termination
import Annealing.Proofs.Search.Thinning
import Annealing.Proofs.Search.Transcript
import Annealing.Proofs.Storage.Tree
import Annealing.Proofs.Table.Integers
import Annealing.Proofs.Table.Load
import Annealing.Proofs.Table.Named
import Annealing.Proofs.Table.Pairs
import Annealing.Proofs.Table.Records
import Annealing.Proofs.Table.Scores
import Annealing.Proofs.Text.Plain
import Annealing.Proofs.Text.Utf8
import Annealing.Proofs.Text.Whole
import Annealing.Proofs.Traversal
import Annealing.Proofs.Value.Entries
import Annealing.Proofs.Value.Show
import Annealing.Random.Generator
import Annealing.Random.Seed
import Annealing.Report.Archive
import Annealing.Report.Groups
import Annealing.Report.Row
import Annealing.Report.Summary
import Annealing.Run
import Annealing.Schedule
import Annealing.Schedule.Estimate
import Annealing.Search
import Annealing.Search.Script
import Annealing.Storage.Basic
import Annealing.Storage.Content
import Annealing.Storage.Disk
import Annealing.Storage.Path
import Annealing.Storage.Tree
import Annealing.Table.Basic
import Annealing.Table.Column
import Annealing.Table.Literal
import Annealing.Table.Load
import Annealing.Table.Quoted
import Annealing.Table.Record
import Annealing.Table.Word
import Annealing.Text.Basic
import Annealing.Text.Blank
import Annealing.Text.Digit
import Annealing.Text.LineEnd
import Annealing.Text.Printable
import Annealing.Text.Quoted
import Annealing.Text.Small
import Annealing.Text.Utf8
import Annealing.Value.Arithmetic
import Annealing.Value.Basic
import Annealing.Value.Compare
import Annealing.Value.Convert
import Annealing.Value.Entries
import Annealing.Value.SetOrder
import Annealing.Value.Shape
import Annealing.Value.Show
import Annealing.Value.Sort
import Annealing.Value.Sort.Merge
import Annealing.Value.Sort.Search
