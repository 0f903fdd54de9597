import ListMode.Coincidence.Builder
import ListMode.Coincidence.Event
import ListMode.Command.Arguments
import ListMode.Command.Report
import ListMode.Command.Request
import ListMode.Command.Run
import ListMode.Command.Timing
import ListMode.Decimal.Binary
import ListMode.Decimal.Fixed
import ListMode.Decimal.Notation
import ListMode.Decimal.Read
import ListMode.Decimal.Shortest
import ListMode.Decoder.Basic
import ListMode.Decoder.Schema
import ListMode.Decoder.Settings
import ListMode.Detector
import ListMode.Export.Dense
import ListMode.Export.Listing
import ListMode.Export.RunLength
import ListMode.Export.Script
import ListMode.Folder
import ListMode.Gates
import ListMode.Hit.Basic
import ListMode.Hit.Digitized
import ListMode.Hit.Model
import ListMode.Hit.Stream
import ListMode.Hit.Waveform
import ListMode.Json.Node
import ListMode.Json.Shape
import ListMode.Json.Value
import ListMode.Main
import ListMode.Pipeline.Queue
import ListMode.Pipeline.Replay
import ListMode.Pipeline.Session
import ListMode.Pipeline.Sizing
import ListMode.Record.Block
import ListMode.Record.Buffer
import ListMode.Record.Clock
import ListMode.Record.Encoder
import ListMode.Record.Fault
import ListMode.Record.Format
import ListMode.Record.Header
import ListMode.RingBuffer
import ListMode.Room
import ListMode.Scan
import ListMode.Spectrum.Basic
import ListMode.Spectrum.Cells
import ListMode.Spectrum.Counts
import ListMode.Spectrum.Edit
import ListMode.Spectrum.Files
import ListMode.Spectrum.Metadata
import ListMode.Spectrum.Transpose
import ListMode.Spill
import ListMode.Table
import ListMode.Text.Blank
import ListMode.Text.Date
import ListMode.Text.Hex
import ListMode.Text.Integer
import ListMode.Text.Lines
import ListMode.Text.Printable
import ListMode.Text.Quoted
import ListMode.Text.Utf8
import ListMode.Time
import ListMode.Topology
import ListMode.Word.Basic
import ListMode.Word.Cursor
import ListMode.Word.IndexCursor
import ListMode.Proofs.Coincidence.Conservation
import ListMode.Proofs.Spectrum.Feeding
import ListMode.Proofs.Spectrum.Counting
import ListMode.Proofs.Spectrum.HitConservation
import ListMode.Proofs.Decoder.Hits
import ListMode.Proofs.Decoder.RoundTrip
import ListMode.Proofs.Pipeline.Ledger
import ListMode.Proofs.Pipeline.Replay
import ListMode.Proofs.Spectrum.SpillSize
import ListMode.Proofs.Coincidence.Formation
import ListMode.Proofs.Record.Clock
import ListMode.Proofs.Spectrum.Bookkeeping
import ListMode.Proofs.Spectrum.Atomicity
import ListMode.Proofs.Coincidence.Pairing
import ListMode.Proofs.Spectrum.ReadoutOrder
import ListMode.Proofs.Record.Interruption
import ListMode.Proofs.Scan.Agreement
import ListMode.Proofs.Text.Tokens
import ListMode.Proofs.Text.Lines
import ListMode.Proofs.Decimal.Whole
import ListMode.Proofs.Export.Listing
import ListMode.Proofs.Export.RunLength
import ListMode.Proofs.Export.Dense
import ListMode.Proofs.Outcome
import ListMode.Proofs.Folder
import ListMode.Proofs.Spectrum.Extent
import ListMode.Proofs.Spectrum.Files
import ListMode.Proofs.Hit.Layout
import ListMode.Proofs.Hit.Stream
import ListMode.Proofs.Decoder.Continuation
import ListMode.Proofs.Pipeline.SharedQueue
import ListMode.Proofs.Spectrum.GatedCounts
import ListMode.Proofs.Binary64.Nearest
import ListMode.Proofs.Binary64.Rounding
import ListMode.Proofs.Binary64.Arithmetic
import ListMode.Proofs.Time.Nanoseconds
import ListMode.Proofs.Coincidence.Closing
import ListMode.Proofs.Spectrum.Growth
import ListMode.Proofs.Spectrum.Renewal
import ListMode.Proofs.Spectrum.RangeReads
import ListMode.Proofs.Spectrum.BufferedReads
import ListMode.Proofs.Spectrum.Relevance
import ListMode.Proofs.Decoder.WellFormed
import ListMode.Proofs.Decoder.Routing
import ListMode.Proofs.Pipeline.Failures
import ListMode.Proofs.Pipeline.Progress
import ListMode.Proofs.Export.Naming
import ListMode.Proofs.Export.Recoding
import ListMode.Proofs.Spectrum.TextCounts
import ListMode.Proofs.Spectrum.Symmetry
import ListMode.Proofs.Spectrum.Replacements
import ListMode.Proofs.Time.Order
import ListMode.Proofs.Scan.Resumption
import ListMode.Proofs.Scan.Leftover
import ListMode.Proofs.Pipeline.Calls
import ListMode.Proofs.Export.BlankLines
import ListMode.Proofs.Word.Windows
import ListMode.Proofs.Coincidence.StartOrder
import ListMode.Proofs.Coincidence.ClockShift
