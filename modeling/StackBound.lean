import StackBound.Annotation
import StackBound.Browser
import StackBound.Budget
import StackBound.Cache.Directory
import StackBound.Cache.Key
import StackBound.Cache.Store
import StackBound.CallGraph.Dump
import StackBound.CallGraph.Graph
import StackBound.CallGraph.Resolution
import StackBound.CommandLine.Flag
import StackBound.CommandLine.Footprint
import StackBound.CommandLine.Reply
import StackBound.CommandLine.Request
import StackBound.Deflate.Code
import StackBound.Deflate.Inflate
import StackBound.Deflate.Source
import StackBound.Deflate.Zlib
import StackBound.Digest.Adler32
import StackBound.Digest.Sha256
import StackBound.Digest.XxHash64
import StackBound.Discovery
import StackBound.Drawing.Dot
import StackBound.Drawing.ViewBox
import StackBound.Duration
import StackBound.Event
import StackBound.Fault
import StackBound.Instant
import StackBound.Json.Reader
import StackBound.Json.Token
import StackBound.Json.Value
import StackBound.Log
import StackBound.Main
import StackBound.Number.Binary
import StackBound.Number.Literal
import StackBound.Path
import StackBound.Project
import StackBound.Proofs.Budget
import StackBound.Proofs.CallGraph.Edges
import StackBound.Proofs.CallPath
import StackBound.Proofs.Evaluation
import StackBound.Proofs.Isolation
import StackBound.Proofs.Text.SortedSet
import StackBound.Proofs.WorstCase.Agreement
import StackBound.Proofs.WorstCase.Bound
import StackBound.Proofs.WorstCase.Cycle
import StackBound.Proofs.WorstCase.Order
import StackBound.Proofs.WorstCase.Recursion
import StackBound.Proofs.WorstCase.Steps
import StackBound.Reach
import StackBound.Report
import StackBound.Run.Analysis
import StackBound.Run.Fetch
import StackBound.Run.Options
import StackBound.Run.Summary
import StackBound.RunId
import StackBound.Scenario
import StackBound.Screen.Grid
import StackBound.Screen.Line
import StackBound.Screen.Pen
import StackBound.Screen.Piece
import StackBound.Screen.Summary
import StackBound.Screen.Wrap
import StackBound.StackUsage.Record
import StackBound.StackUsage.Table
import StackBound.Stored
import StackBound.Symbol
import StackBound.Text.Base64
import StackBound.Text.Blank
import StackBound.Text.Bytes
import StackBound.Text.Cluster
import StackBound.Text.Combining
import StackBound.Text.Csv
import StackBound.Text.Escape
import StackBound.Text.Folded
import StackBound.Text.Lines
import StackBound.Text.Lower
import StackBound.Text.Picture
import StackBound.Text.Printable
import StackBound.Text.Quoted
import StackBound.Text.Range
import StackBound.Text.Utf8
import StackBound.Text.Width
import StackBound.Toml.Document
import StackBound.Toml.Literal
import StackBound.Toml.Statement
import StackBound.Tree
import StackBound.Vector.Elf
import StackBound.Vector.Image
import StackBound.Version
import StackBound.Warning
import StackBound.WorstCase.Program
import StackBound.WorstCase.Result
import StackBound.WorstCase.Search
import StackBound.Zstandard.Bits
import StackBound.Zstandard.Code
import StackBound.Zstandard.Failure
import StackBound.Zstandard.Frame
import StackBound.Zstandard.Literals
import StackBound.Zstandard.Sequences
import StackBound.Zstandard.States
import StackBound.Proofs.CallGraph.Resolution
import StackBound.Proofs.Json.Token
import StackBound.Proofs.StackUsage.Charge
import StackBound.Proofs.Text.Base64
import StackBound.Proofs.Json.Value
import StackBound.Proofs.Json.Reader
import StackBound.Proofs.Stored
import StackBound.Proofs.Path
import StackBound.Proofs.Tree
import StackBound.Proofs.Cache.Entry
import StackBound.Proofs.Cache.Key
import StackBound.Proofs.Cache.Directory
import StackBound.Proofs.Run.Direct
import StackBound.Proofs.Run.History
import StackBound.Proofs.WorstCase.Iteration
import StackBound.Proofs.WorstCase.Memo
import StackBound.Proofs.WorstCase.Overflow
import StackBound.Proofs.CallGraph.Callers
import StackBound.Proofs.WorstCase.Figures
import StackBound.Proofs.WorstCase.Monotone
import StackBound.Proofs.FileOrder
import StackBound.Proofs.Labels
import StackBound.Proofs.Report
import StackBound.Proofs.WorstCase.Trail
import StackBound.Proofs.Reach
import StackBound.Proofs.Run.Fallback
import StackBound.Proofs.Text.Quoted
import StackBound.Proofs.Drawing
import StackBound.Proofs.Text.Lines
import StackBound.Proofs.Text.Words
import StackBound.Proofs.CallGraph.DumpLine
import StackBound.Proofs.CallGraph.Blocks
import StackBound.Proofs.StackUsage.Listing
import StackBound.Proofs.Annotation
import StackBound.Proofs.Text.Run
import StackBound.Proofs.Instant
import StackBound.Proofs.Cache.History
import StackBound.Proofs.Cache.Contents
import StackBound.Proofs.Cache.Expiry
import StackBound.Proofs.FirstSeen
import StackBound.Proofs.StackUsage.History
import StackBound.Proofs.CallGraph.Order
import StackBound.Proofs.Vector.Words
import StackBound.Proofs.Vector.Handlers
import StackBound.Proofs.Run.Evaluated
import StackBound.Proofs.WorstCase.Breakdown
import StackBound.Proofs.Drawing.ReadBack
import StackBound.Proofs.CommandLine.Precedence
import StackBound.Proofs.Run.Entries
import StackBound.Proofs.Run.Options
import StackBound.Proofs.Browser
import StackBound.Proofs.Cache.Envelope
import StackBound.Proofs.Tree.Plain
import StackBound.Proofs.Discovery
import StackBound.Proofs.CallGraph.Overlay
import StackBound.Proofs.Annotation.Overlay
import StackBound.Proofs.Text.Glyphs
import StackBound.Proofs.Text.Trim
import StackBound.Proofs.Symbol
import StackBound.Proofs.Symbol.Stable
