import DatalogStrata.Clause.Equality
import DatalogStrata.Clause.Occurrence
import DatalogStrata.Clause.Text
import DatalogStrata.Declaration
import DatalogStrata.Program.Decode
import DatalogStrata.Program.Encode
import DatalogStrata.Program.Resolver
import DatalogStrata.Component.Assembly
import DatalogStrata.Component.Search
import DatalogStrata.Precedence
import DatalogStrata.Stratum.Basic
import DatalogStrata.Stratum.Filling
import DatalogStrata.Diagram.Page
import DatalogStrata.Diagram.Reader
import DatalogStrata.Diagram.Script
import DatalogStrata.Files.Tree
import DatalogStrata.Gzip.Decoder
import DatalogStrata.Log.Filter
import DatalogStrata.CommandLine.Tool
import DatalogStrata.CommandLine.Report
import DatalogStrata.CommandLine.Rendering
import DatalogStrata.Main
import DatalogStrata.Output.Desk
import DatalogStrata.Output.Layout
import DatalogStrata.Output.Journal
import DatalogStrata.Proofs.Graph.WellFormed
import DatalogStrata.Proofs.Graph.Listing
import DatalogStrata.Proofs.Graph.Reachability
import DatalogStrata.Proofs.FirstOccurrence
import DatalogStrata.Proofs.Traversal
import DatalogStrata.Proofs.Graph.FirstInsertion
import DatalogStrata.Proofs.Graph.History
import DatalogStrata.Proofs.Graph.Relisting
import DatalogStrata.Proofs.Graph.Checked
import DatalogStrata.Proofs.Precedence.Neighbours
import DatalogStrata.Proofs.Precedence.VertexOrder
import DatalogStrata.Proofs.Component.Invariant
import DatalogStrata.Proofs.Component.Step
import DatalogStrata.Proofs.Component.Run
import DatalogStrata.Proofs.Component.Recursion
import DatalogStrata.Proofs.Component.Members
import DatalogStrata.Proofs.Component.Representation
import DatalogStrata.Proofs.Component.Decomposition
import DatalogStrata.Proofs.Component.Unwinding
import DatalogStrata.Proofs.Component.Condensation
import DatalogStrata.Proofs.Component.Watch
import DatalogStrata.Proofs.Component.LoopHead
import DatalogStrata.Proofs.Component.Tally
import DatalogStrata.Proofs.Component.Assembly
import DatalogStrata.Proofs.Stratum.Agenda
import DatalogStrata.Proofs.Stratum.Schedule
import DatalogStrata.Proofs.Stratum.Countdown
import DatalogStrata.Proofs.Stratum.Layering
import DatalogStrata.Proofs.Clause.Occurrence
import DatalogStrata.Proofs.Clause.Preorder
import DatalogStrata.Proofs.Clause.Tree
import DatalogStrata.Proofs.Dependency
import DatalogStrata.Proofs.Precedence
import DatalogStrata.Proofs.Stratum.Negation
import DatalogStrata.Proofs.Stratum.Strata
import DatalogStrata.Proofs.Graph.Tables
import DatalogStrata.Proofs.Stratum.Heads
import DatalogStrata.Proofs.Stratum.Reads
import DatalogStrata.Proofs.Stratum.Filling
import DatalogStrata.Proofs.Stratum.Inputs
import DatalogStrata.Proofs.Stratum.Agreement
import DatalogStrata.Proofs.Stratum.Rejection
import DatalogStrata.Proofs.Stratum.Priority
import DatalogStrata.Proofs.Program.Index
import DatalogStrata.Proofs.Program.Rearrangement
import DatalogStrata.Proofs.Declaration
import DatalogStrata.Proofs.Json.Shape
import DatalogStrata.Proofs.Json.Assembly
import DatalogStrata.Proofs.Json.Scanning
import DatalogStrata.Proofs.Json.RoundTrip
import DatalogStrata.Proofs.Clause.Coding
import DatalogStrata.Proofs.Clause.Loading
import DatalogStrata.Proofs.Program.RoundTrip
import DatalogStrata.Proofs.Program.Saving
import DatalogStrata.Proofs.Program.Validity
import DatalogStrata.Proofs.Program.Buckets
import DatalogStrata.Proofs.Program.FirstFault
import DatalogStrata.Proofs.Program.Naming
import DatalogStrata.Proofs.Text
import DatalogStrata.Proofs.Text.Replacement
import DatalogStrata.Proofs.Diagram.Decoding
import DatalogStrata.Proofs.Diagram.Escaping
import DatalogStrata.Proofs.Diagram.Script
import DatalogStrata.Proofs.Diagram.Page
import DatalogStrata.Proofs.Files.Bytes
import DatalogStrata.Proofs.Files.Tree
import DatalogStrata.Proofs.Gzip.Bits
import DatalogStrata.Proofs.Gzip.Blocks
import DatalogStrata.Proofs.Gzip.Encoder
import DatalogStrata.Proofs.Output.Sink
import DatalogStrata.Proofs.Output.Compressor
import DatalogStrata.Proofs.Output.Table
import DatalogStrata.Proofs.Output.ReadBack
import DatalogStrata.Proofs.Output.Journal
import DatalogStrata.Proofs.Output.Desk
import DatalogStrata.Proofs.Output.Sessions
import DatalogStrata.Proofs.Output.Storage
import DatalogStrata.Proofs.CommandLine.Simulation
import DatalogStrata.Proofs.CommandLine.Batch
import DatalogStrata.Proofs.CommandLine.Rendering
