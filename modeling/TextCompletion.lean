import TextCompletion.Architecture
import TextCompletion.Candidate
import TextCompletion.CommandLine
import TextCompletion.Decimal.Binary
import TextCompletion.Decimal.Reading
import TextCompletion.Decimal.Shortest
import TextCompletion.Failure
import TextCompletion.Family
import TextCompletion.FileTree
import TextCompletion.Generation.Distribution
import TextCompletion.Generation.Random
import TextCompletion.Generation.Sampling
import TextCompletion.Generation.Stop
import TextCompletion.Generation.TokenLoop
import TextCompletion.Json.Cursor
import TextCompletion.Json.Fault
import TextCompletion.Json.Number
import TextCompletion.Json.Printer
import TextCompletion.Json.Reader
import TextCompletion.Json.Record
import TextCompletion.Json.Shape
import TextCompletion.Json.Text
import TextCompletion.Json.Value
import TextCompletion.Log
import TextCompletion.Main
import TextCompletion.Model.Arithmetic
import TextCompletion.Model.Assembly
import TextCompletion.Model.Attention
import TextCompletion.Model.Basic
import TextCompletion.Model.Causal
import TextCompletion.Model.EncoderDecoder
import TextCompletion.Model.Fault
import TextCompletion.Model.Hyperparameters
import TextCompletion.Model.Seq2Seq
import TextCompletion.Model.Settings
import TextCompletion.ModelConfig
import TextCompletion.Params
import TextCompletion.Pipeline
import TextCompletion.Program
import TextCompletion.Proofs.Decimal.FloatOrder
import TextCompletion.Proofs.Decimal.FloatRounding
import TextCompletion.Proofs.Decimal.FloatSums
import TextCompletion.Proofs.Decimal.SingleArithmetic
import TextCompletion.Proofs.Decimal.Underflow
import TextCompletion.Proofs.Generation.Admissible
import TextCompletion.Proofs.Generation.Attempt
import TextCompletion.Proofs.Generation.EndTokens
import TextCompletion.Proofs.Generation.Ending
import TextCompletion.Proofs.Generation.Greedy
import TextCompletion.Proofs.Generation.Nucleus
import TextCompletion.Proofs.Generation.Outcome
import TextCompletion.Proofs.Generation.Penalty
import TextCompletion.Proofs.Generation.Recomputation
import TextCompletion.Proofs.Generation.Shares
import TextCompletion.Proofs.Generation.Trace
import TextCompletion.Proofs.Generation.Truncation
import TextCompletion.Proofs.Generation.Window
import TextCompletion.Proofs.Json.Agreement
import TextCompletion.Proofs.Json.Grammar
import TextCompletion.Proofs.Json.Records
import TextCompletion.Proofs.Json.Shapes
import TextCompletion.Proofs.Json.Skipping
import TextCompletion.Proofs.Model.Contract
import TextCompletion.Proofs.Model.Defaults
import TextCompletion.Proofs.Model.Encodings
import TextCompletion.Proofs.Model.Feeding
import TextCompletion.Proofs.Model.Positions
import TextCompletion.Proofs.Model.Sinusoids
import TextCompletion.Proofs.Model.Vocabulary
import TextCompletion.Proofs.Pipeline.FirstFailure
import TextCompletion.Proofs.Pipeline.History
import TextCompletion.Proofs.Pipeline.Loading
import TextCompletion.Proofs.Pipeline.PositionTable
import TextCompletion.Proofs.Pipeline.Probes
import TextCompletion.Proofs.Runner.OneLine
import TextCompletion.Proofs.Runner.QuietDefault
import TextCompletion.Proofs.Runner.Stages
import TextCompletion.Proofs.Weights.Filled
import TextCompletion.Proofs.Weights.Shards
import TextCompletion.Runner
import TextCompletion.Tensor
import TextCompletion.Text.Blank
import TextCompletion.Text.Lowercase
import TextCompletion.Text.Quoted
import TextCompletion.Text.Similarity
import TextCompletion.Text.Sorted
import TextCompletion.Text.Unprintable
import TextCompletion.Text.Utf8
import TextCompletion.Text.WordCharacter
import TextCompletion.Tokenizer.Basic
import TextCompletion.Tokenizer.Document
import TextCompletion.Verbosity
import TextCompletion.Weights.Archive
import TextCompletion.Weights.Element
import TextCompletion.Weights.Fault
import TextCompletion.Weights.Files
import TextCompletion.Weights.Header
import TextCompletion.Weights.Pickle
import TextCompletion.Weights.Store
import TextCompletion.Proofs.Files.Places
import TextCompletion.Proofs.Weights.Index
import TextCompletion.Proofs.Weights.Sources
import TextCompletion.Proofs.Weights.Precedence
import TextCompletion.Proofs.Weights.Canonical
import TextCompletion.Proofs.Weights.Tiling
import TextCompletion.Proofs.Generation.Normalised
import TextCompletion.Proofs.Json.Strings
import TextCompletion.Proofs.Files.ConfigDocuments
import TextCompletion.Proofs.Json.Candidates
import TextCompletion.Proofs.Json.Members
import TextCompletion.Proofs.Json.Passing
import TextCompletion.Proofs.Json.Printing
import TextCompletion.Proofs.Json.Reading
import TextCompletion.Proofs.CommandLine.Values
import TextCompletion.Proofs.CommandLine.Lines
import TextCompletion.Proofs.CommandLine.RoundTrip
import TextCompletion.Proofs.CommandLine.Spellings
import TextCompletion.Proofs.Files.Descent
import TextCompletion.Proofs.Tokenizer.RoundTrip
import TextCompletion.Proofs.Weights.Containment
import TextCompletion.Proofs.Decimal.RoundingError
import TextCompletion.Proofs.Decimal.DoubleArithmetic
import TextCompletion.Proofs.Decimal.Scaling
import TextCompletion.Proofs.Json.Numerals
import TextCompletion.Proofs.Json.Magnitudes
import TextCompletion.Proofs.Json.Values
import TextCompletion.Proofs.Files.ArchitectureFlag
