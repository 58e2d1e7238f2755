import JsonSelect.Main
import JsonSelect.Proofs.Path.Lines
import JsonSelect.Proofs.Path.Strict
import JsonSelect.Proofs.Selection.Antichain
import JsonSelect.Proofs.Path.WellFormed
import JsonSelect.Proofs.Path.Fusion
import JsonSelect.Proofs.Binding.Resolution
import JsonSelect.Proofs.Binding.Run
import JsonSelect.Proofs.Strictness
import JsonSelect.Proofs.Json.Doubles
import JsonSelect.Proofs.Path.Brackets
import JsonSelect.Proofs.Selection.Doubles
import JsonSelect.Proofs.Json.Grammar
import JsonSelect.Proofs.Json.Reading.Plain
import JsonSelect.Proofs.Json.Reading.Numeral
import JsonSelect.Proofs.Json.Reading.Text
import JsonSelect.Proofs.Json.Reading.Tree
import JsonSelect.Proofs.Document.MemberOrder
import JsonSelect.Proofs.Json.Quoted
import JsonSelect.Proofs.Number.Text
import JsonSelect.Proofs.Json.Rendering
import JsonSelect.Proofs.Json.Reading.Nested
import JsonSelect.Proofs.Json.Reread
import JsonSelect.Proofs.Document.Reload
import JsonSelect.Proofs.Path.Unexpected
import JsonSelect.Proofs.Selection.Coverage
import JsonSelect.Proofs.Selection.Readings
import JsonSelect.Proofs.Selection.Words
import JsonSelect.Proofs.Number.Rounding
import JsonSelect.Proofs.Number.Shortest
import JsonSelect.Proofs.Number.Written
import JsonSelect.Proofs.Number.Scaling
import JsonSelect.Proofs.Document.Storage
import JsonSelect.Proofs.Number.Distinct
import JsonSelect.Proofs.Selection.Widening
import JsonSelect.Proofs.Json.Distinct
import JsonSelect.Proofs.Selection.Unique
import JsonSelect.Proofs.Document.Repeats
import JsonSelect.Proofs.Number.Bits
import JsonSelect.Proofs.Json.Reading.Whole
import JsonSelect.Proofs.Json.Reading.Located
import JsonSelect.Proofs.Binding.Integer
import JsonSelect.Proofs.Binding.Accessors
import JsonSelect.Proofs.Binding.Replay
import JsonSelect.Proofs.CommandLine.Explanation
import JsonSelect.Proofs.Path.Spelling
import JsonSelect.Proofs.Selection.Tiling
import JsonSelect.Proofs.CommandLine.Failure
import JsonSelect.Proofs.CommandLine.Refinement
import JsonSelect.Proofs.Path.Progress
import JsonSelect.Proofs.Session
