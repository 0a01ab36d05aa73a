import SearchCompiler.Main
import SearchCompiler.Proofs.Compile.Leaf
import SearchCompiler.Proofs.Compile.Meaning
import SearchCompiler.Proofs.Keys.Grammar
import SearchCompiler.Proofs.Keys.Reading
import SearchCompiler.Proofs.Keys.Meaning
import SearchCompiler.Proofs.Keys.Negation
import SearchCompiler.Proofs.Compile.Negation
import SearchCompiler.Proofs.Compile.Prohibition
import SearchCompiler.Proofs.Scan
import SearchCompiler.Proofs.Keys.Structure
import SearchCompiler.Proofs.Name.Codec
import SearchCompiler.Proofs.Name.Distinct
import SearchCompiler.Proofs.Name.Decoding
import SearchCompiler.Proofs.Name.Plain
import SearchCompiler.Proofs.Compile.Asking
import SearchCompiler.Proofs.Request.Session
import SearchCompiler.Proofs.Compile.Shape
import SearchCompiler.Proofs.Compile.Structure
import SearchCompiler.Proofs.Keys.Acceptance
import SearchCompiler.Proofs.Keys.Fields
import SearchCompiler.Proofs.Compile.Restriction
import SearchCompiler.Proofs.Json.Record
import SearchCompiler.Proofs.Filter.Decoding
import SearchCompiler.Proofs.Request.Decoding
import SearchCompiler.Proofs.Compile.Tags
import SearchCompiler.Proofs.Compile.Faults
import SearchCompiler.Proofs.Compile.Scopes
import SearchCompiler.Proofs.Compile.Opposite
import SearchCompiler.Proofs.Request.Reserved
import SearchCompiler.Proofs.Keys.Spans
import SearchCompiler.Proofs.Config.Discovery
import SearchCompiler.Proofs.Config.Merging
import SearchCompiler.Proofs.Config.Precedence
import SearchCompiler.Proofs.Toml.Quoted
import SearchCompiler.Proofs.Toml.Values
import SearchCompiler.Proofs.Toml.Sections
import SearchCompiler.Proofs.Config.Reload
import SearchCompiler.Proofs.Request.Checked
import SearchCompiler.Proofs.Request.RoundTrip
import SearchCompiler.Proofs.Keys.NormalForm
import SearchCompiler.Proofs.Keys.Outcomes
import SearchCompiler.Proofs.Request.Literals
import SearchCompiler.Proofs.Compile.Reordering
import SearchCompiler.Proofs.Keys.Positions
import SearchCompiler.Proofs.Keys.Hints
import SearchCompiler.Proofs.Compile.Rendering
import SearchCompiler.Proofs.Compile.EmptyChoices
import SearchCompiler.Proofs.Compile.Truth
import SearchCompiler.Proofs.Filter.Calendar
import SearchCompiler.Proofs.Filter.Timestamp
import SearchCompiler.Proofs.Compile.Dates
import SearchCompiler.Proofs.Literal
import SearchCompiler.Proofs.Compile.SingleClauses
