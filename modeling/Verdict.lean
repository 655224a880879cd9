import Verdict.Formula.Algebra
import Verdict.Main
import Verdict.Proofs.Bindings
import Verdict.Proofs.Call.Shape
import Verdict.Proofs.Check.SyntaxOnly
import Verdict.Proofs.Formula.Acceptance
import Verdict.Proofs.Formula.Exchange
import Verdict.Proofs.Formula.Reduction
import Verdict.Proofs.Operands.Known
import Verdict.Proofs.Operands.Neighbours
import Verdict.Proofs.Operands.Trivia
import Verdict.Rule
import Verdict.Proofs.Engine.Variables
import Verdict.Proofs.Formula.Outline
import Verdict.Proofs.Operands.Twins
import Verdict.Proofs.Engine.Structure
import Verdict.Proofs.Engine.Limits
import Verdict.Proofs.Lexicon.Order
import Verdict.Proofs.Lexicon.Cutting
import Verdict.Proofs.Lexicon.Newline
import Verdict.Proofs.Pattern.Closing
import Verdict.Proofs.Pattern.Enclosed
import Verdict.Proofs.Rule
import Verdict.Proofs.Lexicon.Anchor
import Verdict.Proofs.Operands.Finality
import Verdict.Proofs.Value.Comparison
import Verdict.Proofs.Lexicon.Candidates
import Verdict.Proofs.Lexicon.Numeral
import Verdict.Proofs.Value.Numeral
import Verdict.Proofs.Engine.Numeral
import Verdict.Proofs.Engine.Callables
import Verdict.Proofs.Formula.Malformed
import Verdict.Proofs.Engine.Placement
import Verdict.Proofs.Formula.Unambiguity
import Verdict.Proofs.Lexicon.Extension
import Verdict.Proofs.Number.Decimal
import Verdict.Proofs.Number.DecimalText
import Verdict.Proofs.Value.Transitivity
import Verdict.Proofs.Value.Exact
import Verdict.Proofs.Json.Members
import Verdict.Proofs.Json.Written
import Verdict.Proofs.Text.Bytes
import Verdict.Proofs.Check.Variables
import Verdict.Proofs.Value.Membership
import Verdict.Proofs.Literal.Number
import Verdict.Proofs.Literal.String
import Verdict.Proofs.Token.Word
import Verdict.Proofs.Token.Cursor
import Verdict.Proofs.Call.Pieces
import Verdict.Proofs.Call.Position
import Verdict.Proofs.Call.Slice
import Verdict.Proofs.Number.Form
import Verdict.Proofs.Number.Base
import Verdict.Proofs.Pattern.Number
import Verdict.Proofs.Call.Integer
import Verdict.Proofs.Call.Radix
import Verdict.Proofs.Call.Float
import Verdict.Proofs.Formula.Confluence
import Verdict.Proofs.Formula.Invariant
import Verdict.Proofs.Literal.Regex
