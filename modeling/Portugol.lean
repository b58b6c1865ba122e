import Portugol.Decimal.Binary
import Portugol.Decimal.Layout
import Portugol.Decimal.Reading
import Portugol.Decimal.Remainder
import Portugol.Integer
import Portugol.Position
import Portugol.Text.Alphabetic
import Portugol.Text.Blank
import Portugol.Text.GraphemeExtend
import Portugol.Text.Numeric
import Portugol.Text.Quoted
import Portugol.Token.Keyword
import Portugol.Token.Symbol
import Portugol.Value
import Portugol.Token
import Portugol.Token.Piece
import Portugol.Token.Scan
import Portugol.Grammar.Cursor
import Portugol.Grammar.Expression
import Portugol.Grammar.Program
import Portugol.Syntax.Graph
import Portugol.Syntax.Outline
import Portugol.Machine.Evaluation
import Portugol.Machine.Execution
import Portugol.Command.Arguments
import Portugol.Command.Folder
import Portugol.Command.Session
import Portugol.Main
import Portugol.Machine.Iterations
import Portugol.Proofs.Grammar.Parsing
import Portugol.Proofs.Grammar.RoundTrip
import Portugol.Proofs.Machine.ScopeDiscipline
import Portugol.Proofs.Machine.TypedStore
import Portugol.Proofs.Token.Order
import Portugol.Proofs.Token.Endings
import Portugol.Proofs.Syntax.Places
import Portugol.Proofs.Grammar.Errors
import Portugol.Proofs.Token.Lines
import Portugol.Proofs.Grammar.Progress
import Portugol.Proofs.Grammar.Abreast
import Portugol.Proofs.Grammar.Following
import Portugol.Proofs.Grammar.Boundaries
import Portugol.Proofs.Machine.Moving
import Portugol.Proofs.Machine.Sequels
import Portugol.Proofs.Grammar.Recovery
import Portugol.Proofs.Grammar.Viability
import Portugol.Proofs.Grammar.CorrectPrefix
import Portugol.Proofs.Machine.Layout
import Portugol.Proofs.Token.Accounts
import Portugol.Proofs.Machine.InputLines
import Portugol.Proofs.Machine.Courses
import Portugol.Proofs.Machine.Companions
import Portugol.Proofs.Machine.Consumption
import Portugol.Proofs.Machine.Truncation
import Portugol.Proofs.Machine.StrictReads
import Portugol.Proofs.Machine.WholeNumbers
import Portugol.Proofs.Command.Rounds
import Portugol.Proofs.Grammar.Heights
import Portugol.Proofs.Machine.Surroundings
import Portugol.Proofs.Machine.Mentioned
import Portugol.Proofs.Machine.Braces
import Portugol.Proofs.Machine.Unrolling
import Portugol.Proofs.Machine.Failures
import Portugol.Proofs.Machine.Initializers
import Portugol.Proofs.Machine.Origins
import Portugol.Proofs.Machine.NameStacks
import Portugol.Proofs.Token.MaximalMunch
import Portugol.Proofs.Token.Separators
import Portugol.Proofs.Token.TextLiterals
import Portugol.Proofs.Machine.Numerals
import Portugol.Proofs.Machine.SuccessiveLines
import Portugol.Proofs.Machine.Inference
import Portugol.Proofs.Machine.ReadingBack
import Portugol.Proofs.Syntax.Preorder
import Portugol.Proofs.Syntax.GraphText
import Portugol.Proofs.Machine.Comparisons
import Portugol.Proofs.Grammar.Nesting
import Portugol.Proofs.Grammar.TooDeep
import Portugol.Proofs.Grammar.Readability
import Portugol.Proofs.Grammar.Termination
import Portugol.Proofs.Grammar.Pulling
