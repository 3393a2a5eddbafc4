import WhileLang.CommandLine
import WhileLang.Decimal.FloatReading
import WhileLang.Decimal.Integer
import WhileLang.Decimal.Layout
import WhileLang.Decimal.Shortest
import WhileLang.Diagnostic
import WhileLang.Lexical.Error
import WhileLang.Lexical.Grammar
import WhileLang.Lexical.Lexer
import WhileLang.Lexical.Pattern
import WhileLang.Lexical.Segment
import WhileLang.Main
import WhileLang.Parsing.Cursor
import WhileLang.Parsing.Error
import WhileLang.Parsing.Expression
import WhileLang.Parsing.Postorder
import WhileLang.Parsing.Statement
import WhileLang.Program
import WhileLang.Proofs.Concatenation
import WhileLang.Proofs.Decimal.Ascii
import WhileLang.Proofs.Decimal.Binary64
import WhileLang.Proofs.Decimal.FloatText
import WhileLang.Proofs.Decimal.Rounding
import WhileLang.Proofs.FaultPlaces
import WhileLang.Proofs.LayoutInvariance
import WhileLang.Proofs.Lexical.ErrorOrder
import WhileLang.Proofs.Lexical.Layout
import WhileLang.Proofs.Lexical.LongestMatch
import WhileLang.Proofs.Lexical.Lookahead
import WhileLang.Proofs.Lexical.Numerals
import WhileLang.Proofs.Lexical.PatternLanguage
import WhileLang.Proofs.Lexical.Relocation
import WhileLang.Proofs.Lexical.SpacedLexemes
import WhileLang.Proofs.Lexical.StandardToken
import WhileLang.Proofs.Lexical.Stream
import WhileLang.Proofs.Lexical.TokenPlaces
import WhileLang.Proofs.Lexical.WordLexing
import WhileLang.Proofs.NumeralReading
import WhileLang.Proofs.Parsing.Acceptance
import WhileLang.Proofs.Parsing.Block
import WhileLang.Proofs.Parsing.ClimbPhrase
import WhileLang.Proofs.Parsing.Climbing
import WhileLang.Proofs.Parsing.Combinators
import WhileLang.Proofs.Parsing.EndMark
import WhileLang.Proofs.Parsing.ErrorPlaces
import WhileLang.Proofs.Parsing.Groups
import WhileLang.Proofs.Parsing.Likeness
import WhileLang.Proofs.Parsing.Locality
import WhileLang.Proofs.Parsing.OperatorScan
import WhileLang.Proofs.Parsing.Origin
import WhileLang.Proofs.Parsing.Phrase
import WhileLang.Proofs.Parsing.Postorder
import WhileLang.Proofs.Parsing.Recognition
import WhileLang.Proofs.Parsing.Relocation
import WhileLang.Proofs.Parsing.Role
import WhileLang.Proofs.Parsing.ScanAgreement
import WhileLang.Proofs.Parsing.StackHeight
import WhileLang.Proofs.Parsing.Termination
import WhileLang.Proofs.Parsing.ViablePrefix
import WhileLang.Proofs.Relocation
import WhileLang.Proofs.RoundTrip
import WhileLang.Proofs.Semantics.Bindings
import WhileLang.Proofs.Semantics.Confinement
import WhileLang.Proofs.Semantics.ExactArithmetic
import WhileLang.Proofs.Semantics.Exactness
import WhileLang.Proofs.Semantics.Noninterference
import WhileLang.Proofs.Semantics.Sequence
import WhileLang.Proofs.Semantics.Stepping
import WhileLang.Proofs.Semantics.Strictness
import WhileLang.Proofs.Semantics.Truncation
import WhileLang.Proofs.Syntax.BinaryOperator
import WhileLang.Proofs.Syntax.Occurrence
import WhileLang.Proofs.Syntax.Rendering
import WhileLang.Proofs.Syntax.SExpression
import WhileLang.Proofs.Syntax.Writing
import WhileLang.Semantics.Arithmetic
import WhileLang.Semantics.Environment
import WhileLang.Semantics.Error
import WhileLang.Semantics.Evaluation
import WhileLang.Semantics.Execution
import WhileLang.Semantics.Output
import WhileLang.Semantics.Remainder
import WhileLang.Semantics.Value
import WhileLang.Source
import WhileLang.Syntax.Expr
import WhileLang.Syntax.Operator
import WhileLang.Syntax.Stmt
import WhileLang.Token.Basic
import WhileLang.Token.Terminal
