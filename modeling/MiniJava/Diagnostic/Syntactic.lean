import MiniJava.Diagnostic.Report
import MiniJava.Token

/-!
# Syntax errors

What can be wrong with a sequence of tokens, always said of one token: it is of none of the kinds
that could stand there, it ends an expression that is no statement, or it would open too many
levels.
-/

namespace MiniJava

/-- How many statements, expressions and operands of `!` may be open at once. -/
def maxNesting : Nat := 128

/-- The ways in which a token does not fit. -/
inductive SyntaxFault where
  /-- One of these kinds was expected. -/
  | unexpected (expected : List TokenKind)
  /-- The expression before the token is neither assigned to nor a call. -/
  | invalidStatement
  /-- The token would open more than `maxNesting` levels. -/
  | tooDeep
deriving DecidableEq, Repr, Inhabited

/-- Alternatives as messages list them: commas, and "or" before the last. -/
def describeKinds : List TokenKind → String
  | [] => "nothing"
  | [kind] => kind.describe
  | kinds =>
    ", ".intercalate (kinds.dropLast.map TokenKind.describe) ++ " or " ++
      (kinds.getLast?.map TokenKind.describe).getD ""

namespace SyntaxFault

/-- The kinds that would have fitted, in the order of the message. -/
def expected : SyntaxFault → List TokenKind
  | unexpected kinds => kinds
  | invalidStatement => [.assign]
  | tooDeep => []

/-- The wording of a fault, said of the token that was found. -/
def message (found : Token) : SyntaxFault → String
  | unexpected kinds => "Expected " ++ describeKinds kinds ++ ", found " ++ found.describe
  | invalidStatement =>
    "Expression is not a valid statement: expected '=' or a method call, found " ++ found.describe
  | tooDeep => "Nesting deeper than " ++ toString maxNesting ++ " levels at " ++ found.describe

end SyntaxFault

/-- A fault and the token at which it was found. -/
structure SyntaxError where
  fault : SyntaxFault
  found : Token
deriving DecidableEq, Repr, Inhabited

namespace SyntaxError

/-- The wording of the error. -/
def message (e : SyntaxError) : String := e.fault.message e.found

/-- The kinds that would have fitted. -/
def expected (e : SyntaxError) : List TokenKind := e.fault.expected

/-- Where the token stands that does not fit. -/
def position (e : SyntaxError) : Position := e.found.position

/-- The error as a notice. -/
def notice (e : SyntaxError) : Notice := ⟨e.message, e.position⟩

/-- The error in full. -/
def rendered (e : SyntaxError) : String := e.notice.rendered "Parse"

end SyntaxError

end MiniJava
