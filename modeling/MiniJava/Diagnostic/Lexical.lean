import MiniJava.Diagnostic.Report
import MiniJava.Text.Escape

/-!
# Lexical errors

What can be wrong with the characters of a text. None of these stops the lexer: a character that
begins no token and a name of the wrong form still become identifier tokens.
-/

namespace MiniJava

/-- The ways in which characters fail to be tokens. -/
inductive LexicalFault where
  /-- A character that no token begins with. -/
  | strayCharacter (c : Char)
  /-- A character that is a token only when written twice. -/
  | undoubledCharacter (c : Char)
  /-- A name that holds something besides letters, decimal digits and underscores. -/
  | malformedIdentifier (text : String)
  /-- A block comment that the text does not close. -/
  | unterminatedComment
deriving DecidableEq, Repr, Inhabited

/-- The three families of lexical faults. -/
inductive LexicalFault.Family where
  | invalidCharacter | malformedIdentifier | unterminatedComment
deriving DecidableEq, Repr, Inhabited

namespace LexicalFault

/-- The family of a fault. -/
def family : LexicalFault → Family
  | strayCharacter _ | undoubledCharacter _ => .invalidCharacter
  | malformedIdentifier _ => .malformedIdentifier
  | unterminatedComment => .unterminatedComment

/-- The wording of a fault. -/
def message : LexicalFault → String
  | strayCharacter c => "Invalid input character '" ++ Text.escapeChar c ++ "'"
  | undoubledCharacter c =>
    "Invalid input character '" ++ String.singleton c ++ "', expected '" ++
      String.ofList [c, c] ++ "'"
  | malformedIdentifier text => "Invalid identifier: " ++ text
  | unterminatedComment => "Unclosed multiline comment"

end LexicalFault

/-- A fault and where it begins. -/
structure LexicalError where
  fault : LexicalFault
  position : Position
deriving DecidableEq, Repr, Inhabited

namespace LexicalError

/-- The error as a notice. -/
def notice (e : LexicalError) : Notice := ⟨e.fault.message, e.position⟩

/-- The error in full. -/
def rendered (e : LexicalError) : String := e.notice.rendered "Lexer"

end LexicalError

end MiniJava
