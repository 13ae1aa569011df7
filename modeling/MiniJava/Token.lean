import MiniJava.Position
import MiniJava.Text.Escape
import MiniJava.Token.Kind

/-!
# Tokens

A token is a classified piece of the text: its kind, its characters and where the first of them
stands. The end of the text is a token of its own, without characters.
-/

namespace MiniJava

/-- A classified piece of the text. -/
structure Token where
  kind : TokenKind
  text : String
  position : Position
deriving DecidableEq, Repr, Inhabited

namespace Token

/-- The token behind the last character of a text. -/
def endOfFile (p : Position) : Token := ⟨.eof, "", p⟩

/-- A token as messages name it: names and literals by their text, all others by their kind. -/
def describe (t : Token) : String :=
  match t.kind with
  | .identifier => "identifier '" ++ t.text ++ "'"
  | .intLiteral => "integer literal " ++ t.text
  | .boolLiteral => "boolean literal " ++ t.text
  | kind => kind.describe

/-- A token with its fields named. -/
def fields (t : Token) : String :=
  "Token \x7b kind: " ++ t.kind.name ++ ", text: " ++ Text.quoted t.text ++
    ", location: " ++ t.position.fields ++ " \x7d"

/-- A token as a line of a listing: its position, its kind and its text in quotes. -/
def listing (t : Token) : String :=
  toString t.position.line ++ ":" ++ toString t.position.column ++ " " ++ t.kind.name ++ " " ++
    Text.quoted t.text

end Token

end MiniJava
