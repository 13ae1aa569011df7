import MiniJava.Diagnostic.Lexical
import MiniJava.Segment
import MiniJava.Token

/-!
# Lexed texts — tokens and lexical errors

Every segment of a text stands at the position that the segments before it reach. Words, runs of
digits, marks and stray characters are tokens; words of the wrong form, stray characters and open
comments are errors. A lexed text is what its segments give, with the end of file behind them.
-/

namespace MiniJava

namespace Segment

/-- A name as the language wants it: a letter, then letters, decimal digits and underscores. -/
def isLegalName : List Char → Bool
  | [] => false
  | c :: rest =>
    Text.isAlphabetic c && rest.all fun d => Text.isAlphabetic d || d.isDigit || d == '_'

/-- The kind of the token that a segment is; gaps are none. -/
def tokenKind? (s : Segment) : Option TokenKind :=
  match s.kind with
  | .blank | .lineComment | .blockComment | .openComment => none
  | .word => some ((TokenKind.ofWord? (String.ofList s.text)).getD .identifier)
  | .digits => some .intLiteral
  | .mark kind => some kind
  | .stray => some .identifier

/-- The token that a segment is at a position. -/
def token? (s : Segment) (p : Position) : Option Token :=
  s.tokenKind?.map fun kind => ⟨kind, String.ofList s.text, p⟩

/-- What is wrong with a segment. -/
def fault? (s : Segment) : Option LexicalFault :=
  match s.kind with
  | .blank | .lineComment | .blockComment | .digits | .mark _ => none
  | .openComment => some .unterminatedComment
  | .word =>
    if (TokenKind.ofWord? (String.ofList s.text)).isSome || isLegalName s.text then none
    else some (.malformedIdentifier (String.ofList s.text))
  | .stray => s.text.head?.map fun c =>
    if c = '|' ∨ c = '&' then .undoubledCharacter c else .strayCharacter c

/-- The error that a segment is at a position. -/
def error? (s : Segment) (p : Position) : Option LexicalError :=
  s.fault?.map fun fault => ⟨fault, p⟩

/-- Segments with the positions at which they stand, the first of them at `p`. -/
def placed (p : Position) : List Segment → List (Segment × Position)
  | [] => []
  | s :: rest => (s, p) :: placed (p.past s.text) rest

theorem placed_append (p : Position) (s t : List Segment) :
    placed p (s ++ t) = placed p s ++ placed (p.past (s.flatMap (·.text))) t := by
  induction s generalizing p with
  | nil => rfl
  | cons a s ih => simp [placed, ih, Position.past_append]

end Segment

/-- The tokens of a text and what is wrong with its characters. -/
structure Lexed where
  tokens : List Token
  errors : List LexicalError
deriving DecidableEq, Repr, Inhabited

namespace Lexed

/-- What a text gives that begins at `p`. -/
def ofChars (p : Position) (text : List Char) : Lexed :=
  let pieces := Segment.placed p (segments text)
  { tokens := pieces.filterMap (fun (s, q) => s.token? q) ++ [Token.endOfFile (p.past text)]
    errors := pieces.filterMap fun (s, q) => s.error? q }

end Lexed

/-- The tokens and the lexical errors of a whole text. -/
def tokenize (source : String) : Lexed := Lexed.ofChars .start source.toList

end MiniJava
