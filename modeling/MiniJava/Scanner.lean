import MiniJava.Lexed

/-!
# Scanners — a text read token by token

A scanner stands somewhere in a text. It hands out one token at a time, passes gaps on the way and
keeps the errors it met until they are taken. `Scanner.next?` hands out the end of file once,
`Scanner.scan` again and again, and `Scanner.drain` everything that is left.
-/

namespace MiniJava

/-- A place in a text, with the errors met on the way to it. -/
structure Scanner where
  rest : List Char
  position : Position
  errors : List LexicalError
  /-- The end of file was handed out by `next?` or by `drain`. -/
  finished : Bool
deriving Repr, Inhabited

namespace Scanner

/-- A scanner before the first character of a text. -/
def ofText (source : String) : Scanner := ⟨source.toList, .start, [], false⟩

/-- The scanner behind a segment that begins here. -/
def behind (s : Scanner) (segment : Segment) (rest : List Char) : Scanner :=
  { s with
    rest := rest
    position := s.position.past segment.text
    errors := s.errors ++ (segment.error? s.position).toList }

/-- Hands out the next token; at the end of the text that is always the end of file. -/
def scan (s : Scanner) : Token × Scanner :=
  match _hrest : s.rest with
  | [] => (Token.endOfFile s.position, s)
  | c :: rest =>
    let piece := Segment.first c rest
    match piece.1.token? s.position with
    | some t => (t, s.behind piece.1 piece.2)
    | none => scan (s.behind piece.1 piece.2)
termination_by s.rest.length
decreasing_by
  rw [_hrest]
  exact Segment.length_first_lt c rest

/-- Hands out the next token, the end of file only once. -/
def next? (s : Scanner) : Option Token × Scanner :=
  if s.finished then (none, s)
  else
    let (t, s) := s.scan
    (some t, if t.kind = .eof then { s with finished := true } else s)

/-- Hands out all that `next?` has left. -/
def drain (s : Scanner) : List Token × Scanner :=
  if s.finished then ([], s)
  else
    let lexed := Lexed.ofChars s.position s.rest
    (lexed.tokens,
      { rest := []
        position := s.position.past s.rest
        errors := s.errors ++ lexed.errors
        finished := true })

/-- Hands out the errors met so far. -/
def flushErrors (s : Scanner) : List LexicalError × Scanner := (s.errors, { s with errors := [] })

end Scanner

end MiniJava
