import MiniJava.Outcome

/-!
# Sessions — a list of tokens read program by program

A session holds a list of tokens that ends with an end of file, and the place up to which it has
been read. Each parse goes on where the one before stopped; the tokens stay the same. The lexical
errors of the text, if it was made from one, are handed out once.
-/

namespace MiniJava

/-- A list of tokens and a place in it. -/
structure Session where
  tokens : List Token
  position : Nat
  policy : ErrorPolicy
  lexical : List LexicalError
deriving Repr, Inhabited

namespace Session

/-- A list of tokens that ends with an end of file; a missing one is added where the last token
stands, or at the start of the text. -/
def closed (tokens : List Token) : List Token :=
  match tokens.getLast? with
  | none => [Token.endOfFile .start]
  | some last =>
    if last.kind = .eof then tokens else tokens ++ [Token.endOfFile last.position]

/-- A session before the first of some tokens. -/
def ofTokens (tokens : List Token) : Session := ⟨closed tokens, 0, .failFast, []⟩

/-- A session before the first token of a text. -/
def ofText (source : String) : Session :=
  let lexed := tokenize source
  { ofTokens lexed.tokens with lexical := lexed.errors }

/-- The session under another policy. -/
def withPolicy (s : Session) (policy : ErrorPolicy) : Session := { s with policy := policy }

/-- The tokens that the next parse reads. -/
def stream (s : Session) : TokenStream := TokenStream.ofTokens (s.tokens.drop s.position)

/-- The token that comes next. -/
def current (s : Session) : Token := s.stream.current

/-- Hands out the lexical errors. -/
def flushLexical (s : Session) : List LexicalError × Session :=
  (s.lexical, { s with lexical := [] })

/-- Reads a program under the policy of the session and gives every syntax error. -/
def read (s : Session) : Except (List SyntaxError) Program × Session :=
  let outcome := Outcome.ofStream s.policy s.stream
  (outcome.result,
    { s with position := s.position + (s.stream.ahead.length - outcome.ahead.length) })

/-- Reads a program up to the first syntax error; the session gives up early from then on. -/
def readToFirstError (s : Session) : Except (List SyntaxError) Program × Session :=
  let (result, s) := (s.withPolicy .failFast).read
  (result.mapError (·.take 1), s)

/-- Reads a program and gives every error, the lexical ones included. -/
def readWithLexical (s : Session) : Except Diagnostics Program × Session :=
  let (result, s) := s.read
  let (lexical, s) := s.flushLexical
  (withLexical lexical result, s)

/-- The session with its fields named. Between parses no error is on record. -/
def fields (s : Session) : String :=
  "Parser \x7b position: " ++ toString s.position ++ ", current: " ++ s.current.fields ++
    ", policy: " ++ s.policy.name ++ ", errors: 0 \x7d"

end Session

end MiniJava
