import MiniJava.Outcome

/-!
# Traces — the steps of reading a text, as log messages

Reading a text tells of every lexical error, then of the parse: how many tokens there are, every
recovery with the place where skipping begins, and, if there is a program, how many classes it has.
-/

namespace MiniJava

/-- How important a log message is. -/
inductive LogLevel where
  | debug | trace
deriving DecidableEq, Repr, Inhabited

/-- A step worth telling of. -/
inductive TraceEvent where
  | lexicalError (error : LexicalError)
  | parsing (tokens : Nat) (policy : ErrorPolicy)
  | recovering (error : SyntaxError)
  | skipping (boundary : Boundary) (position : Position)
  | parsed (classes : Nat)
deriving DecidableEq, Repr, Inhabited

/-- The boundary as messages name it. -/
def Boundary.describe : Boundary → String
  | statement => "a statement boundary"
  | classDecl => "the next class"

namespace TraceEvent

/-- How important the event is. -/
def level : TraceEvent → LogLevel
  | parsing .. | parsed .. => .debug
  | lexicalError .. | recovering .. | skipping .. => .trace

/-- The event in words. -/
def message : TraceEvent → String
  | lexicalError e =>
    "lex error at " ++ toString e.position.line ++ ":" ++ toString e.position.column ++ ": " ++
      e.fault.message
  | parsing tokens policy => "parsing " ++ toString tokens ++ " tokens (" ++ policy.name ++ ")"
  | recovering e => "recovering from: " ++ e.rendered
  | skipping boundary p => "skipping to " ++ boundary.describe ++ " from " ++ p.fields
  | parsed classes => "parsed main class and " ++ toString classes ++ " classes"

/-- The events of a recovery. -/
def ofRecovery (r : Recovery) : List TraceEvent :=
  [recovering r.error, skipping r.boundary r.skippedFrom]

/-- The events of an outcome, for a list of so many tokens. -/
def ofOutcome (tokens : Nat) (policy : ErrorPolicy) (o : Outcome) : List TraceEvent :=
  parsing tokens policy :: o.recoveries.flatMap ofRecovery ++
    match o.result with
    | .ok program => [parsed program.classes.length]
    | .error _ => []

end TraceEvent

/-- The events of reading a text. -/
def trace (source : String) (policy : ErrorPolicy) : List TraceEvent :=
  let lexed := tokenize source
  lexed.errors.map .lexicalError ++
    TraceEvent.ofOutcome lexed.tokens.length policy
      (Outcome.ofStream policy (TokenStream.ofTokens lexed.tokens))

end MiniJava
