import MiniJava.Diagnostic
import MiniJava.Lexed
import MiniJava.Program.Parse

/-!
# Outcomes — what reading a program gives

Reading a stream of tokens ends with a program or with at least one syntax error, and leaves tokens
unread. Errors that were recovered from count once per position in a row: statement lists that are
unwound at the end of the file all fail at the same token. A text has a tree only if neither its
characters nor its tokens have errors.
-/

namespace MiniJava

/-- Keeps an error unless the last one kept stands at the same position. -/
def keepError (kept : List SyntaxError) (e : SyntaxError) : List SyntaxError :=
  if kept.getLast?.any (·.position == e.position) then kept else kept ++ [e]

/-- The errors that recoveries report. -/
def recordedErrors (recoveries : List Recovery) : List SyntaxError :=
  (recoveries.map (·.error)).foldl keepError []

/-- What reading a stream of tokens gives. -/
structure Outcome where
  result : Except (List SyntaxError) Program
  recoveries : List Recovery
  /-- The tokens that are still ahead. -/
  ahead : List Token

namespace Outcome

/-- The result of a parse that ended with `recoveries` on record. -/
def resultOf (recoveries : List Recovery) :
    Except SyntaxError (Option Program) → Except (List SyntaxError) Program
  | .ok (some program) =>
    if recoveries = [] then .ok program else .error (recordedErrors recoveries)
  | .ok none => .error (recordedErrors recoveries)
  | .error e => .error (recordedErrors recoveries ++ [e])

/-- Reads a program from a stream. -/
def ofStream (policy : ErrorPolicy) (stream : TokenStream) : Outcome :=
  let (value, final) := Program.parse ⟨policy, stream.ending⟩ ⟨stream.ahead, []⟩
  { result := resultOf final.recoveries value
    recoveries := final.recoveries
    ahead := final.ahead }

end Outcome

/-- A program, or everything that was wrong. -/
def withLexical (lexical : List LexicalError) :
    Except (List SyntaxError) Program → Except Diagnostics Program
  | .ok program => if lexical = [] then .ok program else .error ⟨lexical, []⟩
  | .error syntactic => .error ⟨lexical, syntactic⟩

/-- Reads a text: its tree, or everything that was wrong with it. -/
def parse (source : String) (policy : ErrorPolicy) : Except Diagnostics Program :=
  let lexed := tokenize source
  withLexical lexed.errors (Outcome.ofStream policy (TokenStream.ofTokens lexed.tokens)).result

/-- An error that was kept stays. -/
theorem foldl_keepError_ne_nil {kept : List SyntaxError} (h : kept ≠ [])
    (es : List SyntaxError) : es.foldl keepError kept ≠ [] := by
  induction es generalizing kept with
  | nil => exact h
  | cons e es ih =>
    refine ih ?_
    unfold keepError
    split
    · exact h
    · simp

/-- Where something was recovered from, an error is reported. -/
theorem recordedErrors_ne_nil {recoveries : List Recovery} (h : recoveries ≠ []) :
    recordedErrors recoveries ≠ [] := by
  cases recoveries with
  | nil => exact absurd rfl h
  | cons r rs =>
    have hfirst : keepError [] r.error ≠ [] := by simp [keepError]
    exact foldl_keepError_ne_nil hfirst _

end MiniJava
