import MiniJava.Diagnostic.Lexical
import MiniJava.Diagnostic.Syntactic

/-!
# Diagnostics

Everything that was wrong with a text: the errors of its characters and those of its tokens, each in
the order in which they were found.
-/

namespace MiniJava

/-- The errors of both stages. -/
structure Diagnostics where
  lexical : List LexicalError
  syntactic : List SyntaxError
deriving DecidableEq, Repr, Inhabited

namespace Diagnostics

/-- The errors as a report. -/
def report (d : Diagnostics) : Report :=
  ⟨d.lexical.map LexicalError.notice, d.syntactic.map SyntaxError.notice⟩

/-- Every error in full with its position, in reading order. -/
def entries (d : Diagnostics) : List (Position × String) := d.report.entries

end Diagnostics

end MiniJava
