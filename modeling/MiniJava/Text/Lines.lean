/-!
# Lines of a text

A line ends at a newline, at a carriage return with a newline, or at the end of the text; a text
that ends in a newline has no empty line after it. A carriage return that no newline follows
belongs to its line.
-/

namespace MiniJava.Text

/-- The lines of a text, without their ends. -/
def splitLines : List Char → List (List Char)
  | [] => []
  | '\n' :: rest => [] :: splitLines rest
  | '\r' :: '\n' :: rest => [] :: splitLines rest
  | c :: rest =>
    match splitLines rest with
    | [] => [[c]]
    | line :: more => (c :: line) :: more

/-- The lines of a string. -/
def lines (s : String) : List String := (splitLines s.toList).map String.ofList

/-- A text without characters has no lines. -/
theorem splitLines_eq_nil_iff {s : List Char} : splitLines s = [] ↔ s = [] := by
  cases s with
  | nil => simp [splitLines]
  | cons c rest =>
    unfold splitLines
    split <;> simp_all
    split <;> simp

end MiniJava.Text
