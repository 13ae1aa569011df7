/-!
# Padding — columns of text

Numbers and names that are shorter than their column are filled up with spaces; longer ones are
shown in full and push what follows to the right.
-/

namespace MiniJava.Text

/-- So many spaces. -/
def spaces (n : Nat) : String := String.ofList (List.replicate n ' ')

/-- A text at the right of a column. -/
def padLeft (width : Nat) (s : String) : String := spaces (width - s.length) ++ s

/-- A text at the left of a column. -/
def padRight (width : Nat) (s : String) : String := s ++ spaces (width - s.length)

end MiniJava.Text
