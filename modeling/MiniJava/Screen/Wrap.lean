/-!
# Wrapping — a text as lines of a width

Words go onto a line as long as they fit, with single spaces between them. A word that does not fit
begins the next line; one that is longer than a whole line is cut into pieces of that length.
-/

namespace MiniJava.Wrap

/-- A word cut into pieces of `width` characters, where the first piece is `width` long too; `n`
bounds the number of pieces. -/
def pieces (width : Nat) : Nat → List Char → List (List Char)
  | 0, _ => []
  | n + 1, word =>
    if word.length ≤ width then [word] else word.take width :: pieces width n (word.drop width)

/-- The text of a line and one word more. -/
def join (line word : List Char) : List Char := if line = [] then word else line ++ ' ' :: word

/-- Lines of at most `width` characters, the first of which begins with `line`. -/
def lines (width : Nat) (line : List Char) : List (List Char) → List (List Char)
  | [] => if line = [] then [] else [line]
  | word :: rest =>
    if (join line word).length ≤ width then lines width (join line word) rest
    else
      let cut := pieces width (word.length + 1) word
      (if line = [] then [] else [line]) ++ cut.dropLast ++ lines width (cut.getLastD []) rest

/-- A text wrapped to a width; nothing fits into no width at all. -/
def wrap (width : Nat) (words : List String) : List String :=
  if width = 0 then [] else (lines width [] (words.map (·.toList))).map String.ofList

end MiniJava.Wrap
