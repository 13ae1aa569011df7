import MiniJava.Text.Blank
import MiniJava.Token
import MiniJava.Viewer.Palette

/-!
# Highlighting — lines of a text in colour

A line is coloured by the tokens that begin on it. They are found by two binary searches in the list
of all tokens, which is in the order of the text. What is between them is white space or a comment.
Every character of a line is shown once, whatever the tokens claim (`flatMap_highlight`).
-/

namespace MiniJava

namespace Highlight

/-! ## The tokens of a line -/

/-- Halves the range of `size` places from `base` until one is left: the last in whose half `p`
held. -/
def bisect {α : Type} (p : α → Bool) (xs : Array α) (base size : Nat) : Nat :=
  if 1 < size then
    let half := size / 2
    let mid := base + half
    bisect p xs (if xs[mid]?.any p then mid else base) (size - half)
  else base
termination_by size

/-- How many elements of an array, in which those with `p` come first, have `p`. -/
def countLeading {α : Type} (p : α → Bool) (xs : Array α) : Nat :=
  let last := bisect p xs 0 xs.size
  if xs[last]?.any p then last + 1 else last

/-- The tokens that begin on a line, the end of file apart. -/
def lineTokens (tokens : Array Token) (line : Nat) : List Token :=
  let first := countLeading (fun t => t.position.line < line) tokens
  let behind := countLeading (fun t => t.position.line ≤ line) tokens
  (tokens.extract first behind).toList.filter (·.kind != .eof)

/-! ## Colours -/

/-- The style of a token; a name before an opening parenthesis is that of a method. -/
def styleOf (t : Token) (next? : Option Token) : Style :=
  match t.kind with
  | .intWord | .booleanWord | .voidWord => .colored Palette.typeName
  | .intLiteral | .boolLiteral => .colored Palette.number
  | .lparen | .rparen | .lbracket | .rbracket | .lbrace | .rbrace => .colored Palette.primary
  | .identifier =>
    if next?.any (·.kind == .lparen) then .colored Palette.function else .colored Palette.text
  | kind =>
    if kind.isReserved then (Style.colored Palette.keyword).strong else .colored Palette.text

/-- What is between tokens: a comment, if it shows anything. -/
def betweenTokens (text : List Char) : Span :=
  ⟨String.ofList text,
    if text.all Text.isWhiteSpace then .plain else .colored Palette.comment⟩

/-- The spans of a line from a column on, counted from zero. Tokens that begin before it are passed
over, and one that reaches beyond the line ends with it. -/
def highlightFrom (line : List Char) (column : Nat) : List Token → List Span
  | [] => if column < line.length then [betweenTokens (line.drop column)] else []
  | t :: rest =>
    let start := min (t.position.column - 1) line.length
    if start < column then highlightFrom line column rest
    else
      let stop := min (start + t.text.length) line.length
      let gap := (line.drop column).take (start - column)
      (if column < start then [betweenTokens gap] else []) ++
        ⟨String.ofList ((line.drop start).take (stop - start)), styleOf t rest.head?⟩ ::
          highlightFrom line stop rest

/-- The spans of a line. -/
def highlight (line : List Char) (tokens : List Token) : List Span := highlightFrom line 0 tokens

theorem flatMap_highlightFrom (line : List Char) (column : Nat) (tokens : List Token) :
    (highlightFrom line column tokens).flatMap (·.text.toList) = line.drop column := by
  fun_induction highlightFrom line column tokens with
  | case1 column h => simp [betweenTokens]
  | case2 column h => simp; omega
  | case3 column t rest start h ih => exact ih
  | case4 column t rest start h stop gap ih =>
    have hgap :
        (if column < start then [betweenTokens gap] else []).flatMap (·.text.toList) = gap := by
      split
      · simp [betweenTokens]
      · have : start - column = 0 := by omega
        simp [gap, this]
    rw [List.flatMap_append, hgap, List.flatMap_cons, ih]
    simp only [String.toList_ofList, gap]
    have hstop : start ≤ stop := by simp only [stop, start]; omega
    have hdrop : line.drop stop = (line.drop start).drop (stop - start) := by
      rw [List.drop_drop]; congr 1; omega
    have hdrop' : line.drop start = (line.drop column).drop (start - column) := by
      rw [List.drop_drop]; congr 1; omega
    rw [hdrop, List.take_append_drop, hdrop', List.take_append_drop]

/-- Highlighting neither loses nor repeats a character of the line. -/
theorem flatMap_highlight (line : List Char) (tokens : List Token) :
    (highlight line tokens).flatMap (·.text.toList) = line :=
  flatMap_highlightFrom line 0 tokens

end Highlight

end MiniJava
