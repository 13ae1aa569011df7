import MiniJava.Text.Lines
import MiniJava.Text.Padding
import MiniJava.Viewer.Highlight
import MiniJava.Viewer.Scroll

/-!
# The pane of the text

Every line has a mark if something is wrong on it, its number, and its text in colour. The current
line stands on a background of its own; if something is wrong on it, the background says so.
-/

namespace MiniJava

/-- What the pane of the text shows. -/
structure SourceView where
  lines : List String
  tokens : Array Token
  /-- The lines on which something is wrong. -/
  problemLines : List Nat
  /-- The current line, or zero. -/
  current : Nat
deriving Repr, Inhabited

namespace SourceView

/-- The style of a line number. -/
def numberStyle (isError isCurrent : Bool) : Style :=
  if isError then (Style.colored Palette.error).strong
  else if isCurrent then (Style.colored Palette.secondary).strong
  else .colored Palette.comment

/-- The style that the current line lays over its text. -/
def currentStyle (isError : Bool) : Style :=
  if isError then .onBackground .white Palette.error else .filled Palette.currentLine

/-- The spans of a line, number and mark included. -/
def lineSpans (v : SourceView) (number : Nat) (line : String) : List Span :=
  let isError := v.problemLines.contains number
  let isCurrent := number == v.current
  let text := Highlight.highlight line.toList (Highlight.lineTokens v.tokens number)
  let text :=
    if isCurrent then text.map fun s => { s with style := s.style.patch (currentStyle isError) }
    else text
  ⟨if isError then "✗" else " ", .colored Palette.error⟩ ::
    ⟨Text.padLeft 4 (toString number) ++ " ", numberStyle isError isCurrent⟩ :: text

/-- The numbers and the texts of the lines that are shown, the first of them behind `offset` others.
-/
def shownLines (v : SourceView) (offset visible : Nat) : List (Nat × String) :=
  (((v.lines.drop offset).take visible).zipIdx (offset + 1)).map fun (line, number) =>
    (number, line)

/-- The pane with so many lines above it; `visible` bounds the lines that are shown. -/
def draw (v : SourceView) (focused : Bool) (offset visible width height : Nat) : Canvas :=
  (Palette.pane " Source Code " focused .plain 0).draw width height fun inner =>
    (v.shownLines offset visible).map fun (number, line) =>
      Row.ofSpans .plain inner (v.lineSpans number line)

end SourceView

end MiniJava
