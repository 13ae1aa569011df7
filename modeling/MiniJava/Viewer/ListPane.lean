import MiniJava.Outline
import MiniJava.Screen.Wrap
import MiniJava.Text.Lines
import MiniJava.Text.Padding
import MiniJava.Viewer.Palette
import MiniJava.Viewer.Scroll

/-!
# The panes of lists — the tree, the tokens and the diagnostics

Each of these panes shows a row per item, from an offset on. A pane without items says so in words,
except for the tokens, of which there is always one.
-/

namespace MiniJava

namespace ListPane

/-- The items that are shown, the first of them behind `offset` others. -/
def shown {α : Type} (items : List α) (offset visible : Nat) : List α :=
  (items.drop offset).take visible

/-! ## The tree -/

/-- The row of a node; the selected one has a background of its own. -/
def treeRow (width : Nat) (selected : Bool) (r : OutlineRow) : Row :=
  let base := if selected then Style.filled Palette.currentLine else .plain
  let labelStyle :=
    if r.depth = 0 then (Style.colored Palette.typeName).strong else .colored Palette.node
  Row.ofItem base width [
    ⟨Text.spaces (2 * r.depth), .plain⟩,
    ⟨r.label, labelStyle⟩,
    ⟨"  " ++ toString r.position.line ++ ":" ++ toString r.position.column,
      .colored Palette.comment⟩]

/-- The pane of the tree. -/
def drawTree (rows : List OutlineRow) (cursor : Nat) (focused : Bool)
    (offset visible width height : Nat) : Canvas :=
  if rows = [] then
    (Palette.pane " Syntax Tree " focused (.colored Palette.comment) 1).draw width height
      fun inner => [Row.ofSpans (.colored Palette.comment) inner
        [⟨"(no tree: the program did not parse)", .plain⟩]]
  else
    (Palette.pane " Syntax Tree " focused .plain 1).draw width height fun inner =>
      ((shown rows offset visible).zipIdx offset).map fun (r, index) =>
        treeRow inner (index == cursor) r

/-! ## The tokens -/

/-- The row of a token: where it stands, its kind and its text. -/
def tokenRow (width : Nat) (t : Token) : Row :=
  Row.ofItem .plain width [
    ⟨Text.padLeft 4 (toString t.position.line) ++ ":" ++
      Text.padRight 3 (toString t.position.column) ++ " ", .colored Palette.comment⟩,
    ⟨Text.padRight 12 t.kind.name ++ " ", .colored Palette.primary⟩,
    ⟨t.text, .colored Palette.text⟩]

/-- The pane of the tokens. -/
def drawTokens (tokens : List Token) (focused : Bool) (offset visible width height : Nat) :
    Canvas :=
  (Palette.pane " Tokens " focused .plain 1).draw width height fun inner =>
    (shown tokens offset visible).map (tokenRow inner)

/-! ## The diagnostics -/

/-- The rows of a diagnostic, one for each line of its message. -/
def diagnosticRows (width : Nat) (message : String) : List Row :=
  let lines := if message = "" then [""] else Text.lines message
  lines.map fun line => Row.ofItem (.colored Palette.error) width [⟨line, .plain⟩]

/-- The rows of the first items, as many of them as fit whole. -/
def wholeItems : Nat → List (List Row) → List Row
  | _, [] => []
  | room, item :: rest =>
    if item.length ≤ room then item ++ wholeItems (room - item.length) rest else []

/-- The pane of the diagnostics. -/
def drawDiagnostics (messages : List String) (focused : Bool)
    (offset visible width height : Nat) : Canvas :=
  if messages = [] then
    (Palette.pane " Diagnostics " focused (.colored Palette.success) 1).draw width height
      fun inner => (Wrap.wrap inner ["No", "problems", "found"]).map fun line =>
        Row.ofSpans (.colored Palette.success) inner [⟨line, .plain⟩]
  else
    (Palette.pane " Diagnostics " focused .plain 1).draw width height fun inner =>
      wholeItems (Frame.innerHeight height)
        ((shown messages offset visible).map (diagnosticRows inner))

end ListPane

end MiniJava
