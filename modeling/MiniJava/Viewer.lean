import MiniJava.Outcome
import MiniJava.Outline
import MiniJava.Viewer.Scroll

/-!
# The viewer — what it holds and what keys do

The viewer shows a text, its tokens, the outline of its tree and what is wrong with it; there is an
outline only if nothing is. Keys move the focus from pane to pane, the selection in the tree and the
offsets of the other panes. The current line is that of the selected node, or of the first problem.
-/

namespace MiniJava

/-- The panes that can have the focus. -/
inductive Pane where
  | source | tree | tokens | diagnostics
deriving DecidableEq, Repr, Inhabited

namespace Pane

/-- The pane that has the focus next. -/
def next : Pane → Pane
  | source => tree
  | tree => tokens
  | tokens => diagnostics
  | diagnostics => source

/-- The pane that had the focus before. -/
def previous : Pane → Pane
  | source => diagnostics
  | tree => source
  | tokens => tree
  | diagnostics => tokens

@[simp] theorem previous_next (p : Pane) : p.next.previous = p := by cases p <;> rfl

@[simp] theorem next_previous (p : Pane) : p.previous.next = p := by cases p <;> rfl

end Pane

/-- The keys that the viewer is told of. -/
inductive Key where
  | tab | backTab | up | down | left | right | home | endKey | pageUp | pageDown | enter | escape
  | char (c : Char)
deriving DecidableEq, Repr, Inhabited

/-- What the viewer holds. -/
structure Viewer where
  source : String
  tokens : List Token
  outline : List OutlineRow
  diagnostics : List (Position × String)
  focus : Pane
  /-- The selected row of the outline. -/
  cursor : Nat
  sourceScroll : SourceScroll
  treeOffset : Nat
  tokensOffset : Nat
  diagnosticsOffset : Nat
  quit : Bool
  status : String
deriving Repr, Inhabited

namespace Viewer

/-- The message about a text that was just read. -/
def greeting (tokens : List Token) (diagnostics : List (Position × String)) : String :=
  if diagnostics = [] then "Parsed successfully (" ++ toString tokens.length ++ " tokens)"
  else toString diagnostics.length ++ " problem(s) found"

/-- The outline of a program, or the entries of what was wrong. -/
def views : Except Diagnostics Program → List OutlineRow × List (Position × String)
  | .ok program => (program.outline, [])
  | .error diagnostics => ([], diagnostics.entries)

/-- The viewer of a text. -/
def ofSource (source : String) (policy : ErrorPolicy) : Viewer :=
  let tokens := (tokenize source).tokens
  let (outline, diagnostics) := views (parse source policy)
  { source, tokens, outline, diagnostics
    focus := .source
    cursor := 0
    sourceScroll := .initial
    treeOffset := 0
    tokensOffset := 0
    diagnosticsOffset := 0
    quit := false
    status := greeting tokens diagnostics }

/-- How many entries lie on each line that has any, in the order of the lines. -/
def countByLine (diagnostics : List (Position × String)) : List (Nat × Nat) :=
  let lines := diagnostics.map (·.1.line)
  lines.eraseDups.map fun line => (line, lines.count line)

/-- How many problems lie on each line that has any. -/
def problemLines (v : Viewer) : List (Nat × Nat) := countByLine v.diagnostics

/-- The line of the selected node; without one, that of the first problem, or zero. -/
def currentLine (v : Viewer) : Nat :=
  match v.outline[v.cursor]? with
  | some row => row.position.line
  | none => (v.diagnostics.head?.map (·.1.line)).getD 0

/-- The number of the selected node and how many there are. -/
def selectedNode? (v : Viewer) : Option (Nat × Nat) :=
  if v.outline = [] then none else some (v.cursor + 1, v.outline.length)

/-! ## Keys -/

/-- Selects a row of the outline and says so. -/
def select (v : Viewer) (cursor : Nat) : Viewer :=
  { v with
    cursor := cursor
    status := match v.outline[cursor]? with
      | some row => row.label ++ " at line " ++ toString row.position.line ++ ", column " ++
          toString row.position.column
      | none => v.status }

/-- One row up in the pane that has the focus. -/
def up (v : Viewer) : Viewer :=
  match v.focus with
  | .source => { v with sourceScroll := v.sourceScroll.up v.currentLine }
  | .tree => v.select (v.cursor - 1)
  | .tokens => { v with tokensOffset := Scroll.up v.tokensOffset }
  | .diagnostics => { v with diagnosticsOffset := Scroll.up v.diagnosticsOffset }

/-- One row down in the pane that has the focus. -/
def down (v : Viewer) : Viewer :=
  match v.focus with
  | .source => { v with sourceScroll := v.sourceScroll.down v.currentLine }
  | .tree => v.select (if v.cursor + 1 < v.outline.length then v.cursor + 1 else v.cursor)
  | .tokens => { v with tokensOffset := Scroll.down v.tokensOffset }
  | .diagnostics => { v with diagnosticsOffset := Scroll.down v.diagnosticsOffset }

/-- To the first row; in the text that is the first node of the tree. -/
def home (v : Viewer) : Viewer :=
  match v.focus with
  | .source | .tree => v.select 0
  | .tokens => { v with tokensOffset := 0 }
  | .diagnostics => { v with diagnosticsOffset := 0 }

/-- To the last row; in the text that is the last node of the tree. -/
def toEnd (v : Viewer) : Viewer :=
  match v.focus with
  | .source | .tree => v.select (v.outline.length - 1)
  | .tokens => { v with tokensOffset := maxOffset }
  | .diagnostics => { v with diagnosticsOffset := maxOffset }

/-- What a key does. -/
def press (v : Viewer) : Key → Viewer
  | .char 'q' | .char 'Q' | .escape => { v with quit := true }
  | .tab => { v with focus := v.focus.next }
  | .backTab => { v with focus := v.focus.previous }
  | .up => v.up
  | .down => v.down
  | .home => v.home
  | .endKey => v.toEnd
  | _ => v

end Viewer

end MiniJava
