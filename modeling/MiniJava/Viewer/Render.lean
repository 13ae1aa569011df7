import MiniJava.Screen.Area
import MiniJava.Viewer
import MiniJava.Viewer.ListPane
import MiniJava.Viewer.SourcePane
import MiniJava.Viewer.StatusBar

/-!
# Rendering the viewer

The last line of the screen is the status bar. Above it, the left column holds the text over the
diagnostics and the right one the tree over the tokens. Rendering first settles the offsets for the
heights of the panes, and then draws what the settled viewer shows.
-/

namespace MiniJava

/-- Where the panes and the status bar are. -/
structure ViewerLayout where
  source : Area
  diagnostics : Area
  tree : Area
  tokens : Area
  status : Area
deriving DecidableEq, Repr, Inhabited

namespace ViewerLayout

/-- The layout of a screen of some size. -/
def ofSize (width height : Nat) : ViewerLayout :=
  let panes : Area := ⟨0, 0, width, height - 1⟩
  let (left, right) := panes.splitColumns 60
  let (source, diagnostics) := left.splitRows 70
  let (tree, tokens) := right.splitRows 60
  { source, diagnostics, tree, tokens
    status := ⟨0, height - 1, width, min height 1⟩ }

end ViewerLayout

namespace Viewer

/-- The viewer with its offsets brought into range for a layout. The offset of an empty list is left
alone. -/
def settle (v : Viewer) (layout : ViewerLayout) : Viewer :=
  { v with
    sourceScroll := v.sourceScroll.settle (Scroll.visibleRows layout.source.height)
      (Text.lines v.source).length v.currentLine
    diagnosticsOffset :=
      if v.diagnostics = [] then v.diagnosticsOffset
      else Scroll.clamp v.diagnosticsOffset v.diagnostics.length
        (Scroll.visibleRows layout.diagnostics.height)
    treeOffset :=
      if v.outline = [] then v.treeOffset
      else Scroll.follow v.treeOffset v.cursor (Scroll.visibleRows layout.tree.height)
    tokensOffset :=
      Scroll.clamp v.tokensOffset v.tokens.length (Scroll.visibleRows layout.tokens.height) }

/-- What the pane of the text shows. -/
def sourceView (v : Viewer) : SourceView :=
  { lines := Text.lines v.source
    tokens := v.tokens.toArray
    problemLines := v.problemLines.map (·.1)
    current := v.currentLine }

/-- What the status bar tells. -/
def statusBar (v : Viewer) : StatusBar := ⟨v.status, v.diagnostics.length, v.selectedNode?⟩

/-- The screen of a viewer whose offsets are settled. -/
def draw (v : Viewer) (width height : Nat) : Canvas :=
  let layout := ViewerLayout.ofSize width height
  let visible (a : Area) := Scroll.visibleRows a.height
  let paint := Canvas.paintClipped width height
  Canvas.blank width height
    |> paint layout.source (v.sourceView.draw (v.focus == .source) v.sourceScroll.offset
        (visible layout.source))
    |> paint layout.diagnostics (ListPane.drawDiagnostics (v.diagnostics.map (·.2))
        (v.focus == .diagnostics) v.diagnosticsOffset (visible layout.diagnostics))
    |> paint layout.tree (ListPane.drawTree v.outline v.cursor (v.focus == .tree) v.treeOffset
        (visible layout.tree))
    |> paint layout.tokens (ListPane.drawTokens v.tokens (v.focus == .tokens) v.tokensOffset
        (visible layout.tokens))
    |> v.statusBar.paint width height layout.status
    |> Canvas.shown

/-- The screen of a viewer, and the viewer that is left behind it. -/
def render (v : Viewer) (width height : Nat) : Canvas × Viewer :=
  let settled := v.settle (ViewerLayout.ofSize width height)
  (settled.draw width height, settled)

end Viewer

end MiniJava
