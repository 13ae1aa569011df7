import MiniJava.Viewer.Render

/-!
# Counting in 64 bits

The numbers of the viewer have no bounds. The definitions here take the same steps with counts,
which end at `maxOffset`: a sum beyond it and a difference below zero have no value, and what is
counted from one has none either. Steps that are meant to stop at zero or at `maxOffset`, such as
those of `Scroll.up`, `Scroll.down` and `Scroll.visibleRows`, stay as they are. So where a definition
has the same value here as without bounds, no count has left its bounds on the way.
-/

namespace MiniJava

namespace Counted

/-- The sum of two counts, if it is one. -/
def add? (a b : Nat) : Option Nat := if a + b ≤ maxOffset then some (a + b) else none

/-- The difference of two counts, if it is one. -/
def sub? (a b : Nat) : Option Nat := if b ≤ a then some (a - b) else none

theorem add?_of_le {a b : Nat} (h : a + b ≤ maxOffset) : add? a b = some (a + b) := if_pos h

theorem sub?_of_le {a b : Nat} (h : b ≤ a) : sub? a b = some (a - b) := if_pos h

end Counted

open Counted

/-! ## Offsets -/

namespace Scroll

/-- `Scroll.clamp` in 64 bits. -/
def clamp? (offset total visible : Nat) : Option Nat :=
  if visible < total then (sub? total visible).map (min offset) else some 0

/-- `Scroll.follow` in 64 bits. -/
def follow? (offset selected visible : Nat) : Option Nat :=
  if selected < offset then some selected
  else do
    let bottom ← add? offset visible
    if bottom ≤ selected then sub? (← add? selected 1) visible else return offset

theorem clamp?_eq (offset total visible : Nat) :
    clamp? offset total visible = some (clamp offset total visible) := by
  unfold clamp? clamp
  split
  next h => rw [sub?_of_le (Nat.le_of_lt h), Option.map_some]
  next => rfl

/-- Nothing overflows where a pane's height can be added to the selected row. -/
theorem follow?_eq {offset selected visible : Nat} (hvisible : 0 < visible)
    (h : selected + visible ≤ maxOffset) :
    follow? offset selected visible = some (follow offset selected visible) := by
  unfold follow? follow
  split
  next => rfl
  next hoffset =>
    rw [add?_of_le (by omega), Option.bind_eq_bind, Option.bind_some]
    split
    next hbelow =>
      rw [add?_of_le (by omega), Option.bind_some]
      exact sub?_of_le (by omega)
    next => rfl

-- Behind the last row that can be counted there is none to scroll to.
example : follow? 1 maxOffset 1 = none := by decide

end Scroll

/-- `SourceScroll.settle` in 64 bits. -/
def SourceScroll.settle? (s : SourceScroll) (visible total current : Nat) :
    Option SourceScroll := do
  let row := s.pinnedRow visible
  let wanted ←
    if 0 < current ∧ current ≤ total then (sub? current 1).map (· - row) else some s.offset
  let offset ← Scroll.clamp? wanted total visible
  return ⟨offset, some row⟩

theorem SourceScroll.settle?_eq (s : SourceScroll) (visible total current : Nat) :
    s.settle? visible total current = some (s.settle visible total current) := by
  unfold settle? settle
  split
  next h =>
    rw [sub?_of_le h.1]
    simp [Scroll.clamp?_eq]
  next => simp [Scroll.clamp?_eq]

/-! ## Lines -/

namespace SourceView

/-- The number of a line, one more than the lines above it, and the line. -/
def numbered? (line : String × Nat) : Option (Nat × String) :=
  (add? line.2 1).map fun number => (number, line.1)

/-- `SourceView.shownLines` in 64 bits. -/
def shownLines? (v : SourceView) (offset visible : Nat) : Option (List (Nat × String)) :=
  (((v.lines.drop offset).take visible).zipIdx offset).mapM numbered?

-- Induction on the lines, with one more above each of the others.
theorem mapM_numbered?_zipIdx (lines : List String) {above : Nat}
    (h : above + lines.length ≤ maxOffset) :
    (lines.zipIdx above).mapM numbered? =
      some ((lines.zipIdx (above + 1)).map fun (line, number) => (number, line)) := by
  induction lines generalizing above with
  | nil => rfl
  | cons line lines ih =>
    rw [List.length_cons] at h
    have hnumber : numbered? (line, above) = some (above + 1, line) := by
      rw [numbered?, add?_of_le (by omega), Option.map_some]
    rw [List.zipIdx_cons, List.mapM_cons, hnumber, ih (by omega)]
    rfl

theorem shownLines?_eq {v : SourceView} (h : v.lines.length ≤ maxOffset) (offset visible : Nat) :
    v.shownLines? offset visible = some (v.shownLines offset visible) := by
  unfold shownLines? shownLines
  by_cases hoffset : offset ≤ v.lines.length
  · apply mapM_numbered?_zipIdx
    have hlength := List.length_take_le' visible (v.lines.drop offset)
    rw [List.length_drop] at hlength
    omega
  · rw [List.drop_eq_nil_of_le (by omega), List.take_nil]
    rfl

end SourceView

/-! ## The viewer -/

namespace Viewer

/-- `Viewer.down` in 64 bits. -/
def down? (v : Viewer) : Option Viewer :=
  match v.focus with
  | .tree => do
    let below ← add? v.cursor 1
    return v.select (if below < v.outline.length then below else v.cursor)
  | _ => some v.down

/-- `Viewer.press` in 64 bits: what the other keys do stops at zero or at `maxOffset`. -/
def press? (v : Viewer) : Key → Option Viewer
  | .down => v.down?
  | key => some (v.press key)

/-- `Viewer.settle` in 64 bits. -/
def settle? (v : Viewer) (layout : ViewerLayout) : Option Viewer := do
  let sourceScroll ← v.sourceScroll.settle? (Scroll.visibleRows layout.source.height)
    (Text.lines v.source).length v.currentLine
  let diagnosticsRows := Scroll.visibleRows layout.diagnostics.height
  let diagnosticsOffset ←
    if v.diagnostics = [] then some v.diagnosticsOffset
    else Scroll.clamp? v.diagnosticsOffset v.diagnostics.length diagnosticsRows
  let treeRows := Scroll.visibleRows layout.tree.height
  let treeOffset ←
    if v.outline = [] then some v.treeOffset else Scroll.follow? v.treeOffset v.cursor treeRows
  let tokensOffset ←
    Scroll.clamp? v.tokensOffset v.tokens.length (Scroll.visibleRows layout.tokens.height)
  return { v with sourceScroll, diagnosticsOffset, treeOffset, tokensOffset }

/-- `Viewer.selectedNode?` in 64 bits. -/
def nodeNumber? (v : Viewer) : Option (Option (Nat × Nat)) :=
  if v.outline = [] then some none
  else (add? v.cursor 1).map fun node => some (node, v.outline.length)

/-- `Viewer.render` in 64 bits. The numbers of the lines and of the node are counted for the screen
that shows them. -/
def render? (v : Viewer) (width height : Nat) : Option (Canvas × Viewer) := do
  let layout := ViewerLayout.ofSize width height
  let settled ← v.settle? layout
  let _ ← settled.sourceView.shownLines? settled.sourceScroll.offset
    (Scroll.visibleRows layout.source.height)
  let _ ← settled.nodeNumber?
  return (settled.draw width height, settled)

variable {v : Viewer}

theorem down?_eq (h : v.cursor < maxOffset) : v.down? = some v.down := by
  unfold down? down
  cases v.focus with
  | tree =>
    rw [add?_of_le h]
    rfl
  | source | tokens | diagnostics => rfl

theorem press?_eq (h : v.cursor < maxOffset) (key : Key) : v.press? key = some (v.press key) := by
  unfold press?
  split
  next => exact down?_eq h
  next => rfl

theorem settle?_eq {layout : ViewerLayout}
    (h : v.cursor + Scroll.visibleRows layout.tree.height ≤ maxOffset) :
    v.settle? layout = some (v.settle layout) := by
  have hfollow : Scroll.follow? v.treeOffset v.cursor (Scroll.visibleRows layout.tree.height) =
      some (Scroll.follow v.treeOffset v.cursor (Scroll.visibleRows layout.tree.height)) :=
    Scroll.follow?_eq (Scroll.visibleRows_pos _) h
  unfold settle? settle
  simp only [SourceScroll.settle?_eq, Scroll.clamp?_eq, hfollow, Option.bind_eq_bind,
    Option.bind_some]
  split <;> split <;> rfl

theorem nodeNumber?_eq (h : v.cursor < maxOffset) :
    v.nodeNumber? = some v.selectedNode? := by
  unfold nodeNumber? selectedNode?
  split
  next => rfl
  next => rw [add?_of_le h, Option.map_some]

-- No part of a screen shows more rows than the screen has.
theorem visibleRows_share_le (height : Nat) {hundredths : Nat} (h : hundredths ≤ 100) :
    Scroll.visibleRows (Area.share (height - 1) hundredths) ≤ max height 1 := by
  have hshare : Area.share (height - 1) hundredths ≤ height - 1 := Area.share_le h
  unfold Scroll.visibleRows
  omega

theorem render?_eq {width height : Nat} (hlines : (Text.lines v.source).length ≤ maxOffset)
    (hcursor : v.cursor + max height 1 ≤ maxOffset) :
    v.render? width height = some (v.render width height) := by
  have hrows : Scroll.visibleRows (ViewerLayout.ofSize width height).tree.height ≤ max height 1 :=
    visibleRows_share_le height (by decide)
  have hsettle : v.settle? (ViewerLayout.ofSize width height) =
      some (v.settle (ViewerLayout.ofSize width height)) := settle?_eq (by omega)
  have hlower : v.cursor < maxOffset := by omega
  -- Settling moves neither the selection nor the text.
  have hnode := nodeNumber?_eq (v := v.settle (ViewerLayout.ofSize width height)) hlower
  have hshown := SourceView.shownLines?_eq
    (v := (v.settle (ViewerLayout.ofSize width height)).sourceView) hlines
  simp only [render?, render, hsettle, hshown, hnode, Option.bind_eq_bind, Option.bind_some]
  rfl

end Viewer

end MiniJava
