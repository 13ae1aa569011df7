/-!
# Scrolling

An offset says how many rows of a list are above its pane. Keys move offsets without regard to the
size of the pane, between zero and `maxOffset`; drawing a pane brings its offset back into range.
The pane of the text pins the current line to a row instead, and its offset follows from that.
-/

namespace MiniJava

/-- The largest offset there is: counting stops at 64 bits. -/
def maxOffset : Nat := 0xffffffffffffffff

namespace Scroll

/-- One row further, or no further than counting goes. -/
def down (offset : Nat) : Nat := min (offset + 1) maxOffset

/-- One row back, or no further back than the first. -/
def up (offset : Nat) : Nat := offset - 1

/-- How many rows a pane of some height shows between its borders, at least one. -/
def visibleRows (height : Nat) : Nat := max (height - 2) 1

/-- The offset, or the one at which the last row of the list is at the bottom. -/
def clamp (offset total visible : Nat) : Nat :=
  if visible < total then min offset (total - visible) else 0

/-- The offset nearest to this one at which the selected row is shown. -/
def follow (offset selected visible : Nat) : Nat :=
  if selected < offset then selected
  else if offset + visible ≤ selected then selected + 1 - visible
  else offset

/-- No row back leads forward. -/
theorem up_le (offset : Nat) : up offset ≤ offset := Nat.sub_le offset 1

/-- No row further leads beyond the largest offset. -/
theorem down_le (offset : Nat) : down offset ≤ maxOffset := Nat.min_le_right _ _

/-- Every pane shows a row. -/
theorem visibleRows_pos (height : Nat) : 0 < visibleRows height := Nat.le_max_right _ 1

/-- Clamping only leads back. -/
theorem clamp_le_self (offset total visible : Nat) : clamp offset total visible ≤ offset := by
  unfold clamp
  split <;> omega

/-- A clamped offset leaves no gap below the list. -/
theorem clamp_le (offset total visible : Nat) : clamp offset total visible ≤ total - visible := by
  unfold clamp
  split <;> omega

/-- An offset that leaves no gap below the list is as it should be. -/
theorem clamp_eq_self {offset total visible : Nat} (h : offset ≤ total - visible) :
    clamp offset total visible = offset := by
  unfold clamp
  split <;> omega

/-- The selected row is shown. -/
theorem follow_shows (offset selected : Nat) {visible : Nat} (h : 0 < visible) :
    follow offset selected visible ≤ selected ∧
      selected < follow offset selected visible + visible := by
  unfold follow
  split
  · omega
  · split <;> omega

/-- Where the selected row is shown already, nothing moves. -/
theorem follow_eq_self {offset selected visible : Nat} (h : offset ≤ selected)
    (h' : selected < offset + visible) : follow offset selected visible = offset := by
  unfold follow
  split
  · omega
  · split <;> omega

end Scroll

/-- How the pane of the text is scrolled: its offset, and the row to which the current line is
pinned once the pane has been drawn. -/
structure SourceScroll where
  offset : Nat
  row? : Option Nat
deriving DecidableEq, Repr, Inhabited

namespace SourceScroll

/-- Before the pane was drawn. -/
def initial : SourceScroll := ⟨0, none⟩

/-- The row to which the current line is pinned in a pane with so many rows: the middle one at
first, and never one outside the pane. -/
def pinnedRow (s : SourceScroll) (visible : Nat) : Nat :=
  min (s.row?.getD (visible / 2)) (visible - 1)

/-- The scrolling with which a pane is drawn, for a text of `total` lines. The current line counts
from one; with none of the lines current, the offset is only brought into range. -/
def settle (s : SourceScroll) (visible total current : Nat) : SourceScroll :=
  let row := s.pinnedRow visible
  let wanted := if 0 < current ∧ current ≤ total then current - 1 - row else s.offset
  ⟨Scroll.clamp wanted total visible, some row⟩

/-- One line up: a pinned line moves down in its pane, and otherwise the offset moves. -/
def up (s : SourceScroll) (current : Nat) : SourceScroll :=
  match s.row? with
  | some row =>
    if 0 < current then { s with row? := some (Scroll.down row) }
    else { s with offset := Scroll.up s.offset }
  | none => { s with offset := Scroll.up s.offset }

/-- One line down: a pinned line moves up in its pane, and otherwise the offset moves. -/
def down (s : SourceScroll) (current : Nat) : SourceScroll :=
  match s.row? with
  | some row =>
    if 0 < current then { s with row? := some (Scroll.up row) }
    else { s with offset := Scroll.down s.offset }
  | none => { s with offset := Scroll.down s.offset }

end SourceScroll

end MiniJava
