import MiniJava.Proofs.Viewing.Lines
import MiniJava.Viewer.Render

/-!
# The selection — always on the screen

Between its borders a pane shows one item per row, from the one at its offset on (`Frame.window`).
Settling moves the offset of the tree so far that the selected node is among them, and that of the
text so far that the current line is, without leaving a gap below the last line. A pane of three
rows or more has room for it, whatever the offsets were before (`Viewer.selection_shown`).
-/

namespace MiniJava

/-! ## The rows of a pane -/

-- Rows filled up with blank ones, row by row.
theorem Canvas.fit_eq_map (base : Style) (width height : Nat) (rows : List Row) :
    fit base width height rows = (List.range height).map fun y =>
      rows[y]?.getD (List.replicate width (.space base)) := by
  refine List.ext_getElem (by simp) fun y hy _ => ?_
  rw [length_fit] at hy
  rw [List.getElem_map, List.getElem_range]
  by_cases hrows : y < rows.length
  · have htake : y < (rows.take height).length := by simp [hy, hrows]
    rw [List.getElem?_eq_getElem hrows, Option.getD_some]
    exact (List.getElem_append_left htake).trans List.getElem_take
  · have htake : (rows.take height).length ≤ y := by
      rw [List.length_take]
      omega
    rw [List.getElem?_eq_none (Nat.not_lt.mp hrows), Option.getD_none]
    exact (List.getElem_append_right htake).trans (List.getElem_replicate _)

namespace Frame

/-- So many rows of a pane with items one behind the other, from the one at `offset` on. A row
without an item is blank. -/
def window (f : Frame) (width rows offset : Nat) (item? : Nat → Option Row) : Canvas :=
  (List.range' offset rows).map fun i =>
    f.side width ((item? i).getD (List.replicate (f.innerWidth width) (.space f.base)))

/-- The picture of a pane with so many rows shows, between its borders, items one behind the other,
from the one at `offset` on, and the selected one is among them. -/
structure Shows (f : Frame) (width rows offset selected : Nat) (item? : Nat → Option Row)
    (picture : Canvas) : Prop where
  not_above : offset ≤ selected
  not_below : selected < offset + rows
  window : picture.tail.dropLast = f.window width rows offset item?

-- A pane shows what its content is between its borders.
theorem tail_dropLast_draw {f : Frame} {width height offset : Nat} {content : Nat → List Row}
    {item? : Nat → Option Row} (hheight : 2 ≤ height)
    (hitem : ∀ y < height - 2, (content (f.innerWidth width))[y]? = item? (offset + y)) :
    (f.draw width height content).tail.dropLast =
      f.window width (height - 2) offset item? := by
  obtain ⟨rows, rfl⟩ := Nat.exists_eq_add_of_le' hheight
  rw [Nat.add_sub_cancel] at hitem ⊢
  rw [draw, List.cons_append, List.tail_cons, List.dropLast_concat, Canvas.fit_eq_map,
    List.map_map, window, List.range'_eq_map_range, List.map_map]
  refine List.map_congr_left fun y hy => ?_
  rw [Function.comp_apply, Function.comp_apply, hitem y (List.mem_range.mp hy)]

end Frame

/-! ## Panes -/

theorem Scroll.visibleRows_eq {height : Nat} (h : 3 ≤ height) : visibleRows height = height - 2 :=
  Nat.max_eq_left (by omega)

namespace ListPane

theorem getElem?_shown {α : Type} (items : List α) {offset visible y : Nat} (hy : y < visible) :
    (shown items offset visible)[y]? = items[offset + y]? := by
  rw [shown, List.getElem?_take_of_lt hy, List.getElem?_drop]

/-- The pane of the tree shows the selected node if following the selection leads to the offset. -/
theorem shows_drawTree {outline : List OutlineRow} {cursor height : Nat}
    (hcursor : cursor < outline.length) (hheight : 3 ≤ height) (offset width : Nat)
    (focused : Bool) :
    let f := Palette.pane " Syntax Tree " focused .plain 1
    let visible := Scroll.visibleRows height
    let followed := Scroll.follow offset cursor visible
    f.Shows width (height - 2) followed cursor
      (fun i => outline[i]?.map (treeRow (f.innerWidth width) (i == cursor)))
      (drawTree outline cursor focused followed visible width height) := by
  intro f visible followed
  have hvisible : visible = height - 2 := Scroll.visibleRows_eq hheight
  obtain ⟨habove, hbelow⟩ : followed ≤ cursor ∧ cursor < followed + visible :=
    Scroll.follow_shows offset cursor (Scroll.visibleRows_pos height)
  refine ⟨habove, hvisible ▸ hbelow, ?_⟩
  have hne : outline ≠ [] := List.ne_nil_of_length_pos (Nat.zero_lt_of_lt hcursor)
  rw [drawTree, if_neg hne]
  refine Frame.tail_dropLast_draw (by omega) fun y hy => ?_
  rw [List.getElem?_map, List.getElem?_zipIdx, getElem?_shown outline (hvisible ▸ hy)]
  cases outline[followed + y]? <;> rfl

end ListPane

namespace SourceScroll

/-- A line of the text that is current is shown, without a gap below the last line. -/
theorem settle_shows (s : SourceScroll) {visible total current : Nat} (hvisible : 0 < visible)
    (hcurrent : 1 ≤ current) (htotal : current ≤ total) :
    let offset := (s.settle visible total current).offset
    offset ≤ current - 1 ∧ current - 1 < offset + visible ∧ offset ≤ total - visible := by
  intro offset
  have hrow : s.pinnedRow visible ≤ visible - 1 := Nat.min_le_right _ _
  have hoffset : offset = Scroll.clamp (current - 1 - s.pinnedRow visible) total visible := by
    show Scroll.clamp (if _ then _ else _) total visible = _
    rw [if_pos ⟨hcurrent, htotal⟩]
  have hself := Scroll.clamp_le_self (current - 1 - s.pinnedRow visible) total visible
  refine ⟨by omega, ?_, hoffset ▸ Scroll.clamp_le _ _ _⟩
  rw [hoffset, Scroll.clamp]
  split <;> omega

end SourceScroll

namespace SourceView

theorem getElem?_shownLines (v : SourceView) {offset visible y : Nat} (hy : y < visible) :
    (v.shownLines offset visible)[y]? =
      v.lines[offset + y]?.map fun line => (offset + y + 1, line) := by
  rw [shownLines, List.getElem?_map, List.getElem?_zipIdx, List.getElem?_take_of_lt hy,
    List.getElem?_drop, Option.map_map, Nat.add_right_comm]
  rfl

/-- The pane of the text shows the current line if settling leads to the offset. -/
theorem shows_draw {v : SourceView} {height : Nat} (hcurrent : 1 ≤ v.current)
    (hlines : v.current ≤ v.lines.length) (hheight : 3 ≤ height) (scroll : SourceScroll)
    (width : Nat) (focused : Bool) :
    let f := Palette.pane " Source Code " focused .plain 0
    let visible := Scroll.visibleRows height
    let offset := (scroll.settle visible v.lines.length v.current).offset
    f.Shows width (height - 2) offset (v.current - 1)
        (fun i => v.lines[i]?.map fun line =>
          Row.ofSpans .plain (f.innerWidth width) (v.lineSpans (i + 1) line))
        (v.draw focused offset visible width height) ∧
      offset ≤ v.lines.length - (height - 2) := by
  intro f visible offset
  have hvisible : visible = height - 2 := Scroll.visibleRows_eq hheight
  obtain ⟨habove, hbelow, hpage⟩ : offset ≤ v.current - 1 ∧ v.current - 1 < offset + visible ∧
      offset ≤ v.lines.length - visible :=
    scroll.settle_shows (Scroll.visibleRows_pos height) hcurrent hlines
  refine ⟨⟨habove, hvisible ▸ hbelow, ?_⟩, hvisible ▸ hpage⟩
  rw [draw]
  refine Frame.tail_dropLast_draw (by omega) fun y hy => ?_
  rw [List.getElem?_map, v.getElem?_shownLines (hvisible ▸ hy), Option.map_map]
  rfl

end SourceView

/-! ## The viewer -/

namespace Viewer

/-- The selection is always on the screen. Whatever keys and renderings come, the current line of a
text that was read without an error is one of its lines. And wherever a viewer was scrolled to
before, panes of three rows or more that are drawn after settling show the selected node and the
current line, if there are such: between the borders stand the items from the offset on, one per
row, and the text leaves no gap below its last line. -/
theorem selection_shown :
    (∀ source policy program, parse source policy = .ok program → ∀ events,
      let v := (ofSource source policy).run events
      1 ≤ v.currentLine ∧ v.currentLine ≤ (Text.lines source).length) ∧
    ∀ (v : Viewer) (layout : ViewerLayout) (width : Nat) (focused : Bool),
      let settled := v.settle layout
      let lines := Text.lines v.source
      (v.cursor < v.outline.length → 3 ≤ layout.tree.height →
        let f := Palette.pane " Syntax Tree " focused .plain 1
        f.Shows width (layout.tree.height - 2) settled.treeOffset v.cursor
          (fun i => v.outline[i]?.map (ListPane.treeRow (f.innerWidth width) (i == v.cursor)))
          (ListPane.drawTree v.outline v.cursor focused settled.treeOffset
            (Scroll.visibleRows layout.tree.height) width layout.tree.height)) ∧
      (1 ≤ v.currentLine → v.currentLine ≤ lines.length → 3 ≤ layout.source.height →
        let f := Palette.pane " Source Code " focused .plain 0
        f.Shows width (layout.source.height - 2) settled.sourceScroll.offset (v.currentLine - 1)
            (fun i => lines[i]?.map fun line =>
              Row.ofSpans .plain (f.innerWidth width) (v.sourceView.lineSpans (i + 1) line))
            (v.sourceView.draw focused settled.sourceScroll.offset
              (Scroll.visibleRows layout.source.height) width layout.source.height) ∧
          settled.sourceScroll.offset ≤ lines.length - (layout.source.height - 2)) := by
  refine ⟨fun source policy program hparse events => currentLine_of_parse hparse events,
    fun v layout width focused => ⟨fun hcursor hheight => ?_, fun hcurrent hlines hheight => ?_⟩⟩
  · have hne : v.outline ≠ [] := List.ne_nil_of_length_pos (Nat.zero_lt_of_lt hcursor)
    have hoffset : (v.settle layout).treeOffset =
        Scroll.follow v.treeOffset v.cursor (Scroll.visibleRows layout.tree.height) := if_neg hne
    rw [hoffset]
    exact ListPane.shows_drawTree hcursor hheight v.treeOffset width focused
  · exact SourceView.shows_draw (v := v.sourceView) hcurrent hlines hheight v.sourceScroll width
      focused

-- A text of six lines with three assignments.
def assignmentsSource : String :=
  "class M \x7b\n  public static void main() \x7b\n    a = 1;\n    b = 2;\n    c = 3;\n  \x7d \x7d"

/-- The last node of eleven and the fifth line of six, in panes of three and of four rows. -/
theorem selection_shown_of_assignments :
    let v := (ofSource assignmentsSource .recover).run [.press .endKey, .render 20 10]
    let layout := ViewerLayout.ofSize 20 10
    let settled := v.settle layout
    (parse assignmentsSource .recover).isOk = true ∧
      (1 ≤ v.currentLine ∧ v.currentLine ≤ (Text.lines assignmentsSource).length) ∧
      (v.cursor < v.outline.length ∧ 3 ≤ layout.tree.height) ∧
      (settled.treeOffset ≤ v.cursor ∧
        v.cursor < settled.treeOffset + (layout.tree.height - 2)) ∧
      (v.currentLine ≤ (Text.lines v.source).length ∧ 3 ≤ layout.source.height) ∧
      (settled.sourceScroll.offset ≤ v.currentLine - 1 ∧
        v.currentLine - 1 < settled.sourceScroll.offset + (layout.source.height - 2) ∧
        settled.sourceScroll.offset ≤
          (Text.lines v.source).length - (layout.source.height - 2)) := by
  intro v layout settled
  have hok : (parse assignmentsSource .recover).isOk = true := by decide +kernel
  obtain ⟨program, hparse⟩ : ∃ program, parse assignmentsSource .recover = .ok program := by
    cases h : parse assignmentsSource .recover with
    | ok program => exact ⟨program, rfl⟩
    | error d =>
      rw [h] at hok
      cases hok
  have hcursor : v.cursor < v.outline.length := by decide +kernel
  have htree : 3 ≤ layout.tree.height := by decide
  have hpane : 3 ≤ layout.source.height := by decide
  obtain ⟨hcurrent, hshown⟩ := selection_shown
  have hcurrent := hcurrent assignmentsSource .recover program hparse
    [.press .endKey, .render 20 10]
  have hsource : v.source = assignmentsSource := (continues_run _ _).source
  have hlines : v.currentLine ≤ (Text.lines v.source).length := hsource ▸ hcurrent.2
  obtain ⟨hnode, hline⟩ := hshown v layout 8 true
  obtain ⟨hline, hpage⟩ := hline hcurrent.1 hlines hpane
  have hnode := hnode hcursor htree
  exact ⟨hok, hcurrent, ⟨hcursor, htree⟩, ⟨hnode.not_above, hnode.not_below⟩, ⟨hlines, hpane⟩,
    hline.not_above, hline.not_below, hpage⟩

end Viewer

end MiniJava
