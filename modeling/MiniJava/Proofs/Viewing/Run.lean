import MiniJava.Proofs.Recovery.Diagnostics
import MiniJava.Proofs.Viewing.Counting
import MiniJava.Proofs.Viewing.Extent

/-!
# Runs of the viewer

Keys and renderings come in any order, on screens of any size. What the viewer shows never changes
(`Continues`), and what it points at is there to be shown (`Sound`): each is kept by a step, and so
by a run.
-/

namespace MiniJava

namespace Viewer

/-! ## Steps -/

/-- What can happen to a viewer: a key that it is told of, any other key, or a rendering on a screen
of some size. -/
inductive Event where
  | press (key : Key)
  | otherKey
  | render (width height : UInt16)
deriving DecidableEq, Repr

/-- What is left of the viewer after an event. -/
def step (v : Viewer) : Event → Viewer
  | .press key => v.press key
  | .otherKey => v
  | .render width height => (v.render width.toNat height.toNat).2

/-- `Viewer.step` in 64 bits. -/
def step? (v : Viewer) : Event → Option Viewer
  | .press key => v.press? key
  | .otherKey => some v
  | .render width height => (v.render? width.toNat height.toNat).map (·.2)

/-- What is left of the viewer after events. -/
def run (v : Viewer) (events : List Event) : Viewer := events.foldl step v

/-- `Viewer.run` in 64 bits. -/
def run? (v : Viewer) (events : List Event) : Option Viewer := events.foldlM step? v

/-! ## What a key can do -/

section

variable {v : Viewer} {motive : Viewer → Prop}

-- A key quits, moves the focus, selects a row that is there, or moves the offset of one pane.
theorem press_cases (stay : motive v) (quit : motive { v with quit := true })
    (focus : ∀ pane, motive { v with focus := pane })
    (select : ∀ cursor ≤ max v.cursor (v.outline.length - 1), motive (v.select cursor))
    (sourceUp : motive { v with sourceScroll := v.sourceScroll.up v.currentLine })
    (sourceDown : motive { v with sourceScroll := v.sourceScroll.down v.currentLine })
    (tokens : ∀ offset ≤ max v.tokensOffset maxOffset, motive { v with tokensOffset := offset })
    (diagnostics : ∀ offset ≤ max v.diagnosticsOffset maxOffset,
      motive { v with diagnosticsOffset := offset })
    (key : Key) : motive (v.press key) := by
  have hup (offset : Nat) : Scroll.up offset ≤ max offset maxOffset :=
    Nat.le_trans (Scroll.up_le offset) (Nat.le_max_left _ _)
  have hdown (offset : Nat) : Scroll.down offset ≤ max offset maxOffset :=
    Nat.le_trans (Scroll.down_le offset) (Nat.le_max_right _ _)
  unfold press
  split
  case h_1 => exact quit
  case h_2 => exact quit
  case h_3 => exact quit
  case h_4 => exact focus _
  case h_5 => exact focus _
  case h_6 =>
    unfold up
    split
    next => exact sourceUp
    next => exact select _ (by omega)
    next => exact tokens _ (hup _)
    next => exact diagnostics _ (hup _)
  case h_7 =>
    unfold down
    split
    next => exact sourceDown
    next =>
      apply select
      split <;> omega
    next => exact tokens _ (hdown _)
    next => exact diagnostics _ (hdown _)
  case h_8 =>
    unfold home
    split
    next => exact select 0 (Nat.zero_le _)
    next => exact select 0 (Nat.zero_le _)
    next => exact tokens 0 (Nat.zero_le _)
    next => exact diagnostics 0 (Nat.zero_le _)
  case h_9 =>
    unfold toEnd
    split
    next => exact select _ (Nat.le_max_right _ _)
    next => exact select _ (Nat.le_max_right _ _)
    next => exact tokens maxOffset (Nat.le_max_right _ _)
    next => exact diagnostics maxOffset (Nat.le_max_right _ _)
  case h_10 => exact stay

end

/-! ## What does not change -/

/-- The other viewer shows the same as this one, and has quit if this one has. -/
structure Continues (v w : Viewer) : Prop where
  source : w.source = v.source
  tokens : w.tokens = v.tokens
  outline : w.outline = v.outline
  diagnostics : w.diagnostics = v.diagnostics
  problemLines : w.problemLines = v.problemLines
  quit : v.quit = true → w.quit = true

namespace Continues

variable {u v w : Viewer}

theorem refl (v : Viewer) : Continues v v := ⟨rfl, rfl, rfl, rfl, rfl, id⟩

theorem trans (huv : Continues u v) (hvw : Continues v w) : Continues u w where
  source := hvw.source.trans huv.source
  tokens := hvw.tokens.trans huv.tokens
  outline := hvw.outline.trans huv.outline
  diagnostics := hvw.diagnostics.trans huv.diagnostics
  problemLines := hvw.problemLines.trans huv.problemLines
  quit := fun h => hvw.quit (huv.quit h)

end Continues

theorem continues_press (v : Viewer) (key : Key) : Continues v (v.press key) := by
  apply press_cases
  case stay => exact .refl v
  case quit => exact ⟨rfl, rfl, rfl, rfl, rfl, fun _ => rfl⟩
  all_goals
    intros
    exact ⟨rfl, rfl, rfl, rfl, rfl, id⟩

theorem continues_step (v : Viewer) (event : Event) : Continues v (v.step event) := by
  cases event with
  | press key => exact v.continues_press key
  | otherKey => exact .refl v
  | render width height => exact ⟨rfl, rfl, rfl, rfl, rfl, id⟩

theorem continues_run (v : Viewer) (events : List Event) : Continues v (v.run events) := by
  induction events generalizing v with
  | nil => exact .refl v
  | cons event events ih => exact (v.continues_step event).trans (ih _)

/-! ## What is pointed at -/

/-- A row of a list of so many rows, or zero if the list is empty. -/
def Selects (rows row : Nat) : Prop := row < rows ∨ rows = 0 ∧ row = 0

/-- There is an outline only if nothing is wrong, and the selected row and the first row of the tree
that is shown are rows of it. -/
structure Sound (v : Viewer) : Prop where
  exclusive : v.outline = [] ↔ v.diagnostics ≠ []
  cursor : Selects v.outline.length v.cursor
  treeOffset : Selects v.outline.length v.treeOffset

theorem Selects.of_le {rows row row' : Nat} (h : Selects rows row)
    (hle : row' ≤ max row (rows - 1)) : Selects rows row' := by
  unfold Selects at *
  omega

theorem Sound.select {v : Viewer} (h : v.Sound) {cursor : Nat}
    (hcursor : cursor ≤ max v.cursor (v.outline.length - 1)) : (v.select cursor).Sound :=
  ⟨h.exclusive, h.cursor.of_le hcursor, h.treeOffset⟩

theorem Sound.press {v : Viewer} (h : v.Sound) (key : Key) : (v.press key).Sound := by
  apply press_cases
  case select => exact fun _ hcursor => h.select hcursor
  all_goals
    intros
    exact ⟨h.exclusive, h.cursor, h.treeOffset⟩

/-- Following the selection leads to a row that is there, however many rows the pane has. -/
theorem Sound.settle {v : Viewer} (h : v.Sound) (layout : ViewerLayout) :
    (v.settle layout).Sound := by
  refine ⟨h.exclusive, h.cursor, ?_⟩
  show Selects v.outline.length (if v.outline = [] then _ else _)
  split
  next => exact h.treeOffset
  next =>
    apply h.cursor.of_le
    have hrows := Scroll.visibleRows_pos layout.tree.height
    exact Nat.le_trans (Scroll.follow_shows v.treeOffset v.cursor hrows).1 (Nat.le_max_left _ _)

theorem Sound.step {v : Viewer} (h : v.Sound) (event : Event) : (v.step event).Sound := by
  cases event with
  | press key => exact h.press key
  | otherKey => exact h
  | render width height => exact h.settle _

theorem Sound.run {v : Viewer} (h : v.Sound) (events : List Event) : (v.run events).Sound := by
  induction events generalizing v with
  | nil => exact h
  | cons event events ih => exact ih (h.step event)

/-- The selected node is one of those that there are. -/
theorem Sound.node {v : Viewer} (h : v.Sound) {node total : Nat}
    (hnode : v.statusBar.node? = some (node, total)) : 1 ≤ node ∧ node ≤ total := by
  unfold statusBar selectedNode? at hnode
  split at hnode
  next => cases hnode
  next hne =>
    obtain ⟨rfl, rfl⟩ := Prod.mk.inj (Option.some.inj hnode)
    have hpos := List.length_pos_iff.mpr hne
    have hcursor := h.cursor
    unfold Selects at hcursor
    omega

/-! ## Counting in 64 bits -/

/-- The rows of the tree, with the height of a screen behind them, and the lines of the text can be
counted. -/
structure Countable (v : Viewer) : Prop where
  outline : v.outline.length + UInt16.size ≤ maxOffset
  lines : (Text.lines v.source).length ≤ maxOffset

theorem Countable.of_continues {v w : Viewer} (h : v.Countable) (hvw : Continues v w) :
    w.Countable where
  outline := hvw.outline ▸ h.outline
  lines := hvw.source ▸ h.lines

theorem step?_eq {v : Viewer} (hsound : v.Sound) (hv : v.Countable) (event : Event) :
    v.step? event = some (v.step event) := by
  have hlarge : UInt16.size = 65536 := rfl
  have houtline := hv.outline
  have hcursor := hsound.cursor
  unfold Selects at hcursor
  cases event with
  | press key => exact press?_eq (by omega) key
  | otherKey => rfl
  | render width height =>
    have hheight : height.toNat < UInt16.size := height.toNat_lt
    show (v.render? width.toNat height.toNat).map (·.2) = _
    rw [render?_eq hv.lines (by omega)]
    rfl

theorem run?_eq {v : Viewer} (hsound : v.Sound) (hv : v.Countable) (events : List Event) :
    v.run? events = some (v.run events) := by
  induction events generalizing v with
  | nil => rfl
  | cons event events ih =>
    rw [run?, List.foldlM_cons, step?_eq hsound hv event, Option.bind_eq_bind, Option.bind_some]
    exact ih (hsound.step event) (hv.of_continues (v.continues_step event))

end Viewer

/-- The offset and the row are counts of 64 bits. -/
structure SourceScroll.Fits (s : SourceScroll) : Prop where
  offset : s.offset ≤ maxOffset
  row : ∀ row ∈ s.row?, row ≤ maxOffset

namespace SourceScroll.Fits

variable {s : SourceScroll}

theorem up (h : s.Fits) (current : Nat) : (s.up current).Fits := by
  have hoffset : Scroll.up s.offset ≤ maxOffset := Nat.le_trans (Scroll.up_le _) h.offset
  unfold SourceScroll.up
  split
  next row hrow =>
    split
    next => exact ⟨h.offset, fun _ hdown => Option.some.inj hdown ▸ Scroll.down_le _⟩
    next => exact ⟨hoffset, h.row⟩
  next => exact ⟨hoffset, h.row⟩

theorem down (h : s.Fits) (current : Nat) : (s.down current).Fits := by
  have hoffset : Scroll.down s.offset ≤ maxOffset := Scroll.down_le _
  unfold SourceScroll.down
  split
  next row hrow =>
    split
    next =>
      have hup : Scroll.up row ≤ maxOffset := Nat.le_trans (Scroll.up_le row) (h.row row hrow)
      exact ⟨h.offset, fun _ heq => Option.some.inj heq ▸ hup⟩
    next => exact ⟨hoffset, h.row⟩
  next => exact ⟨hoffset, h.row⟩

-- A settled offset is that of a line, and a settled row is one of the pane.
theorem settle {visible total : Nat} (hvisible : visible ≤ maxOffset) (htotal : total ≤ maxOffset)
    (current : Nat) : (s.settle visible total current).Fits := by
  have hrow : s.pinnedRow visible ≤ visible - 1 := Nat.min_le_right _ _
  refine ⟨?_, fun _ heq => Option.some.inj heq ▸ by omega⟩
  exact Nat.le_trans (Scroll.clamp_le _ _ _) (by omega)

end SourceScroll.Fits

namespace Viewer

/-- What the viewer holds are counts of 64 bits. -/
structure Fits (v : Viewer) : Prop where
  cursor : v.cursor ≤ maxOffset
  sourceScroll : v.sourceScroll.Fits
  treeOffset : v.treeOffset ≤ maxOffset
  tokensOffset : v.tokensOffset ≤ maxOffset
  diagnosticsOffset : v.diagnosticsOffset ≤ maxOffset

theorem Fits.press {v : Viewer} (h : v.Fits) (hv : v.Countable) (key : Key) :
    (v.press key).Fits := by
  apply press_cases
  case stay => exact h
  case select =>
    intro cursor hcursor
    have houtline := hv.outline
    have hbefore := h.cursor
    have hafter : cursor ≤ maxOffset := by omega
    exact { h with cursor := hafter }
  case sourceUp => exact { h with sourceScroll := h.sourceScroll.up _ }
  case sourceDown => exact { h with sourceScroll := h.sourceScroll.down _ }
  case tokens =>
    intro offset hoffset
    rw [Nat.max_eq_right h.tokensOffset] at hoffset
    exact { h with tokensOffset := hoffset }
  case diagnostics =>
    intro offset hoffset
    rw [Nat.max_eq_right h.diagnosticsOffset] at hoffset
    exact { h with diagnosticsOffset := hoffset }
  case quit => exact { h with }
  case focus => exact fun _ => { h with }

theorem Fits.step {v : Viewer} (h : v.Fits) (hv : v.Countable) (event : Event) :
    (v.step event).Fits := by
  cases event with
  | press key => exact h.press hv key
  | otherKey => exact h
  | render width height =>
    have hheight : height.toNat < 65536 := height.toNat_lt
    have hrows : Scroll.visibleRows (Area.share (height.toNat - 1) 70) ≤ max height.toNat 1 :=
      visibleRows_share_le _ (by decide)
    refine ⟨h.cursor, .settle ?_ hv.lines _, ?_, ?_, ?_⟩
    · exact Nat.le_trans hrows (Nat.le_trans (by omega) (by decide : 65536 ≤ maxOffset))
    · show (if v.outline = [] then _ else _) ≤ maxOffset
      split
      next => exact h.treeOffset
      next => exact Nat.le_trans (Scroll.follow_shows _ _ (Scroll.visibleRows_pos _)).1 h.cursor
    · exact Nat.le_trans (Scroll.clamp_le_self _ _ _) h.tokensOffset
    · show (if v.diagnostics = [] then _ else _) ≤ maxOffset
      split
      next => exact h.diagnosticsOffset
      next => exact Nat.le_trans (Scroll.clamp_le_self _ _ _) h.diagnosticsOffset

theorem Fits.run {v : Viewer} (h : v.Fits) (hv : v.Countable) (events : List Event) :
    (v.run events).Fits := by
  induction events generalizing v with
  | nil => exact h
  | cons event events ih =>
    exact ih (h.step hv event) (hv.of_continues (v.continues_step event))

/-! ## The viewer of a text -/

-- A text without a tree has something wrong with it.
theorem entries_ne_nil_of_parse {source : String} {policy : ErrorPolicy} {d : Diagnostics}
    (h : parse source policy = .error d) : d.entries ≠ [] := by
  have hsize : 0 < d.report.size := by
    show 0 < (d.lexical.map _).length + (d.syntactic.map _).length
    rw [List.length_map, List.length_map]
    rcases parse_agrees source with ⟨p, hearly, hfull⟩ | ⟨lexical, es, hne, hearly, hfull⟩
    · cases policy with
      | failFast => cases hearly.symm.trans h
      | recover => cases hfull.symm.trans h
    · have hpos : 0 < lexical.length + (es.take 1).length := by
        cases hne with
        | inl hlexical => exact Nat.add_pos_left (List.length_pos_iff.mpr hlexical) _
        | inr hes =>
          have hes := List.length_pos_iff.mpr hes
          rw [List.length_take]
          omega
      cases policy with
      | failFast =>
        obtain rfl := Except.error.inj (hearly.symm.trans h)
        exact hpos
      | recover =>
        obtain rfl := Except.error.inj (hfull.symm.trans h)
        rw [List.length_take] at hpos
        show 0 < lexical.length + es.length
        omega
  apply List.length_pos_iff.mp
  show 0 < d.report.entries.length
  rwa [Report.length_entries]

theorem sound_ofSource (source : String) (policy : ErrorPolicy) :
    (ofSource source policy).Sound := by
  have hexclusive : (views (parse source policy)).1 = [] ↔
      (views (parse source policy)).2 ≠ [] := by
    cases h : parse source policy with
    -- The main class is a row of every outline.
    | ok p => exact ⟨nofun, fun hne => absurd rfl hne⟩
    | error d => exact ⟨fun _ => entries_ne_nil_of_parse h, fun _ => rfl⟩
  have hzero (rows : Nat) : Selects rows 0 := by
    unfold Selects
    omega
  unfold ofSource
  generalize views (parse source policy) = shown at hexclusive ⊢
  exact ⟨hexclusive, hzero _, hzero _⟩

theorem fits_ofSource (source : String) (policy : ErrorPolicy) : (ofSource source policy).Fits := by
  unfold ofSource
  generalize views (parse source policy) = shown
  have hzero : 0 ≤ maxOffset := Nat.zero_le _
  exact ⟨hzero, ⟨hzero, nofun⟩, hzero, hzero, hzero⟩

-- A text that fits into memory.
theorem countable_ofSource {source : String} (hsize : source.utf8ByteSize < 2 ^ 63)
    (policy : ErrorPolicy) : (ofSource source policy).Countable := by
  have hlength : source.length ≤ source.utf8ByteSize := Text.length_le_utf8ByteSize source
  have hlines : (Text.lines source).length ≤ source.length := Text.length_lines_le source
  have houtline : (views (parse source policy)).1.length ≤ source.length := by
    cases h : parse source policy with
    | ok p => exact length_outline_le_of_parse h
    | error d => exact Nat.zero_le _
  constructor
  · show (views (parse source policy)).1.length + 65536 ≤ 0xffffffffffffffff
    omega
  · show (Text.lines source).length ≤ 0xffffffffffffffff
    omega

/-- Whatever keys and renderings come, on screens of whatever size: there is an outline if and only
if nothing is wrong, the selected row and the first shown row of the tree are there, as is the node
that the status bar tells of, nothing that is shown ever changes, and a viewer that has quit stays
so. If the text fits into memory, no sum and no difference that the viewer forms leaves 64 bits. -/
theorem run_sound (source : String) (policy : ErrorPolicy) (events later : List Event) :
    let v := (ofSource source policy).run events
    (v.outline = [] ↔ v.diagnostics ≠ []) ∧
      (v.cursor < v.outline.length ∨ v.outline = [] ∧ v.cursor = 0) ∧
      (v.treeOffset < v.outline.length ∨ v.outline = [] ∧ v.treeOffset = 0) ∧
      (∀ node total, v.statusBar.node? = some (node, total) → 1 ≤ node ∧ node ≤ total) ∧
      Continues (ofSource source policy) v ∧ Continues v (v.run later) ∧
      (source.utf8ByteSize < 2 ^ 63 →
        (ofSource source policy).run? events = some v ∧ v.Fits) := by
  intro v
  have hsound : v.Sound := (sound_ofSource source policy).run events
  have hcursor := hsound.cursor
  have hoffset := hsound.treeOffset
  rw [Selects, List.length_eq_zero_iff] at hcursor hoffset
  refine ⟨hsound.exclusive, hcursor, hoffset, fun _ _ => hsound.node,
    continues_run _ events, continues_run v later, fun hsize => ?_⟩
  have hcountable := countable_ofSource hsize policy
  exact ⟨run?_eq (sound_ofSource source policy) hcountable events,
    (fits_ofSource source policy).run hcountable events⟩

-- A program with two nodes.
def smallSource : String := "class M \x7b public static void main() \x7b \x7d \x7d"

-- To the last node, on a screen without rows and on one with rows, and out.
def walk : List Event :=
  [.press .tab, .press .endKey, .render 0 0, .press .down, .render 80 24, .press (.char 'q')]

/-- The walk ends at the second node of two, and whoever goes on stays out. -/
theorem run_sound_of_walk :
    ((ofSource smallSource .recover).run walk).statusBar.node? = some (2, 2) ∧ (1 ≤ 2 ∧ 2 ≤ 2) ∧
      ((ofSource smallSource .recover).run walk).quit = true ∧
      (((ofSource smallSource .recover).run walk).run [.press .home]).quit = true ∧
      smallSource.utf8ByteSize < 2 ^ 63 ∧
      (ofSource smallSource .recover).run? walk =
        some ((ofSource smallSource .recover).run walk) := by
  have hnode : ((ofSource smallSource .recover).run walk).statusBar.node? = some (2, 2) := by
    decide +kernel
  have hquit : ((ofSource smallSource .recover).run walk).quit = true := by decide +kernel
  have hsize : smallSource.utf8ByteSize < 2 ^ 63 := by decide +kernel
  obtain ⟨-, -, -, hbounds, -, hlater, hcounted⟩ :=
    run_sound smallSource .recover walk [.press .home]
  exact ⟨hnode, hbounds 2 2 hnode, hquit, hlater.quit hquit, hsize, (hcounted hsize).1⟩

end Viewer

end MiniJava
