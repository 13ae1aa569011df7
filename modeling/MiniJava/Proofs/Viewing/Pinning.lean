import MiniJava.Proofs.Viewing.Lines

/-!
# Pinning — keys in a text that pins no line

Once the pane of the text was drawn, a key moves the row to which the current line is pinned, as
long as there is a current line at all. Settling uses that row only where the current line is one of
the text. It is none where the first problem stands at the end of a text that ends in a newline: on
the line behind the last. There the keys move a row that pins nothing, and the text does not move,
however often they are pressed (`Viewer.run_unpinned`).
-/

namespace MiniJava

namespace SourceScroll

variable {s : SourceScroll} {current row : Nat}

-- Once there is a row, a key moves it, and nothing else, wherever there is a current line.
theorem up_of_current (hrow : s.row? = some row) (hcurrent : 0 < current) :
    s.up current = { s with row? := some (Scroll.down row) } := by
  rw [up, hrow]
  exact if_pos hcurrent

theorem down_of_current (hrow : s.row? = some row) (hcurrent : 0 < current) :
    s.down current = { s with row? := some (Scroll.up row) } := by
  rw [down, hrow]
  exact if_pos hcurrent

-- Where no line is pinned, the offset is only brought into range.
theorem offset_settle_unpinned {total : Nat} (htotal : total < current) (visible : Nat) :
    (s.settle visible total current).offset = Scroll.clamp s.offset total visible := by
  show Scroll.clamp (if _ then _ else _) total visible = _
  rw [if_neg fun h => Nat.not_le_of_lt htotal h.2]

end SourceScroll

namespace Viewer

/-- The pane of the text has the focus and shows so many rows, it was drawn at an offset that leaves
no gap below the text, and the current line is behind the last one. -/
structure Unpinned (v : Viewer) (visible : Nat) : Prop where
  focus : v.focus = .source
  drawn : v.sourceScroll.row?.isSome
  behind : (Text.lines v.source).length < v.currentLine
  page : v.sourceScroll.offset ≤ (Text.lines v.source).length - visible

/-- The keys that move the text up and down, the keys that nothing belongs to, and rendering on a
screen of this size. -/
def scrollEvents (width height : UInt16) : List Event :=
  [.press .up, .press .down, .otherKey, .render width height]

section

variable {v : Viewer} {width height : UInt16}

/-- How many rows of the text a screen of some size shows. -/
def sourceRows (width height : UInt16) : Nat :=
  Scroll.visibleRows (ViewerLayout.ofSize width.toNat height.toNat).source.height

-- Neither a key nor a rendering moves the text, and there is no more to pin than before.
theorem Unpinned.step (h : v.Unpinned (sourceRows width height)) {event : Event}
    (hevent : event ∈ scrollEvents width height) :
    (v.step event).Unpinned (sourceRows width height) ∧
      (v.step event).sourceScroll.offset = v.sourceScroll.offset := by
  have hcurrent : 0 < v.currentLine := Nat.zero_lt_of_lt h.behind
  obtain ⟨row, hrow⟩ := Option.isSome_iff_exists.mp h.drawn
  -- Nothing depends on which row it is.
  have hmoved (row' : Nat) : ({ v with
      sourceScroll := { v.sourceScroll with row? := some row' } } : Viewer).Unpinned
        (sourceRows width height) :=
    ⟨h.focus, rfl, h.behind, h.page⟩
  simp only [scrollEvents, List.mem_cons, List.not_mem_nil, or_false] at hevent
  rcases hevent with rfl | rfl | rfl | rfl
  · have hstep : v.step (.press .up) = { v with
        sourceScroll := { v.sourceScroll with row? := some (Scroll.down row) } } := by
      show v.up = _
      rw [up, h.focus, ← SourceScroll.up_of_current hrow hcurrent]
    rw [hstep]
    exact ⟨hmoved _, rfl⟩
  · have hstep : v.step (.press .down) = { v with
        sourceScroll := { v.sourceScroll with row? := some (Scroll.up row) } } := by
      show v.down = _
      rw [down, h.focus, ← SourceScroll.down_of_current hrow hcurrent]
    rw [hstep]
    exact ⟨hmoved _, rfl⟩
  · exact ⟨h, rfl⟩
  · have hoffset : (v.step (.render width height)).sourceScroll.offset =
        v.sourceScroll.offset :=
      (SourceScroll.offset_settle_unpinned h.behind _).trans (Scroll.clamp_eq_self h.page)
    exact ⟨⟨h.focus, rfl, h.behind, hoffset ▸ h.page⟩, hoffset⟩

theorem Unpinned.run (h : v.Unpinned (sourceRows width height)) {events : List Event}
    (hevents : ∀ event ∈ events, event ∈ scrollEvents width height) :
    (v.run events).sourceScroll.offset = v.sourceScroll.offset := by
  induction events generalizing v with
  | nil => rfl
  | cons event events ih =>
    obtain ⟨hevent, hrest⟩ := List.forall_mem_cons.mp hevents
    obtain ⟨hstep, hoffset⟩ := h.step hevent
    exact (ih hstep hrest).trans hoffset

-- Rendering leaves a text that pins no line where no key moves it.
theorem unpinned_render (hfocus : v.focus = .source)
    (hbehind : (Text.lines v.source).length < v.currentLine) :
    (v.step (.render width height)).Unpinned (sourceRows width height) := by
  refine ⟨hfocus, rfl, hbehind, ?_⟩
  have hoffset : (v.step (.render width height)).sourceScroll.offset =
      Scroll.clamp v.sourceScroll.offset (Text.lines v.source).length (sourceRows width height) :=
    SourceScroll.offset_settle_unpinned hbehind _
  rw [hoffset]
  exact Scroll.clamp_le _ _ _

end

/-- The viewer of any text after any events and a rendering, with the focus on the text and none of
its lines current. The current line is then the one behind the last, and neither the keys that
scroll nor further renderings on the same screen move the text, however many come. So a key down
does what it does in a text without a current line exactly where the last page is shown, and a key
up exactly where the first line is shown. -/
theorem run_unpinned (source : String) (policy : ErrorPolicy) (events : List Event)
    (width height : UInt16) :
    let v := (ofSource source policy).run (events ++ [.render width height])
    let lines := (Text.lines source).length
    let last := lines - sourceRows width height
    let offset := v.sourceScroll.offset
    v.focus = .source → ¬ (1 ≤ v.currentLine ∧ v.currentLine ≤ lines) →
      v.currentLine = lines + 1 ∧ offset ≤ last ∧
      (∀ later : List Event, (∀ event ∈ later, event ∈ scrollEvents width height) →
        (v.run later).sourceScroll.offset = offset) ∧
      ((v.run [.press .down, .render width height]).sourceScroll.offset = min (offset + 1) last ↔
        offset = last) ∧
      ((v.run [.press .up, .render width height]).sourceScroll.offset = offset - 1 ↔
        offset = 0) := by
  intro v lines last offset hfocus hnone
  have hbounds : 1 ≤ v.currentLine ∧ v.currentLine ≤ lines + 1 :=
    currentLine_bounds source policy (events ++ [.render width height])
  have hsource : v.source = source := (continues_run (ofSource source policy) _).source
  have hunpinned : v.Unpinned (sourceRows width height) := by
    have hv : v = ((ofSource source policy).run events).step (.render width height) :=
      List.foldl_append
    have hbehind : (Text.lines v.source).length < v.currentLine := by
      rw [hsource]
      omega
    rw [hv] at hfocus hbehind ⊢
    exact unpinned_render hfocus hbehind
  have hpage : offset ≤ last := by
    have hpage := hunpinned.page
    rwa [hsource] at hpage
  have hstays : ∀ later : List Event, (∀ event ∈ later, event ∈ scrollEvents width height) →
      (v.run later).sourceScroll.offset = offset := fun _ => hunpinned.run
  refine ⟨by omega, hpage, hstays, ?_, ?_⟩
  · rw [hstays _ (by simp [scrollEvents])]
    omega
  · rw [hstays _ (by simp [scrollEvents])]
    omega

-- A text that breaks off behind its first word, with five empty lines behind it.
def brokenSource : String := "class\n\n\n\n\n\n"

/-- The first two lines of six are shown, and the current one is the seventh. -/
theorem run_unpinned_of_broken :
    let v := (ofSource brokenSource .failFast).run ([] ++ [.render 20 6])
    v.focus = .source ∧ ¬ (1 ≤ v.currentLine ∧ v.currentLine ≤ (Text.lines brokenSource).length) ∧
      v.currentLine = (Text.lines brokenSource).length + 1 ∧ v.sourceScroll.offset = 0 ∧
      (v.run (List.replicate 3 (.press .down) ++ [.render 20 6])).sourceScroll.offset = 0 := by
  intro v
  have hfocus : v.focus = .source := by decide +kernel
  have hnone : ¬ (1 ≤ v.currentLine ∧ v.currentLine ≤ (Text.lines brokenSource).length) := by
    decide +kernel
  have hoffset : v.sourceScroll.offset = 0 := by decide +kernel
  obtain ⟨hcurrent, -, hstays, -⟩ := run_unpinned brokenSource .failFast [] 20 6 hfocus hnone
  refine ⟨hfocus, hnone, hcurrent, hoffset, ?_⟩
  rw [hstays _ (by simp [scrollEvents])]
  exact hoffset

/-- A text that pins no line cannot always be scrolled by keys. -/
theorem not_unpinned_scrolls :
    ¬ ∀ (source : String) (policy : ErrorPolicy) (events : List Event) (width height : UInt16),
      let v := (ofSource source policy).run (events ++ [.render width height])
      let lines := (Text.lines source).length
      let offset := v.sourceScroll.offset
      v.focus = .source → ¬ (1 ≤ v.currentLine ∧ v.currentLine ≤ lines) →
        (v.run [.press .down, .render width height]).sourceScroll.offset =
            min (offset + 1) (lines - sourceRows width height) ∧
          (v.run [.press .up, .render width height]).sourceScroll.offset = offset - 1 := by
  intro h
  have hscrolled := (h brokenSource .failFast [] 20 6 (by decide +kernel) (by decide +kernel)).1
  revert hscrolled
  decide +kernel

end Viewer

end MiniJava
