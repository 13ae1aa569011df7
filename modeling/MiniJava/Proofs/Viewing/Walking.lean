import Mathlib.Data.List.Perm.Subperm
import MiniJava.Proofs.Viewing.Problems

/-!
# Walking — keys in a list

Keys move the offset of a list without regard to its pane, and the next rendering brings it back
into range. Where a rendering is next to every key, this is a cursor that stops at both ends
(`Scroll.clamp_moved`). Rendering again changes nothing (`Viewer.settle_settle`), so that a walk
that begins after a rendering is that of the cursor. Before a rendering the offset can be further
down than the pane can show, behind the key that leads to the end or on a screen that was smaller;
then a key up at the beginning is spent on the way back into range (`Viewer.run_walks`).
-/

namespace MiniJava

namespace Scroll

/-- What a key makes of the offset of a list. -/
def moved (offset : Nat) : Key → Nat
  | .up => up offset
  | .down => down offset
  | .home => 0
  | .endKey => maxOffset
  | _ => offset

/-- What a key makes of a cursor between zero and `last`. -/
def walk (last cursor : Nat) : Key → Nat
  | .up => cursor - 1
  | .down => min (cursor + 1) last
  | .home => 0
  | .endKey => last
  | _ => cursor

theorem clamp_eq_min (offset total visible : Nat) :
    clamp offset total visible = min offset (total - visible) := by
  unfold clamp
  split <;> omega

theorem walk_le {last cursor : Nat} (h : cursor ≤ last) (key : Key) :
    walk last cursor key ≤ last := by
  unfold walk
  split <;> omega

/-- A key and a rendering are a step of the cursor from the clamped offset, but for a key up where
the offset is behind the last page. -/
theorem clamp_moved {offset total visible : Nat} (htotal : total ≤ maxOffset) {key : Key}
    (h : key = .up → offset ≤ total - visible) :
    clamp (moved offset key) total visible =
      walk (total - visible) (clamp offset total visible) key := by
  rw [clamp_eq_min, clamp_eq_min]
  unfold moved walk
  split
  next =>
    have hoffset := h rfl
    unfold up
    omega
  next =>
    unfold down
    omega
  all_goals omega

-- There a key up leads to the last page.
theorem clamp_moved_up {offset total visible : Nat} (h : total - visible < offset) :
    clamp (moved offset .up) total visible = total - visible := by
  rw [clamp_eq_min]
  show min (offset - 1) (total - visible) = _
  omega

end Scroll

/-! ## Rendering again -/

theorem SourceScroll.settle_settle (s : SourceScroll) (visible total current : Nat) :
    (s.settle visible total current).settle visible total current =
      s.settle visible total current := by
  have hrow : (s.settle visible total current).pinnedRow visible = s.pinnedRow visible := by
    show min (s.pinnedRow visible) (visible - 1) = _
    exact Nat.min_eq_left (Nat.min_le_right _ _)
  have hoffset : Scroll.clamp (if 0 < current ∧ current ≤ total then
      current - 1 - s.pinnedRow visible else (s.settle visible total current).offset)
        total visible = (s.settle visible total current).offset := by
    split
    next hcurrent =>
      show _ = Scroll.clamp (if _ then _ else _) total visible
      rw [if_pos hcurrent]
    next => exact Scroll.clamp_eq_self (Scroll.clamp_le _ _ _)
  rw [settle.eq_def (s.settle visible total current), hrow]
  dsimp only
  rw [hoffset]
  rfl

namespace Viewer

/-- A settled viewer is settled: all offsets stay where they are. -/
theorem settle_settle (v : Viewer) (layout : ViewerLayout) :
    (v.settle layout).settle layout = v.settle layout := by
  have hclamp (offset total visible : Nat) :
      Scroll.clamp (Scroll.clamp offset total visible) total visible =
        Scroll.clamp offset total visible := Scroll.clamp_eq_self (Scroll.clamp_le _ _ _)
  have hfollow (offset selected height : Nat) :
      Scroll.follow (Scroll.follow offset selected (Scroll.visibleRows height)) selected
          (Scroll.visibleRows height) =
        Scroll.follow offset selected (Scroll.visibleRows height) := by
    obtain ⟨habove, hbelow⟩ :=
      Scroll.follow_shows offset selected (Scroll.visibleRows_pos height)
    exact Scroll.follow_eq_self habove hbelow
  have hsource := v.sourceScroll.settle_settle (Scroll.visibleRows layout.source.height)
    (Text.lines v.source).length v.currentLine
  unfold settle
  simp only [Viewer.mk.injEq, true_and, and_true]
  refine ⟨hsource, ?_, hclamp _ _ _, ?_⟩
  · split
    next => rfl
    next => exact hfollow _ _ _
  · split
    next => rfl
    next => exact hclamp _ _ _

/-! ## Keys and renderings by turns -/

/-- How many items a pane has to show. -/
def items (v : Viewer) : Pane → Nat
  | .source => (Text.lines v.source).length
  | .tree => v.outline.length
  | .tokens => v.tokens.length
  | .diagnostics => v.diagnostics.length

/-- How many of its items are above a pane. -/
def offset (v : Viewer) : Pane → Nat
  | .source => v.sourceScroll.offset
  | .tree => v.treeOffset
  | .tokens => v.tokensOffset
  | .diagnostics => v.diagnosticsOffset

/-- How many items a pane shows on a screen of some size. -/
def paneRows (width height : UInt16) (pane : Pane) : Nat :=
  let layout := ViewerLayout.ofSize width.toNat height.toNat
  Scroll.visibleRows (match pane with
    | .source => layout.source
    | .tree => layout.tree
    | .tokens => layout.tokens
    | .diagnostics => layout.diagnostics).height

/-- The focus is on a list in which nothing is selected, and there are items in it. -/
def Walks (v : Viewer) : Prop := v.focus = .tokens ∨ v.focus = .diagnostics ∧ v.diagnostics ≠ []

/-- The keys that move the offset of a list. -/
def walkKeys : List Key := [.up, .down, .home, .endKey]

/-- Keys, each with a rendering behind it. -/
def paced (width height : UInt16) (keys : List Key) : List Event :=
  keys.flatMap fun key => [.press key, .render width height]

section

variable {v : Viewer} {key : Key} {keys : List Key}

-- A key moves the offset of the list that has the focus.
theorem Walks.press (h : v.Walks) (hkey : key ∈ walkKeys) : (v.step (.press key)).Walks ∧
    (v.step (.press key)).focus = v.focus ∧
      (v.step (.press key)).offset v.focus = Scroll.moved (v.offset v.focus) key := by
  simp only [walkKeys, List.mem_cons, List.not_mem_nil, or_false] at hkey
  rcases h with hfocus | ⟨hfocus, hne⟩
  · rcases hkey with rfl | rfl | rfl | rfl
    all_goals
      simp only [Walks, step, Viewer.press, up, down, home, toEnd, hfocus, offset, Scroll.moved]
      simp
  · rcases hkey with rfl | rfl | rfl | rfl
    all_goals
      simp only [Walks, step, Viewer.press, up, down, home, toEnd, hfocus, offset, Scroll.moved]
      simp [hne]

-- A rendering brings it back into range.
theorem Walks.render (h : v.Walks) (width height : UInt16) : (v.step (.render width height)).Walks ∧
    (v.step (.render width height)).focus = v.focus ∧
      (v.step (.render width height)).offset v.focus =
        Scroll.clamp (v.offset v.focus) (v.items v.focus) (paneRows width height v.focus) := by
  refine ⟨h, rfl, ?_⟩
  rcases h with hfocus | ⟨hfocus, hne⟩
  · rw [hfocus]
    rfl
  · rw [hfocus]
    exact if_neg hne

theorem Continues.items {v w : Viewer} (h : Continues v w) (pane : Pane) :
    w.items pane = v.items pane := by
  cases pane with
  | source => exact congrArg (fun source => (Text.lines source).length) h.source
  | tree => exact congrArg List.length h.outline
  | tokens => exact congrArg List.length h.tokens
  | diagnostics => exact congrArg List.length h.diagnostics

-- A key with a rendering behind it.
theorem Walks.turn (h : v.Walks) (width height : UInt16) (hkey : key ∈ walkKeys) :
    (v.run [.press key, .render width height]).Walks ∧
      (v.run [.press key, .render width height]).focus = v.focus ∧
      (v.run [.press key, .render width height]).items v.focus = v.items v.focus ∧
      (v.run [.press key, .render width height]).offset v.focus =
        Scroll.clamp (Scroll.moved (v.offset v.focus) key) (v.items v.focus)
          (paneRows width height v.focus) := by
  obtain ⟨hpressed, hfocus, hmoved⟩ := h.press hkey
  obtain ⟨hwalks, hfocus', hclamped⟩ := hpressed.render width height
  have hitems := (continues_step v (.press key)).items v.focus
  rw [hfocus] at hfocus' hclamped
  rw [hmoved, hitems] at hclamped
  exact ⟨hwalks, hfocus', (continues_run v _).items v.focus, hclamped⟩

/-- From an offset in range, keys with renderings behind them walk like a cursor. -/
theorem Walks.run_paced (h : v.Walks) {width height : UInt16} (hitems : v.items v.focus ≤ maxOffset)
    (hkeys : ∀ key ∈ keys, key ∈ walkKeys) {last : Nat}
    (hlast : v.items v.focus - paneRows width height v.focus = last)
    (hoffset : v.offset v.focus ≤ last) :
    (v.run (paced width height keys)).offset v.focus =
      keys.foldl (Scroll.walk last) (v.offset v.focus) := by
  induction keys generalizing v with
  | nil => rfl
  | cons key keys ih =>
    obtain ⟨hkey, hkeys⟩ := List.forall_mem_cons.mp hkeys
    obtain ⟨hwalks, hfocus, hsame, hclamped⟩ := h.turn width height hkey
    have hrun : v.run (paced width height (key :: keys)) =
        (v.run [.press key, .render width height]).run (paced width height keys) := rfl
    have hturn : (v.run [.press key, .render width height]).offset v.focus =
        Scroll.walk last (v.offset v.focus) key := by
      rw [hclamped, Scroll.clamp_moved hitems fun _ => hlast ▸ hoffset, hlast,
        Scroll.clamp_eq_self (hlast ▸ hoffset)]
    rw [hrun, List.foldl_cons, ← hturn]
    generalize v.run [.press key, .render width height] = w at *
    rw [← hfocus] at hsame hturn hlast hitems ⊢
    refine ih hwalks (hsame ▸ hitems) hkeys (hsame ▸ hlast) ?_
    rw [hturn]
    exact Scroll.walk_le (hfocus ▸ hoffset) key

end

end Viewer

/-! ## Counting items -/

-- No two errors begin at one character.
theorem Lexed.length_errors_le (p : Position) (text : List Char) :
    (ofChars p text).errors.length ≤ text.length := by
  fun_induction segments text generalizing p with
  | case1 =>
    rw [ofChars_nil]
    exact Nat.le_refl _
  | case2 c rest ih =>
    have hpos := List.length_pos_iff.mpr (Segment.first_text_ne_nil c rest)
    have htext := congrArg List.length (Segment.first_text c rest)
    have hrest := ih (p.past (Segment.first c rest).1.text)
    have hone : ((Segment.first c rest).1.error? p).toList.length ≤ 1 := by
      cases (Segment.first c rest).1.error? p <;> simp
    rw [List.length_append] at htext
    rw [errors_ofChars_cons, List.length_append]
    omega

section

variable {source : String} {policy : ErrorPolicy} {d : Diagnostics}

theorem length_tokens_le (source : String) :
    (tokenize source).tokens.length ≤ source.length + 1 := by
  have hlength := congrArg List.length (ahead_append_ending_tokenize source)
  have hahead := length_ahead_tokenize_le source
  rw [List.length_append, List.length_singleton] at hlength
  omega

-- No two syntax errors are found at one token.
theorem Diagnostics.length_syntactic_le (h : parse source policy = .error d) :
    d.syntactic.length ≤ (tokenize source).tokens.length := by
  have hnodup : (d.syntactic.map (·.found)).Nodup :=
    List.pairwise_map.mpr ((pairwise_syntactic_of_parse h).imp fun hbefore heq =>
      hbefore.ne (congrArg Token.position heq))
  have hsubset : d.syntactic.map (·.found) ⊆ (tokenize source).tokens := by
    intro t ht
    obtain ⟨e, he, rfl⟩ := List.mem_map.mp ht
    exact (found_of_parse_eq_error h).2 e he
  have hle := (hnodup.subperm hsubset).length_le
  rwa [List.length_map] at hle

theorem Diagnostics.length_entries_le (h : parse source policy = .error d) :
    d.entries.length ≤ 2 * source.length + 1 := by
  have hlexical : d.lexical.length ≤ source.length := by
    rw [(found_of_parse_eq_error h).1, ← String.length_toList]
    exact Lexed.length_errors_le .start source.toList
  have hsyntactic := length_syntactic_le h
  have htokens := length_tokens_le source
  rw [entries_eq_map_sorted, List.length_map, sorted_perm_found.length_eq, found,
    List.length_append, List.length_map, List.length_map]
  omega

end

namespace Viewer

-- In a text that fits into memory the items can be counted.
theorem items_le {source : String} (hsize : source.utf8ByteSize < 2 ^ 63) (policy : ErrorPolicy)
    (events : List Event) (h : ((ofSource source policy).run events).Walks) :
    ((ofSource source policy).run events).items ((ofSource source policy).run events).focus ≤
      maxOffset := by
  have hmax : 2 ^ 64 = maxOffset + 1 := rfl
  have hlength : source.length ≤ source.utf8ByteSize := Text.length_le_utf8ByteSize source
  rcases h with hfocus | ⟨hfocus, hne⟩
  · have htokens : ((ofSource source policy).run events).tokens = (tokenize source).tokens :=
      (continues_run _ events).tokens
    have hle := length_tokens_le source
    rw [hfocus, items, htokens]
    omega
  · cases hd : parse source policy with
    | ok p => exact absurd ((diagnostics_eq_nil_iff events).mpr ⟨p, hd⟩) hne
    | error d =>
      have hle := Diagnostics.length_entries_le hd
      rw [hfocus, items, diagnostics_run hd events]
      omega

/-- Rendering again changes nothing, whatever was done with the viewer of a text before. And while
the focus is on the tokens, or on diagnostics that are there, keys with renderings behind them move
the offset like a cursor that stops at zero and where the last item is at the bottom, from the
offset as a rendering leaves it. Only if the offset is still to be brought back into range when the
keys begin, a key up leads back into range, and the cursor goes on from there. -/
theorem run_walks (source : String) (policy : ErrorPolicy) (events : List Event)
    (width height : UInt16) (hsize : source.utf8ByteSize < 2 ^ 63) :
    let v := (ofSource source policy).run events
    let drawn := v.step (.render width height)
    let last := v.items v.focus - paneRows width height v.focus
    let offset := v.offset v.focus
    drawn.step (.render width height) = drawn ∧
      (v.focus = .tokens ∨ v.focus = .diagnostics ∧ v.diagnostics ≠ [] →
        (∀ keys : List Key, (∀ key ∈ keys, key ∈ walkKeys) →
          (drawn.run (paced width height keys)).offset v.focus =
            keys.foldl (Scroll.walk last) (min offset last)) ∧
        ∀ (key : Key) (keys : List Key), (∀ k ∈ key :: keys, k ∈ walkKeys) →
          (v.run (paced width height (key :: keys))).offset v.focus =
            if key = .up ∧ last < offset then keys.foldl (Scroll.walk last) last
            else (key :: keys).foldl (Scroll.walk last) (min offset last)) := by
  intro v drawn last offset
  refine ⟨v.settle_settle _, fun hwalks => ?_⟩
  have hitems : v.items v.focus ≤ maxOffset := items_le hsize policy events hwalks
  have hwalks : v.Walks := hwalks
  constructor
  · intro keys hkeys
    obtain ⟨hdrawn, hfocus, hclamped⟩ := hwalks.render width height
    have hsame : drawn.items v.focus = v.items v.focus := (continues_step v _).items v.focus
    have hlast : drawn.items v.focus - paneRows width height v.focus = last :=
      congrArg (· - paneRows width height v.focus) hsame
    rw [Scroll.clamp_eq_min] at hclamped
    have hwalk := hdrawn.run_paced (hsame ▸ hitems) hkeys hlast
      (Nat.le_trans (Nat.le_of_eq hclamped) (Nat.min_le_right _ _))
    rw [hfocus, hclamped] at hwalk
    exact hwalk
  · intro key keys hkeys
    obtain ⟨hkey, hkeys⟩ := List.forall_mem_cons.mp hkeys
    obtain ⟨hturned, hfocus, hsame, hclamped⟩ := hwalks.turn width height hkey
    let turned := v.run [.press key, .render width height]
    have hlast : turned.items turned.focus - paneRows width height turned.focus = last := by
      rw [hfocus, hsame]
    have hrange : turned.offset turned.focus ≤ last := by
      rw [hfocus, hclamped]
      exact Scroll.clamp_le _ _ _
    have hwalk := hturned.run_paced (by rwa [hfocus, hsame]) hkeys hlast hrange
    rw [hfocus] at hwalk
    refine Eq.trans (show _ = _ from hwalk) ?_
    split
    next h =>
      obtain ⟨rfl, hbehind⟩ := h
      rw [hclamped, Scroll.clamp_moved_up hbehind]
    next h =>
      have hup : key = .up → offset ≤ last := fun hkey => Nat.not_lt.mp fun hlt => h ⟨hkey, hlt⟩
      rw [List.foldl_cons, hclamped, Scroll.clamp_moved hitems hup, Scroll.clamp_eq_min]

-- Four tokens with the end of file.
def letters : String := "a b c"

-- To the last of the tokens, on a screen that shows one of them.
def toLastToken : List Event :=
  [.press .tab, .press .tab, .render 20 6, .press .endKey, .render 20 6]

/-- On a screen that shows two of them, the offset is one too many. After a rendering a key up leads
one row up from there; without a rendering, it only leads back into range. -/
theorem run_walks_of_letters :
    let v := (ofSource letters .failFast).run toLastToken
    letters.utf8ByteSize < 2 ^ 63 ∧ v.focus = .tokens ∧ v.offset v.focus = 3 ∧
      v.items v.focus - paneRows 20 10 v.focus = 2 ∧
      ((v.step (.render 20 10)).run (paced 20 10 [.up, .up, .down, .endKey])).offset v.focus = 2 ∧
      ((v.step (.render 20 10)).run (paced 20 10 [.up])).offset v.focus = 1 ∧
      (v.run (paced 20 10 [.up])).offset v.focus = 2 ∧
      (v.run (paced 20 10 [.up, .up, .home, .down])).offset v.focus = 1 := by
  intro v
  have hsize : letters.utf8ByteSize < 2 ^ 63 := by decide +kernel
  have hfocus : v.focus = .tokens := by decide +kernel
  have hoffset : v.offset v.focus = 3 := by decide +kernel
  have hlast : v.items v.focus - paneRows 20 10 v.focus = 2 := by decide +kernel
  obtain ⟨-, hwalks⟩ := run_walks letters .failFast toLastToken 20 10 hsize
  obtain ⟨hdrawn, hfirst⟩ := hwalks (.inl hfocus)
  refine ⟨hsize, hfocus, hoffset, hlast, ?_, ?_, ?_, ?_⟩
  · rw [hdrawn _ (by decide), hlast, hoffset]
    rfl
  · rw [hdrawn _ (by decide), hlast, hoffset]
    rfl
  · rw [hfirst _ _ (by decide), hlast, hoffset]
    rfl
  · rw [hfirst _ _ (by decide), hlast, hoffset]
    rfl

/-- Without a rendering in front of them keys do not always walk from the offset that a rendering
would leave. -/
theorem not_walks_from_clamped :
    ¬ ∀ (source : String) (policy : ErrorPolicy) (events : List Event) (width height : UInt16),
      let v := (ofSource source policy).run events
      let last := v.items v.focus - paneRows width height v.focus
      v.focus = .tokens ∨ v.focus = .diagnostics ∧ v.diagnostics ≠ [] →
        ∀ keys : List Key, (∀ key ∈ keys, key ∈ walkKeys) →
          (v.run (paced width height keys)).offset v.focus =
            keys.foldl (Scroll.walk last) (min (v.offset v.focus) last) := by
  intro h
  have hwalk := h letters .failFast toLastToken 20 10 (.inl (by decide +kernel)) [.up] (by decide)
  revert hwalk
  decide +kernel

end Viewer

end MiniJava
