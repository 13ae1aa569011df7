import MiniJava.Proofs.Viewing.Pinning
import MiniJava.Proofs.Viewing.Problems
import MiniJava.Proofs.Viewing.Selection

/-!
# Marks — the lines on which something is wrong

A line carries a mark if an entry lies on it, and it is marked on the screen as long as the pane of
the text shows it. Two things keep a marked line off the screen for good. The end of a text that
ends with a newline, and what is wrong there, stands on a line that the pane does not have
(`Diagnostics.exists_entry_behind_iff`). And where something is wrong the first such line is the
current one: it is pinned to a row, the top one at best, and so no line further down than the pane
has rows comes into view (`Viewer.run_marks`).
-/

namespace MiniJava

/-! ## The line on which a text ends -/

namespace Position

variable {text : List Char} {p : Position}

-- Behind a newline at its end, a text ends where no line of it is.
theorem line_endOf (text : List Char) : (endOf text).line =
    (Text.splitLines text).length + if text.getLast?.all (· == '\n') then 1 else 0 := by
  have hlength := Text.length_splitLines text
  simp only [endOf]
  split at hlength <;> simp_all <;> omega

theorem line_endOf_toList (source : String) : (endOf source.toList).line =
    (Text.lines source).length + if source.toList.getLast?.all (· == '\n') then 1 else 0 := by
  rw [line_endOf, Text.lines, List.length_map]

theorem column_endOf (h : text.getLast?.all (· == '\n') = true) : (endOf text).column = 1 := by
  rcases List.eq_nil_or_concat text with rfl | ⟨front, c, rfl⟩
  · rfl
  · obtain rfl : c = '\n' := by simpa using h
    rw [List.concat_eq_append, endOf_append_singleton]
    rfl

/-- What stands before the end of a text stands on a line of it. -/
theorem IsOf.line_le (h : p.IsOf text) (hbefore : p.Before (endOf text)) :
    p.line ≤ (Text.splitLines text).length := by
  have hend := line_endOf text
  have hcolumn : 1 ≤ p.column := by
    obtain ⟨front, -, rfl⟩ := h
    exact Nat.le_add_right _ _
  unfold Before at hbefore
  split at hend
  next hlast =>
    have hfirst := column_endOf hlast
    omega
  next => omega

end Position

namespace Diagnostics

variable {source : String} {policy : ErrorPolicy} {d : Diagnostics}

theorem line_of_mem_lexical (h : parse source policy = .error d) {e : LexicalError}
    (he : e ∈ d.lexical) : e.position.line ≤ (Text.lines source).length := by
  rw [(found_of_parse_eq_error h).1] at he
  have hbefore := (Lexed.before_of_mem_errors .start source.toList e he).2
  rw [Position.past_start] at hbefore
  rw [Text.lines, List.length_map]
  exact (isOf_of_mem_errors he).line_le hbefore

-- A syntax error stands at the end of the text, or at a token that has a line of its own.
theorem line_of_mem_syntactic (h : parse source policy = .error d) {e : SyntaxError}
    (he : e ∈ d.syntactic) : e.found.kind = .eof ∧ e.position = Position.endOf source.toList ∨
      e.found.kind ≠ .eof ∧ e.position.line ≤ (Text.lines source).length := by
  have hfound := (found_of_parse_eq_error h).2 e he
  obtain ⟨tokens, htokens, htiled⟩ := exists_tiled_tokenize source
  rw [← ahead_append_ending_tokenize source] at hfound htokens
  rcases List.mem_append.mp hfound with hahead | hending
  · exact .inr ⟨TokenStream.kind_ne_eof_of_mem_ahead hahead, (line_of_mem_ahead hahead).2⟩
  · obtain ⟨-, hend⟩ := List.append_inj' htokens rfl
    rw [hend, List.mem_singleton] at hending
    refine .inl ⟨congrArg Token.kind hending, ?_⟩
    exact (congrArg Token.position hending)

/-- Behind the last line lies an entry if the text ends with a newline, or is empty, and the end of
file was not to be expected. -/
theorem exists_entry_behind_iff (h : parse source policy = .error d) :
    (∃ entry ∈ d.entries, entry.1.line = (Text.lines source).length + 1) ↔
      source.toList.getLast?.all (· == '\n') = true ∧ ∃ e ∈ d.syntactic, e.found.kind = .eof := by
  have hend := Position.line_endOf_toList source
  constructor
  · rintro ⟨entry, hentry, hline⟩
    obtain ⟨p, hp, rfl⟩ := mem_entries.mp hentry
    cases p with
    | lexical e =>
      rw [← mem_filterMap_lexical?, filterMap_lexical?_found] at hp
      have hle := line_of_mem_lexical h hp
      exact absurd hline (by simp only [Problem.entry]; omega)
    | syntactic e =>
      rw [← mem_filterMap_syntactic?, filterMap_syntactic?_found] at hp
      simp only [Problem.entry] at hline
      rcases line_of_mem_syntactic h hp with ⟨heof, hposition⟩ | ⟨-, hle⟩
      · refine ⟨?_, e, hp, heof⟩
        rw [hposition] at hline
        by_contra hlast
        rw [if_neg hlast] at hend
        omega
      · omega
  · rintro ⟨hlast, e, he, heof⟩
    refine ⟨(Problem.syntactic e).entry, mem_entries.mpr ⟨_, ?_, rfl⟩, ?_⟩
    · rwa [← mem_filterMap_syntactic?, filterMap_syntactic?_found]
    · rcases line_of_mem_syntactic h he with ⟨-, hposition⟩ | ⟨hne, -⟩
      · rw [if_pos hlast] at hend
        simp only [Problem.entry, hposition, hend]
      · exact absurd heof hne

end Diagnostics

/-! ## The lines that are shown -/

namespace SourceScroll

-- With the current line at the top of its pane, its offset is that of the line, if there is a page.
theorem offset_settle_top {s : SourceScroll} {total current : Nat}
    (hrow : s.row? = some 0) (hcurrent : 1 ≤ current) (htotal : current ≤ total) (visible : Nat) :
    (s.settle visible total current).offset = Scroll.clamp (current - 1) total visible := by
  show Scroll.clamp (if _ then _ else _) total visible = _
  rw [if_pos ⟨hcurrent, htotal⟩, pinnedRow, hrow, Option.getD_some, Nat.zero_min,
    Nat.sub_zero]

end SourceScroll

namespace SourceView

/-- A line is shown if it is one of so many behind the offset, and one of the text. -/
theorem mem_map_fst_shownLines {v : SourceView} {offset visible line : Nat} :
    line ∈ (v.shownLines offset visible).map (·.1) ↔
      offset < line ∧ line ≤ offset + visible ∧ line ≤ v.lines.length := by
  have hnumbers : (v.shownLines offset visible).map (·.1) =
      List.range' (offset + 1) (min visible (v.lines.length - offset)) := by
    rw [shownLines, List.map_map]
    refine (List.zipIdx_map_snd (offset + 1) _).trans ?_
    rw [List.length_take, List.length_drop]
  rw [hnumbers, List.mem_range'_1]
  omega

theorem head?_lineSpans (v : SourceView) (line : Nat) (text : String) :
    (v.lineSpans line text).head?.map (·.text) = some "✗" ↔ line ∈ v.problemLines := by
  simp only [lineSpans, List.head?_cons, Option.map_some, List.contains_iff_mem]
  split <;> simp_all

end SourceView

namespace Viewer

/-- The pane of the text, with so many rows, shows the line with a mark in front of it. -/
def Marks (v : Viewer) (rows line : Nat) : Prop :=
  ∃ text, (line, text) ∈ v.sourceView.shownLines v.sourceScroll.offset rows ∧
    (v.sourceView.lineSpans line text).head?.map (·.text) = some "✗"

section

variable {v : Viewer} {width height : UInt16} {rows row line : Nat}

-- After a rendering, those marked lines are shown that are behind the settled offset.
theorem marks_step_render {offset : Nat} (hoffset : (v.sourceScroll.settle
      (sourceRows width height) (Text.lines v.source).length v.currentLine).offset = offset) :
    (v.step (.render width height)).Marks (sourceRows width height) line ↔
      line ∈ v.problemLines.map (·.1) ∧ offset < line ∧
        line ≤ offset + sourceRows width height ∧ line ≤ (Text.lines v.source).length := by
  let w := v.step (.render width height)
  have hw : w.sourceScroll.offset = offset := hoffset
  have hshown : (∃ text, (line, text) ∈ w.sourceView.shownLines offset
      (sourceRows width height)) ↔ offset < line ∧
        line ≤ offset + sourceRows width height ∧ line ≤ (Text.lines v.source).length := by
    refine Iff.trans ?_ (SourceView.mem_map_fst_shownLines (v := w.sourceView))
    simp
  show w.Marks _ _ ↔ _
  simp only [Marks, SourceView.head?_lineSpans, exists_and_right, hw, hshown]
  exact and_comm

/-! ## Scrolling to a line -/

theorem run_append (v : Viewer) (events later : List Event) :
    v.run (events ++ later) = (v.run events).run later := List.foldl_append

-- The focus can be brought to the text.
theorem exists_run_focus (v : Viewer) : ∃ events, v.run events = { v with focus := .source } := by
  obtain ⟨_, _, _, _, focus⟩ := v
  cases focus with
  | source => exact ⟨[], rfl⟩
  | tree => exact ⟨[.press .backTab], rfl⟩
  | tokens => exact ⟨[.press .backTab, .press .backTab], rfl⟩
  | diagnostics => exact ⟨[.press .tab], rfl⟩

-- Keys down bring the current line up to the top of its pane.
theorem run_replicate_down (hfocus : v.focus = .source) (hcurrent : 0 < v.currentLine)
    (hrow : v.sourceScroll.row? = some row) (n : Nat) :
    v.run (List.replicate n (.press .down)) =
      { v with sourceScroll := { v.sourceScroll with row? := some (row - n) } } := by
  induction n generalizing v row with
  | zero =>
    rw [Nat.sub_zero, ← hrow]
    rfl
  | succ n ih =>
    have hstep : v.step (.press .down) = { v with
        sourceScroll := { v.sourceScroll with row? := some (Scroll.up row) } } := by
      show v.down = _
      rw [down, hfocus, ← SourceScroll.down_of_current hrow hcurrent]
    rw [List.replicate_succ, run, List.foldl_cons, hstep, Nat.add_comm n 1, ← Nat.sub_sub]
    exact ih (v := { v with sourceScroll := { v.sourceScroll with row? := some (Scroll.up row) } })
      hfocus hcurrent rfl

theorem exists_run_top (hcurrent : 0 < v.currentLine) : ∃ events, Continues v (v.run events) ∧
    (v.run events).currentLine = v.currentLine ∧
      (v.run events).sourceScroll.row? = some 0 := by
  obtain ⟨toSource, hfocus⟩ := v.exists_run_focus
  -- Any rendering pins the current line to some row.
  let drawn := ({ v with focus := .source } : Viewer).step (.render 0 0)
  obtain ⟨row, hrow⟩ : ∃ row, drawn.sourceScroll.row? = some row := ⟨_, rfl⟩
  have htop := run_replicate_down (v := drawn) rfl hcurrent hrow row
  rw [Nat.sub_self] at htop
  have hrun : v.run (toSource ++ .render 0 0 :: List.replicate row (.press .down)) =
      drawn.run (List.replicate row (.press .down)) := by
    rw [run_append, hfocus]
    rfl
  exact ⟨_, continues_run v _, by rw [hrun, htop]; rfl, by rw [hrun, htop]⟩

-- From there, the lines below the current one are shown as far as they fit.
theorem exists_run_marks (hmarked : line ∈ v.problemLines.map (·.1)) (hcurrent : 1 ≤ v.currentLine)
    (habove : v.currentLine ≤ line) (hbelow : line < v.currentLine + sourceRows width height)
    (hline : line ≤ (Text.lines v.source).length) :
    ∃ later, (v.run (later ++ [.render width height])).Marks (sourceRows width height) line := by
  obtain ⟨later, hcontinues, hsame, hrow⟩ := exists_run_top hcurrent
  refine ⟨later, ?_⟩
  rw [run_append]
  generalize v.run later = w at *
  rw [← hsame] at hcurrent habove hbelow
  rw [← hcontinues.source] at hline
  rw [← hcontinues.problemLines] at hmarked
  have hoffset := SourceScroll.offset_settle_top hrow hcurrent (Nat.le_trans habove hline)
    (sourceRows width height)
  refine (marks_step_render hoffset).mpr ⟨hmarked, ?_⟩
  rw [Scroll.clamp]
  split <;> omega

end

/-! ## The viewer of a text -/

section

variable {source : String} {policy : ErrorPolicy} {events : List Event}

-- Where anything is wrong, the current line stays what it is.
theorem currentLine_run_run (hne : ((ofSource source policy).run events).diagnostics ≠ [])
    (later : List Event) : (((ofSource source policy).run events).run later).currentLine =
      ((ofSource source policy).run events).currentLine := by
  obtain ⟨⟨first, hfirst, hline⟩, hleast⟩ := currentLine_least events hne
  have hsame := (continues_run ((ofSource source policy).run events) later).diagnostics
  rw [← run_append] at hsame ⊢
  obtain ⟨⟨first', hfirst', hline'⟩, hleast'⟩ :=
    currentLine_least (events ++ later) (hsame ▸ hne)
  rw [hsame] at hfirst' hleast'
  have hle := hleast first' hfirst'
  have hle' := hleast' first hfirst
  omega

/-- Where a marked line is shown, it is a line of the text, and fewer lines below the current one
than the pane has rows. -/
theorem Marks.line_lt {line : Nat} {width height : UInt16} {later : List Event}
    (h : (((ofSource source policy).run events).run (later ++ [.render width height])).Marks
      (sourceRows width height) line)
    (hne : ((ofSource source policy).run events).diagnostics ≠ []) :
    line ≤ (Text.lines source).length ∧
      line < ((ofSource source policy).run events).currentLine + sourceRows width height := by
  have hcurrent := currentLine_run_run hne later
  have hpositive := (currentLine_bounds source policy events).1
  have hsource : (((ofSource source policy).run events).run later).source = source :=
    (continues_run _ later).source.trans (continues_run (ofSource source policy) events).source
  generalize (ofSource source policy).run events = v at *
  rw [run_append] at h
  generalize v.run later = w at *
  obtain ⟨-, -, hbelow, hline⟩ := (marks_step_render rfl).mp h
  rw [hsource, hcurrent] at hbelow
  rw [hsource] at hline
  refine ⟨hline, ?_⟩
  by_cases htotal : v.currentLine ≤ (Text.lines source).length
  · have hrows : 0 < sourceRows width height := Scroll.visibleRows_pos _
    obtain ⟨habove, -⟩ := w.sourceScroll.settle_shows hrows hpositive htotal
    omega
  · omega

/-- Lines with a mark are lines of the text, or the one behind the last. That one is marked if the
text ends with a newline, or is empty, and an end of file was found that was not to be expected. And
whatever was done with a viewer before, an entry's line can be brought onto a screen of some size,
with its mark, exactly if it is a line of the text and fewer lines below the first marked one than
the pane has rows. -/
theorem run_marks (source : String) (policy : ErrorPolicy) (events : List Event) :
    let v := (ofSource source policy).run events
    let lines := (Text.lines source).length
    let marked := v.problemLines.map (·.1)
    (∀ line ∈ marked, 1 ≤ line ∧ line ≤ lines + 1) ∧
      (lines + 1 ∈ marked ↔ source.toList.getLast?.all (· == '\n') = true ∧
        ∃ d, parse source policy = .error d ∧ ∃ e ∈ d.syntactic, e.found.kind = .eof) ∧
      ∀ entry ∈ v.diagnostics, ∀ width height : UInt16,
        (∃ later : List Event, (v.run (later ++ [.render width height])).Marks
          (sourceRows width height) entry.1.line) ↔
        entry.1.line ≤ lines ∧ entry.1.line < v.currentLine + sourceRows width height := by
  intro v lines marked
  have hmarked (line : Nat) : line ∈ marked ↔ ∃ entry ∈ v.diagnostics, entry.1.line = line :=
    mem_map_fst_countByLine v.diagnostics
  cases h : parse source policy with
  | ok p =>
    have hnil : v.diagnostics = [] := (diagnostics_eq_nil_iff events).mpr ⟨p, h⟩
    have hnone (line : Nat) : line ∉ marked := by
      rw [hmarked, hnil]
      simp
    refine ⟨fun line hline => absurd hline (hnone line), iff_of_false (hnone _) ?_, ?_⟩
    · rintro ⟨-, d, hd, -⟩
      cases hd
    · rw [hnil]
      exact fun entry hentry => absurd hentry List.not_mem_nil
  | error d =>
    have hentries : v.diagnostics = d.entries := diagnostics_run h events
    refine ⟨?_, ?_, ?_⟩
    · intro line hline
      obtain ⟨entry, hentry, rfl⟩ := (hmarked line).mp hline
      have hbounds := (isOf_of_mem_entries h (hentries ▸ hentry)).line_bounds
      have hend := Position.line_endOf_toList source
      split at hend <;> omega
    · rw [hmarked, hentries, Diagnostics.exists_entry_behind_iff h]
      refine and_congr_right fun _ => ⟨fun he => ⟨d, rfl, he⟩, ?_⟩
      rintro ⟨d', hd', he⟩
      obtain rfl := Except.error.inj hd'
      exact he
    · intro entry hentry width height
      have hne : v.diagnostics ≠ [] := List.ne_nil_of_mem hentry
      have hleast : v.currentLine ≤ entry.1.line := (currentLine_least events hne).2 entry hentry
      have hsource : v.source = source := (continues_run (ofSource source policy) events).source
      constructor
      · rintro ⟨later, hshown⟩
        exact hshown.line_lt hne
      · rintro ⟨hline, hbelow⟩
        exact exists_run_marks ((hmarked _).mpr ⟨entry, hentry, rfl⟩)
          (currentLine_bounds source policy events).1 hleast hbelow (hsource ▸ hline)

end

-- Two statements that break off, and two blocks that are not closed.
def openSource : String := "class M \x7b public static void main() \x7b\n x = ;\n\n\n y = ;\n"

/-- In a pane of two rows the second line can be marked, but not the fifth, which is too far below
it; and the sixth, on which the text ends, can be marked in no pane. -/
theorem run_marks_of_open :
    let v := (ofSource openSource .recover).run [.press .down, .render 20 6]
    (∀ line, line ∈ v.problemLines.map (·.1) ↔ line ∈ [2, 5, 6]) ∧ v.currentLine = 2 ∧
      (Text.lines openSource).length = 5 ∧ sourceRows 20 6 = 2 ∧
      (∃ later : List Event, (v.run (later ++ [.render 20 6])).Marks 2 2) ∧
      (¬ ∃ later : List Event, (v.run (later ++ [.render 20 6])).Marks 2 5) ∧
      ∀ width height : UInt16, ¬ ∃ later : List Event,
        (v.run (later ++ [.render width height])).Marks (sourceRows width height) 6 := by
  intro v
  have hfaults : (Diagnostics.ofResult? (parse openSource .recover)).map (fun d =>
      d.found.map (·.position.line)) = some [2, 5, 6] := by decide +kernel
  obtain ⟨d, hsome, hfound⟩ := Option.map_eq_some_iff.mp hfaults
  have hentries (line : Nat) :
      (∃ entry ∈ v.diagnostics, entry.1.line = line) ↔ line ∈ [2, 5, 6] := by
    have hdiagnostics : v.diagnostics = d.entries :=
      diagnostics_run (Diagnostics.eq_error_of_ofResult? hsome) _
    rw [← hfound, hdiagnostics, List.mem_map]
    simp [Diagnostics.mem_entries, Problem.entry_fst]
  have hmarked (line : Nat) : line ∈ v.problemLines.map (·.1) ↔ line ∈ [2, 5, 6] :=
    (mem_map_fst_countByLine v.diagnostics).trans (hentries line)
  have hcurrent : v.currentLine = 2 := by
    obtain ⟨entry, hentry, hline⟩ := (hentries 2).mpr (by decide)
    obtain ⟨hsome, hleast⟩ := currentLine_least [.press .down, .render 20 6]
      (List.ne_nil_of_mem hentry)
    have hle : v.currentLine ≤ entry.1.line := hleast entry hentry
    have hmem : v.currentLine = 2 ∨ v.currentLine = 5 ∨ v.currentLine = 6 := by
      simpa using (hentries v.currentLine).mp hsome
    omega
  have hlength : (Text.lines openSource).length = 5 := by decide +kernel
  have hrows : sourceRows 20 6 = 2 := by decide
  obtain ⟨-, -, hshown⟩ := run_marks openSource .recover [.press .down, .render 20 6]
  have hmarks (line : Nat) (hline : line ∈ [2, 5, 6]) (width height : UInt16) :
      (∃ later : List Event, (v.run (later ++ [.render width height])).Marks
        (sourceRows width height) line) ↔ line ≤ 5 ∧ line < 2 + sourceRows width height := by
    obtain ⟨entry, hentry, rfl⟩ := (hentries line).mpr hline
    rw [← hlength, ← hcurrent]
    exact hshown entry hentry width height
  refine ⟨hmarked, hcurrent, hlength, hrows, ?_, ?_, fun width height => ?_⟩
  · exact hrows ▸ (hmarks 2 (by decide) 20 6).mpr (by decide)
  · exact hrows ▸ mt (hmarks 5 (by decide) 20 6).mp (by decide)
  · exact fun hmarked => absurd ((hmarks 6 (by decide) width height).mp hmarked).1 (by decide)

/-- Not every line with a mark is a line of the text. -/
theorem not_marks_within_text :
    ¬ ∀ (source : String) (policy : ErrorPolicy),
      ∀ line ∈ (ofSource source policy).problemLines.map (·.1),
        1 ≤ line ∧ line ≤ (Text.lines source).length := by
  intro h
  have hwithin := (h "class\n" .failFast 2 (by decide +kernel)).2
  revert hwithin
  decide +kernel

end Viewer

end MiniJava
