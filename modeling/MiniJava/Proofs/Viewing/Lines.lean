import MiniJava.Proofs.Listings
import MiniJava.Proofs.Viewing.Anchors
import MiniJava.Proofs.Viewing.Run

/-!
# Lines — the lines of a text and what stands on them

A text has a line for each newline, and one more if anything stands behind the last of them
(`Text.length_splitLines`). So a token, which has no newline in its text, stands on a line that is
there. The end of the text may stand one line further down, and with it the end of file and what is
wrong with it.

Each row of an outline stands at a token (`ProgramPhrase.anchored`). Hence the line that the viewer
takes for the current one is a line of the text as long as the text was read without an error
(`Viewer.currentLine_of_parse`), and never beyond the line on which the text ends
(`Viewer.currentLine_bounds`).
-/

namespace MiniJava

/-! ## Counting lines -/

namespace Text

/-- A text has a line for each newline, and one more if anything stands behind the last of them. -/
theorem length_splitLines (s : List Char) :
    (splitLines s).length = s.count '\n' + if s.getLast?.all (· == '\n') then 0 else 1 := by
  fun_induction splitLines s with
  | case1 => rfl
  | case2 rest ih | case3 rest ih =>
    rw [List.length_cons, ih]
    cases rest with
    | nil => rfl
    | cons c rest =>
      simp [List.getLast?_cons_cons]
      omega
  | case4 c rest hnewline _ hnone ih =>
    obtain rfl := splitLines_eq_nil_iff.mp hnone
    have hc : c ≠ '\n' := fun h => hnewline h
    simp [hc]
  | case5 c rest hnewline _ line more hsome ih =>
    have hc : c ≠ '\n' := fun h => hnewline h
    rw [hsome] at ih
    cases rest with
    | nil => cases hsome
    | cons d rest =>
      rw [List.getLast?_cons_cons, List.count_cons_of_ne hc]
      exact ih

-- A character that ends no line is on one of them.
theorem count_lt_length_splitLines {c : Char} (hc : c ≠ '\n') (front behind : List Char) :
    front.count '\n' < (splitLines (front ++ c :: behind)).length := by
  rw [length_splitLines, List.count_append, List.count_cons_of_ne hc]
  split
  next hlast =>
    -- The newline at the end is behind the character.
    cases hbehind : behind.getLast? with
    | none =>
      obtain rfl := List.getLast?_eq_none_iff.mp hbehind
      simp [hc] at hlast
    | some d =>
      rw [List.getLast?_append, List.getLast?_cons, hbehind] at hlast
      obtain rfl : d = '\n' := by simpa using hlast
      have hpos := List.count_pos_iff.mpr (List.mem_of_getLast? hbehind)
      omega
  next => omega

-- A line stands behind lines that are ended, and in front of the end of its own or of the text.
theorem exists_around {s line : List Char} {i : Nat} (h : (splitLines s)[i]? = some line) :
    ∃ front behind, s = front ++ (line ++ behind) ∧ front.getLast?.all (· == '\n') = true ∧
      front.count '\n' = i ∧ '\n' ∉ line ∧
      (behind = [] ∨ ∃ rest, behind = '\n' :: rest ∨ behind = '\r' :: '\n' :: rest) := by
  fun_induction splitLines s generalizing i line with
  | case1 => cases h
  | case2 rest ih =>
    cases i with
    | zero =>
      obtain rfl := Option.some.inj h
      exact ⟨[], _, rfl, rfl, rfl, List.not_mem_nil, .inr ⟨rest, .inl rfl⟩⟩
    | succ i =>
      obtain ⟨front, behind, rfl, hlast, hcount, hline, hbehind⟩ := ih h
      refine ⟨'\n' :: front, behind, rfl, ?_, ?_, hline, hbehind⟩
      · cases front <;> simp_all [List.getLast?_cons_cons]
      · rw [List.count_cons_self, hcount]
  | case3 rest ih =>
    cases i with
    | zero =>
      obtain rfl := Option.some.inj h
      exact ⟨[], _, rfl, rfl, rfl, List.not_mem_nil, .inr ⟨rest, .inr rfl⟩⟩
    | succ i =>
      obtain ⟨front, behind, rfl, hlast, hcount, hline, hbehind⟩ := ih h
      refine ⟨'\r' :: '\n' :: front, behind, rfl, ?_, ?_, hline, hbehind⟩
      · cases front <;> simp_all [List.getLast?_cons_cons]
      · simp [hcount]
  | case4 c rest hnewline _ hnil ih =>
    obtain rfl := splitLines_eq_nil_iff.mp hnil
    have hc : c ≠ '\n' := fun h => hnewline h
    cases i with
    | zero =>
      obtain rfl := Option.some.inj h
      exact ⟨[], [], rfl, rfl, rfl, by simpa using hc.symm, .inl rfl⟩
    | succ i => cases h
  | case5 c rest hnewline _ first more hsome ih =>
    have hc : c ≠ '\n' := fun h => hnewline h
    rw [hsome] at ih
    cases i with
    | zero =>
      obtain rfl := Option.some.inj h
      obtain ⟨front, behind, rfl, hlast, hcount, hline, hbehind⟩ := ih (i := 0) rfl
      -- Without a newline nothing is in front of the line.
      have hfront : front = [] := by
        by_contra hne
        obtain ⟨d, hd⟩ := Option.ne_none_iff_exists'.mp (mt List.getLast?_eq_none_iff.mp hne)
        obtain rfl : d = '\n' := by simpa [hd] using hlast
        exact List.count_eq_zero.mp hcount (List.mem_of_getLast? hd)
      subst hfront
      exact ⟨[], behind, rfl, rfl, rfl, by simp [hc.symm, hline], hbehind⟩
    | succ i =>
      obtain ⟨front, behind, rfl, hlast, hcount, hline, hbehind⟩ := ih (i := i + 1) h
      refine ⟨c :: front, behind, rfl, ?_, ?_, hline, hbehind⟩
      · cases front with
        | nil => cases hcount
        | cons d front => rwa [List.getLast?_cons_cons]
      · rwa [List.count_cons_of_ne hc]

end Text

/-! ## Positions of a text -/

/-- Some part of the text, perhaps all of it, ends there. -/
def Position.IsOf (text : List Char) (p : Position) : Prop :=
  ∃ front, front <+: text ∧ p = endOf front

theorem Position.IsOf.line_bounds {text : List Char} {p : Position} (h : p.IsOf text) :
    1 ≤ p.line ∧ p.line ≤ (endOf text).line := by
  obtain ⟨front, hfront, rfl⟩ := h
  have hcount := hfront.sublist.count_le '\n'
  simp only [endOf]
  omega

-- A piece stands where the pieces before it end.
theorem Segment.exists_of_mem_placed {s : Segment} {p q : Position} {ss : List Segment}
    (h : (s, q) ∈ placed p ss) :
    ∃ front, front ++ s.text <+: ss.flatMap (·.text) ∧ q = p.past front := by
  induction ss generalizing p with
  | nil => cases h
  | cons first ss ih =>
    rw [placed, List.mem_cons] at h
    rw [List.flatMap_cons]
    rcases h with heq | h
    · obtain ⟨rfl, rfl⟩ := Prod.mk.inj heq
      exact ⟨[], List.prefix_append _ _, rfl⟩
    · obtain ⟨front, hfront, rfl⟩ := ih h
      refine ⟨first.text ++ front, ?_, (Position.past_append p _ _).symm⟩
      rw [List.append_assoc]
      exact (List.prefix_append_right_inj _).mpr hfront

section Sources

variable {source : String}

-- A piece of the text stands where part of the text ends.
theorem isOf_of_mem_placed {s : Segment} {p : Position}
    (h : (s, p) ∈ Segment.placed .start (segments source.toList)) : p.IsOf source.toList := by
  obtain ⟨front, hfront, rfl⟩ := Segment.exists_of_mem_placed h
  rw [flatMap_segments] at hfront
  exact ⟨front, (List.prefix_append _ _).trans hfront, Position.past_start front⟩

theorem isOf_of_mem_tokens {t : Token} (ht : t ∈ (tokenize source).tokens) :
    t.position.IsOf source.toList := by
  rcases List.mem_append.mp ht with ht | ht
  · obtain ⟨⟨s, p⟩, hplaced, htoken⟩ := List.mem_filterMap.mp ht
    obtain ⟨kind, -, rfl⟩ := Option.map_eq_some_iff.mp htoken
    exact isOf_of_mem_placed hplaced
  · rw [List.mem_singleton.mp ht]
    exact ⟨source.toList, List.prefix_refl _, Position.past_start _⟩

theorem isOf_of_mem_errors {e : LexicalError} (he : e ∈ (tokenize source).errors) :
    e.position.IsOf source.toList := by
  obtain ⟨⟨s, p⟩, hplaced, herror⟩ := List.mem_filterMap.mp he
  obtain ⟨fault, -, rfl⟩ := Option.map_eq_some_iff.mp herror
  exact isOf_of_mem_placed hplaced

/-- Whatever is wrong with a text is wrong somewhere in it. -/
theorem isOf_of_mem_entries {policy : ErrorPolicy} {d : Diagnostics}
    (h : parse source policy = .error d) {entry : Position × String} (hentry : entry ∈ d.entries) :
    entry.1.IsOf source.toList := by
  obtain ⟨hlexical, hsyntactic⟩ := found_of_parse_eq_error h
  rcases List.mem_append.mp ((Report.entries_perm_found d.report).mem_iff.mp hentry) with he | he
  · obtain ⟨n, hn, rfl⟩ := List.mem_map.mp he
    obtain ⟨e, hmem, rfl⟩ := List.mem_map.mp hn
    rw [hlexical] at hmem
    exact isOf_of_mem_errors hmem
  · obtain ⟨n, hn, rfl⟩ := List.mem_map.mp he
    obtain ⟨e, hmem, rfl⟩ := List.mem_map.mp hn
    exact isOf_of_mem_tokens (hsyntactic e hmem)

-- A token has a first character, which ends no line.
theorem Tiled.line_le {front text : List Char} {tokens : List Token} (h : Tiled front text tokens) :
    ∀ t ∈ tokens, t.position.line ≤ (Text.splitLines (front ++ text)).length := by
  induction h with
  | last => exact List.forall_mem_nil _
  | @token front gap rest t tokens hgap hlongest hplace h ih =>
    refine List.forall_mem_cons.mpr ⟨?_, fun u hu => ?_⟩
    · have hlexeme := hlongest.isLexeme
      cases htext : t.text.toList with
      | nil => exact absurd htext hlexeme.ne_nil
      | cons c cs =>
        have hc : c ≠ '\n' := by
          rintro rfl
          exact absurd (hlexeme.not_gap _ (htext ▸ List.mem_cons_self)) (by decide)
        have hcount := Text.count_lt_length_splitLines hc (front ++ gap) (cs ++ rest)
        rw [hplace, Position.endOf, Nat.add_comm, Nat.succ_le_iff]
        simpa using hcount
    · have hline := ih u hu
      simpa using hline

/-- A token, unless it is the end of file, stands on a line of the text. -/
theorem line_of_mem_ahead {t : Token}
    (ht : t ∈ (TokenStream.ofTokens (tokenize source).tokens).ahead) :
    1 ≤ t.position.line ∧ t.position.line ≤ (Text.lines source).length := by
  obtain ⟨tokens, heq, htiled⟩ := exists_tiled_tokenize source
  have hahead := ahead_append_ending_tokenize source
  have hmem : t ∈ (tokenize source).tokens := hahead ▸ List.mem_append_left _ ht
  refine ⟨(isOf_of_mem_tokens hmem).line_bounds.1, ?_⟩
  obtain ⟨hfront, -⟩ := List.append_inj' (hahead.trans heq) rfl
  rw [hfront] at ht
  rw [Text.lines, List.length_map]
  exact htiled.line_le t ht

/-- The rows of a tree stand on lines of the text that it was read from. -/
theorem line_of_mem_outline {policy : ErrorPolicy} {p : Program} (h : parse source policy = .ok p)
    {r : OutlineRow} (hr : r ∈ p.outline) :
    1 ≤ r.position.line ∧ r.position.line ≤ (Text.lines source).length := by
  obtain ⟨-, d, htokens, -, -, rfl⟩ := (parse_eq_ok_iff source p).mp (parse_failFast_of_parse h)
  obtain ⟨t, ht, hposition⟩ := d.anchored r hr
  rw [← hposition]
  exact line_of_mem_ahead (htokens ▸ ht)

end Sources

/-! ## The current line -/

namespace Viewer

variable {source : String} {policy : ErrorPolicy}

-- The current line is that of a row, or that of the first entry.
theorem currentLine_eq {v : Viewer} (h : v.Sound) :
    (∃ r ∈ v.outline, v.currentLine = r.position.line) ∨
      ∃ entry, v.diagnostics.head? = some entry ∧ v.currentLine = entry.1.line := by
  unfold currentLine
  cases hrow : v.outline[v.cursor]? with
  | some r => exact .inl ⟨r, List.mem_of_getElem? hrow, rfl⟩
  | none =>
    have hempty : v.outline = [] := by
      rcases h.cursor with hcursor | hcursor
      · exact absurd (List.getElem?_eq_none_iff.mp hrow) (Nat.not_le_of_lt hcursor)
      · exact List.length_eq_zero_iff.mp hcursor.1
    cases hdiagnostics : v.diagnostics with
    | nil => exact absurd hdiagnostics (h.exclusive.mp hempty)
    | cons entry entries => exact .inr ⟨entry, rfl, rfl⟩

-- What is shown at first is shown all along.
theorem views_run (source : String) (policy : ErrorPolicy) (events : List Event) :
    views (parse source policy) = (((ofSource source policy).run events).outline,
      ((ofSource source policy).run events).diagnostics) := by
  have hcontinues := continues_run (ofSource source policy) events
  rw [hcontinues.outline, hcontinues.diagnostics]
  rfl

/-- Where a text is read without an error, one of its lines is the current one. -/
theorem currentLine_of_parse {p : Program} (h : parse source policy = .ok p)
    (events : List Event) : 1 ≤ ((ofSource source policy).run events).currentLine ∧
      ((ofSource source policy).run events).currentLine ≤ (Text.lines source).length := by
  have hsound := (sound_ofSource source policy).run events
  have hviews := views_run source policy events
  rw [h] at hviews
  obtain ⟨houtline, hdiagnostics⟩ := Prod.mk.inj hviews
  rcases currentLine_eq hsound with ⟨r, hr, hline⟩ | ⟨entry, hentry, -⟩
  · rw [hline]
    exact line_of_mem_outline h (houtline ▸ hr)
  · rw [← hdiagnostics] at hentry
    cases hentry

/-- The current line is a line of the text, or the one behind the last that is there. -/
theorem currentLine_bounds (source : String) (policy : ErrorPolicy) (events : List Event) :
    1 ≤ ((ofSource source policy).run events).currentLine ∧
      ((ofSource source policy).run events).currentLine ≤ (Text.lines source).length + 1 := by
  cases h : parse source policy with
  | ok p =>
    have hlines := currentLine_of_parse h events
    omega
  | error d =>
    have hsound := (sound_ofSource source policy).run events
    have hviews := views_run source policy events
    rw [h] at hviews
    obtain ⟨houtline, hdiagnostics⟩ := Prod.mk.inj hviews
    rcases currentLine_eq hsound with ⟨r, hr, -⟩ | ⟨entry, hentry, hline⟩
    · rw [← houtline] at hr
      cases hr
    · rw [← hdiagnostics] at hentry
      have hbounds := (isOf_of_mem_entries h (List.mem_of_head? hentry)).line_bounds
      have hlength := Text.length_splitLines source.toList
      rw [hline, Text.lines, List.length_map]
      simp only [Position.endOf] at hbounds
      omega

end Viewer

end MiniJava
