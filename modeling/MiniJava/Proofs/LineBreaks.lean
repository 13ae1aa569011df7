import MiniJava.Proofs.Tiling.Cut

/-!
# Line breaks — texts joined by a newline

A newline ends everything that a text can leave unfinished in front of it: a word or a number that
could go on, a mark that could stand twice, a slash, a line comment. Only a block comment that is
open goes on behind it. So each scan of the lexer ends in front of a newline as it ends in front of
nothing (`Segment.StopsAtNewline`), the segments of two texts joined by a newline are those of the
one and then those of the other (`segments_append_newline`), and lexing the whole is lexing both,
with the second so many lines further down as the first is long (`tokenize_append_newline`).
-/

namespace MiniJava

/-! ## Further down -/

/-- The same column, so many lines further down. -/
def Position.below (lines : Nat) (p : Position) : Position := ⟨p.line + lines, p.column⟩

/-- The token so many lines further down. -/
def Token.below (lines : Nat) (t : Token) : Token := { t with position := t.position.below lines }

/-- The error so many lines further down. -/
def LexicalError.below (lines : Nat) (e : LexicalError) : LexicalError :=
  { e with position := e.position.below lines }

variable (lines : Nat) (p : Position)

theorem Position.next_below (c : Char) : (p.below lines).next c = (p.next c).below lines := by
  unfold next
  split
  · rw [below, below, Nat.add_right_comm]
  · rfl

theorem Position.past_below (text : List Char) :
    (p.below lines).past text = (p.past text).below lines := by
  induction text generalizing p with
  | nil => rfl
  | cons c text ih => rw [past_cons, past_cons, next_below, ih]

theorem Segment.placed_below (ss : List Segment) :
    placed (p.below lines) ss = (placed p ss).map fun (s, q) => (s, q.below lines) := by
  induction ss generalizing p with
  | nil => rfl
  | cons s ss ih => rw [placed, placed, Position.past_below, ih, List.map_cons]

/-- A text that begins further down gives the same, further down. -/
theorem Lexed.ofChars_below (text : List Char) :
    ofChars (p.below lines) text =
      ⟨(ofChars p text).tokens.map (·.below lines),
        (ofChars p text).errors.map (·.below lines)⟩ := by
  have htoken (s : Segment) (q : Position) :
      s.token? (q.below lines) = (s.token? q).map (·.below lines) := by
    rw [Segment.token?, Segment.token?, Option.map_map]
    rfl
  have herror (s : Segment) (q : Position) :
      s.error? (q.below lines) = (s.error? q).map (·.below lines) := by
    rw [Segment.error?, Segment.error?, Option.map_map]
    rfl
  simp only [ofChars, Segment.placed_below, Position.past_below, List.filterMap_map,
    Function.comp_def, htoken, herror, List.map_append, List.map_filterMap, List.map_singleton]
  rfl

/-! ## In front of a newline -/

namespace Segment

/-- The scan ends in front of a newline as it ends in front of nothing, unless it leaves a comment
open. -/
def StopsAtNewline (scan : List Char → Segment × List Char) : Prop :=
  ∀ rest behind, (scan rest).1.kind ≠ .openComment →
    scan (rest ++ '\n' :: behind) = ((scan rest).1, (scan rest).2 ++ '\n' :: behind)

theorem stopsAtNewline_alone (s : Segment) : StopsAtNewline fun rest => (s, rest) :=
  fun _ _ _ => rfl

theorem stopsAtNewline_run (kind : SegmentKind) {p : Char → Bool} (hp : p '\n' = false) (c : Char) :
    StopsAtNewline (run kind p c) := by
  intro rest behind _
  have htext : rest ++ '\n' :: behind =
      rest.takeWhile p ++ (rest.dropWhile p ++ '\n' :: behind) := by
    rw [← List.append_assoc, List.takeWhile_append_dropWhile]
  rw [htext]
  refine run_append kind c (fun d hd => List.mem_takeWhile_imp hd) fun d hd => ?_
  -- What comes behind the run ends it, or else the newline does.
  cases hrest : rest.dropWhile p with
  | nil =>
    rw [hrest] at hd
    cases hd
    exact hp
  | cons e more =>
    rw [hrest] at hd
    cases hd
    have hhead := List.head?_dropWhile_not p rest
    rw [hrest] at hhead
    simpa using hhead

theorem stopsAtNewline_single (twice once : SegmentKind) {c : Char} (hc : c ≠ '\n') :
    StopsAtNewline (single twice once c) := by
  intro rest behind _
  cases rest with
  | nil => exact if_neg hc.symm
  | cons d rest =>
    rw [List.cons_append, single, single]
    split <;> rfl

-- A comment that is closed is closed at the same place, whatever comes behind it.
theorem cutComment?_append {text body behind : List Char}
    (h : cutComment? text = some (body, behind)) (more : List Char) :
    cutComment? (text ++ more) = some (body, behind ++ more) := by
  obtain ⟨front, rfl, hfirst⟩ := exists_of_cutComment? h
  have htext : text ++ more = front ++ '*' :: '/' :: (behind ++ more) := by
    rw [← cutComment?_text h]
    simp
  rw [htext, cutComment?_of_closed hfirst]

theorem stopsAtNewline_slash : StopsAtNewline slash := by
  intro rest behind hclosed
  cases rest with
  | nil => rfl
  | cons c rest =>
    by_cases hline : c = '/'
    · subst hline
      exact stopsAtNewline_run .lineComment (by decide) '/' ('/' :: rest) behind hclosed
    by_cases hblock : c = '*'
    · subst hblock
      rw [List.cons_append, slash, slash]
      rw [slash] at hclosed
      cases hcut : cutComment? rest with
      | none =>
        rw [hcut] at hclosed
        exact absurd rfl hclosed
      | some cut =>
        obtain ⟨body, after⟩ := cut
        rw [cutComment?_append hcut]
    · have hslash (more : List Char) : slash (c :: more) = (⟨.mark .div, ['/']⟩, c :: more) := by
        unfold slash
        split <;> simp_all
      rw [List.cons_append, hslash, hslash, List.cons_append]

theorem StopsAtNewline.ite {P : Prop} [Decidable P] {scan scan' : List Char → Segment × List Char}
    (h : P → StopsAtNewline scan) (h' : ¬ P → StopsAtNewline scan') :
    StopsAtNewline fun rest => if P then scan rest else scan' rest := by
  by_cases hP : P
  · simp only [if_pos hP]
    exact h hP
  · simp only [if_neg hP]
    exact h' hP

/-- The first segment of a text is the same in front of a newline, whatever comes behind. -/
theorem stopsAtNewline_first (c : Char) : StopsAtNewline (first c) := by
  show StopsAtNewline fun rest => first c rest
  unfold first
  refine .ite (fun _ => stopsAtNewline_alone _) fun _ => ?_
  cases TokenKind.ofMark? c with
  | some kind => exact stopsAtNewline_alone _
  | none =>
    refine .ite (fun _ => stopsAtNewline_run .word (by decide +kernel) c) fun _ => ?_
    refine .ite (fun _ => stopsAtNewline_run .digits (by decide) c) fun _ => ?_
    refine .ite (fun _ => stopsAtNewline_slash) fun _ => ?_
    refine .ite (fun hc => stopsAtNewline_single _ _ (hc ▸ by decide)) fun _ => ?_
    refine .ite (fun hc => stopsAtNewline_single _ _ (hc ▸ by decide)) fun _ => ?_
    refine .ite (fun hc => stopsAtNewline_single _ _ (hc ▸ by decide)) fun _ => ?_
    exact stopsAtNewline_alone _

end Segment

/-- Where no comment is left open, nothing reaches over a newline. -/
theorem segments_append_newline {text : List Char}
    (hclosed : ∀ s ∈ segments text, s.kind ≠ .openComment) (behind : List Char) :
    segments (text ++ '\n' :: behind) = segments text ++ segments ('\n' :: behind) := by
  fun_induction segments text with
  | case1 => rfl
  | case2 c rest ih =>
    obtain ⟨hfirst, hrest⟩ := List.forall_mem_cons.mp hclosed
    rw [List.cons_append, segments, Segment.stopsAtNewline_first c rest behind hfirst, ih hrest]
    rfl

/-! ## Joining texts -/

-- An open comment would be an error.
theorem kind_ne_openComment_of_errors {p : Position} {text : List Char}
    (h : ∀ e ∈ (Lexed.ofChars p text).errors, e.fault.family ≠ .unterminatedComment) :
    ∀ s ∈ segments text, s.kind ≠ .openComment := by
  fun_induction segments text generalizing p with
  | case1 => exact List.forall_mem_nil _
  | case2 c rest ih =>
    rw [Lexed.errors_ofChars_cons, List.forall_mem_append] at h
    refine List.forall_mem_cons.mpr ⟨fun hopen => ?_, ih h.2⟩
    have herror : (Segment.first c rest).1.error? p = some ⟨.unterminatedComment, p⟩ := by
      rw [Segment.error?, Segment.fault?, hopen]
      rfl
    rw [herror] at h
    exact h.1 _ List.mem_cons_self rfl

namespace Lexed

variable {text : List Char}

-- Where a text has the same segments in front of another one, the other one is lexed behind it.
theorem ofChars_append {more : List Char}
    (h : segments (text ++ more) = segments text ++ segments more) :
    ofChars p (text ++ more) =
      ⟨(Segment.placed p (segments text)).filterMap (fun (s, q) => s.token? q) ++
          (ofChars (p.past text) more).tokens,
        (ofChars p text).errors ++ (ofChars (p.past text) more).errors⟩ := by
  simp only [ofChars, h, Segment.placed_append, flatMap_segments, List.filterMap_append,
    Position.past_append, List.append_assoc]

-- A newline leads to the first column of the next line.
theorem ofChars_newline (behind : List Char) :
    ofChars p ('\n' :: behind) = ofChars (Position.start.below p.line) behind := by
  have hnext : p.past ['\n'] = Position.start.below p.line := by
    rw [Position.past_cons, Position.past_nil, Position.next, if_pos rfl, Position.below,
      Position.start, Nat.add_comm]
  rw [ofChars_of_silent p (s := ⟨.blank, ['\n']⟩) rfl rfl rfl, hnext]

end Lexed

/-- Lexing two texts joined by a newline, the first of which leaves no comment open, gives the
tokens of the first without its end of file and then those of the second, and the errors of the
first and then those of the second. What comes from the second stands as many lines further down as
the end of the first, and in the same columns. -/
theorem tokenize_append_newline (u v : String)
    (hclosed : ∀ e ∈ (tokenize u).errors, e.fault.family ≠ .unterminatedComment) :
    ∃ tokens ending, (tokenize u).tokens = tokens ++ [ending] ∧ ending.kind = .eof ∧
      (∀ t ∈ tokens, t.kind ≠ .eof) ∧
      (tokenize (u ++ "\n" ++ v)).tokens =
        tokens ++ (tokenize v).tokens.map (·.below ending.position.line) ∧
      (tokenize (u ++ "\n" ++ v)).errors =
        (tokenize u).errors ++ (tokenize v).errors.map (·.below ending.position.line) := by
  have hlex : tokenize (u ++ "\n" ++ v) =
      ⟨(Segment.placed .start (segments u.toList)).filterMap (fun (s, q) => s.token? q) ++
          (tokenize v).tokens.map (·.below (Position.start.past u.toList).line),
        (tokenize u).errors ++
          (tokenize v).errors.map (·.below (Position.start.past u.toList).line)⟩ := by
    have hsegments := segments_append_newline (kind_ne_openComment_of_errors hclosed) v.toList
    have htext : (u ++ "\n" ++ v).toList = u.toList ++ '\n' :: v.toList := by simp
    rw [tokenize, htext, Lexed.ofChars_append _ hsegments, Lexed.ofChars_newline,
      Lexed.ofChars_below]
    rfl
  refine ⟨_, Token.endOfFile (Position.start.past u.toList), rfl, rfl,
    (tiled_segments [] u.toList).kind_ne_eof, ?_⟩
  rw [hlex]
  exact ⟨rfl, rfl⟩

/-- A slash in front of a newline begins no comment with a star behind it, and what is wrong behind
the newline is found there. -/
theorem tokenize_slash_newline_star :
    (∀ e ∈ (tokenize "a /").errors, e.fault.family ≠ .unterminatedComment) ∧
      ∃ tokens ending, (tokenize "a /").tokens = tokens ++ [ending] ∧ ending.kind = .eof ∧
        (∀ t ∈ tokens, t.kind ≠ .eof) ∧
        (tokenize "a /\n* \\").tokens =
          tokens ++ (tokenize "* \\").tokens.map (·.below ending.position.line) ∧
        (tokenize "a /\n* \\").errors =
          (tokenize "a /").errors ++
            (tokenize "* \\").errors.map (·.below ending.position.line) := by
  have hclosed : ∀ e ∈ (tokenize "a /").errors, e.fault.family ≠ .unterminatedComment := by
    decide +kernel
  exact ⟨hclosed, tokenize_append_newline "a /" "* \\" hclosed⟩

end MiniJava
