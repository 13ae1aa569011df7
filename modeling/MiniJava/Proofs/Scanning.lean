import MiniJava.Proofs.Tiling.Cut
import MiniJava.Scanner

/-!
# Scanning — a text read in any mix of calls

A scanner hands out tokens and errors as it is asked for them, one token at a time or all that are
left, with an end of file that is handed out once or again and again. `Passage` says what any calls
to a scanner have in common: a piece of the text is passed, what was handed out and what is left
make up what lexing the whole text gives, and repeats of the end of file are all that is handed out
in addition. One call is a passage (`Scanner.passage_answer`), passages join
(`Scanner.Passage.trans`), and so any run of calls is one (`Scanner.passage_run`).
-/

namespace MiniJava

/-- What is left of handed-out tokens when the end of file is counted once. -/
def withoutRepeatedEnds : List Token → List Token
  | [] => []
  | t :: rest =>
    if t.kind = .eof then t :: rest.filter (·.kind != .eof) else t :: withoutRepeatedEnds rest

-- The end of file, handed out again and again, is left in once.
theorem withoutRepeatedEnds_append_replicate {read : List Token} (h : ∀ t ∈ read, t.kind ≠ .eof)
    (n : Nat) (p : Position) :
    withoutRepeatedEnds (read ++ List.replicate n (Token.endOfFile p)) =
      read ++ if n = 0 then [] else [Token.endOfFile p] := by
  induction read with
  | nil =>
    cases n with
    | zero => rfl
    | succ n =>
      have hrest : (List.replicate n (Token.endOfFile p)).filter (·.kind != .eof) = [] :=
        List.filter_eq_nil_iff.mpr fun t ht => by
          simp [List.eq_of_mem_replicate ht, Token.endOfFile]
      have hkind : (Token.endOfFile p).kind = .eof := rfl
      rw [List.nil_append, List.replicate_succ, withoutRepeatedEnds, if_pos hkind, hrest]
      rfl
  | cons t read ih =>
    obtain ⟨ht, hread⟩ := List.forall_mem_cons.mp h
    rw [List.cons_append, withoutRepeatedEnds, if_neg ht, ih hread, List.cons_append]

-- What is before a position is before all that is behind it.
theorem Position.Before.past {p q : Position} (h : p.Before q) (text : List Char) :
    p.Before (q.past text) := by
  by_cases htext : text = []
  · rw [htext, Position.past_nil]
    exact h
  · exact h.trans (Position.before_past q htext)

/-! ## Lexing what is left -/

namespace Segment

-- The token of a segment is no end of file.
theorem kind_ne_eof_of_token? {c : Char} {rest : List Char} {p : Position} {t : Token}
    (h : (first c rest).1.token? p = some t) : t.kind ≠ .eof := by
  obtain ⟨kind, hkind, rfl⟩ := Option.map_eq_some_iff.mp h
  have hreading := reading_first c rest
  generalize first c rest = piece at hkind hreading
  obtain ⟨s, behind⟩ := piece
  cases hreading with
  | gap hnone => exact absurd (hkind.symm.trans hnone) (Option.some_ne_none kind)
  | openComment hnone => exact absurd (hkind.symm.trans hnone) (Option.some_ne_none kind)
  | token hsome hlongest =>
    obtain rfl := Option.some.inj (hkind.symm.trans hsome)
    exact hlongest.isLexeme.kind_ne_eof

end Segment

namespace Lexed

-- The end of file is behind all tokens of a text.
theorem exists_tokens_ofChars_eq (p : Position) (text : List Char) :
    ∃ read, (ofChars p text).tokens = read ++ [Token.endOfFile (p.past text)] ∧
      ∀ t ∈ read, t.kind ≠ .eof := by
  refine ⟨_, rfl, ?_⟩
  fun_induction segments text generalizing p with
  | case1 => exact List.forall_mem_nil _
  | case2 c rest ih =>
    intro t ht
    rw [Segment.placed, List.filterMap_cons] at ht
    cases htoken : (Segment.first c rest).1.token? p with
    | none =>
      simp only [htoken] at ht
      exact ih _ t ht
    | some u =>
      simp only [htoken] at ht
      rcases List.mem_cons.mp ht with rfl | ht
      · exact Segment.kind_ne_eof_of_token? htoken
      · exact ih _ t ht

-- The errors of a text stand in it.
theorem before_of_mem_errors (p : Position) (text : List Char) :
    ∀ e ∈ (ofChars p text).errors, ¬ e.position.Before p ∧ e.position.Before (p.past text) := by
  fun_induction segments text generalizing p with
  | case1 =>
    intro e he
    simp [ofChars, segments, Segment.placed] at he
  | case2 c rest ih =>
    have hfirst := Position.before_past p (Segment.first_text_ne_nil c rest)
    intro e he
    rw [errors_ofChars_cons] at he
    rw [← Segment.first_text c rest, Position.past_append]
    rcases List.mem_append.mp he with he | he
    · -- The error of a segment stands where the segment begins.
      obtain ⟨fault, -, rfl⟩ := Option.map_eq_some_iff.mp (Option.mem_toList.mp he)
      exact ⟨Position.not_before_self p, hfirst.past _⟩
    · obtain ⟨hbehind, hbefore⟩ := ih _ e he
      exact ⟨fun h => hbehind (h.trans hfirst), hbefore⟩

end Lexed

namespace Scanner

/-! ## Calls -/

/-- What a scanner is asked for: the next token, the next token unless the end of file was handed
out, all that is left, a look at the errors, or the errors themselves. -/
inductive Call where
  | scan | next | drain | errors | flushErrors
deriving DecidableEq, Repr

/-- What it answers. -/
inductive Answer where
  | token (t : Token)
  | next (t? : Option Token)
  | rest (tokens : List Token)
  | shown (errors : List LexicalError)
  | flushed (errors : List LexicalError)
deriving DecidableEq, Repr

namespace Answer

/-- The tokens that an answer hands out. -/
def tokens : Answer → List Token
  | token t => [t]
  | next t? => t?.toList
  | rest tokens => tokens
  | shown _ | flushed _ => []

/-- The errors that an answer hands out; errors that are shown stay where they are. -/
def errors : Answer → List LexicalError
  | flushed errors => errors
  | token _ | next _ | rest _ | shown _ => []

end Answer

/-- The answer to a call, and the scanner behind it. -/
def answer (s : Scanner) : Call → Answer × Scanner
  | .scan => (.token s.scan.1, s.scan.2)
  | .next => (.next s.next?.1, s.next?.2)
  | .drain => (.rest s.drain.1, s.drain.2)
  | .errors => (.shown s.errors, s)
  | .flushErrors => (.flushed s.flushErrors.1, s.flushErrors.2)

/-- The answers to calls, one after the other, and the scanner behind the last of them. -/
def run (s : Scanner) : List Call → List Answer × Scanner
  | [] => ([], s)
  | call :: calls =>
    ((s.answer call).1 :: (run (s.answer call).2 calls).1, (run (s.answer call).2 calls).2)

/-! ## Passages -/

/-- What a scanner still has to read. -/
def left (s : Scanner) : Lexed := Lexed.ofChars s.position s.rest

/-- Between two scanners, tokens and errors were handed out and nothing else happened: what was
handed out and what is left make up what was left before, apart from repeats of the end of file,
which is handed out only when all is read. -/
structure Passage (s : Scanner) (tokens : List Token) (errors : List LexicalError) (s' : Scanner) :
    Prop where
  passed : ∃ piece, s.rest = piece ++ s'.rest ∧ s'.position = s.position.past piece
  tokens : ∃ read ends, tokens = read ++ List.replicate ends (Token.endOfFile s'.position) ∧
    (∀ t ∈ read, t.kind ≠ .eof) ∧ (ends ≠ 0 → s'.rest = []) ∧
    s.left.tokens = read ++ s'.left.tokens
  errors : ∃ found, errors ++ s'.errors = s.errors ++ found ∧
    s.left.errors = found ++ s'.left.errors ∧ ∀ e ∈ found, e.position.Before s'.position

variable {s s' s'' : Scanner} {tokens tokens' : List Token} {errors errors' : List LexicalError}

-- Where all is read, the end of file alone is left.
theorem left_of_rest_eq_nil (h : s.rest = []) : s.left = ⟨[Token.endOfFile s.position], []⟩ := by
  rw [left, h]
  simp [Lexed.ofChars, segments, Segment.placed]

theorem Passage.refl (s : Scanner) : Passage s [] [] s where
  passed := ⟨[], rfl, rfl⟩
  tokens := ⟨[], 0, rfl, List.forall_mem_nil _, fun h => absurd rfl h, rfl⟩
  errors := ⟨[], (List.append_nil _).symm, rfl, List.forall_mem_nil _⟩

-- Behind the end of a text nothing is passed.
theorem Passage.at_end (h : Passage s tokens errors s') (hend : s.rest = []) :
    s'.rest = [] ∧ s'.position = s.position := by
  obtain ⟨piece, hpiece, hposition⟩ := h.passed
  obtain ⟨rfl, hrest⟩ := List.append_eq_nil_iff.mp (hpiece.symm.trans hend)
  exact ⟨hrest, hposition⟩

/-- At the end of a text the end of file is all that is handed out, and no error is found. -/
theorem Passage.of_rest_eq_nil (h : Passage s tokens errors s') (hend : s.rest = []) :
    (∃ ends, tokens = List.replicate ends (Token.endOfFile s.position)) ∧
      errors ++ s'.errors = s.errors := by
  obtain ⟨hrest, hposition⟩ := h.at_end hend
  obtain ⟨read, ends, rfl, -, -, hleft⟩ := h.tokens
  obtain ⟨found, hfound, herrors, -⟩ := h.errors
  rw [left_of_rest_eq_nil hend] at hleft herrors
  obtain ⟨rfl, -⟩ := List.append_eq_nil_iff.mp herrors.symm
  rw [left_of_rest_eq_nil hrest, hposition] at hleft
  have hread : read = [] := List.append_cancel_right (hleft.symm.trans (List.nil_append _).symm)
  rw [List.append_nil] at hfound
  exact ⟨⟨ends, by rw [hread, hposition, List.nil_append]⟩, hfound⟩

/-- One passage behind another is a passage. -/
theorem Passage.trans (h : Passage s tokens errors s') (h' : Passage s' tokens' errors' s'') :
    Passage s (tokens ++ tokens') (errors ++ errors') s'' := by
  obtain ⟨piece, hpiece, hposition⟩ := h.passed
  obtain ⟨piece', hpiece', hposition'⟩ := h'.passed
  obtain ⟨read, ends, htokens, hread, hends, hleft⟩ := h.tokens
  obtain ⟨found, hfound, herrors, hbefore⟩ := h.errors
  obtain ⟨found', hfound', herrors', hbefore'⟩ := h'.errors
  refine ⟨⟨piece ++ piece', ?_, ?_⟩, ?_, found ++ found', ?_, ?_, ?_⟩
  · rw [hpiece, hpiece', List.append_assoc]
  · rw [hposition', hposition, Position.past_append]
  · by_cases hzero : ends = 0
    · -- No end of file was handed out by the first, so that the second goes on with the tokens.
      obtain ⟨read', ends', htokens', hread', hends', hleft'⟩ := h'.tokens
      refine ⟨read ++ read', ends', ?_, ?_, hends', ?_⟩
      · rw [htokens, htokens', hzero, List.replicate_zero, List.append_nil, List.append_assoc]
      · exact List.forall_mem_append.mpr ⟨hread, hread'⟩
      · rw [hleft, hleft', List.append_assoc]
    · -- All was read before the second, which can only repeat the end of file.
      have hend := hends hzero
      obtain ⟨hend', hstay⟩ := h'.at_end hend
      obtain ⟨⟨ends', htokens'⟩, -⟩ := h'.of_rest_eq_nil hend
      refine ⟨read, ends + ends', ?_, hread, fun _ => hend', ?_⟩
      · rw [htokens, htokens', hstay, List.append_assoc, List.replicate_append_replicate]
      · rw [hleft, left_of_rest_eq_nil hend, left_of_rest_eq_nil hend', hstay]
  · rw [List.append_assoc, hfound', ← List.append_assoc, hfound, List.append_assoc]
  · rw [herrors, herrors', List.append_assoc]
  · refine List.forall_mem_append.mpr ⟨fun e he => ?_, hbefore'⟩
    rw [hposition']
    exact (hbefore e he).past piece'

/-- An end of file is handed out only when all is read, and it is the one at the end. -/
theorem Passage.of_mem_eof (h : Passage s tokens errors s') {t : Token} (ht : t ∈ tokens)
    (hkind : t.kind = .eof) : s'.rest = [] ∧ t = Token.endOfFile s'.position := by
  obtain ⟨read, ends, rfl, hread, hends, -⟩ := h.tokens
  rcases List.mem_append.mp ht with ht | ht
  · exact absurd hkind (hread t ht)
  · obtain ⟨hzero, hrepeat⟩ := List.mem_replicate.mp ht
    exact ⟨hends hzero, hrepeat⟩

-- With an end of file, all tokens that were left were handed out.
theorem Passage.withoutRepeatedEnds_eq (h : Passage s tokens errors s') {t : Token}
    (ht : t ∈ tokens) (hkind : t.kind = .eof) : withoutRepeatedEnds tokens = s.left.tokens := by
  obtain ⟨read, ends, rfl, hread, hends, hleft⟩ := h.tokens
  rcases List.mem_append.mp ht with ht | ht
  · exact absurd hkind (hread t ht)
  · have hzero := (List.mem_replicate.mp ht).1
    rw [withoutRepeatedEnds_append_replicate hread, if_neg hzero, hleft,
      left_of_rest_eq_nil (hends hzero)]

-- The tokens handed out are the first of those that were left.
theorem Passage.withoutRepeatedEnds_prefix (h : Passage s tokens errors s') :
    withoutRepeatedEnds tokens <+: s.left.tokens := by
  obtain ⟨read, ends, rfl, hread, hends, hleft⟩ := h.tokens
  rw [withoutRepeatedEnds_append_replicate hread, hleft]
  by_cases hzero : ends = 0
  · rw [if_pos hzero, List.append_nil]
    exact List.prefix_append _ _
  · have hend := congrArg Lexed.tokens (left_of_rest_eq_nil (hends hzero))
    exact ⟨[], by rw [if_neg hzero, List.append_nil, hend]⟩

/-! ## One call -/

-- The first segment of what is left is passed.
theorem passage_behind {c : Char} {rest : List Char} (hrest : s.rest = c :: rest) :
    Passage s ((Segment.first c rest).1.token? s.position).toList []
      (s.behind (Segment.first c rest).1 (Segment.first c rest).2) where
  passed := ⟨(Segment.first c rest).1.text, hrest.trans (Segment.first_text c rest).symm, rfl⟩
  tokens := by
    refine ⟨((Segment.first c rest).1.token? s.position).toList, 0, ?_, fun t ht => ?_,
      fun h => absurd rfl h, ?_⟩
    · rw [List.replicate_zero, List.append_nil]
    · exact Segment.kind_ne_eof_of_token? (Option.mem_toList.mp ht)
    · rw [left, hrest]
      exact Lexed.tokens_ofChars_cons s.position c rest
  errors := by
    refine ⟨((Segment.first c rest).1.error? s.position).toList, rfl, ?_, fun e he => ?_⟩
    · rw [left, hrest]
      exact Lexed.errors_ofChars_cons s.position c rest
    · obtain ⟨fault, -, rfl⟩ := Option.map_eq_some_iff.mp (Option.mem_toList.mp he)
      exact Position.before_past _ (Segment.first_text_ne_nil c rest)

theorem passage_scan (s : Scanner) : Passage s [s.scan.1] [] s.scan.2 := by
  fun_induction scan s with
  | case1 s hrest =>
    refine ⟨⟨[], rfl, rfl⟩, ⟨[], 1, rfl, List.forall_mem_nil _, fun _ => hrest, rfl⟩, [], ?_, rfl,
      List.forall_mem_nil _⟩
    rw [List.nil_append, List.append_nil]
  | case2 s c rest hrest piece t ht =>
    have hpassage := passage_behind hrest
    rw [show (Segment.first c rest).1.token? s.position = some t from ht] at hpassage
    exact hpassage
  | case3 s c rest hrest piece hnone ih =>
    have hpassage := passage_behind hrest
    rw [show (Segment.first c rest).1.token? s.position = none from hnone] at hpassage
    exact hpassage.trans ih

-- Whether the end of file was handed out plays no part in what a passage is.
theorem Passage.finish (h : Passage s tokens errors s') (finished : Bool) :
    Passage s tokens errors { s' with finished := finished } := ⟨h.passed, h.tokens, h.errors⟩

theorem passage_next? (s : Scanner) : Passage s s.next?.1.toList [] s.next?.2 := by
  unfold next?
  by_cases hfinished : s.finished = true
  · rw [if_pos hfinished]
    exact .refl s
  · rw [if_neg hfinished]
    by_cases hkind : s.scan.1.kind = .eof
    · simp only [if_pos hkind]
      exact (passage_scan s).finish true
    · simp only [if_neg hkind]
      exact passage_scan s

theorem passage_drain (s : Scanner) : Passage s s.drain.1 [] s.drain.2 := by
  unfold drain
  by_cases hfinished : s.finished = true
  · rw [if_pos hfinished]
    exact .refl s
  · rw [if_neg hfinished]
    obtain ⟨read, hread, hkinds⟩ := Lexed.exists_tokens_ofChars_eq s.position s.rest
    refine ⟨⟨s.rest, (List.append_nil _).symm, rfl⟩,
      ⟨read, 1, hread, hkinds, fun _ => rfl, ?_⟩, (Lexed.ofChars s.position s.rest).errors, rfl, ?_,
      fun e he => (Lexed.before_of_mem_errors s.position s.rest e he).2⟩
    · rw [left, hread, left_of_rest_eq_nil rfl]
    · rw [left, left_of_rest_eq_nil rfl, List.append_nil]

/-- A call passes a piece of the text and hands out what it holds. -/
theorem passage_answer (s : Scanner) (call : Call) :
    Passage s (s.answer call).1.tokens (s.answer call).1.errors (s.answer call).2 := by
  cases call with
  | scan => exact passage_scan s
  | next => exact passage_next? s
  | drain => exact passage_drain s
  | errors => exact .refl s
  | flushErrors =>
    exact ⟨⟨[], rfl, rfl⟩, ⟨[], 0, rfl, List.forall_mem_nil _, fun h => absurd rfl h, rfl⟩, [], rfl,
      rfl, List.forall_mem_nil _⟩

/-! ## Any calls -/

/-- Any calls, one after the other, pass a piece of the text and hand out what it holds. -/
theorem passage_run (s : Scanner) (calls : List Call) :
    Passage s ((s.run calls).1.flatMap Answer.tokens) ((s.run calls).1.flatMap Answer.errors)
      (s.run calls).2 := by
  induction calls generalizing s with
  | nil => exact .refl s
  | cons call calls ih => exact (passage_answer s call).trans (ih (s.answer call).2)

-- A scanner that has handed out the end of file for good stays so.
theorem finished_answer (h : s.finished = true) (call : Call) :
    (s.answer call).2.finished = true := by
  have hscan : ∀ s : Scanner, s.scan.2.finished = s.finished := by
    intro s
    fun_induction scan s with
    | case1 | case2 => rfl
    | case3 s c rest _ piece _ ih => exact ih
  cases call with
  | scan => exact (hscan s).trans h
  | next =>
    show s.next?.2.finished = true
    rw [next?, if_pos h]
    exact h
  | drain =>
    show s.drain.2.finished = true
    rw [drain, if_pos h]
    exact h
  | errors | flushErrors => exact h

-- It has nothing more for those who want the end of file once.
theorem next_eq_none_of_finished (h : s.finished = true) (calls : List Call) :
    ∀ t?, .next t? ∈ (s.run calls).1 → t? = none := by
  induction calls generalizing s with
  | nil => exact fun _ hmem => absurd hmem List.not_mem_nil
  | cons call calls ih =>
    intro t? hmem
    rcases List.mem_cons.mp hmem with hfirst | hmem
    · cases call with
      | next =>
        have hnext : s.next?.1 = none := by rw [next?, if_pos h]
        exact (Answer.next.inj hfirst).trans hnext
      | scan | drain | errors | flushErrors => cases hfirst
    · exact ih (finished_answer h call) t? hmem

theorem finished_run (h : s.finished = true) (calls : List Call) :
    (s.run calls).2.finished = true := by
  induction calls generalizing s with
  | nil => exact h
  | cons call calls ih => exact ih (finished_answer h call)

-- Handing out the end of file for good is remembered.
theorem finished_of_next_eof {calls : List Call} {t : Token} (ht : t.kind = .eof)
    (h : .next (some t) ∈ (s.run calls).1) : (s.run calls).2.finished = true := by
  induction calls generalizing s with
  | nil => exact absurd h List.not_mem_nil
  | cons call calls ih =>
    rcases List.mem_cons.mp h with hfirst | h
    · refine finished_run ?_ calls
      cases call with
      | next =>
        have hnext : some t = s.next?.1 := Answer.next.inj hfirst
        show s.next?.2.finished = true
        unfold next? at hnext ⊢
        by_cases hfinished : s.finished = true
        · rw [if_pos hfinished]
          exact hfinished
        · rw [if_neg hfinished] at hnext ⊢
          have hscan : s.scan.1.kind = .eof := by rw [← Option.some.inj hnext, ht]
          simp only [if_pos hscan]
      | scan | drain | errors | flushErrors => cases hfirst
    · exact ih h

/-- Whatever mix of calls a text is read with: the tokens handed out are the first ones of the text,
and all of them once the end of file is among them, which counts once; the errors handed out and
those at hand are the errors in the text that was passed. Behind an end of file no call finds an
error or hands out another token, and the end of file that is handed out for good is the last. -/
theorem run_agrees_with_tokenize (source : String) (calls : List Call) :
    let s := ((ofText source).run calls).2
    let tokens := ((ofText source).run calls).1.flatMap Answer.tokens
    let errors := ((ofText source).run calls).1.flatMap Answer.errors ++ s.errors
    (∃ scanned, source.toList = scanned ++ s.rest ∧ s.position = Position.endOf scanned) ∧
      withoutRepeatedEnds tokens <+: (tokenize source).tokens ∧
      ((∃ t ∈ tokens, t.kind = .eof) → withoutRepeatedEnds tokens = (tokenize source).tokens) ∧
      (∃ later, (tokenize source).errors = errors ++ later ∧
        (∀ e ∈ errors, e.position.Before s.position) ∧
        ∀ e ∈ later, ¬ e.position.Before s.position) ∧
      (∀ t ∈ tokens, t.kind = .eof → ∀ more : List Call,
        (∀ u ∈ (s.run more).1.flatMap Answer.tokens, u = t) ∧
          (s.run more).1.flatMap Answer.errors ++ (s.run more).2.errors = s.errors) ∧
      ∀ t, t.kind = .eof → .next (some t) ∈ ((ofText source).run calls).1 → ∀ more t?,
        .next t? ∈ (s.run more).1 → t? = none := by
  intro s tokens errors
  have hpassage := passage_run (ofText source) calls
  obtain ⟨scanned, htext, hposition⟩ := hpassage.passed
  obtain ⟨found, hfound, herrors, hbefore⟩ := hpassage.errors
  replace hfound : errors = found := hfound.trans (List.nil_append found)
  refine ⟨⟨scanned, htext, hposition.trans (Position.past_start scanned)⟩,
    hpassage.withoutRepeatedEnds_prefix, ?_, ?_, ?_, ?_⟩
  · rintro ⟨t, ht, hkind⟩
    exact hpassage.withoutRepeatedEnds_eq ht hkind
  · rw [hfound]
    exact ⟨s.left.errors, herrors, hbefore,
      fun e he => (Lexed.before_of_mem_errors s.position s.rest e he).1⟩
  · intro t ht hkind more
    obtain ⟨hend, rfl⟩ := hpassage.of_mem_eof ht hkind
    obtain ⟨⟨n, hmore⟩, hkept⟩ := (passage_run s more).of_rest_eq_nil hend
    refine ⟨fun u hu => ?_, hkept⟩
    rw [hmore] at hu
    exact List.eq_of_mem_replicate hu
  · intro t hkind hmem more t? hmore
    exact next_eq_none_of_finished (finished_of_next_eof hkind hmem) more t? hmore

-- A stray character, and a comment that is not closed.
def strayAndOpenSource : String := "| /*"

-- The stray character and its error are taken before the comment is reached.
def strayAndOpenCalls : List Call := [.scan, .flushErrors, .next]

/-- A text read by single calls: the first error was taken and the second is at hand, and behind the
end of file only repeats of it come. -/
theorem run_agrees_of_strayAndOpen :
    ((ofText strayAndOpenSource).run strayAndOpenCalls).1 =
        [.token ⟨.identifier, "|", ⟨1, 1⟩⟩, .flushed [⟨.undoubledCharacter '|', ⟨1, 1⟩⟩],
          .next (some ⟨.eof, "", ⟨1, 5⟩⟩)] ∧
      (tokenize strayAndOpenSource).tokens =
        [⟨.identifier, "|", ⟨1, 1⟩⟩, ⟨.eof, "", ⟨1, 5⟩⟩] ∧
      (∀ more u, u ∈ (((ofText strayAndOpenSource).run strayAndOpenCalls).2.run more).1.flatMap
        Answer.tokens → u = ⟨.eof, "", ⟨1, 5⟩⟩) ∧
      ∀ more t?, .next t? ∈ (((ofText strayAndOpenSource).run strayAndOpenCalls).2.run more).1 →
        t? = none := by
  have hanswers : ((ofText strayAndOpenSource).run strayAndOpenCalls).1 =
      [.token ⟨.identifier, "|", ⟨1, 1⟩⟩, .flushed [⟨.undoubledCharacter '|', ⟨1, 1⟩⟩],
        .next (some ⟨.eof, "", ⟨1, 5⟩⟩)] := by decide +kernel
  have htokens : ((ofText strayAndOpenSource).run strayAndOpenCalls).1.flatMap Answer.tokens =
      [⟨.identifier, "|", ⟨1, 1⟩⟩, ⟨.eof, "", ⟨1, 5⟩⟩] := by
    rw [hanswers]
    rfl
  have hend : (⟨.eof, "", ⟨1, 5⟩⟩ : Token) ∈ ((ofText strayAndOpenSource).run
      strayAndOpenCalls).1.flatMap Answer.tokens := by
    rw [htokens]
    exact List.mem_cons_of_mem _ List.mem_cons_self
  obtain ⟨-, -, hall, -, hbehind, hlast⟩ :=
    run_agrees_with_tokenize strayAndOpenSource strayAndOpenCalls
  refine ⟨hanswers, ?_, fun more => (hbehind _ hend rfl more).1, hlast ⟨.eof, "", ⟨1, 5⟩⟩ rfl ?_⟩
  · rw [← hall ⟨_, hend, rfl⟩, htokens]
    rfl
  · rw [hanswers]
    exact List.mem_cons_of_mem _ (List.mem_cons_of_mem _ List.mem_cons_self)

end Scanner

end MiniJava
