import MiniJava.Proofs.Tiling.Source

/-!
# Cutting texts — what a gap or a lexeme in front adds

Lexing a text that begins with a gap is lexing what is behind the gap (`Lexed.ofChars_gap`). If it
begins with a lexeme that is the longest there, the lexeme is the first token, what is wrong with it
is the first error, and lexing goes on behind it (`Lexed.ofChars_lexeme`). What is wrong with a
lexeme is told by its kind and its characters alone (`lexicalFault?`).

A lexeme holds no blank, so that in front of one it is always the longest (`IsLexeme.longest`).
-/

namespace MiniJava

/-- What is wrong with a token of this kind and these characters. -/
def lexicalFault? : TokenKind → List Char → Option LexicalFault
  | .identifier, c :: cs =>
    if Text.isAlphabetic c then
      if Segment.isLegalName (c :: cs) then none
      else some (.malformedIdentifier (String.ofList (c :: cs)))
    else if c = '|' ∨ c = '&' then some (.undoubledCharacter c)
    else some (.strayCharacter c)
  | _, _ => none

theorem lexicalFault?_of_ne {kind : TokenKind} (h : kind ≠ .identifier) (text : List Char) :
    lexicalFault? kind text = none := by
  unfold lexicalFault?
  split
  · exact absurd rfl h
  · rfl

/-! ## Words -/

-- No reserved word is a name, and all of them are spelled like one.
theorem TokenKind.of_ofWord? {word : String} {kind : TokenKind} (h : ofWord? word = some kind) :
    kind ≠ .identifier ∧ Segment.isLegalName word.toList = true := by
  have htable : ∀ entry ∈ reservedWords,
      entry.2 ≠ .identifier ∧ Segment.isLegalName entry.1.toList = true := by
    decide +kernel
  exact htable _ (mem_reservedWords_of_ofWord? h)

-- What is wrong with a word is that it is neither reserved nor a name.
theorem Segment.fault?_word {c : Char} {cs : List Char} (hc : Text.isAlphabetic c = true) :
    (⟨.word, c :: cs⟩ : Segment).fault? =
      lexicalFault? ((TokenKind.ofWord? (String.ofList (c :: cs))).getD .identifier) (c :: cs) := by
  cases hword : TokenKind.ofWord? (String.ofList (c :: cs)) with
  | some kind =>
    rw [Option.getD_some, lexicalFault?_of_ne (TokenKind.of_ofWord? hword).1]
    simp only [fault?, hword, Option.isSome_some, Bool.true_or, if_true]
  | none =>
    rw [Option.getD_none, lexicalFault?, if_pos hc]
    simp only [fault?, hword, Option.isSome_none, Bool.false_or]

/-! ## The first segment -/

namespace Segment

/-- The first segment of a text is this lexeme, and `rest` is behind it. -/
def Cuts (kind : TokenKind) (c : Char) (cs rest : List Char) : Prop :=
  ∃ s : Segment, first c (cs ++ rest) = (s, rest) ∧ s.text = c :: cs ∧ s.tokenKind? = some kind ∧
    s.fault? = lexicalFault? kind (c :: cs)

variable {c : Char} {cs rest : List Char} {kind : TokenKind}

-- A run that ends where no character of its class comes next.
theorem cuts_run {p : Char → Bool} {segmentKind : SegmentKind}
    (hfirst : first c (cs ++ rest) = run segmentKind p c (cs ++ rest)) (hcs : ∀ d ∈ cs, p d = true)
    (hkind : (⟨segmentKind, c :: cs⟩ : Segment).tokenKind? = some kind)
    (hfault : (⟨segmentKind, c :: cs⟩ : Segment).fault? = lexicalFault? kind (c :: cs))
    (hlongest : Longest kind (c :: cs) rest)
    (hmore : ∀ d, p d = true → ∃ kind', IsLexeme kind' (c :: (cs ++ [d]))) :
    Cuts kind c cs rest := by
  have hstop : ∀ d ∈ rest.head?, p d = false := by
    intro d hd
    by_contra hp
    -- With one more character it would be longer.
    obtain ⟨kind', hlexeme⟩ := hmore d (eq_true_of_ne_false hp)
    obtain ⟨rest', rfl⟩ := List.head?_eq_some_iff.mp hd
    have hprefix : c :: (cs ++ [d]) <+: c :: cs ++ d :: rest' := ⟨rest', by simp⟩
    have hle := hlongest.longest kind' _ hprefix hlexeme
    simp only [List.length_cons, List.length_append, List.length_nil] at hle
    omega
  exact ⟨_, hfirst.trans (run_append segmentKind c hcs hstop), rfl, hkind, hfault⟩

-- A character that stands alone although it could stand twice.
theorem cuts_single {twice once : SegmentKind} {kindTwice : TokenKind}
    (hfirst : first c rest = single twice once c rest)
    (hkind : (⟨once, [c]⟩ : Segment).tokenKind? = some kind)
    (hfault : (⟨once, [c]⟩ : Segment).fault? = lexicalFault? kind [c])
    (hlongest : Longest kind [c] rest) (htwice : IsLexeme kindTwice [c, c]) :
    Cuts kind c [] rest := by
  have hsingle : single twice once c rest = (⟨once, [c]⟩, rest) := by
    cases rest with
    | nil => rfl
    | cons d rest =>
      refine if_neg fun hd => ?_
      subst hd
      -- Both together would be longer.
      have hle := hlongest.longest kindTwice [d, d] ⟨rest, rfl⟩ htwice
      simp at hle
  exact ⟨_, hfirst.trans hsingle, rfl, hkind, hfault⟩

-- A character that stands twice.
theorem cuts_double {twice : SegmentKind} (once : SegmentKind)
    (hfirst : first c (c :: rest) = single twice once c (c :: rest))
    (hkind : (⟨twice, [c, c]⟩ : Segment).tokenKind? = some kind)
    (hfault : (⟨twice, [c, c]⟩ : Segment).fault? = lexicalFault? kind [c, c]) :
    Cuts kind c [c] rest := by
  have hdouble : single twice once c (c :: rest) = (⟨twice, [c, c]⟩, rest) := if_pos rfl
  exact ⟨_, hfirst.trans hdouble, rfl, hkind, hfault⟩

-- A slash that begins no comment.
theorem cuts_slash (hcomment : ¬ OpensComment ('/' :: rest)) : Cuts .div '/' [] rest := by
  have hslash : slash rest = (⟨.mark .div, ['/']⟩, rest) := by
    unfold slash
    split
    · exact absurd (.inl ⟨_, rfl⟩) hcomment
    · exact absurd (.inr ⟨_, rfl⟩) hcomment
    · rfl
  have hfirst : first '/' rest = slash rest := first_of_other rfl rfl (by decide) rfl rfl rest
  exact ⟨_, hfirst.trans hslash, rfl, rfl, rfl⟩

-- A character that no token begins with, or one that has to stand twice.
theorem cuts_stray (hgap : isGapChar c = false) (hletter : Text.isAlphabetic c = false)
    (hdigit : c.isDigit = false) (hmark : TokenKind.ofMark? c = none) (hother : c ∉ ['/', '='])
    (hlongest : Longest .identifier [c] rest) : Cuts .identifier c [] rest := by
  obtain ⟨hslash, hassign⟩ : c ≠ '/' ∧ c ≠ '=' := by simpa using hother
  have hfirst : first c rest =
      if c = '|' then single (.mark .or) .stray c rest
      else if c = '&' then single (.mark .and) .stray c rest
      else (⟨.stray, [c]⟩, rest) := by
    simp [first, hgap, hmark, hletter, hdigit, hslash, hassign]
  have hfault : (⟨.stray, [c]⟩ : Segment).fault? = lexicalFault? .identifier [c] := by
    rw [lexicalFault?, hletter, if_neg Bool.false_ne_true]
    simp only [fault?, List.head?_cons, Option.map_some]
    split <;> rfl
  by_cases hor : c = '|'
  · rw [if_pos hor] at hfirst
    subst hor
    exact cuts_single hfirst rfl hfault hlongest .or
  rw [if_neg hor] at hfirst
  by_cases hand : c = '&'
  · rw [if_pos hand] at hfirst
    subst hand
    exact cuts_single hfirst rfl hfault hlongest .and
  rw [if_neg hand] at hfirst
  exact ⟨_, hfirst, rfl, rfl, hfault⟩

end Segment

-- No mark is a name.
theorem TokenKind.ne_identifier_of_ofMark? {c : Char} {kind : TokenKind}
    (h : ofMark? c = some kind) : kind ≠ .identifier := by
  rintro rfl
  unfold ofMark? at h
  split at h <;> cases h

/-- A longest lexeme is the first segment. -/
theorem Longest.cuts {kind : TokenKind} {c : Char} {cs rest : List Char}
    (h : Longest kind (c :: cs) rest) : Segment.Cuts kind c cs rest := by
  cases h.isLexeme with
  | word hc hcs =>
    refine Segment.cuts_run (Segment.first_of_letter hc _) hcs rfl (Segment.fault?_word hc) h
      fun d hd => ⟨_, .word hc ?_⟩
    exact List.forall_mem_append.mpr ⟨hcs, List.forall_mem_singleton.mpr hd⟩
  | digits hc hcs =>
    refine Segment.cuts_run (Segment.first_of_digit hc _) hcs rfl rfl h fun d hd =>
      ⟨_, .digits hc ?_⟩
    exact List.forall_mem_append.mpr ⟨hcs, List.forall_mem_singleton.mpr hd⟩
  | mark hc =>
    refine ⟨_, Segment.first_of_mark hc rest, rfl, rfl, ?_⟩
    exact (lexicalFault?_of_ne (TokenKind.ne_identifier_of_ofMark? hc) _).symm
  | slash => exact Segment.cuts_slash h.not_comment
  | assign =>
    exact Segment.cuts_single (Segment.first_of_other rfl rfl (by decide) rfl rfl rest) rfl rfl h .eq
  | eq =>
    exact Segment.cuts_double (.mark .assign)
      (Segment.first_of_other rfl rfl (by decide) rfl rfl _) rfl rfl
  | or =>
    exact Segment.cuts_double .stray
      (Segment.first_of_other rfl rfl (by decide) rfl rfl _) rfl rfl
  | and =>
    exact Segment.cuts_double .stray
      (Segment.first_of_other rfl rfl (by decide) rfl rfl _) rfl rfl
  | stray hgap hletter hdigit hmark hother =>
    exact Segment.cuts_stray hgap hletter hdigit hmark hother h

/-! ## What is in front of a text -/

namespace Lexed

variable (p : Position) (c : Char) (rest : List Char)

-- The first segment gives its token, and lexing goes on behind it.
theorem tokens_ofChars_cons :
    (ofChars p (c :: rest)).tokens = ((Segment.first c rest).1.token? p).toList ++
      (ofChars (p.past (Segment.first c rest).1.text) (Segment.first c rest).2).tokens := by
  have hpast : p.past (c :: rest) =
      (p.past (Segment.first c rest).1.text).past (Segment.first c rest).2 := by
    rw [← Position.past_append, Segment.first_text]
  simp only [ofChars, segments, Segment.placed, List.filterMap_cons, hpast]
  cases (Segment.first c rest).1.token? p <;> rfl

theorem errors_ofChars_cons :
    (ofChars p (c :: rest)).errors = ((Segment.first c rest).1.error? p).toList ++
      (ofChars (p.past (Segment.first c rest).1.text) (Segment.first c rest).2).errors := by
  simp only [ofChars, segments, Segment.placed, List.filterMap_cons]
  cases (Segment.first c rest).1.error? p <;> rfl

theorem ofChars_nil : ofChars p [] = ⟨[Token.endOfFile p], []⟩ := by
  unfold ofChars
  rw [segments]
  rfl

variable {c rest}

theorem ofChars_of_first {s : Segment} {behind : List Char}
    (hfirst : Segment.first c rest = (s, behind)) :
    ofChars p (c :: rest) =
      ⟨(s.token? p).toList ++ (ofChars (p.past s.text) behind).tokens,
        (s.error? p).toList ++ (ofChars (p.past s.text) behind).errors⟩ := by
  show Lexed.mk (ofChars p (c :: rest)).tokens (ofChars p (c :: rest)).errors = _
  rw [tokens_ofChars_cons, errors_ofChars_cons, hfirst]

-- A first segment that is no token and has no fault.
theorem ofChars_of_silent {s : Segment} {behind : List Char}
    (hfirst : Segment.first c rest = (s, behind)) (htoken : s.tokenKind? = none)
    (hfault : s.fault? = none) : ofChars p (c :: rest) = ofChars (p.past s.text) behind := by
  rw [ofChars_of_first p hfirst, Segment.token?, htoken, Segment.error?, hfault]
  rfl

end Lexed

-- A comment is closed at its first `*/`.
theorem Segment.cutComment?_of_closed {body : List Char} (h : ¬ ['*', '/'] <:+: body ++ ['*'])
    (behind : List Char) :
    cutComment? (body ++ '*' :: '/' :: behind) = some (body ++ ['*', '/'], behind) := by
  induction body with
  | nil => rfl
  | cons c body ih =>
    have hbody : ¬ ['*', '/'] <:+: body ++ ['*'] := fun hinside =>
      h (hinside.trans (List.suffix_cons c _).isInfix)
    rw [List.cons_append, cutComment?, ih hbody]
    · rfl
    · -- Otherwise it would be closed at its first character.
      rintro rest rfl hrest
      cases body with
      | nil => exact absurd (List.cons.inj hrest).1 (by decide)
      | cons d body =>
        obtain ⟨rfl, -⟩ := List.cons.inj hrest
        exact h ⟨[], body ++ ['*'], rfl⟩

theorem Segment.cutComment?_of_open {s : List Char} (h : ¬ ['*', '/'] <:+: s) :
    cutComment? s = none := by
  cases hcut : cutComment? s with
  | none => rfl
  | some cut =>
    obtain ⟨body, behind⟩ := cut
    obtain ⟨front, rfl, -⟩ := exists_of_cutComment? hcut
    exact absurd ⟨front, behind, cutComment?_text hcut⟩ h

namespace Lexed

/-- A gap in front of a text adds nothing. -/
theorem ofChars_gap {gap behind : List Char} (h : Gap gap behind) (p : Position) :
    ofChars p (gap ++ behind) = ofChars (p.past gap) behind := by
  induction h generalizing p with
  | nil => rfl
  | @blank c gap behind hc h ih =>
    have hfirst : Segment.first c (gap ++ behind) = (⟨.blank, [c]⟩, gap ++ behind) := by
      rw [Segment.first, if_pos (by simpa [Segment.isGapChar, or_assoc] using hc)]
    rw [List.cons_append, ofChars_of_silent p hfirst rfl rfl, ih]
    rfl
  | @lineComment body gap behind hbody hstop h ih =>
    have hfirst : Segment.first '/' ('/' :: (body ++ gap) ++ behind) =
        (⟨.lineComment, '/' :: '/' :: body⟩, gap ++ behind) := by
      have hslash : Segment.first '/' ('/' :: (body ++ gap) ++ behind) =
          Segment.run .lineComment (· != '\n') '/' ('/' :: body ++ (gap ++ behind)) := by
        rw [Segment.first_of_other rfl rfl (by decide) rfl rfl, if_pos rfl, List.cons_append,
          Segment.slash, List.append_assoc]
        rfl
      rw [hslash]
      apply Segment.run_append
      · refine List.forall_mem_cons.mpr ⟨by decide, fun d hd => ?_⟩
        simpa using ne_of_mem_of_not_mem hd hbody
      · intro d hd
        rw [hstop d hd]
        decide
    rw [List.cons_append, ofChars_of_silent p hfirst rfl rfl, ih, ← Position.past_append]
    rfl
  | @blockComment body gap behind hbody h ih =>
    have hfirst : Segment.first '/' ('*' :: (body ++ '*' :: '/' :: gap) ++ behind) =
        (⟨.blockComment, '/' :: '*' :: (body ++ ['*', '/'])⟩, gap ++ behind) := by
      have hcut := Segment.cutComment?_of_closed hbody (gap ++ behind)
      rw [Segment.first_of_other rfl rfl (by decide) rfl rfl, if_pos rfl, List.cons_append,
        List.append_assoc, List.cons_append, List.cons_append, Segment.slash, hcut]
    rw [List.cons_append, ofChars_of_silent p hfirst rfl rfl, ih, ← Position.past_append]
    simp

-- A block comment that is not closed is an error, and the text ends with it.
theorem ofChars_openComment {body : List Char} (h : ¬ ['*', '/'] <:+: body) (p : Position) :
    ofChars p ('/' :: '*' :: body) =
      ⟨[Token.endOfFile (p.past ('/' :: '*' :: body))], [⟨.unterminatedComment, p⟩]⟩ := by
  have hfirst : Segment.first '/' ('*' :: body) = (⟨.openComment, '/' :: '*' :: body⟩, []) := by
    rw [Segment.first_of_other rfl rfl (by decide) rfl rfl, if_pos rfl, Segment.slash,
      Segment.cutComment?_of_open h]
  rw [ofChars_of_first p hfirst, ofChars_nil]
  rfl

/-- A longest lexeme in front of a text is its first token, and its fault the first error. -/
theorem ofChars_lexeme {kind : TokenKind} {text rest : List Char} (h : Longest kind text rest)
    (p : Position) :
    ofChars p (text ++ rest) =
      ⟨⟨kind, String.ofList text, p⟩ :: (ofChars (p.past text) rest).tokens,
        ((lexicalFault? kind text).map (LexicalError.mk · p)).toList ++
          (ofChars (p.past text) rest).errors⟩ := by
  cases text with
  | nil => exact absurd rfl h.isLexeme.ne_nil
  | cons c cs =>
    obtain ⟨s, hfirst, htext, hkind, hfault⟩ := h.cuts
    rw [List.cons_append, ofChars_of_first p hfirst, Segment.token?, hkind, Segment.error?, hfault,
      htext]
    rfl

end Lexed

/-! ## In front of a blank -/

namespace IsLexeme

variable {kind : TokenKind} {text rest : List Char}

-- No lexeme holds a blank.
theorem not_gap (h : IsLexeme kind text) : ∀ c ∈ text, Segment.isGapChar c = false := by
  have hblanks : [' ', '\t', '\n', '\r'].all (!Segment.isWordChar ·) = true := by
    decide +kernel
  have hword (d : Char) (hd : Segment.isWordChar d = true) : Segment.isGapChar d = false := by
    rw [Bool.eq_false_iff]
    intro hgap
    have hblank := List.all_eq_true.mp hblanks d (by simpa [Segment.isGapChar, or_assoc] using hgap)
    rw [hd] at hblank
    cases hblank
  have hletter (d : Char) (hd : Text.isAlphabetic d = true) : Segment.isWordChar d = true := by
    simp [Segment.isWordChar, Text.isAlphanumeric, hd]
  have hdigit (d : Char) (hd : d.isDigit = true) : Segment.isWordChar d = true := by
    simp [Segment.isWordChar, Text.isAlphanumeric, Text.isNumeric, hd]
  cases h with
  | word hc hcs =>
    exact List.forall_mem_cons.mpr ⟨hword _ (hletter _ hc), fun d hd => hword d (hcs d hd)⟩
  | digits hc hcs =>
    refine List.forall_mem_cons.mpr ⟨hword _ (hdigit _ hc), fun d hd => hword d ?_⟩
    exact hdigit d (hcs d hd)
  | mark hc => exact List.forall_mem_singleton.mpr (Segment.isGapChar_of_ofMark? hc)
  | stray hgap => exact List.forall_mem_singleton.mpr hgap
  | slash | assign => exact List.forall_mem_singleton.mpr rfl
  | eq | or | and => exact List.forall_mem_cons.mpr ⟨rfl, List.forall_mem_singleton.mpr rfl⟩

/-- In front of a blank, or at the end, every lexeme is the longest one. -/
theorem longest (h : IsLexeme kind text) (hrest : ∀ c ∈ rest.head?, Segment.isGapChar c = true) :
    Longest kind text rest := by
  refine ⟨h, ?_, fun kind' longer hprefix hlonger => ?_⟩
  · cases text with
    | nil => exact absurd rfl h.ne_nil
    | cons c cs =>
      by_cases hc : c = '/'
      · -- A lexeme that begins with a slash is one, and a comment would have to go on behind it.
        subst hc
        have hcs : cs = [] := (h.of_symbol (by decide +kernel) (by decide)).resolve_right
          fun htwice => absurd htwice.2 (by decide)
        subst hcs
        rintro (⟨more, heq⟩ | ⟨more, heq⟩)
        · obtain rfl : rest = '/' :: more := (List.cons.inj heq).2.symm
          exact absurd (hrest '/' rfl) (by decide)
        · obtain rfl : rest = '*' :: more := (List.cons.inj heq).2.symm
          exact absurd (hrest '*' rfl) (by decide)
      · exact Longest.not_opensComment_cons hc _
  · rcases List.prefix_or_prefix_of_prefix hprefix (List.prefix_append text rest) with
      hshorter | ⟨more, rfl⟩
    · exact hshorter.length_le
    · rw [List.prefix_append_right_inj] at hprefix
      cases more with
      | nil => rw [List.append_nil]
      | cons d more =>
        -- A longer one would hold the blank.
        obtain ⟨more', rfl⟩ := hprefix
        have hgap := hlonger.not_gap d (List.mem_append_right _ List.mem_cons_self)
        rw [hrest d rfl] at hgap
        cases hgap

end IsLexeme

end MiniJava
