import MiniJava.Proofs.Printing.Lexing

/-!
# Gaps and longest lexemes

What a text consists of, said without the scan that finds it. A gap is made of blank characters and
of comments; a line comment stops in front of a newline or at the end, and a block comment is closed
at its first `*/`. A lexeme is a word, a run of digits, a mark or a single stray character, and
`Longest` asks that no longer lexeme begins at the same place and that no comment does.

The first segment of a text is a piece of a gap, a block comment that nothing closes, or a longest
lexeme (`Segment.reading_first`).
-/

namespace MiniJava

/-! ## Gaps -/

/-- A text without tokens, in front of another text. -/
inductive Gap : List Char → List Char → Prop where
  | nil {behind : List Char} : Gap [] behind
  | blank {c : Char} {gap behind : List Char} (hc : c ∈ [' ', '\t', '\n', '\r'])
      (h : Gap gap behind) : Gap (c :: gap) behind
  | lineComment {body gap behind : List Char} (hbody : '\n' ∉ body)
      (hstop : ∀ c ∈ (gap ++ behind).head?, c = '\n') (h : Gap gap behind) :
      Gap ('/' :: '/' :: (body ++ gap)) behind
  | blockComment {body gap behind : List Char} (hbody : ¬ ['*', '/'] <:+: body ++ ['*'])
      (h : Gap gap behind) : Gap ('/' :: '*' :: (body ++ '*' :: '/' :: gap)) behind

/-- What is left at the end: a gap, perhaps with a block comment behind it that is not closed. -/
def LastGap (text : List Char) : Prop :=
  Gap text [] ∨ ∃ gap body, text = gap ++ '/' :: '*' :: body ∧ Gap gap ('/' :: '*' :: body) ∧
    ¬ ['*', '/'] <:+: body

/-! ## Lexemes -/

/-- The text can be a token of this kind. -/
inductive IsLexeme : TokenKind → List Char → Prop where
  | word {c : Char} {cs : List Char} (hc : Text.isAlphabetic c = true)
      (hcs : ∀ d ∈ cs, Segment.isWordChar d = true) :
      IsLexeme ((TokenKind.ofWord? (String.ofList (c :: cs))).getD .identifier) (c :: cs)
  | digits {c : Char} {cs : List Char} (hc : c.isDigit = true)
      (hcs : ∀ d ∈ cs, d.isDigit = true) : IsLexeme .intLiteral (c :: cs)
  | mark {c : Char} {kind : TokenKind} (hc : TokenKind.ofMark? c = some kind) : IsLexeme kind [c]
  | slash : IsLexeme .div ['/']
  | assign : IsLexeme .assign ['=']
  | eq : IsLexeme .eq ['=', '=']
  | or : IsLexeme .or ['|', '|']
  | and : IsLexeme .and ['&', '&']
  | stray {c : Char} (hgap : Segment.isGapChar c = false) (hletter : Text.isAlphabetic c = false)
      (hdigit : c.isDigit = false) (hmark : TokenKind.ofMark? c = none)
      (hother : c ∉ ['/', '=']) : IsLexeme .identifier [c]

/-- A comment begins the text. -/
def OpensComment (text : List Char) : Prop := ['/', '/'] <+: text ∨ ['/', '*'] <+: text

/-- The text is a token of this kind in front of `rest`: no comment begins with it, and no longer
text from the same place could be a token of any kind. -/
structure Longest (kind : TokenKind) (text rest : List Char) : Prop where
  isLexeme : IsLexeme kind text
  not_comment : ¬ OpensComment (text ++ rest)
  longest : ∀ kind' longer, longer <+: text ++ rest → IsLexeme kind' longer →
    longer.length ≤ text.length

namespace IsLexeme

variable {kind : TokenKind} {c : Char} {cs text : List Char}

theorem ne_nil (h : IsLexeme kind text) : text ≠ [] := by
  cases h <;> exact List.cons_ne_nil _ _

-- No lexeme is an end of file.
theorem kind_ne_eof (h : IsLexeme kind text) : kind ≠ .eof := by
  cases h with
  | @word c cs =>
    have htable : ∀ entry ∈ TokenKind.reservedWords, entry.2 ≠ .eof := by decide
    cases hword : TokenKind.ofWord? (String.ofList (c :: cs)) with
    | none => exact fun heq => nomatch heq
    | some kind =>
      exact htable _ (TokenKind.mem_reservedWords_of_ofWord? hword)
  | mark hc =>
    rintro rfl
    unfold TokenKind.ofMark? at hc
    split at hc <;> cases hc
  | digits | slash | assign | eq | or | and | stray => exact fun heq => nomatch heq

-- What begins with a letter is a word.
theorem of_letter (h : IsLexeme kind (c :: cs)) (hc : Text.isAlphabetic c = true) :
    ∀ d ∈ cs, Segment.isWordChar d = true := by
  have hascii {d : Char} (hd : d.toNat < 0x80) (hletter : d.isAlpha = false) :
      Text.isAlphabetic d ≠ true := by
    rw [Text.isAlphabetic_of_ascii hd, hletter]
    exact Bool.false_ne_true
  cases h with
  | word _ hcs => exact hcs
  | digits hdigit =>
    rw [Segment.isAlphabetic_of_isDigit hdigit] at hc
    exact absurd hc Bool.false_ne_true
  | eq | or | and => exact absurd hc (hascii (by decide) (by decide))
  | mark | slash | assign | stray => exact List.forall_mem_nil _

-- What begins with a digit is a number.
theorem of_digit (h : IsLexeme kind (c :: cs)) (hc : c.isDigit = true) :
    ∀ d ∈ cs, d.isDigit = true := by
  cases h with
  | word hletter =>
    rw [Segment.isAlphabetic_of_isDigit hc] at hletter
    exact absurd hletter Bool.false_ne_true
  | digits _ hcs => exact hcs
  | eq | or | and => exact absurd hc (by decide)
  | mark | slash | assign | stray => exact List.forall_mem_nil _

-- What begins with neither has one character, or it is one of three characters twice.
theorem of_symbol (h : IsLexeme kind (c :: cs)) (hletter : Text.isAlphabetic c = false)
    (hdigit : c.isDigit = false) : cs = [] ∨ (cs = [c] ∧ c ∈ ['=', '|', '&']) := by
  cases h with
  | word hc =>
    rw [hletter] at hc
    exact absurd hc Bool.false_ne_true
  | digits hc =>
    rw [hdigit] at hc
    exact absurd hc Bool.false_ne_true
  | eq | or | and => exact .inr ⟨rfl, by decide⟩
  | mark | slash | assign | stray => exact .inl rfl

end IsLexeme

/-! ## Longest lexemes -/

namespace Longest

variable {kind : TokenKind} {c : Char} {rest : List Char}

theorem not_opensComment_cons (hc : c ≠ '/') (text : List Char) : ¬ OpensComment (c :: text) := by
  rintro (h | h) <;> exact hc (List.cons_prefix_cons.mp h).1.symm

-- A run of characters of one class, where every lexeme from its first character is of that class.
theorem run {p : Char → Bool} (hlexeme : IsLexeme kind (c :: rest.takeWhile p)) (hc : c ≠ '/')
    (hclass : ∀ kind' cs, IsLexeme kind' (c :: cs) → ∀ d ∈ cs, p d = true) :
    Longest kind (c :: rest.takeWhile p) (rest.dropWhile p) := by
  refine ⟨hlexeme, not_opensComment_cons hc _, fun kind' longer hstart hlonger => ?_⟩
  rw [List.cons_append, List.takeWhile_append_dropWhile] at hstart
  cases longer with
  | nil => exact Nat.zero_le _
  | cons d cs =>
    obtain ⟨rfl, r, hr⟩ := List.cons_prefix_cons.mp hstart
    -- All of the longer text is taken.
    rw [← hr, List.takeWhile_append_of_pos (hclass kind' cs hlonger)]
    simp

-- A symbol that stands alone.
theorem symbol (hlexeme : IsLexeme kind [c]) (hletter : Text.isAlphabetic c = false)
    (hdigit : c.isDigit = false) (hcomment : ¬ OpensComment (c :: rest))
    (hnext : c ∈ ['=', '|', '&'] → rest.head? ≠ some c) : Longest kind [c] rest := by
  refine ⟨hlexeme, hcomment, fun kind' longer hstart hlonger => ?_⟩
  cases longer with
  | nil => exact Nat.zero_le _
  | cons d cs =>
    obtain ⟨rfl, r, hr⟩ := List.cons_prefix_cons.mp hstart
    rcases hlonger.of_symbol hletter hdigit with rfl | ⟨rfl, htwice⟩
    · exact Nat.le_refl _
    · -- The second character would have to be the same.
      exact absurd (congrArg List.head? hr).symm (hnext htwice)

-- A symbol that stands twice.
theorem double (hlexeme : IsLexeme kind [c, c]) (hletter : Text.isAlphabetic c = false)
    (hdigit : c.isDigit = false) (hc : c ≠ '/') : Longest kind [c, c] rest := by
  refine ⟨hlexeme, not_opensComment_cons hc _, fun kind' longer hstart hlonger => ?_⟩
  cases longer with
  | nil => exact Nat.zero_le _
  | cons d cs =>
    obtain ⟨rfl, -⟩ := List.cons_prefix_cons.mp hstart
    rcases hlonger.of_symbol hletter hdigit with rfl | ⟨rfl, -⟩ <;> simp

end Longest

/-! ## First segments -/

namespace Segment

/-- What a segment in front of `rest` is. -/
inductive Reading : Segment → List Char → Prop where
  /-- A piece of a gap, in front of more of it. -/
  | gap {s : Segment} {rest : List Char} (hkind : s.tokenKind? = none)
      (hgap : ∀ gap behind, gap ++ behind = rest → Gap gap behind → Gap (s.text ++ gap) behind) :
      Reading s rest
  /-- A comment that is not closed. -/
  | openComment {s : Segment} {body : List Char} (hkind : s.tokenKind? = none)
      (htext : s.text = '/' :: '*' :: body) (hbody : ¬ ['*', '/'] <:+: body) : Reading s []
  /-- A token. -/
  | token {s : Segment} {rest : List Char} {kind : TokenKind} (hkind : s.tokenKind? = some kind)
      (hlongest : Longest kind s.text rest) : Reading s rest

-- A comment is cut behind the first `*/`.
theorem exists_of_cutComment? {s body behind : List Char}
    (h : cutComment? s = some (body, behind)) :
    ∃ front, body = front ++ ['*', '/'] ∧ ¬ ['*', '/'] <:+: front ++ ['*'] := by
  fun_induction cutComment? s generalizing body behind with
  | case1 => cases h
  | case2 rest =>
    cases h
    exact ⟨[], rfl, by decide⟩
  | case3 c rest hopen ih =>
    obtain ⟨⟨body', behind'⟩, hcut, heq⟩ := Option.map_eq_some_iff.mp h
    cases heq
    obtain ⟨front, rfl, hfront⟩ := ih hcut
    refine ⟨c :: front, rfl, fun hinside => ?_⟩
    rcases List.infix_cons_iff.mp hinside with hstart | hinside
    · -- Otherwise the comment would have been cut at its first character.
      obtain ⟨rfl, htail⟩ := List.cons_prefix_cons.mp hstart
      have htext := cutComment?_text hcut
      cases front with
      | nil => exact absurd (List.cons_prefix_cons.mp htail).1 (by decide)
      | cons d front =>
        obtain ⟨rfl, -⟩ := List.cons_prefix_cons.mp htail
        exact hopen _ rfl htext.symm
    · exact hfront hinside

theorem not_infix_of_cutComment? {s : List Char} (h : cutComment? s = none) :
    ¬ ['*', '/'] <:+: s := by
  fun_induction cutComment? s with
  | case1 => decide
  | case2 => cases h
  | case3 c rest hopen ih =>
    intro hinside
    rcases List.infix_cons_iff.mp hinside with hstart | hinside
    · obtain ⟨rfl, r, hr⟩ := List.cons_prefix_cons.mp hstart
      exact hopen r rfl hr.symm
    · exact ih (Option.map_eq_none_iff.mp h) hinside

-- A line comment goes on up to a newline.
theorem reading_lineComment (rest : List Char) :
    Reading (run .lineComment (· != '\n') '/' ('/' :: rest)).1
      (run .lineComment (· != '\n') '/' ('/' :: rest)).2 := by
  rw [run, List.takeWhile_cons, List.dropWhile_cons, if_pos (by decide), if_pos (by decide)]
  refine .gap rfl fun gap behind heq hgap => Gap.lineComment ?_ ?_ hgap
  · intro hmem
    exact absurd (List.mem_takeWhile_imp hmem) (by decide)
  · intro c hc
    have htail : gap ++ behind = rest.dropWhile (· != '\n') := heq
    have hhead := List.head?_dropWhile_not (· != '\n') rest
    rw [← htail, Option.mem_def.mp hc] at hhead
    simpa using hhead

-- A slash begins a comment, or it is a token.
theorem reading_slash (rest : List Char) : Reading (slash rest).1 (slash rest).2 := by
  unfold slash
  split
  · exact reading_lineComment _
  · rename_i rest
    split
    · rename_i hcut
      obtain ⟨front, rfl, hfront⟩ := exists_of_cutComment? hcut
      refine .gap rfl fun gap behind _ hgap => ?_
      have hcomment := Gap.blockComment hfront hgap
      simpa using hcomment
    · rename_i hcut
      exact .openComment rfl rfl (not_infix_of_cutComment? hcut)
  · rename_i hline hblock
    refine .token rfl (.symbol .slash (by decide +kernel) (by decide) ?_ fun h => absurd h (by decide))
    rintro (hstart | hstart)
    · obtain ⟨r, hr⟩ := (List.cons_prefix_cons.mp hstart).2
      exact hline r hr.symm
    · obtain ⟨r, hr⟩ := (List.cons_prefix_cons.mp hstart).2
      exact hblock r hr.symm

-- A character that stands alone or twice.
theorem reading_single {twice once : SegmentKind} {c : Char} (rest : List Char)
    {kindTwice kindOnce : TokenKind} (htwice : (⟨twice, [c, c]⟩ : Segment).tokenKind? = some kindTwice)
    (honce : (⟨once, [c]⟩ : Segment).tokenKind? = some kindOnce)
    (hlexemeTwice : IsLexeme kindTwice [c, c]) (hlexemeOnce : IsLexeme kindOnce [c])
    (hletter : Text.isAlphabetic c = false) (hdigit : c.isDigit = false) (hc : c ≠ '/') :
    Reading (single twice once c rest).1 (single twice once c rest).2 := by
  unfold single
  split
  · rename_i d rest
    by_cases hd : d = c
    · rw [if_pos hd]
      exact .token htwice (.double hlexemeTwice hletter hdigit hc)
    · rw [if_neg hd]
      refine .token honce (.symbol hlexemeOnce hletter hdigit
        (Longest.not_opensComment_cons hc _) fun _ hhead => ?_)
      exact hd (Option.some.inj hhead)
  · exact .token honce (.symbol hlexemeOnce hletter hdigit
      (Longest.not_opensComment_cons hc _) fun _ hhead => nomatch hhead)

-- What holds of no gap and no mark does not hold of a mark.
theorem eq_false_of_mark {p : Char → Bool} (hp : ∀ d ∈ gapsAndMarks, p d = false) {c : Char}
    {kind : TokenKind} (h : TokenKind.ofMark? c = some kind) : p c = false := by
  by_contra hc
  have hnone := (not_gap_of_apart hp (eq_true_of_ne_false hc)).2
  rw [h] at hnone
  cases hnone

-- A mark is a longest lexeme.
theorem longest_mark {c : Char} {kind : TokenKind} (h : TokenKind.ofMark? c = some kind)
    (rest : List Char) : Longest kind [c] rest := by
  have hother : c ∉ ['/', '=', '|', '&'] := by
    intro hc
    have hnone : ['/', '=', '|', '&'].all (TokenKind.ofMark? · == none) = true := by decide
    rw [beq_iff_eq.mp (List.all_eq_true.mp hnone c hc)] at h
    cases h
  have hslash : c ≠ '/' := List.ne_of_not_mem_cons hother
  apply Longest.symbol (.mark h)
  · exact eq_false_of_mark (fun d hd => (isAlphabetic_and_isDigit_of_mem_gapsAndMarks d hd).1) h
  · exact eq_false_of_mark (fun d hd => (isAlphabetic_and_isDigit_of_mem_gapsAndMarks d hd).2) h
  · exact Longest.not_opensComment_cons hslash rest
  · exact fun htwice => absurd (List.mem_cons_of_mem '/' htwice) hother

/-- The first segment of a text is a piece of a gap, an open comment or a longest lexeme. -/
theorem reading_first (c : Char) (rest : List Char) :
    Reading (first c rest).1 (first c rest).2 := by
  unfold first
  by_cases hgap : isGapChar c = true
  · rw [if_pos hgap]
    refine .gap rfl fun gap behind _ h => .blank ?_ h
    simpa [isGapChar, or_assoc] using hgap
  rw [if_neg hgap]
  cases hmark : TokenKind.ofMark? c with
  | some kind => exact .token rfl (longest_mark hmark rest)
  | none =>
    dsimp only
    by_cases hletter : Text.isAlphabetic c = true
    · rw [if_pos hletter]
      have hslash : c ≠ '/' := by
        rintro rfl
        exact absurd hletter (by decide +kernel)
      exact .token rfl (.run (.word hletter fun d hd => List.mem_takeWhile_imp hd) hslash
        fun _ _ h => h.of_letter hletter)
    rw [if_neg hletter]
    by_cases hdigit : c.isDigit = true
    · rw [if_pos hdigit]
      have hslash : c ≠ '/' := by
        rintro rfl
        exact absurd hdigit (by decide)
      exact .token rfl (.run (.digits hdigit fun d hd => List.mem_takeWhile_imp hd) hslash
        fun _ _ h => h.of_digit hdigit)
    rw [if_neg hdigit]
    have hletter := eq_false_of_ne_true hletter
    have hdigit := eq_false_of_ne_true hdigit
    have hgap := eq_false_of_ne_true hgap
    by_cases hslash : c = '/'
    · rw [if_pos hslash]
      exact reading_slash rest
    rw [if_neg hslash]
    by_cases hassign : c = '='
    · subst hassign
      rw [if_pos rfl]
      exact reading_single rest rfl rfl .eq .assign hletter hdigit hslash
    rw [if_neg hassign]
    have hstray : IsLexeme .identifier [c] := .stray hgap hletter hdigit hmark (by simp [*])
    by_cases hor : c = '|'
    · subst hor
      rw [if_pos rfl]
      exact reading_single rest rfl rfl .or hstray hletter hdigit hslash
    rw [if_neg hor]
    by_cases hand : c = '&'
    · subst hand
      rw [if_pos rfl]
      exact reading_single rest rfl rfl .and hstray hletter hdigit hslash
    rw [if_neg hand]
    refine .token rfl (.symbol hstray hletter hdigit (Longest.not_opensComment_cons hslash rest) ?_)
    intro htwice
    simp [hassign, hor, hand] at htwice

end Segment

end MiniJava
