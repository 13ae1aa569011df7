import MiniJava.Parse
import MiniJava.Proofs.Printing.Lexemes
import Mathlib.Data.List.TakeWhile

/-!
# Lexing text that is put together

`LexesTo text ls` says that a text consists of tokens with the lexemes `ls` and has no lexical
error. Text is put in front of a text that is known to be lexed: a gap, a mark, or anything that is
spelled as its kind wants it, if a separator follows (`LexesTo.spelled`).
-/

namespace MiniJava

-- The token that a segment is, without its place.
def Segment.lexeme? (s : Segment) : Option Lexeme :=
  s.tokenKind?.map fun kind => ⟨kind, String.ofList s.text⟩

/-- The text consists of tokens with these lexemes, and nothing is wrong with its characters. -/
structure LexesTo (text : List Char) (ls : List Lexeme) : Prop where
  lexemes : (segments text).filterMap (·.lexeme?) = ls
  faultless : ∀ s ∈ segments text, s.fault? = none

/-- The characters that are printed behind names, literals, words and operators. -/
def separators : List Char := [' ', '\n', '(', ')', '[', ']', '.', ',', ';']

/-- A separator comes first, or nothing. -/
def Delimited (text : List Char) : Prop := ∀ c ∈ text.head?, c ∈ separators

theorem delimited_cons {c : Char} (h : c ∈ separators) (text : List Char) :
    Delimited (c :: text) := by
  intro d hd
  rw [List.head?_cons, Option.mem_some_iff] at hd
  exact hd ▸ h

-- A separator continues no word, no number and no mark.
theorem not_continues_of_mem_separators :
    ∀ c ∈ separators, Segment.isWordChar c = false ∧ c.isDigit = false ∧ c ≠ '/' ∧ c ≠ '*' := by
  intro c hc
  have hall : separators.all (fun c => c.toNat < 0x80 ∧ c.isAlpha = false ∧ c.isDigit = false ∧
      c ≠ '_' ∧ c ≠ '/' ∧ c ≠ '*') = true := by
    decide +kernel
  obtain ⟨hlow, hletter, hdigit, hunderscore, hslash, hstar⟩ :=
    of_decide_eq_true (List.all_eq_true.mp hall c hc)
  refine ⟨?_, hdigit, hslash, hstar⟩
  simp [Segment.isWordChar, Text.isAlphanumeric, Text.isAlphabetic_of_ascii hlow,
    Text.isNumeric_of_ascii hlow, hletter, hdigit, hunderscore]

namespace Segment

-- The gaps and the marks that are tokens of their own.
def gapsAndMarks : List Char :=
  [' ', '\t', '\n', '\r', '(', ')', '[', ']', '{', '}', '.', ',', ';', '+', '-', '*', '%', '<', '>',
    '!']

/-- What holds of no gap and no mark tells a character apart from them. -/
theorem not_gap_of_apart {p : Char → Bool} (hp : ∀ d ∈ gapsAndMarks, p d = false) {c : Char}
    (h : p c = true) : isGapChar c = false ∧ TokenKind.ofMark? c = none := by
  have hne (d : Char) (hd : d ∈ gapsAndMarks) : c ≠ d := by
    rintro rfl
    rw [hp c hd] at h
    cases h
  constructor
  · simp [isGapChar, hne ' ' (by decide), hne '\t' (by decide), hne '\n' (by decide),
      hne '\r' (by decide)]
  · unfold TokenKind.ofMark?
    split <;> first | rfl | exact absurd rfl (hne _ (by decide))

-- No gap and no mark is a letter or a digit.
theorem isAlphabetic_and_isDigit_of_mem_gapsAndMarks :
    ∀ c ∈ gapsAndMarks, Text.isAlphabetic c = false ∧ c.isDigit = false := by
  intro c hc
  have hall : gapsAndMarks.all (fun c => c.toNat < 0x80 ∧ c.isAlpha = false ∧ c.isDigit = false)
      = true := by
    decide +kernel
  obtain ⟨hlow, hletter, hdigit⟩ := of_decide_eq_true (List.all_eq_true.mp hall c hc)
  exact ⟨(Text.isAlphabetic_of_ascii hlow).trans hletter, hdigit⟩

-- No digit is a letter.
theorem isAlphabetic_of_isDigit {c : Char} (h : c.isDigit = true) :
    Text.isAlphabetic c = false := by
  obtain ⟨-, hhigh⟩ := Char.isDigit_iff_toNat.mp h
  have hnine : '9'.toNat = 57 := rfl
  rw [Text.isAlphabetic_of_ascii (by omega), Bool.eq_false_iff]
  intro hletter
  rcases (Bool.or_eq_true _ _).mp hletter with hupper | hlower
  · have hlow := UInt32.le_iff_toNat_le.mp (of_decide_eq_true hupper).1
    have hA : 'A'.toNat = 65 := rfl
    rw [Char.toNat_val, Char.toNat_val] at hlow
    omega
  · have hlow := UInt32.le_iff_toNat_le.mp
      (of_decide_eq_true ((Bool.and_eq_true _ _).mp hlower).1)
    have ha : 'a'.toNat = 97 := rfl
    rw [Char.toNat_val, Char.toNat_val] at hlow
    omega

-- No mark is a gap.
theorem isGapChar_of_ofMark? {c : Char} {kind : TokenKind} (hc : TokenKind.ofMark? c = some kind) :
    isGapChar c = false := by
  rw [Bool.eq_false_iff]
  intro hgap
  simp only [isGapChar, Bool.or_eq_true, beq_iff_eq] at hgap
  rcases hgap with ((rfl | rfl) | rfl) | rfl <;> cases hc

-- A character that is a token of its own.
theorem first_of_mark {c : Char} {kind : TokenKind} (hc : TokenKind.ofMark? c = some kind)
    (rest : List Char) : first c rest = (⟨.mark kind, [c]⟩, rest) := by
  simp [first, isGapChar_of_ofMark? hc, hc]

-- What begins with a letter is a word.
theorem first_of_letter {c : Char} (hc : Text.isAlphabetic c = true) (rest : List Char) :
    first c rest = run .word isWordChar c rest := by
  obtain ⟨hgap, hmark⟩ := not_gap_of_apart
    (fun d hd => (isAlphabetic_and_isDigit_of_mem_gapsAndMarks d hd).1) hc
  simp [first, hgap, hmark, hc]

-- What begins with a digit is a number.
theorem first_of_digit {c : Char} (hc : c.isDigit = true) (rest : List Char) :
    first c rest = run .digits Char.isDigit c rest := by
  obtain ⟨hgap, hmark⟩ := not_gap_of_apart
    (fun d hd => (isAlphabetic_and_isDigit_of_mem_gapsAndMarks d hd).2) hc
  simp [first, hgap, hmark, hc, isAlphabetic_of_isDigit hc]

-- What begins with an ASCII character that is neither a gap nor a mark, a letter or a digit.
theorem first_of_other {c : Char} (hgap : isGapChar c = false) (hmark : TokenKind.ofMark? c = none)
    (hascii : c.toNat < 0x80) (hletter : c.isAlpha = false) (hdigit : c.isDigit = false)
    (rest : List Char) :
    first c rest =
      if c = '/' then slash rest
      else if c = '=' then single (.mark .eq) (.mark .assign) c rest
      else if c = '|' then single (.mark .or) .stray c rest
      else if c = '&' then single (.mark .and) .stray c rest
      else (⟨.stray, [c]⟩, rest) := by
  have halphabetic : Text.isAlphabetic c = false :=
    (Text.isAlphabetic_of_ascii hascii).trans hletter
  simp [first, hgap, hmark, halphabetic, hdigit]

-- The text of a run is as long as it can be.
theorem run_append (kind : SegmentKind) {p : Char → Bool} (c : Char) {cs rest : List Char}
    (hcs : ∀ d ∈ cs, p d = true) (hrest : ∀ d ∈ rest.head?, p d = false) :
    run kind p c (cs ++ rest) = (⟨kind, c :: cs⟩, rest) := by
  have htake : rest.takeWhile p = [] := by
    cases rest with
    | nil => rfl
    | cons d rest => simp [hrest d rfl]
  have hdrop : rest.dropWhile p = rest := by
    cases rest with
    | nil => rfl
    | cons d rest => simp [hrest d rfl]
  rw [run, List.takeWhile_append_of_pos hcs, List.dropWhile_append_of_pos hcs, htake, hdrop,
    List.append_nil]

end Segment

namespace LexesTo

variable {text rest : List Char} {ls : List Lexeme} {c : Char}

theorem nil : LexesTo [] [] := by
  constructor
  · rw [segments]
    rfl
  · rw [segments]
    exact List.forall_mem_nil _

-- A first segment in front of a text.
theorem first {s : Segment} (hfirst : Segment.first c text = (s, rest)) (hfault : s.fault? = none)
    (h : LexesTo rest ls) : LexesTo (c :: text) (s.lexeme?.toList ++ ls) := by
  have hsegments : segments (c :: text) = s :: segments rest := by rw [segments, hfirst]
  constructor
  · rw [hsegments, List.filterMap_cons, ← h.lexemes]
    cases s.lexeme? <;> rfl
  · rw [hsegments]
    exact List.forall_mem_cons.mpr ⟨hfault, h.faultless⟩

theorem gap (hc : Segment.isGapChar c = true) (h : LexesTo rest ls) : LexesTo (c :: rest) ls :=
  h.first (s := ⟨.blank, [c]⟩) (by rw [Segment.first, if_pos hc]) rfl

theorem spaces (n : Nat) (h : LexesTo rest ls) : LexesTo (List.replicate n ' ' ++ rest) ls := by
  induction n with
  | zero => exact h
  | succ n ih => exact ih.gap rfl

-- A character that is a token of its own.
theorem mark {kind : TokenKind} (hc : TokenKind.ofMark? c = some kind) (h : LexesTo rest ls) :
    LexesTo (c :: rest) (kind.lexeme :: ls) := by
  have hlexeme : kind.lexeme = ⟨kind, String.ofList [c]⟩ := by
    rw [TokenKind.lexeme, TokenKind.spelling?_of_ofMark? hc]
    rfl
  rw [hlexeme]
  exact h.first (Segment.first_of_mark hc rest) rfl

-- A word in front of something that does not continue it.
theorem word {cs : List Char} (hlegal : Segment.isLegalName (c :: cs) = true)
    (hrest : Delimited rest) (h : LexesTo rest ls) :
    LexesTo (c :: cs ++ rest)
      (⟨(TokenKind.ofWord? (String.ofList (c :: cs))).getD .identifier, String.ofList (c :: cs)⟩ ::
        ls) := by
  -- The characters of a legal name are among those that continue a word.
  obtain ⟨hletter, hcs⟩ : Text.isAlphabetic c = true ∧ ∀ d ∈ cs, Segment.isWordChar d = true := by
    simp only [Segment.isLegalName, Bool.and_eq_true, List.all_eq_true] at hlegal
    refine ⟨hlegal.1, fun d hd => ?_⟩
    have hlegalChar := hlegal.2 d hd
    simp only [Bool.or_eq_true, Segment.isWordChar, Text.isAlphanumeric, Text.isNumeric]
      at hlegalChar ⊢
    rcases hlegalChar with (hletter | hdigit) | hunderscore
    · exact .inl (.inl hletter)
    · exact .inl (.inr (.inl hdigit))
    · exact .inr hunderscore
  have hfirst : Segment.first c (cs ++ rest) = (⟨.word, c :: cs⟩, rest) := by
    rw [Segment.first_of_letter hletter]
    exact Segment.run_append .word c hcs
      (fun d hd => (not_continues_of_mem_separators d (hrest d hd)).1)
  apply h.first hfirst
  simp [Segment.fault?, hlegal]

-- A run of digits in front of something that does not continue it.
theorem digits {cs : List Char} (hc : c.isDigit = true) (hcs : ∀ d ∈ cs, d.isDigit = true)
    (hrest : Delimited rest) (h : LexesTo rest ls) :
    LexesTo (c :: cs ++ rest) (⟨.intLiteral, String.ofList (c :: cs)⟩ :: ls) := by
  have hfirst : Segment.first c (cs ++ rest) = (⟨.digits, c :: cs⟩, rest) := by
    rw [Segment.first_of_digit hc]
    exact Segment.run_append .digits c hcs
      (fun d hd => (not_continues_of_mem_separators d (hrest d hd)).2.1)
  exact h.first hfirst rfl

-- A mark of one character that could be the first of two, in front of a separator.
theorem single {twice once : SegmentKind} {kind : TokenKind} (hrest : Delimited rest)
    (hsame : c ∉ separators) (hfirst : Segment.first c rest = Segment.single twice once c rest)
    (hlexeme : (⟨once, [c]⟩ : Segment).lexeme? = some kind.lexeme)
    (hfault : (⟨once, [c]⟩ : Segment).fault? = none) (h : LexesTo rest ls) :
    LexesTo (c :: rest) (kind.lexeme :: ls) := by
  have hsingle : Segment.single twice once c rest = (⟨once, [c]⟩, rest) := by
    cases rest with
    | nil => rfl
    | cons d rest =>
      -- A separator is no second mark.
      have hne : d ≠ c := fun heq => hsame (heq ▸ hrest d rfl)
      exact if_neg hne
  have hresult := h.first (hfirst.trans hsingle) hfault
  rwa [hlexeme] at hresult

theorem double {twice : SegmentKind} (once : SegmentKind) {kind : TokenKind}
    (hfirst : Segment.first c (c :: rest) = Segment.single twice once c (c :: rest))
    (hlexeme : (⟨twice, [c, c]⟩ : Segment).lexeme? = some kind.lexeme)
    (hfault : (⟨twice, [c, c]⟩ : Segment).fault? = none) (h : LexesTo rest ls) :
    LexesTo (c :: c :: rest) (kind.lexeme :: ls) := by
  have hdouble : Segment.single twice once c (c :: rest) = (⟨twice, [c, c]⟩, rest) := if_pos rfl
  have hresult := h.first (hfirst.trans hdouble) hfault
  rwa [hlexeme] at hresult

theorem slash (hrest : Delimited rest) (h : LexesTo rest ls) :
    LexesTo ('/' :: rest) (TokenKind.div.lexeme :: ls) := by
  have hslash : Segment.slash rest = (⟨.mark .div, ['/']⟩, rest) := by
    cases rest with
    | nil => rfl
    | cons d rest =>
      -- A separator begins no comment.
      obtain ⟨-, -, hslash, hstar⟩ := not_continues_of_mem_separators d (hrest d rfl)
      unfold Segment.slash
      split
      · rename_i heq
        exact absurd (List.cons.inj heq).1 hslash
      · rename_i heq
        exact absurd (List.cons.inj heq).1 hstar
      · rfl
  have hfirst : Segment.first '/' rest = Segment.slash rest :=
    Segment.first_of_other rfl rfl (by decide) rfl rfl rest
  exact h.first (hfirst.trans hslash) rfl

-- A reserved word in front of a separator.
theorem reserved {kind : TokenKind} {w : String} (hw : (w, kind) ∈ TokenKind.reservedWords)
    (hrest : Delimited rest) (h : LexesTo rest ls) :
    LexesTo (w.toList ++ rest) (⟨kind, w⟩ :: ls) := by
  have htable : ∀ entry ∈ TokenKind.reservedWords,
      TokenKind.ofWord? entry.1 = some entry.2 ∧ Segment.isLegalName entry.1.toList = true := by
    decide +kernel
  obtain ⟨hkind, hlegal⟩ := htable _ hw
  cases hchars : w.toList with
  | nil =>
    rw [hchars] at hlegal
    cases hlegal
  | cons c cs =>
    rw [hchars] at hlegal
    have hresult := word hlegal hrest h
    rw [← hchars, String.ofList_toList, hkind] at hresult
    rwa [← hchars]

/-- Whatever is spelled as its kind wants it, in front of a separator. -/
theorem spelled {l : Lexeme} (hl : l.Spelled) (hrest : Delimited rest) (h : LexesTo rest ls) :
    LexesTo (l.text.toList ++ rest) (l :: ls) := by
  obtain ⟨kind, w⟩ := l
  cases kind
  case identifier =>
    obtain ⟨hlegal, hword⟩ := hl
    cases hchars : w.toList with
    | nil =>
      rw [hchars] at hlegal
      cases hlegal
    | cons c cs =>
      rw [hchars] at hlegal
      have hresult := word hlegal hrest h
      rw [← hchars, String.ofList_toList, hword] at hresult
      rwa [hchars] at hresult
  case intLiteral =>
    obtain ⟨hne, hdigits⟩ := hl
    cases hchars : w.toList with
    | nil => exact absurd (String.toList_eq_nil_iff.mp hchars) hne
    | cons c cs =>
      rw [hchars] at hdigits
      have hresult := digits (hdigits c (List.mem_cons_self ..))
        (fun d hd => hdigits d (List.mem_cons_of_mem _ hd)) hrest h
      rw [← hchars, String.ofList_toList] at hresult
      rwa [hchars] at hresult
  case boolLiteral =>
    rcases hl with rfl | rfl
    · exact reserved (by simp [TokenKind.reservedWords]) hrest h
    · exact reserved (by simp [TokenKind.reservedWords]) hrest h
  case eof => cases hl
  -- Marks of one character that no other character continues.
  case add | sub | mul | mod | lt | gt | not | lparen | rparen | lbracket | rbracket | lbrace
      | rbrace | comma | semicolon | dot =>
    obtain rfl := Option.some.inj hl
    exact mark rfl h
  -- Marks that could be continued, or are two characters long.
  case div =>
    obtain rfl := Option.some.inj hl
    exact slash hrest h
  case assign =>
    obtain rfl := Option.some.inj hl
    exact single hrest (by decide)
      (Segment.first_of_other rfl rfl (by decide) rfl rfl rest) rfl rfl h
  case eq =>
    obtain rfl := Option.some.inj hl
    exact double (c := '=') (.mark .assign)
      (Segment.first_of_other rfl rfl (by decide) rfl rfl _) rfl rfl h
  case or =>
    obtain rfl := Option.some.inj hl
    exact double (c := '|') .stray
      (Segment.first_of_other rfl rfl (by decide) rfl rfl _) rfl rfl h
  case and =>
    obtain rfl := Option.some.inj hl
    exact double (c := '&') .stray
      (Segment.first_of_other rfl rfl (by decide) rfl rfl _) rfl rfl h
  all_goals
    obtain rfl := Option.some.inj hl
    exact reserved (by simp [TokenKind.reservedWords]) hrest h

end LexesTo

/-! ## What lexing gives -/

-- A text that is the one spelling of its kind.
theorem Lexeme.spelled_of_spelling? {kind : TokenKind} {w : String}
    (h : kind.spelling? = some w) : Lexeme.Spelled ⟨kind, w⟩ := by
  cases kind <;> first | exact h | cases h

-- The kind of a reserved word is told by the table.
theorem TokenKind.mem_reservedWords_of_ofWord? {word : String} {kind : TokenKind}
    (h : ofWord? word = some kind) : (word, kind) ∈ reservedWords := by
  obtain ⟨before, behind, heq, -⟩ := List.lookup_eq_some_iff.mp h
  rw [heq]
  exact List.mem_append_right _ List.mem_cons_self

-- A reserved word is spelled as its kind wants it.
theorem Lexeme.spelled_of_ofWord? {kind : TokenKind} {w : String}
    (h : TokenKind.ofWord? w = some kind) : Lexeme.Spelled ⟨kind, w⟩ := by
  have htable : ∀ entry ∈ TokenKind.reservedWords, Lexeme.Spelled ⟨entry.2, entry.1⟩ := by
    simp [TokenKind.reservedWords, Lexeme.Spelled, TokenKind.spelling?]
  exact htable _ (TokenKind.mem_reservedWords_of_ofWord? h)

namespace Segment

/-- The segment, if nothing is wrong with it and it is a token, is spelled as its kind wants it. -/
def Sound (s : Segment) : Prop := s.fault? = none → ∀ l ∈ s.lexeme?, l.Spelled

theorem sound_of_not_token {s : Segment} (h : s.lexeme? = none) : Sound s := by
  intro _ l hl
  rw [h] at hl
  cases hl

theorem sound_mark {kind : TokenKind} {text : List Char}
    (h : kind.spelling? = some (String.ofList text)) : Sound ⟨.mark kind, text⟩ := by
  rintro - l ⟨⟩
  exact Lexeme.spelled_of_spelling? h

theorem sound_stray (c : Char) : Sound ⟨.stray, [c]⟩ := by
  intro hfault
  cases hfault

theorem sound_word {text : List Char} : Sound ⟨.word, text⟩ := by
  intro hfault l hl
  cases hl
  cases hword : TokenKind.ofWord? (String.ofList text) with
  | some kind => exact Lexeme.spelled_of_ofWord? hword
  | none =>
    simp only [fault?, hword, Option.isSome_none, Bool.false_or] at hfault
    split at hfault
    · rename_i hlegal
      refine ⟨?_, hword⟩
      rwa [String.toList_ofList]
    · cases hfault

theorem sound_digits {c : Char} {text : List Char} (hc : c.isDigit = true)
    (htext : ∀ d ∈ text, d.isDigit = true) : Sound ⟨.digits, c :: text⟩ := by
  rintro - l ⟨⟩
  refine ⟨by simp, ?_⟩
  rw [String.toList_ofList]
  exact List.forall_mem_cons.mpr ⟨hc, htext⟩

theorem sound_slash (rest : List Char) : Sound (slash rest).1 := by
  unfold slash
  split
  · exact sound_of_not_token rfl
  · split
    · exact sound_of_not_token rfl
    · exact sound_of_not_token rfl
  · exact sound_mark rfl

theorem sound_single {twice : TokenKind} {once : SegmentKind} {c : Char} (rest : List Char)
    (htwice : twice.spelling? = some (String.ofList [c, c])) (honce : Sound ⟨once, [c]⟩) :
    Sound (single (.mark twice) once c rest).1 := by
  cases rest with
  | nil => exact honce
  | cons d rest =>
    rw [single]
    split
    · exact sound_mark htwice
    · exact honce

-- The first segment of a text is spelled as its kind wants it.
theorem sound_first (c : Char) (rest : List Char) : Sound (first c rest).1 := by
  unfold first
  split
  · exact sound_of_not_token rfl
  · split
    · rename_i hmark
      exact sound_mark (TokenKind.spelling?_of_ofMark? hmark)
    · split
      · exact sound_word
      · split
        · rename_i hdigit
          exact sound_digits hdigit fun d hd => List.mem_takeWhile_imp hd
        · split
          · exact sound_slash rest
          · split
            · rename_i heq
              exact sound_single rest (heq ▸ rfl) (heq ▸ sound_mark rfl)
            · split
              · rename_i heq
                exact sound_single rest (heq ▸ rfl) (sound_stray c)
              · split
                · rename_i heq
                  exact sound_single rest (heq ▸ rfl) (sound_stray c)
                · exact sound_stray c

-- Segments have no errors at their places if nothing is wrong with them.
theorem errors_placed_eq_nil_iff (p : Position) (ss : List Segment) :
    (placed p ss).filterMap (fun (s, q) => s.error? q) = [] ↔ ∀ s ∈ ss, s.fault? = none := by
  induction ss generalizing p with
  | nil => simp [placed]
  | cons s ss ih =>
    simp only [placed, List.filterMap_cons, List.forall_mem_cons, ← ih (p.past s.text), error?]
    cases s.fault? <;> simp

-- The places of tokens do not change what they are.
theorem lexemes_placed (p : Position) (ss : List Segment) :
    ((placed p ss).filterMap (fun (s, q) => s.token? q)).map (·.lexeme) =
      ss.filterMap (·.lexeme?) := by
  induction ss generalizing p with
  | nil => rfl
  | cons s ss ih =>
    have hlexeme : (s.token? p).map (·.lexeme) = s.lexeme? := by
      rw [Segment.token?, Option.map_map]
      rfl
    simp only [placed, List.filterMap_cons, ← ih (p.past s.text), ← hlexeme]
    cases s.token? p <;> rfl

end Segment

theorem sound_of_mem_segments {text : List Char} {s : Segment} (hs : s ∈ segments text) :
    s.Sound := by
  fun_induction segments text with
  | case1 => cases hs
  | case2 c rest ih =>
    rcases List.mem_cons.mp hs with rfl | hs
    · exact Segment.sound_first c rest
    · exact ih hs

/-- What a text without errors consists of is spelled as it should be. -/
theorem LexesTo.forall_spelled {text : List Char} {ls : List Lexeme} (h : LexesTo text ls) :
    ∀ l ∈ ls, l.Spelled := by
  intro l hl
  rw [← h.lexemes] at hl
  obtain ⟨s, hs, hlexeme⟩ := List.mem_filterMap.mp hl
  exact sound_of_mem_segments hs (h.faultless s hs) l hlexeme

-- The kind of what is spelled is not that of the end of file.
theorem Lexeme.Spelled.kind_ne_eof {l : Lexeme} (h : l.Spelled) : l.kind ≠ .eof := by
  obtain ⟨kind, text⟩ := l
  rintro rfl
  cases h

/-- A text lexes to the tokens that are in front of its end, if it has no errors. -/
theorem lexesTo_iff (source : String) (ls : List Lexeme) :
    LexesTo source.toList ls ↔
      (tokenize source).errors = [] ∧
        (TokenStream.ofTokens (tokenize source).tokens).ahead.map (·.lexeme) = ls := by
  have herrors : (tokenize source).errors = [] ↔ ∀ s ∈ segments source.toList, s.fault? = none :=
    Segment.errors_placed_eq_nil_iff .start _
  rw [herrors]
  -- Without errors no token but the last is an end of file, so that nothing is cut off.
  have hahead (hfaultless : ∀ s ∈ segments source.toList, s.fault? = none) :
      (TokenStream.ofTokens (tokenize source).tokens).ahead.map (·.lexeme) =
        (segments source.toList).filterMap (·.lexeme?) := by
    have hlexes : LexesTo source.toList ((segments source.toList).filterMap (·.lexeme?)) :=
      ⟨rfl, hfaultless⟩
    have hkinds := hlexes.forall_spelled
    rw [← Segment.lexemes_placed .start] at hkinds ⊢
    rw [TokenStream.ofTokens, tokenize, Lexed.ofChars, List.takeWhile_append_of_pos,
      List.takeWhile_cons_of_neg (by simp [Token.endOfFile]), List.append_nil]
    intro t ht
    have hkind : t.kind ≠ .eof := (hkinds _ (List.mem_map_of_mem ht)).kind_ne_eof
    simpa using hkind
  constructor
  · intro h
    exact ⟨h.faultless, (hahead h.faultless).trans h.lexemes⟩
  · rintro ⟨hfaultless, hlexemes⟩
    exact ⟨(hahead hfaultless).symm.trans hlexemes, hfaultless⟩

end MiniJava
