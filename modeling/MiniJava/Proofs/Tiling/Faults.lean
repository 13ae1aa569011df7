import MiniJava.Proofs.Storage.Program
import MiniJava.Proofs.Tiling.Cut
import Mathlib.Data.List.Forall2

/-!
# Faults — the lexical errors that the tokens tell

Apart from a block comment that is not closed, the lexical errors of a text are read off its tokens:
each name that is no legal one is an error, and nothing else is (`LexicalError.IsOf`). Whether a
comment is left open is told by the text behind the last token: it is so exactly if stripping blanks
and closed comments off that text leaves something that opens a block comment (`Stripped`).

A token has the kind of a reserved word exactly if it is spelled like the word, so that the names in
a program that was read are legal ones, and none of them is reserved (`tokenize_errors`).
-/

namespace MiniJava

/-- The error that a token is. -/
def Token.lexicalError? (t : Token) : Option LexicalError :=
  (lexicalFault? t.kind t.text.toList).map (LexicalError.mk · t.position)

/-- The error says what is wrong with the characters of this token, and stands where it stands: it
begins with a letter and goes on as no name does, or it is a single character. -/
def LexicalError.IsOf (t : Token) (e : LexicalError) : Prop :=
  e.position = t.position ∧ ∃ c cs, t.text.toList = c :: cs ∧
    ((Text.isAlphabetic c = true ∧ e.fault.family = .malformedIdentifier) ∨
      (Text.isAlphabetic c = false ∧ e.fault.family = .invalidCharacter ∧ cs = []))

/-- A token that is a name, but not a legal one. -/
def Token.isFaulty (t : Token) : Bool :=
  t.kind == .identifier && !Segment.isLegalName t.text.toList

/-! ## Behind the last token -/

/-- The text is a gap and a rest that does not begin with a piece of a gap. -/
structure Stripped (text gap rest : List Char) : Prop where
  split : text = gap ++ rest
  gap : Gap gap rest
  bare : ∀ piece more, rest = piece ++ more → Gap piece more → piece = []

-- A block comment that is not closed is no gap.
theorem eq_nil_of_gap_of_open {body piece more : List Char} (hbody : ¬ ['*', '/'] <:+: body)
    (heq : '/' :: '*' :: body = piece ++ more) (h : Gap piece more) : piece = [] := by
  cases h with
  | nil => rfl
  | blank hc =>
    obtain ⟨rfl, -⟩ := List.cons.inj heq
    exact absurd hc (by decide)
  | lineComment =>
    obtain ⟨hstar, -⟩ := List.cons.inj (List.cons.inj heq).2
    exact absurd hstar (by decide)
  | @blockComment front gap _ hclosed h =>
    have htext : body = front ++ '*' :: '/' :: gap ++ more :=
      (List.cons.inj (List.cons.inj heq).2).2
    exact absurd ⟨front, gap ++ more, by rw [htext]; simp⟩ hbody

-- What is left at the end of a text can be stripped.
theorem exists_stripped {tail : List Char} (h : LastGap tail) : ∃ gap rest, Stripped tail gap rest := by
  rcases h with hgap | ⟨gap, body, htail, hgap, hbody⟩
  · refine ⟨tail, [], (List.append_nil tail).symm, hgap, fun piece more heq _ => ?_⟩
    exact (List.append_eq_nil_iff.mp heq.symm).1
  · exact ⟨gap, '/' :: '*' :: body, htail, hgap, fun piece more => eq_nil_of_gap_of_open hbody⟩

-- There is no token in it.
theorem LastGap.tokens {tail : List Char} (h : LastGap tail) (p : Position) :
    (Lexed.ofChars p tail).tokens = [Token.endOfFile (p.past tail)] := by
  rcases h with hgap | ⟨gap, body, rfl, hgap, hbody⟩
  · have hlex := Lexed.ofChars_gap hgap p
    rw [List.append_nil, Lexed.ofChars_nil] at hlex
    rw [hlex]
  · rw [Lexed.ofChars_gap hgap, Lexed.ofChars_openComment hbody, Position.past_append]

/-- Where there are no more tokens, what is left when all is stripped is nothing or an open comment,
which is the only error. -/
theorem Stripped.errors {tail gap rest : List Char} (h : Stripped tail gap rest)
    (hlast : LastGap tail) (p : Position) :
    (Lexed.ofChars p tail).errors =
      if ['/', '*'] <+: rest then [⟨.unterminatedComment, p.past gap⟩] else [] := by
  have htokens := hlast.tokens p
  rw [h.split, Lexed.ofChars_gap h.gap] at htokens ⊢
  cases rest with
  | nil =>
    rw [Lexed.ofChars_nil, if_neg (by decide)]
  | cons c rest =>
    have hreading := Segment.reading_first c rest
    have htext := Segment.first_text c rest
    have hne := Segment.first_text_ne_nil c rest
    generalize hfirst : Segment.first c rest = piece at hreading htext hne
    obtain ⟨s, behind⟩ := piece
    cases hreading with
    | gap _ hgap =>
      have hpiece := hgap [] behind rfl .nil
      rw [List.append_nil] at hpiece
      exact absurd (h.bare s.text behind htext.symm hpiece) hne
    | @openComment body _ hopen hbody =>
      dsimp only at htext
      rw [hopen, List.append_nil] at htext
      rw [← htext, Lexed.ofChars_openComment hbody, if_pos ⟨body, rfl⟩]
    | @token _ kind hkind _ =>
      -- A token would be one more than the end of file.
      rw [Lexed.ofChars_of_first _ hfirst, Segment.token?, hkind] at htokens
      have hlength := congrArg List.length htokens
      simp [Lexed.ofChars] at hlength

/-! ## Tokens and their errors -/

/-- The text up to the end of the last of these tokens. -/
def UpToLast (front : List Char) (tokens : List Token) (read : List Char) : Prop :=
  match tokens.getLast? with
  | none => read = []
  | some t => ∃ before, read = before ++ t.text.toList ∧
      t.position = Position.endOf (front ++ before)

-- One token more in front.
theorem UpToLast.cons {front read : List Char} {tokens : List Token} (t : Token) (gap : List Char)
    (hplace : t.position = Position.endOf (front ++ gap))
    (h : UpToLast (front ++ gap ++ t.text.toList) tokens read) :
    UpToLast front (t :: tokens) (gap ++ t.text.toList ++ read) := by
  unfold UpToLast at *
  rw [List.getLast?_cons]
  cases hlast : tokens.getLast? with
  | none =>
    rw [hlast] at h
    obtain rfl : read = [] := h
    exact ⟨gap, List.append_nil _, hplace⟩
  | some last =>
    rw [hlast] at h
    obtain ⟨before, rfl, hlastPlace⟩ := h
    refine ⟨gap ++ t.text.toList ++ before, ?_, ?_⟩
    · simp only [List.append_assoc, Option.getD_some]
    · rw [Option.getD_some, hlastPlace]
      simp only [List.append_assoc]

-- The errors of a text are those of its tokens and that of what is behind them.
theorem Tiled.errors {front text : List Char} {tokens : List Token} (h : Tiled front text tokens) :
    ∃ read tail, text = read ++ tail ∧ UpToLast front tokens read ∧ LastGap tail ∧
      (Lexed.ofChars (Position.endOf front) text).errors = tokens.filterMap (·.lexicalError?) ++
        (Lexed.ofChars (Position.endOf (front ++ read)) tail).errors := by
  induction h with
  | @last front tail hgap =>
    refine ⟨[], tail, rfl, rfl, hgap, ?_⟩
    rw [List.append_nil]
    rfl
  | @token front gap rest t tokens hgap hlongest hplace h ih =>
    obtain ⟨read, tail, rfl, hread, hlast, herrors⟩ := ih
    refine ⟨gap ++ t.text.toList ++ read, tail, (List.append_assoc _ _ _).symm, ?_, hlast, ?_⟩
    · exact hread.cons t gap hplace
    · have herror : (t.lexicalError?).toList = ((lexicalFault? t.kind t.text.toList).map
          (LexicalError.mk · (Position.endOf (front ++ gap)))).toList := by
        rw [Token.lexicalError?, hplace]
      rw [List.append_assoc, Lexed.ofChars_gap hgap, Lexed.ofChars_lexeme hlongest,
        Position.past_endOf, Position.past_endOf, herrors, ← herror, List.filterMap_cons]
      simp only [List.append_assoc]
      cases t.lexicalError? <;> rfl

/-! ## Names and reserved words -/

-- A lexeme is a word, or it is of no reserved kind, and a single character if it is a name.
theorem IsLexeme.word_or {kind : TokenKind} {c : Char} {cs : List Char}
    (h : IsLexeme kind (c :: cs)) :
    (Text.isAlphabetic c = true ∧
      kind = (TokenKind.ofWord? (String.ofList (c :: cs))).getD .identifier) ∨
    (Text.isAlphabetic c = false ∧ kind.isReserved = false ∧ (kind = .identifier → cs = [])) := by
  cases h with
  | word hc => exact .inl ⟨hc, rfl⟩
  | digits hc => exact .inr ⟨Segment.isAlphabetic_of_isDigit hc, by decide, nofun⟩
  | mark hc =>
    have hletter := Segment.eq_false_of_mark
      (fun d hd => (Segment.isAlphabetic_and_isDigit_of_mem_gapsAndMarks d hd).1) hc
    refine .inr ⟨hletter, ?_, fun _ => rfl⟩
    unfold TokenKind.ofMark? at hc
    split at hc <;> cases hc <;> decide
  | slash | assign => exact .inr ⟨by decide +kernel, by decide, nofun⟩
  | eq | or | and => exact .inr ⟨by decide +kernel, by decide, nofun⟩
  | stray _ hletter => exact .inr ⟨hletter, by decide, fun _ => rfl⟩

theorem TokenKind.isReserved_of_ofWord? {word : String} {kind : TokenKind}
    (h : ofWord? word = some kind) : kind.isReserved = true :=
  List.any_eq_true.mpr ⟨_, mem_reservedWords_of_ofWord? h, beq_self_eq_true kind⟩

-- A reserved word begins with a letter.
theorem TokenKind.isAlphabetic_of_ofWord? {c : Char} {cs : List Char} {kind : TokenKind}
    (h : ofWord? (String.ofList (c :: cs)) = some kind) : Text.isAlphabetic c = true := by
  have hlegal := (of_ofWord? h).2
  rw [String.toList_ofList, Segment.isLegalName, Bool.and_eq_true] at hlegal
  exact hlegal.1

/-- A token has the kind of a reserved word exactly if it is spelled like one of this kind. -/
theorem IsLexeme.kind_iff {kind word : TokenKind} {text : List Char} (h : IsLexeme kind text)
    (hword : word.isReserved = true) :
    kind = word ↔ TokenKind.ofWord? (String.ofList text) = some word := by
  cases text with
  | nil => exact absurd rfl h.ne_nil
  | cons c cs =>
    rcases h.word_or with ⟨-, rfl⟩ | ⟨hletter, hkind, -⟩
    · cases TokenKind.ofWord? (String.ofList (c :: cs)) with
      | some kind => rw [Option.getD_some, Option.some.injEq]
      | none =>
        refine iff_of_false (fun heq => ?_) nofun
        rw [← heq] at hword
        exact absurd hword (by decide)
    · refine iff_of_false (fun heq => ?_) fun hspelled => ?_
      · rw [← heq, hkind] at hword
        cases hword
      · rw [TokenKind.isAlphabetic_of_ofWord? hspelled] at hletter
        cases hletter

-- A token is an error exactly if it is a name and no legal one.
theorem IsLexeme.faulty {t : Token} (h : IsLexeme t.kind t.text.toList) :
    (t.isFaulty = false ∧ t.lexicalError? = none) ∨
      (t.isFaulty = true ∧ ∃ e, t.lexicalError? = some e ∧ e.IsOf t) := by
  obtain ⟨kind, text, p⟩ := t
  dsimp only at h
  unfold Token.isFaulty Token.lexicalError? LexicalError.IsOf
  dsimp only
  generalize htext : text.toList = chars at h
  by_cases hkind : kind = .identifier
  · subst hkind
    cases chars with
    | nil => exact absurd rfl h.ne_nil
    | cons c cs =>
      rw [lexicalFault?]
      rcases h.word_or with ⟨hletter, -⟩ | ⟨hletter, -, hsingle⟩
      · rw [if_pos hletter]
        cases hlegal : Segment.isLegalName (c :: cs) with
        | true => exact .inl ⟨rfl, rfl⟩
        | false => exact .inr ⟨rfl, _, rfl, rfl, c, cs, rfl, .inl ⟨hletter, rfl⟩⟩
      · obtain rfl := hsingle rfl
        have hlegal : Segment.isLegalName [c] = false := by
          rw [Segment.isLegalName, hletter, Bool.false_and]
        rw [hletter, hlegal, if_neg Bool.false_ne_true]
        by_cases hpair : c = '|' ∨ c = '&'
        · rw [if_pos hpair]
          exact .inr ⟨rfl, _, rfl, rfl, c, [], rfl, .inr ⟨hletter, rfl, rfl⟩⟩
        · rw [if_neg hpair]
          exact .inr ⟨rfl, _, rfl, rfl, c, [], rfl, .inr ⟨hletter, rfl, rfl⟩⟩
  · rw [lexicalFault?_of_ne hkind]
    exact .inl ⟨by simp [hkind], rfl⟩

theorem IsLexeme.isLegalName {t : Token} (h : IsLexeme t.kind t.text.toList)
    (hname : t.kind = .identifier) (hnone : t.lexicalError? = none) :
    Segment.isLegalName t.text.toList = true := by
  rcases h.faulty with ⟨hfaulty, -⟩ | ⟨-, e, hsome, -⟩
  · rw [Token.isFaulty, hname] at hfaulty
    simpa using hfaulty
  · rw [hnone] at hsome
    cases hsome

-- The errors of lexemes are those of the ones that are faulty.
theorem forall₂_isOf {tokens : List Token} (h : ∀ t ∈ tokens, IsLexeme t.kind t.text.toList) :
    List.Forall₂ (fun t e => e.IsOf t) (tokens.filter (·.isFaulty))
      (tokens.filterMap (·.lexicalError?)) := by
  induction tokens with
  | nil => exact .nil
  | cons t tokens ih =>
    obtain ⟨ht, htokens⟩ := List.forall_mem_cons.mp h
    rcases ht.faulty with ⟨hfaulty, hnone⟩ | ⟨hfaulty, e, hsome, he⟩
    · rw [List.filter_cons_of_neg (by simp [hfaulty]), List.filterMap_cons_none hnone]
      exact ih htokens
    · rw [List.filter_cons_of_pos hfaulty, List.filterMap_cons_some hsome]
      exact .cons he (ih htokens)

theorem Tiled.isLexeme {front text : List Char} {tokens : List Token} (h : Tiled front text tokens) :
    ∀ t ∈ tokens, IsLexeme t.kind t.text.toList := by
  induction h with
  | last => exact List.forall_mem_nil _
  | token _ hlongest _ _ ih => exact List.forall_mem_cons.mpr ⟨hlongest.isLexeme, ih⟩

/-! ## Sources -/

-- The tokens of a program are tokens of the source.
theorem mem_tokenize_of_mem_kept {source : String} {policy : ErrorPolicy} {p : Program}
    (h : parse source policy = .ok p) :
    (tokenize source).errors = [] ∧ ∀ t ∈ p.kept.tokens, t ∈ (tokenize source).tokens := by
  obtain ⟨herrors, d, hd, -, -, rfl⟩ := (parse_eq_ok_iff source p).mp (parse_failFast_of_parse h)
  refine ⟨herrors, fun t ht => ?_⟩
  have hmem := (List.mem_filter.mp (d.faithful.tokens_perm.mem_iff.mpr ht)).1
  rw [hd] at hmem
  exact (List.takeWhile_prefix _).subset hmem

-- The end of file is neither a name nor a word, so that what lexemes are tells of all tokens.
theorem kind_iff_of_mem_tokenize {source : String} {t : Token} (ht : t ∈ (tokenize source).tokens)
    {word : TokenKind} (hword : word.isReserved = true) :
    t.kind = word ↔ TokenKind.ofWord? t.text = some word := by
  obtain ⟨front, htokens, htiled⟩ := exists_tiled_tokenize source
  rw [htokens] at ht
  rcases List.mem_append.mp ht with ht | ht
  · rw [(htiled.isLexeme t ht).kind_iff hword, String.ofList_toList]
  · obtain rfl := List.mem_singleton.mp ht
    refine iff_of_false (fun heq => ?_) nofun
    rw [← heq] at hword
    exact absurd (show TokenKind.isReserved .eof = true from hword) (by decide)

-- In a text without errors every name is a legal one.
theorem isLegalName_of_mem_tokenize {source : String} (hnone : (tokenize source).errors = [])
    {t : Token} (ht : t ∈ (tokenize source).tokens) (hname : t.kind = .identifier) :
    Segment.isLegalName t.text.toList = true := by
  obtain ⟨front, htokens, htiled⟩ := exists_tiled_tokenize source
  obtain ⟨read, tail, -, -, -, herrors⟩ := htiled.errors
  have hfront : t ∈ front := by
    rw [htokens] at ht
    refine (List.mem_append.mp ht).resolve_right fun hend => ?_
    rw [List.mem_singleton.mp hend] at hname
    cases hname
  have herror : t.lexicalError? = none := by
    apply List.filterMap_eq_nil_iff.mp _ t hfront
    exact (List.append_eq_nil_iff.mp (herrors.symm.trans hnone)).1
  exact (htiled.isLexeme t hfront).isLegalName hname herror

/-- The lexical errors of a source are told by its tokens. There is one for each name that is not a
legal one, in order, and behind these one for a comment that is left open; this is so exactly if the
text behind the last token, when blanks and closed comments are stripped off its front, opens a
block comment. A token is of a reserved kind exactly if it is spelled as a word of this kind, so
that the names in a program that was read are legal, and none of them is reserved. -/
theorem tokenize_errors (source : String) :
    let tokens := (tokenize source).tokens
    (∃ found read tail,
      List.Forall₂ (fun t e => e.IsOf t) (tokens.filter (·.isFaulty)) found ∧
      source.toList = read ++ tail ∧ UpToLast [] tokens.dropLast read ∧
      (∃ gap rest, Stripped tail gap rest) ∧
      ∀ gap rest, Stripped tail gap rest → (tokenize source).errors = found ++
        if ['/', '*'] <+: rest then [⟨.unterminatedComment, Position.endOf (read ++ gap)⟩] else []) ∧
    (∀ t ∈ tokens, ∀ word : TokenKind, word.isReserved = true →
      (t.kind = word ↔ TokenKind.ofWord? t.text = some word)) ∧
    ∀ policy p, parse source policy = .ok p → ∀ t ∈ p.kept.tokens, t.kind = .identifier →
      Segment.isLegalName t.text.toList = true ∧ TokenKind.ofWord? t.text = none := by
  intro tokens
  obtain ⟨front, htokens, htiled⟩ := exists_tiled_tokenize source
  obtain ⟨read, tail, hsplit, hread, hlast, herrors⟩ := htiled.errors
  replace htokens : tokens = front ++ [Token.endOfFile (Position.endOf source.toList)] := htokens
  replace herrors : (tokenize source).errors = _ := herrors
  have hfaulty : tokens.filter (·.isFaulty) = front.filter (·.isFaulty) := by
    rw [htokens, List.filter_append]
    exact List.append_nil _
  refine ⟨⟨front.filterMap (·.lexicalError?), read, tail, ?_, hsplit, ?_, exists_stripped hlast, ?_⟩,
    fun t ht word => kind_iff_of_mem_tokenize ht, fun policy p hparse t ht hname => ?_⟩
  · rw [hfaulty]
    exact forall₂_isOf htiled.isLexeme
  · rwa [htokens, List.dropLast_concat]
  · intro gap rest hstripped
    rw [herrors, hstripped.errors hlast, Position.past_endOf]
    rfl
  · obtain ⟨hnone, hmem⟩ := mem_tokenize_of_mem_kept hparse
    refine ⟨isLegalName_of_mem_tokenize hnone (hmem t ht) hname, ?_⟩
    cases hspelled : TokenKind.ofWord? t.text with
    | none => rfl
    | some word =>
      have hword := TokenKind.isReserved_of_ofWord? hspelled
      have hkind := (kind_iff_of_mem_tokenize (hmem t ht) hword).mpr hspelled
      exact absurd (hkind.symm.trans hname) (TokenKind.of_ofWord? hspelled).1

-- A name with a superscript, a lone bar, and a comment that is left open behind other comments.
def faultySource : String := "a² | x /*b*/ //c\n /*d"

-- A program with two names.
def namedSource : String := "class M \x7b public static void main() \x7b \x7d \x7d"

/-- Two names are faulty, and stripping comments leads to one that is left open. The word `class` is
the only text of its kind, and a name of a program is legal. -/
theorem tokenize_errors_of_faulty :
    (∃ found read tail gap rest,
      List.Forall₂ (fun t e => e.IsOf t) ((tokenize faultySource).tokens.filter (·.isFaulty)) found ∧
      found.length = 2 ∧ faultySource.toList = read ++ tail ∧ Stripped tail gap rest ∧
      ['/', '*'] <+: rest ∧
      (tokenize faultySource).errors =
        found ++ [⟨.unterminatedComment, Position.endOf (read ++ gap)⟩]) ∧
    (∀ t ∈ (tokenize namedSource).tokens, TokenKind.isReserved .classWord = true ∧
      (t.kind = .classWord ↔ TokenKind.ofWord? t.text = some .classWord)) ∧
    ∃ p, parse namedSource .recover = .ok p ∧ ∃ t ∈ p.kept.tokens, t.kind = .identifier ∧
      Segment.isLegalName t.text.toList = true ∧ TokenKind.ofWord? t.text = none := by
  refine ⟨?_, fun t ht => ⟨by decide, ?_⟩, ?_⟩
  · obtain ⟨⟨found, read, tail, hfound, hsplit, -, ⟨gap, rest, hstripped⟩, herrors⟩, -, -⟩ :=
      tokenize_errors faultySource
    have hlength : found.length = 2 := by
      rw [← hfound.length_eq]
      decide +kernel
    have hall := herrors gap rest hstripped
    have hopen : ['/', '*'] <+: rest := by
      by_contra hnone
      rw [if_neg hnone, List.append_nil] at hall
      rw [← hall] at hlength
      exact absurd hlength (by decide +kernel)
    rw [if_pos hopen] at hall
    exact ⟨found, read, tail, gap, rest, hfound, hlength, hsplit, hstripped, hopen, hall⟩
  · exact (tokenize_errors namedSource).2.1 t ht .classWord (by decide)
  · have hread : ((parse namedSource .recover).toOption.any
        (·.kept.tokens.any (·.kind == .identifier))) = true := by decide +kernel
    cases hparse : parse namedSource .recover with
    | error d =>
      rw [hparse] at hread
      cases hread
    | ok p =>
      rw [hparse] at hread
      obtain ⟨t, ht, hkind⟩ := List.any_eq_true.mp hread
      refine ⟨p, rfl, t, ht, beq_iff_eq.mp hkind, ?_⟩
      exact (tokenize_errors namedSource).2.2 .recover p hparse t ht (beq_iff_eq.mp hkind)

end MiniJava
