import MiniJava.Proofs.Derivation.Program
import MiniJava.Proofs.Reading.Program
import MiniJava.Proofs.Recovery.Diagnostics
import MiniJava.Proofs.Uniqueness.Program
import MiniJava.Session

/-!
# Acceptance — the programs that are read without an error

Reading up to the first error gives a program exactly if the tokens up to the end of file have a
regular derivation that opens no more than `maxNesting` levels in any body, and then the program is
the tree of that derivation, of which there is only one. This is said of lists of tokens
(`Session.readToFirstError_eq_ok_iff`) and of texts (`parse_eq_ok_iff`).

The limit is about the derivation in which every `else` belongs to the nearest open `if`. The last
section has tokens that stay within it only if an `else` is attached further out; they are rejected.
-/

namespace MiniJava

/-! ## Streams -/

namespace Outcome

variable {stream : TokenStream} {d : ProgramPhrase}

-- A program without errors is one that no recovery took part in.
theorem resultOf_eq_ok_iff {recoveries : List Recovery}
    {value : Except SyntaxError (Option Program)} {p : Program} :
    resultOf recoveries value = .ok p ↔ recoveries = [] ∧ value = .ok (some p) := by
  constructor
  · intro h
    unfold resultOf at h
    split at h
    · split at h
      · cases h
        exact ⟨‹_›, rfl⟩
      · cases h
    · cases h
    · cases h
  · rintro ⟨rfl, rfl⟩
    rfl

-- A regular derivation within the limit is read.
theorem ofStream_of_within (hending : stream.ending.kind = .eof) (htokens : d.tokens = stream.ahead)
    (hd : d.Every (·.Regular)) (hwithin : d.Within maxNesting) :
    (ofStream .failFast stream).result = .ok d.tree := by
  have hpolicy : ParseContext.policy ⟨.failFast, stream.ending⟩ = .failFast := rfl
  have hparse := (Program.parse_before hpolicy hending [] d hd).1 hwithin
  rw [htokens] at hparse
  rw [result_ofStream hparse]
  rfl

-- A regular derivation beyond the limit gives one error, which says so.
theorem ofStream_of_not_within (hending : stream.ending.kind = .eof)
    (htokens : d.tokens = stream.ahead) (hd : d.Every (·.Regular))
    (hwithin : ¬ d.Within maxNesting) :
    ∃ e, (ofStream .failFast stream).result = .error [e] ∧ e.fault = .tooDeep := by
  have hpolicy : ParseContext.policy ⟨.failFast, stream.ending⟩ = .failFast := rfl
  obtain ⟨t, u, hparse⟩ := (Program.parse_before hpolicy hending [] d hd).2 hwithin
  rw [htokens] at hparse
  -- Giving up puts nothing on record, so that the error is the only one.
  have hrecoveries : u.recoveries = [] := by
    have hkept := (Program.agrees_parse stream.ending ⟨stream.ahead, []⟩).recoveries_early
    rwa [hparse] at hkept
  refine ⟨⟨.tooDeep, t⟩, ?_, rfl⟩
  rw [result_ofStream hparse, hrecoveries]
  rfl

-- What is read without an error has a regular derivation within the limit.
theorem exists_of_ofStream_eq_ok (hending : stream.ending.kind = .eof)
    (hahead : ∀ t ∈ stream.ahead, t.kind ≠ .eof) {p : Program}
    (h : (ofStream .failFast stream).result = .ok p) :
    ∃ d : ProgramPhrase, d.tokens = stream.ahead ∧ d.Every (·.Regular) ∧ d.Within maxNesting ∧
      d.tree = p := by
  obtain ⟨-, hvalue⟩ := resultOf_eq_ok_iff.mp h
  -- A tree without an error was read to the end of file, without a recovery.
  obtain ⟨d, htokens, htree, hd, hwithin⟩ := Program.derives_parse
    (c := ⟨.failFast, stream.ending⟩) (s := ⟨stream.ahead, []⟩) rfl hending hahead
    (Prod.ext hvalue rfl)
  exact ⟨d, htokens.symm, hd, hwithin, Option.some.inj htree⟩

-- The streams that are cut from lists are read if they have a derivation.
theorem ofTokens_eq_ok_iff (tokens : List Token) (p : Program) :
    (ofStream .failFast (TokenStream.ofTokens tokens)).result = .ok p ↔
      ∃ d : ProgramPhrase, d.tokens = (TokenStream.ofTokens tokens).ahead ∧
        d.Every (·.Regular) ∧ d.Within maxNesting ∧ d.tree = p := by
  have hending := TokenStream.kind_ending_ofTokens tokens
  constructor
  · exact exists_of_ofStream_eq_ok hending fun _ => TokenStream.kind_ne_eof_of_mem_ahead
  · rintro ⟨d, htokens, hd, hwithin, rfl⟩
    exact ofStream_of_within hending htokens hd hwithin

end Outcome

/-- A text is read if it has no lexical errors and its tokens have a derivation. -/
theorem parse_eq_ok_iff (source : String) (p : Program) :
    parse source .failFast = .ok p ↔
      (tokenize source).errors = [] ∧
        ∃ d : ProgramPhrase, d.tokens = (TokenStream.ofTokens (tokenize source).tokens).ahead ∧
          d.Every (·.Regular) ∧ d.Within maxNesting ∧ d.tree = p := by
  rw [parse_eq, ← Outcome.ofTokens_eq_ok_iff]
  cases (Outcome.ofStream .failFast (TokenStream.ofTokens (tokenize source).tokens)).result with
  | ok q =>
    by_cases hlexical : (tokenize source).errors = []
    · rw [withLexical, if_pos hlexical]
      simp [hlexical]
    · rw [withLexical, if_neg hlexical]
      simp [hlexical]
  | error es => simp [withLexical]

/-! ## Sessions -/

namespace Session

-- What is read from a list ends at its first end of file, whether one was added or not.
theorem ahead_ofTokens (tokens : List Token) :
    (ofTokens tokens).stream.ahead = tokens.takeWhile (·.kind != .eof) := by
  show (closed tokens).takeWhile (·.kind != .eof) = tokens.takeWhile (·.kind != .eof)
  unfold closed
  cases hlast : tokens.getLast? with
  | none =>
    rw [List.getLast?_eq_none_iff.mp hlast]
    rfl
  | some last =>
    by_cases hkind : last.kind = .eof
    · simp only [if_pos hkind]
    · simp only [if_neg hkind]
      -- The end of file that was added is cut off, whatever is in front of it.
      rw [List.takeWhile_append]
      split
      · rename_i hlength
        rw [(List.takeWhile_prefix _).eq_of_length hlength]
        exact List.append_nil tokens
      · rfl

-- A list of tokens is read if what stands before its end of file has a derivation.
theorem readToFirstError_eq_ok_iff (tokens : List Token) (p : Program) :
    (ofTokens tokens).readToFirstError.1 = .ok p ↔
      ∃ d : ProgramPhrase, d.tokens = tokens.takeWhile (·.kind != .eof) ∧
        d.Every (·.Regular) ∧ d.Within maxNesting ∧ d.tree = p := by
  rw [← ahead_ofTokens tokens]
  show (Outcome.ofStream .failFast (ofTokens tokens).stream).result.mapError _ = _ ↔ _
  have hiff := Outcome.ofTokens_eq_ok_iff (closed tokens) p
  rw [show (ofTokens tokens).stream = TokenStream.ofTokens (closed tokens) from rfl, ← hiff]
  cases (Outcome.ofStream .failFast (TokenStream.ofTokens (closed tokens))).result with
  | ok q => exact Iff.rfl
  | error es => exact ⟨nofun, nofun⟩

/-- Exactly the lists of tokens with a regular derivation within the limit are read, the program is
the tree of the derivation, and no list has two derivations that are settled. -/
theorem reads_exactly_the_derivable (tokens : List Token) :
    (∀ p, (ofTokens tokens).readToFirstError.1 = .ok p ↔
      ∃ d : ProgramPhrase, d.tokens = tokens.takeWhile (·.kind != .eof) ∧
        d.Every (·.Regular) ∧ d.Within maxNesting ∧ d.tree = p) ∧
      ∀ d d' : ProgramPhrase, d.tokens = tokens.takeWhile (·.kind != .eof) →
        d'.tokens = tokens.takeWhile (·.kind != .eof) → d.Every (·.Settled) →
        d'.Every (·.Settled) → d = d' := by
  refine ⟨readToFirstError_eq_ok_iff tokens, fun d d' htokens htokens' hd hd' => ?_⟩
  exact ProgramPhrase.unique hd hd' (htokens.trans htokens'.symm)

end Session

/-! ## The limit and an `else` that is attached further out -/

/-- A leaf in its one spelling, or a name. -/
def Terminal.plain (kind : TokenKind) : Terminal [kind] :=
  ⟨⟨kind, kind.spelling?.getD "a", .start⟩, List.mem_singleton_self kind⟩

def ExprPhrase.plain : ExprPhrase := .operand (.name (.plain .identifier)) .nil

def ParensPhrase.plain : ParensPhrase := ⟨.plain .lparen, .plain, .plain .rparen⟩

namespace StatementPhrase

def plainAssignment : StatementPhrase :=
  .assignment .plain (.plain .assign) .plain (.plain .semicolon)

def plainLoop : StatementPhrase := .loop (.plain .whileWord) .plain plainAssignment

-- A conditional with an `else` between a statement and a loop.
def plainElse (thenBranch : StatementPhrase) : StatementPhrase :=
  .ifElse (.plain .ifWord) .plain thenBranch (.plain .elseWord) plainLoop

/-- A statement behind some `if`s. -/
def nestIf : Nat → StatementPhrase → StatementPhrase
  | 0, x => x
  | n + 1, x => .ifThen (.plain .ifWord) .plain (nestIf n x)

-- The tokens do not say which of the `if`s an `else` belongs to.
theorem tokens_plainElse_nestIf (n : Nat) (x : StatementPhrase) :
    (plainElse (nestIf n x)).tokens = (nestIf n (plainElse x)).tokens := by
  induction n with
  | zero => rfl
  | succ n ih =>
    rw [nestIf, nestIf, tokens, ← ih]
    simp [plainElse, tokens]

-- Every `if` opens one level.
theorem levels_nestIf (n : Nat) (x : StatementPhrase) : (nestIf n x).levels = x.levels + n := by
  induction n with
  | zero => rfl
  | succ n ih =>
    have hcondition : ParensPhrase.plain.inner.levels = 0 := rfl
    rw [nestIf, levels, ih, hcondition]
    omega

theorem every_nestIf {p : StatementPhrase → Prop}
    (hp : ∀ x, p (.ifThen (.plain .ifWord) .plain x)) (n : Nat) {x : StatementPhrase}
    (hx : x.Every p) : (nestIf n x).Every p := by
  induction n with
  | zero => exact hx
  | succ n ih => exact ⟨hp _, ih⟩

end StatementPhrase

-- A program whose only statement is this one.
def ProgramPhrase.plain (x : StatementPhrase) : ProgramPhrase :=
  ⟨⟨.plain .classWord, .plain .identifier, .plain .lbrace,
    ⟨.plain .publicWord, .plain .staticWord, ⟨⟨(Terminal.plain .voidWord).token, by decide⟩, none⟩,
      .plain .identifier, .plain .lparen, .plain .rparen,
      ⟨.plain .lbrace, .cons x .nil, .plain .rbrace⟩⟩,
    .plain .rbrace⟩, []⟩

theorem ProgramPhrase.tokens_plain_congr {x y : StatementPhrase} (h : x.tokens = y.tokens) :
    (plain x).tokens = (plain y).tokens := by
  simp [plain, tokens, MainClassPhrase.tokens, MainMethodPhrase.tokens, BodyPhrase.tokens,
    StatementsPhrase.tokens, h]

theorem ProgramPhrase.within_plain (x : StatementPhrase) (limit : Nat) :
    (plain x).Within limit ↔ x.levels + 1 ≤ limit := by
  simp [Within, bodies, plain, StatementsPhrase.levels]

theorem ProgramPhrase.every_plain {p : StatementPhrase → Prop} {x : StatementPhrase}
    (h : x.Every p) : (plain x).Every p := by
  simpa [Every, bodies, plain, StatementsPhrase.Every] using h

/-- Where an `else` may be attached to any open `if`, not all lists with a derivation within the
limit are read: here it is within the limit behind the first of 126 `if`s, but not behind the last
of them. -/
theorem Session.not_reads_with_any_else :
    ¬ ∀ tokens : List Token, tokens.getLast?.map (·.kind) = some .eof →
      ((∃ p, (ofTokens tokens).readToFirstError.1 = .ok p) ↔
        ∃ d : ProgramPhrase, d.tokens = tokens.takeWhile (·.kind != .eof) ∧
          d.Every (fun x => x.Grouped ∧ x.NameFirst) ∧ d.Within maxNesting) := by
  intro h
  have hplain : ExprPhrase.plain.Grouped := ⟨trivial, trivial⟩
  have hassignment : StatementPhrase.plainAssignment.Grouped := by
    simpa [StatementPhrase.Grouped, StatementPhrase.plainAssignment, StatementPhrase.exprs]
      using hplain
  have hcondition {x : ExprPhrase} (hx : x ∈ [ExprPhrase.plain]) : x.Grouped :=
    List.mem_singleton.mp hx ▸ hplain
  -- the derivation within the limit, with the `else` behind the first `if`
  obtain ⟨first, hfirst⟩ : ∃ x, x = StatementPhrase.plainElse (.nestIf 125 .plainAssignment) :=
    ⟨_, rfl⟩
  have hwithin : (ProgramPhrase.plain first).Within maxNesting := by
    rw [ProgramPhrase.within_plain, hfirst, StatementPhrase.plainElse, StatementPhrase.levels,
      StatementPhrase.levels_nestIf]
    decide
  have hfirstEvery : (ProgramPhrase.plain first).Every (fun x => x.Grouped ∧ x.NameFirst) := by
    apply ProgramPhrase.every_plain
    rw [hfirst]
    refine ⟨⟨fun _ => hcondition, trivial⟩, ?_, ⟨fun _ => hcondition, trivial⟩, hassignment, rfl⟩
    exact StatementPhrase.every_nestIf (fun _ => ⟨fun _ => hcondition, trivial⟩) 125
      ⟨hassignment, rfl⟩
  -- the derivation beyond the limit, with the `else` behind the last `if`
  obtain ⟨last, hlast⟩ : ∃ x, x = StatementPhrase.nestIf 125 (.plainElse .plainAssignment) :=
    ⟨_, rfl⟩
  have htokens : (ProgramPhrase.plain first).tokens = (ProgramPhrase.plain last).tokens := by
    rw [hfirst, hlast]
    exact ProgramPhrase.tokens_plain_congr (StatementPhrase.tokens_plainElse_nestIf 125 _)
  have hbeyond : ¬ (ProgramPhrase.plain last).Within maxNesting := by
    rw [ProgramPhrase.within_plain, hlast, StatementPhrase.levels_nestIf]
    decide
  have hlastEvery : (ProgramPhrase.plain last).Every (·.Settled) := by
    apply ProgramPhrase.every_plain
    rw [hlast]
    refine StatementPhrase.every_nestIf (fun _ => ⟨fun _ => hcondition, trivial⟩) 125 ?_
    exact ⟨⟨fun _ => hcondition, rfl⟩, ⟨hassignment, trivial⟩, ⟨fun _ => hcondition, trivial⟩,
      hassignment, trivial⟩
  have hahead : ((ProgramPhrase.plain last).tokens ++ [Token.endOfFile .start]).takeWhile
      (·.kind != .eof) = (ProgramPhrase.plain last).tokens := by
    rw [hlast]
    decide +kernel
  have hiff := h ((ProgramPhrase.plain last).tokens ++ [Token.endOfFile .start])
    (by simp [Token.endOfFile])
  rw [hahead] at hiff
  obtain ⟨p, hp⟩ := hiff.mpr ⟨.plain first, htokens, hfirstEvery, hwithin⟩
  -- What would be read has one settled derivation, and that one is beyond the limit.
  obtain ⟨d, hd, hregular, hlimit, -⟩ := (readToFirstError_eq_ok_iff _ p).mp hp
  rw [hahead] at hd
  have hsettled := hregular.imp (fun _ h => h.1)
  exact hbeyond (ProgramPhrase.unique hsettled hlastEvery hd ▸ hlimit)

end MiniJava
