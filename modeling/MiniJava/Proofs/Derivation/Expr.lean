import MiniJava.Expr.Parse
import MiniJava.Proofs.Reading.Step

/-!
# Deriving what was read — expressions

Where a parser of expressions gives a tree, the tokens it passed are those of a phrase that stands
for the tree, that is grouped, and that stays within the levels the parser had left
(`Expr.derives_parse`). This is the converse of reading a phrase; again the induction is on the
levels, and the parts of one level only ask this of the parsers one level deeper.
-/

namespace MiniJava

open Parse

namespace Expr

/-- Whatever the parser gives is the tree of a grouped phrase with fewer than `n` levels inside. -/
def DerivesExprs (p : Parse Expr) (n : Nat) : Prop :=
  ∀ {c : ParseContext} {s s' : ParseState} {e : Expr}, c.ending.kind = .eof →
    p c s = (.ok e, s') →
    ∃ x : ExprPhrase, s = s'.before x.tokens ∧ x.tree = e ∧ x.Grouped ∧ x.levels < n

-- Whatever the parser gives is the tree of a grouped head with fewer than `n` levels inside.
def DerivesHeads (p : Parse Expr) (n : Nat) : Prop :=
  ∀ {c : ParseContext} {s s' : ParseState} {e : Expr}, c.ending.kind = .eof →
    p c s = (.ok e, s') →
    ∃ x : HeadPhrase, s = s'.before x.tokens ∧ x.tree = e ∧ x.Grouped ∧ x.levels < n

section

variable {n : Nat} {expression negand : Parse Expr} {c : ParseContext} {s s' : ParseState}

-- An expression at the beginning of what was read.
theorem DerivesExprs.bind_eq_ok {β : Type} (hexpression : DerivesExprs expression n)
    (hending : c.ending.kind = .eof) {f : Expr → Parse β} {b : β}
    (h : (expression >>= f) c s = (.ok b, s')) :
    ∃ (x : ExprPhrase) (u : ParseState), s = u.before x.tokens ∧ x.Grouped ∧ x.levels < n ∧
      f x.tree c u = (.ok b, s') := by
  replace h := Parse.bind_eq_ok.mp h
  obtain ⟨e, u, he, h⟩ := h
  obtain ⟨x, hs, rfl, hx, hlevels⟩ := hexpression hending he
  exact ⟨x, u, hs, hx, hlevels, h⟩

-- An expression and the token that closes it at the beginning of what was read.
theorem DerivesExprs.enclosed_eq_ok {β : Type} (hexpression : DerivesExprs expression n)
    (hending : c.ending.kind = .eof) {kind : TokenKind} (heof : kind ≠ .eof)
    {f : Expr → Parse β} {b : β}
    (h : (expression >>= fun e => expect [kind] >>= fun _ => f e) c s = (.ok b, s')) :
    ∃ (x : ExprPhrase) (closing : Terminal [kind]) (u : ParseState),
      s = u.before (x.tokens ++ [closing.token]) ∧ x.Grouped ∧ x.levels < n ∧
      f x.tree c u = (.ok b, s') := by
  replace h := hexpression.bind_eq_ok hending h
  obtain ⟨x, u, rfl, hx, hlevels, h⟩ := h
  replace h := expect_bind_eq_ok hending (by simpa using heof.symm) h
  obtain ⟨closing, v, rfl, h⟩ := h
  exact ⟨x, closing, v, (ParseState.before_append v _ _).symm, hx, hlevels, h⟩

/-! ## Heads -/

theorem derives_parseCreation (hexpression : DerivesExprs expression n)
    (hending : c.ending.kind = .eof) (word : Terminal [.newWord]) {e : Expr}
    (h : parseCreation expression word.token c s = (.ok e, s')) :
    ∃ x : HeadPhrase, s.before [word.token] = s'.before x.tokens ∧ x.tree = e ∧ x.Grouped ∧
      x.levels ≤ n := by
  -- The array form is reached from a type word and from a class name.
  have harray (base : Terminal [.intWord, .booleanWord, .identifier])
      (opening : Terminal [.lbracket]) (u : ParseState)
      (h : parseCreationOfArray expression word.token base.token c u = (.ok e, s')) :
      ∃ x : HeadPhrase, u.before [word.token, base.token, opening.token] = s'.before x.tokens ∧
        x.tree = e ∧ x.Grouped ∧ x.levels ≤ n := by
    replace h := hexpression.enclosed_eq_ok hending (by decide) h
    obtain ⟨length, closing, v, rfl, hlength, hlevels, h⟩ := h
    cases h
    refine ⟨.newArray word base opening length closing, ?_, rfl, hlength, hlevels⟩
    simp [HeadPhrase.tokens, ParseState.before]
  replace h := expect_bind_eq_ok hending (by decide) h
  obtain ⟨base, u, rfl, h⟩ := h
  by_cases hbase : base.token.kind = .identifier
  · rw [if_pos hbase] at h
    replace h := expect_bind_eq_ok hending (by decide) h
    obtain ⟨opening, v, rfl, h⟩ := h
    by_cases hopening : opening.token.kind = .lparen
    · rw [if_pos hopening] at h
      replace h := expect_bind_eq_ok hending (by decide) h
      obtain ⟨closing, w, rfl, h⟩ := h
      cases h
      exact ⟨.newObject word ⟨base.token, by simp [hbase]⟩ ⟨opening.token, by simp [hopening]⟩
        closing, rfl, rfl, trivial, Nat.zero_le n⟩
    · rw [if_neg hopening] at h
      have hbracket : opening.token.kind ∈ [TokenKind.lbracket] := by
        simpa [hopening] using opening.kind_mem
      exact harray base ⟨opening.token, hbracket⟩ v h
  · rw [if_neg hbase] at h
    replace h := expect_bind_eq_ok hending (by decide) h
    obtain ⟨opening, v, rfl, h⟩ := h
    exact harray base opening v h

theorem derives_parseHead (hexpression : DerivesExprs expression n)
    (hnegand : DerivesHeads negand n) (hending : c.ending.kind = .eof) {e : Expr}
    (h : parseHead expression negand c s = (.ok e, s')) :
    ∃ x : HeadPhrase, s = s'.before x.tokens ∧ x.tree = e ∧ x.Grouped ∧ x.levels ≤ n := by
  replace h := expect_bind_eq_ok hending (by decide) h
  obtain ⟨first, u, rfl, h⟩ := h
  have hmem := first.kind_mem
  simp only [TokenKind.expressionStart, List.mem_cons, List.not_mem_nil, or_false] at hmem
  -- One case for each kind an expression begins with, in the order of that list.
  rcases hmem with hkind | hkind | hkind | hkind | hkind | hkind | hkind <;> simp only [hkind] at h
  · replace h := Parse.bind_eq_ok.mp h
    obtain ⟨operand, v, hoperand, h⟩ := h
    cases h
    obtain ⟨x, rfl, rfl, hx, hlevels⟩ := hnegand hending hoperand
    exact ⟨.not ⟨first.token, by simp [hkind]⟩ x, rfl, rfl, hx, hlevels⟩
  · replace h := hexpression.enclosed_eq_ok (f := fun e => pure e) hending (by decide) h
    obtain ⟨x, closing, v, rfl, hx, hlevels, h⟩ := h
    cases h
    exact ⟨.parens ⟨first.token, by simp [hkind]⟩ x closing, rfl, rfl, hx, hlevels⟩
  · cases h
    exact ⟨.this ⟨first.token, by simp [hkind]⟩, rfl, rfl, trivial, Nat.zero_le n⟩
  · cases h
    exact ⟨.boolLiteral ⟨first.token, by simp [hkind]⟩, rfl, rfl, trivial, Nat.zero_le n⟩
  · cases h
    exact ⟨.intLiteral ⟨first.token, by simp [hkind]⟩, rfl, rfl, trivial, Nat.zero_le n⟩
  · cases h
    exact ⟨.name ⟨first.token, by simp [hkind]⟩, rfl, rfl, trivial, Nat.zero_le n⟩
  · exact derives_parseCreation hexpression hending ⟨first.token, by simp [hkind]⟩ h

/-! ## Tails -/

theorem derives_parseMoreArgs (hexpression : DerivesExprs expression n)
    (hending : c.ending.kind = .eof) (k : Nat) :
    ∀ {s : ParseState} {es : List Expr}, s.ahead.length < k →
      parseMoreArgs expression k c s = (.ok es, s') →
      ∃ (first : ExprPhrase) (more : MoreArgsPhrase),
        s = s'.before (first.tokens ++ more.tokens) ∧ first.tree :: more.trees = es ∧
        first.Grouped ∧ more.Grouped ∧ first.levels < n ∧ more.levels ≤ n ∧
        c.nextKind s' ≠ .comma := by
  induction k with
  | zero => exact fun hk _ => absurd hk (Nat.not_lt_zero _)
  | succ k ih =>
    intro s es hk h
    replace h := hexpression.bind_eq_ok hending h
    obtain ⟨first, u, rfl, hfirst, hlevels, h⟩ := h
    replace h := accept_bind_eq_ok hending (by decide) h
    obtain ⟨comma, v, rfl, h⟩ | ⟨hcomma, h⟩ := h
    · replace h := Parse.bind_eq_ok.mp h
      obtain ⟨rest, w, hrest, h⟩ := h
      cases h
      obtain ⟨arg, more, rfl, rfl, harg, hmore, hargLevels, hmoreLevels, hstop⟩ := ih (by
        simp only [ParseState.ahead_before, List.length_append, List.length_singleton] at hk
        omega) hrest
      refine ⟨first, .cons comma arg more, ?_, rfl, hfirst, ⟨harg, hmore⟩, hlevels,
        Nat.max_le.mpr ⟨hargLevels, hmoreLevels⟩, hstop⟩
      simp [MoreArgsPhrase.tokens, ParseState.before]
    · cases h
      refine ⟨first, .nil, ?_, rfl, hfirst, trivial, hlevels, Nat.zero_le n, ?_⟩
      · rw [MoreArgsPhrase.tokens, List.append_nil]
      · simpa using hcomma

theorem derives_parseArgs (hexpression : DerivesExprs expression n)
    (hending : c.ending.kind = .eof) {es : List Expr}
    (h : parseArgs expression c s = (.ok es, s')) :
    ∃ x : ArgsPhrase, s = s'.before x.tokens ∧ x.trees = es ∧ x.Grouped ∧ x.levels ≤ n := by
  replace h := expect_bind_eq_ok hending (by decide) h
  obtain ⟨opening, u, rfl, h⟩ := h
  replace h := accept_bind_eq_ok hending (by decide) h
  obtain ⟨closing, v, rfl, h⟩ | ⟨-, h⟩ := h
  · cases h
    exact ⟨.none opening closing, rfl, rfl, trivial, Nat.zero_le n⟩
  · replace h := (bind_of_ok bound_run).symm.trans h
    replace h := Parse.bind_eq_ok.mp h
    obtain ⟨args, v, hargs, h⟩ := h
    obtain ⟨first, more, rfl, rfl, hfirst, hmore, hfirstLevels, hmoreLevels, hstop⟩ :=
      derives_parseMoreArgs hexpression hending _ (Nat.lt_succ_self _) hargs
    replace h := expect_bind_eq_ok hending (by decide) h
    obtain ⟨closing, w, rfl, h⟩ := h
    cases h
    -- A comma would have been taken, so that the token behind the arguments is the parenthesis.
    have hparen : closing.token.kind ∈ [TokenKind.rparen] := by
      have hcomma : closing.token.kind ≠ .comma := hstop
      simpa [hcomma] using closing.kind_mem
    refine ⟨.some opening first more ⟨closing.token, hparen⟩, ?_, rfl, ⟨hfirst, hmore⟩,
      Nat.max_le.mpr ⟨hfirstLevels, hmoreLevels⟩⟩
    simp [ArgsPhrase.tokens, ParseState.before]

theorem derives_parseTails (hexpression : DerivesExprs expression n)
    (hending : c.ending.kind = .eof) (k : Nat) :
    ∀ {s : ParseState} {e e' : Expr}, parseTails expression k e c s = (.ok e', s') →
      ∃ x : TailsPhrase, s = s'.before x.tokens ∧ x.extend e = e' ∧ x.Grouped ∧
        x.levels ≤ n := by
  induction k with
  | zero =>
    intro s e e' h
    cases h
    exact ⟨.nil, rfl, rfl, trivial, Nat.zero_le n⟩
  | succ k ih =>
    intro s e e' h
    replace h := accept_bind_eq_ok hending (by decide) h
    obtain ⟨opening, u, rfl, h⟩ | ⟨-, h⟩ := h
    · replace h := hexpression.enclosed_eq_ok hending (by decide) h
      obtain ⟨i, closing, v, rfl, hi, hlevels, h⟩ := h
      obtain ⟨rest, rfl, hextend, hrest, hrestLevels⟩ := ih h
      refine ⟨.index opening i closing rest, ?_, hextend, ⟨hi, hrest⟩,
        Nat.max_le.mpr ⟨hlevels, hrestLevels⟩⟩
      simp [TailsPhrase.tokens, ParseState.before]
    · replace h := accept_bind_eq_ok hending (by decide) h
      obtain ⟨dot, u, rfl, h⟩ | ⟨-, h⟩ := h
      · replace h := expect_bind_eq_ok hending (by decide) h
        obtain ⟨member, v, rfl, h⟩ := h
        by_cases hmember : member.token.kind = .lengthWord
        · rw [if_pos hmember] at h
          obtain ⟨rest, rfl, hextend, hrest, hlevels⟩ := ih h
          exact ⟨.length dot ⟨member.token, by simp [hmember]⟩ rest, rfl, hextend, hrest, hlevels⟩
        · rw [if_neg hmember] at h
          have hname : member.token.kind ∈ [TokenKind.identifier] := by
            simpa [hmember] using member.kind_mem
          replace h := Parse.bind_eq_ok.mp h
          obtain ⟨es, w, hargs, h⟩ := h
          obtain ⟨args, rfl, rfl, hgrouped, hlevels⟩ := derives_parseArgs hexpression hending hargs
          obtain ⟨rest, rfl, hextend, hrest, hrestLevels⟩ := ih h
          refine ⟨.call dot ⟨member.token, hname⟩ args rest, ?_, hextend, ⟨hgrouped, hrest⟩,
            Nat.max_le.mpr ⟨hlevels, hrestLevels⟩⟩
          simp [TailsPhrase.tokens, ParseState.before]
      · cases h
        exact ⟨.nil, rfl, rfl, trivial, Nat.zero_le n⟩

theorem derives_parseOperand (hexpression : DerivesExprs expression n)
    (hnegand : DerivesHeads negand n) (hending : c.ending.kind = .eof) {e : Expr}
    (h : parseOperand expression negand c s = (.ok e, s')) :
    ∃ (head : HeadPhrase) (tails : TailsPhrase), s = s'.before (head.tokens ++ tails.tokens) ∧
      tails.extend head.tree = e ∧ head.Grouped ∧ tails.Grouped ∧ head.levels ≤ n ∧
      tails.levels ≤ n := by
  replace h := Parse.bind_eq_ok.mp h
  obtain ⟨e', u, hhead, h⟩ := h
  obtain ⟨head, rfl, rfl, hgrouped, hlevels⟩ := derives_parseHead hexpression hnegand hending hhead
  replace h := (bind_of_ok bound_run).symm.trans h
  replace h := derives_parseTails hexpression hending _ h
  obtain ⟨tails, rfl, hextend, htails, htailLevels⟩ := h
  exact ⟨head, tails, (ParseState.before_append s' _ _).symm, hextend, hgrouped, htails, hlevels,
    htailLevels⟩

/-! ## Operators -/

/-- What the parser gives is an expression that holds together more tightly than `low`, and no
operator that does so follows it. -/
def DerivesChains (p : Parse Expr) (n low : Nat) : Prop :=
  ∀ {c : ParseContext} {s s' : ParseState} {e : Expr}, c.ending.kind = .eof →
    p c s = (.ok e, s') →
    ∃ x : ExprPhrase, s = s'.before x.tokens ∧ x.tree = e ∧ x.Grouped ∧ x.levels ≤ n ∧
      low < x.tightness ∧ (c.nextKind s').precedence ≤ low

-- The loop over operators. What it has joined so far is never followed by an operator that binds
-- tighter than its own, since its right side would have taken that one.
theorem derives_parseInfix {right : Nat → Parse Expr} {low : Nat}
    (hright : ∀ p, low < p → p ≤ TokenKind.maxPrecedence → DerivesChains (right p) n p)
    (hending : c.ending.kind = .eof) (k : Nat) :
    ∀ {s : ParseState} {e : Expr} (left : ExprPhrase), s.ahead.length < k →
      parseInfix right low k left.tree c s = (.ok e, s') → left.Grouped → left.levels ≤ n →
      low < left.tightness → (c.nextKind s).precedence ≤ left.tightness →
      ∃ x : ExprPhrase, s.before left.tokens = s'.before x.tokens ∧ x.tree = e ∧ x.Grouped ∧
        x.levels ≤ n ∧ low < x.tightness ∧ (c.nextKind s').precedence ≤ low := by
  induction k with
  | zero => exact fun _ hk => absurd hk (Nat.not_lt_zero _)
  | succ k ih =>
    intro s e left hk h hleft hlevels hlow hnext
    -- The invariant: `left` stands for all that was joined, and what comes next binds no tighter.
    have hpeek : peek c s = (.ok (s.ahead.headD c.ending), s) := rfl
    rw [parseInfix, bind_of_ok hpeek] at h
    by_cases hop : low < (s.ahead.headD c.ending).kind.precedence
    · rw [if_pos hop] at h
      have hpos : 0 < (s.ahead.headD c.ending).kind.precedence := by omega
      have hoperator := (TokenKind.isBinaryOperator_iff_precedence_pos _).mpr hpos
      obtain ⟨ahead, recoveries⟩ := s
      cases ahead with
      | nil =>
        -- The end of file is no operator.
        have hkind : (([] : List Token).headD c.ending).kind = .eof := hending
        rw [hkind] at hpos
        exact absurd hpos (by decide)
      | cons t ts =>
        have haccept : accept [t.kind] c ⟨t :: ts, recoveries⟩ = (.ok (some t), ⟨ts, recoveries⟩) :=
          accept_cons (List.mem_singleton.mpr rfl)
        obtain ⟨e', u, he', h⟩ := Parse.bind_eq_ok.mp ((bind_of_ok haccept).symm.trans h)
        obtain ⟨x, hs, rfl, hx, hxLevels, hxTight, hxNext⟩ :=
          hright _ hop (TokenKind.precedence_le _) hending he'
        have hlen : ts.length = x.tokens.length + u.ahead.length := by
          have := congrArg (fun r => r.ahead.length) hs
          simpa using this
        -- The right side took every tighter operator: the invariant holds of the joined one.
        obtain ⟨y, hy, hrest⟩ := ih
          (.binary left ⟨t, List.contains_iff_mem.mp hoperator⟩ x)
          (by simp only [List.length_cons] at hk; omega) h ⟨hnext, hxTight, hleft, hx⟩
          (Nat.max_le.mpr ⟨hlevels, hxLevels⟩) hop hxNext
        refine ⟨y, ?_, hrest⟩
        rw [← hy, ExprPhrase.tokens, ParseState.before_append, ParseState.before_cons, ← hs]
        rfl
    · rw [if_neg hop] at h
      cases h
      exact ⟨left, rfl, rfl, hleft, hlevels, hlow, Nat.not_lt.mp hop⟩

theorem derives_parseChain {operand : Parse Expr}
    (hoperand : ∀ {c : ParseContext} {s s' : ParseState} {e : Expr}, c.ending.kind = .eof →
      operand c s = (.ok e, s') → ∃ (head : HeadPhrase) (tails : TailsPhrase),
        s = s'.before (head.tokens ++ tails.tokens) ∧ tails.extend head.tree = e ∧
        head.Grouped ∧ tails.Grouped ∧ head.levels ≤ n ∧ tails.levels ≤ n) (m : Nat) :
    ∀ low, low ≤ TokenKind.maxPrecedence → TokenKind.maxPrecedence ≤ low + m →
      DerivesChains (parseChain operand m low) n low := by
  induction m with
  | zero =>
    intro low hlow hm c s s' e hending h
    obtain ⟨head, tails, hs, htree, hhead, htails, hheadLevels, htailLevels⟩ := hoperand hending h
    refine ⟨.operand head tails, hs, htree, ⟨hhead, htails⟩,
      Nat.max_le.mpr ⟨hheadLevels, htailLevels⟩, Nat.lt_succ_of_le hlow, ?_⟩
    exact Nat.le_trans (TokenKind.precedence_le _) hm
  | succ m ih =>
    intro low hlow hm c s s' e hending h
    replace h := Parse.bind_eq_ok.mp h
    obtain ⟨e', u, he', h⟩ := h
    obtain ⟨head, tails, rfl, rfl, hhead, htails, hheadLevels, htailLevels⟩ := hoperand hending he'
    replace h := (bind_of_ok bound_run).symm.trans h
    exact derives_parseInfix (fun p hp hmax => ih p hmax (by omega)) hending _
      (.operand head tails) (Nat.lt_succ_self _) h ⟨hhead, htails⟩
      (Nat.max_le.mpr ⟨hheadLevels, htailLevels⟩) (Nat.lt_succ_of_le hlow)
      (Nat.le_trans (TokenKind.precedence_le _) (Nat.le_succ _))

end

/-! ## Levels -/

/-- With `n` levels left, whatever is read as an expression, or as the head behind `!`, is a phrase
that opens fewer than `n` levels inside. -/
theorem derives_parse (n : Nat) :
    DerivesExprs (parse n) n ∧ DerivesHeads (parseNegand n) n := by
  induction n with
  -- Without levels the parser fails, and nothing was read.
  | zero => exact ⟨fun _ h => (by cases h), fun _ h => (by cases h)⟩
  | succ n ih =>
    refine ⟨fun hending h => ?_, fun hending h => ?_⟩
    · rw [parse_succ] at h
      obtain ⟨x, hs, htree, hx, hlevels, -, -⟩ :=
        derives_parseChain (fun hc h => derives_parseOperand ih.1 ih.2 hc h) _ 0 (Nat.zero_le _)
          (Nat.le_add_left _ _) hending h
      exact ⟨x, hs, htree, hx, Nat.lt_succ_of_le hlevels⟩
    · rw [parseNegand_succ] at h
      obtain ⟨x, hs, htree, hx, hlevels⟩ := derives_parseHead ih.1 ih.2 hending h
      exact ⟨x, hs, htree, hx, Nat.lt_succ_of_le hlevels⟩

end Expr

end MiniJava
