import MiniJava.Expr.Parse
import MiniJava.Proofs.Reading.Step

/-!
# Reading the phrases of expressions

A parser with `n` levels left, put before the tokens of a phrase, gives the tree of the phrase and
stops behind it if the phrase opens fewer than `n` levels inside, and runs out of levels otherwise
(`Expr.parse_before`). What stands behind the phrase must not continue it: no tail, no operator.

The induction is on the levels. Parsers of one level are given those one level deeper, so the lemmas
on heads, tails and arguments ask of `expression` and `negand` only that they read phrases with
fewer levels.
-/

namespace MiniJava

open Parse

-- A tail begins with this kind.
def TokenKind.opensTail (kind : TokenKind) : Prop := kind ∈ [TokenKind.lbracket, .dot]

/-- The kind continues no expression that ends before it. -/
def TokenKind.EndsExpr (kind : TokenKind) : Prop := ¬ kind.opensTail ∧ kind.precedence = 0

instance (kind : TokenKind) : Decidable kind.opensTail :=
  inferInstanceAs (Decidable (kind ∈ [TokenKind.lbracket, .dot]))

instance (kind : TokenKind) : Decidable kind.EndsExpr := inferInstanceAs (Decidable (_ ∧ _))

namespace Expr

/-- The parser reads every expression with fewer than `n` levels inside. -/
def ReadsExprs (p : Parse Expr) (n : Nat) : Prop :=
  ∀ (c : ParseContext) (s : ParseState) (x : ExprPhrase), x.Grouped → (c.nextKind s).EndsExpr →
    Reaches (p c (s.before x.tokens)) (.ok x.tree, s) (x.levels < n)

-- The parser reads every head with fewer than `n` levels inside.
def ReadsHeads (p : Parse Expr) (n : Nat) : Prop :=
  ∀ (c : ParseContext) (s : ParseState) (x : HeadPhrase), x.Grouped →
    Reaches (p c (s.before x.tokens)) (.ok x.tree, s) (x.levels < n)

section

variable {n : Nat} {expression negand : Parse Expr} {c : ParseContext} {s : ParseState}

/-! ## Heads -/

-- An expression and the token that closes it.
theorem enclosed_before {α : Type} (hexpression : ReadsExprs expression n) {x : ExprPhrase}
    (hx : x.Grouped) {kind : TokenKind} (closing : Terminal [kind]) (hkind : kind.EndsExpr)
    {f : Expr → Parse α} {r : Except SyntaxError α × ParseState} {Q : Prop}
    (hf : Reaches (f x.tree c s) r Q) :
    Reaches ((expression >>= fun e => expect [kind] >>= fun _ => f e) c
      (s.before (x.tokens ++ [closing.token]))) r (x.levels < n ∧ Q) := by
  rw [ParseState.before_append]
  have hnext : (c.nextKind (s.before [closing.token])).EndsExpr := by
    rw [ParseContext.nextKind_before_leaf]
    exact hkind
  refine (hexpression c _ x hx hnext).bind (fun _ => ?_)
  exact .step (expect_before closing.kind_mem) hf

-- An expression and the token that closes it, with nothing to read behind them.
theorem enclosed_before_pure {α : Type} (hexpression : ReadsExprs expression n) {x : ExprPhrase}
    (hx : x.Grouped) {kind : TokenKind} (closing : Terminal [kind]) (hkind : kind.EndsExpr)
    {f : Expr → α} :
    Reaches ((expression >>= fun e => expect [kind] >>= fun _ => pure (f e)) c
      (s.before (x.tokens ++ [closing.token]))) (.ok (f x.tree), s) (x.levels < n) := by
  refine Reaches.congr ?_ (and_iff_left trivial)
  exact enclosed_before hexpression hx closing hkind (.pure _)

theorem parseCreation_newArray (hexpression : ReadsExprs expression n)
    (word : Terminal [.newWord]) (base : Terminal [.intWord, .booleanWord, .identifier])
    (opening : Terminal [.lbracket]) (length : ExprPhrase) (closing : Terminal [.rbracket])
    (hlength : length.Grouped) :
    Reaches (parseCreation expression word.token c (s.before
        (base.token :: opening.token :: (length.tokens ++ [closing.token]))))
      (.ok (.newArray ⟨base.token, false⟩ length.tree word.token.position), s)
      (length.levels < n) := by
  have hbehind : Reaches (parseCreationOfArray expression word.token base.token c
        (s.before (length.tokens ++ [closing.token])))
      (.ok (.newArray ⟨base.token, false⟩ length.tree word.token.position), s)
      (length.levels < n) :=
    enclosed_before_pure hexpression hlength closing (by decide)
  have hopening := opening.kind_eq
  refine .step (expect_before base.kind_mem) ?_
  -- Behind a class name either bracket may follow, behind a type word only the square one.
  by_cases hbase : base.token.kind = .identifier
  · rw [if_pos hbase]
    refine .step (expect_before (by simp [hopening])) ?_
    rw [if_neg (by simp [hopening])]
    exact hbehind
  · rw [if_neg hbase]
    exact .step (expect_before opening.kind_mem) hbehind

theorem parseHead_before (hexpression : ReadsExprs expression n) (hnegand : ReadsHeads negand n)
    (x : HeadPhrase) (hx : x.Grouped) :
    Reaches (parseHead expression negand c (s.before x.tokens)) (.ok x.tree, s) (x.levels ≤ n) := by
  cases x with
  | not bang inner =>
    refine .step (expect_before (by simp [bang.kind_eq, TokenKind.expressionStart])) ?_
    -- The operand of `!` is a head: it takes no tail, and the level it opens is counted.
    simp only [bang.kind_eq]
    exact (hnegand c s inner hx).map
  | parens opening inner closing =>
    refine .step (expect_before (by simp [opening.kind_eq, TokenKind.expressionStart])) ?_
    simp only [opening.kind_eq]
    exact enclosed_before_pure hexpression hx closing (by decide)
  | newObject word className opening closing =>
    refine .step (expect_before (by simp [word.kind_eq, TokenKind.expressionStart])) ?_
    simp only [word.kind_eq]
    refine .step (expect_before (by simp [className.kind_eq])) ?_
    rw [if_pos className.kind_eq]
    refine .step (expect_before (by simp [opening.kind_eq])) ?_
    rw [if_pos opening.kind_eq]
    refine .step (expect_before closing.kind_mem) ?_
    exact (Reaches.pure _).congr (by simp [HeadPhrase.levels])
  | newArray word base opening length closing =>
    refine .step (expect_before (by simp [word.kind_eq, TokenKind.expressionStart])) ?_
    simp only [word.kind_eq]
    exact parseCreation_newArray hexpression word base opening length closing hx
  | this leaf | boolLiteral leaf | intLiteral leaf | name leaf =>
    refine .step (expect_before (by simp [leaf.kind_eq, TokenKind.expressionStart])) ?_
    simp only [leaf.kind_eq]
    exact (Reaches.pure _).congr (by simp [HeadPhrase.levels])

/-! ## Tails -/

-- An argument and those behind it, as long as commas follow.
theorem parseMoreArgs_before (hexpression : ReadsExprs expression n) (x : MoreArgsPhrase)
    (hnext : c.nextKind s = .rparen) :
    ∀ (first : ExprPhrase) (k : Nat), first.Grouped → x.Grouped →
      (x.tokens ++ s.ahead).length < k →
      Reaches (parseMoreArgs expression k c (s.before (first.tokens ++ x.tokens)))
        (.ok (first.tree :: x.trees), s) (max (first.levels + 1) x.levels ≤ n) := by
  induction x using MoreArgsPhrase.chain with
  | nil =>
    intro first k hfirst _ hk
    obtain ⟨k, rfl⟩ := Nat.exists_eq_add_one.mpr (Nat.zero_lt_of_lt hk)
    rw [MoreArgsPhrase.tokens, List.append_nil]
    have hends : (c.nextKind s).EndsExpr := by
      rw [hnext]
      decide
    have hstop : c.nextKind s ∉ [TokenKind.comma] := by
      rw [hnext]
      decide
    -- No comma follows, so the level of the last argument is the only one to count.
    have hlevels : first.levels < n ∧ True ↔
        max (first.levels + 1) MoreArgsPhrase.nil.levels ≤ n := by
      rw [and_true, MoreArgsPhrase.levels, Nat.max_zero]
      exact Nat.lt_iff_add_one_le
    refine Reaches.congr ?_ hlevels
    refine (hexpression c _ first hfirst hends).bind (fun _ => ?_)
    exact .step (accept_of_notMem hstop) (.pure _)
  | cons comma arg rest ih =>
    intro first k hfirst hx hk
    obtain ⟨k, rfl⟩ := Nat.exists_eq_add_one.mpr (Nat.zero_lt_of_lt hk)
    have hrest := ih arg k hx.1 hx.2 (by
      simp only [MoreArgsPhrase.tokens, List.length_append, List.length_cons] at hk ⊢
      omega)
    have hends : (c.nextKind (s.before (MoreArgsPhrase.cons comma arg rest).tokens)).EndsExpr := by
      rw [MoreArgsPhrase.tokens, ParseContext.nextKind_before_cons, comma.kind_eq]
      decide
    rw [ParseState.before_append]
    refine Reaches.congr (P := first.levels < n ∧ max (arg.levels + 1) rest.levels ≤ n) ?_
      Nat.max_le.symm
    refine (hexpression c _ first hfirst hends).bind (fun _ => ?_)
    exact .step (accept_before comma.kind_mem) hrest.map

theorem parseArgs_before (hexpression : ReadsExprs expression n) (x : ArgsPhrase)
    (hx : x.Grouped) :
    Reaches (parseArgs expression c (s.before x.tokens)) (.ok x.trees, s) (x.levels ≤ n) := by
  cases x with
  | none opening closing =>
    refine .step (expect_before opening.kind_mem) (.step (accept_before closing.kind_mem) ?_)
    exact (Reaches.pure _).congr (by simp [ArgsPhrase.levels])
  | some opening first more closing =>
    -- An argument never begins with the parenthesis that would close an empty list.
    obtain ⟨t, ts, heq, hkind⟩ := first.exists_tokens_eq_cons
    have hstart : c.nextKind (s.before (first.tokens ++ (more.tokens ++ [closing.token]))) ∉
        [TokenKind.rparen] := by
      rw [heq, List.cons_append, ParseContext.nextKind_before_cons]
      intro hmem
      rw [List.mem_singleton.mp hmem] at hkind
      exact absurd hkind (by decide)
    have hclosing : c.nextKind (s.before [closing.token]) = .rparen := closing.kind_eq
    have hmore : Reaches (parseMoreArgs expression
          ((first.tokens ++ (more.tokens ++ [closing.token]) ++ s.ahead).length + 1) c
          (s.before (first.tokens ++ (more.tokens ++ [closing.token]))))
        (.ok (first.tree :: more.trees), s.before [closing.token])
        (max (first.levels + 1) more.levels ≤ n) := by
      rw [← List.append_assoc first.tokens, ParseState.before_append]
      apply parseMoreArgs_before hexpression more hclosing first _ hx.1 hx.2
      simp only [ParseState.ahead_before, List.length_append]
      omega
    refine .step (expect_before opening.kind_mem) (.step (accept_of_notMem hstart) ?_)
    refine .step bound_run (hmore.bind_free (.step (expect_before ?_) (.pure _)))
    simp [closing.kind_eq]

theorem parseTails_before (hexpression : ReadsExprs expression n) (x : TailsPhrase)
    (hnext : ¬ (c.nextKind s).opensTail) :
    ∀ (e : Expr) (k : Nat), x.Grouped → (x.tokens ++ s.ahead).length < k →
      Reaches (parseTails expression k e c (s.before x.tokens)) (.ok (x.extend e), s)
        (x.levels ≤ n) := by
  induction x using TailsPhrase.chain with
  | nil =>
    intro e k _ hk
    obtain ⟨k, rfl⟩ := Nat.exists_eq_add_one.mpr (Nat.zero_lt_of_lt hk)
    -- Neither a bracket nor a dot comes next, and the loop over tails ends.
    have hbracket : c.nextKind s ∉ [TokenKind.lbracket] := fun h =>
      hnext (List.mem_cons.mpr (.inl (List.mem_singleton.mp h)))
    have hdot : c.nextKind s ∉ [TokenKind.dot] := fun h => hnext (List.mem_cons_of_mem _ h)
    refine .step (accept_of_notMem hbracket) (.step (accept_of_notMem hdot) ?_)
    exact (Reaches.pure _).congr (by simp [TailsPhrase.levels])
  | index opening i closing rest ih =>
    intro e k hx hk
    obtain ⟨k, rfl⟩ := Nat.exists_eq_add_one.mpr (Nat.zero_lt_of_lt hk)
    have hrest := ih (.index e i.tree) k hx.2 (by
      simp only [TailsPhrase.tokens, List.length_append, List.length_cons] at hk ⊢
      omega)
    -- The tail is an expression in brackets, put in front of the tails that are left.
    have hstate : s.before (TailsPhrase.index opening i closing rest).tokens =
        ((s.before rest.tokens).before (i.tokens ++ [closing.token])).before [opening.token] := by
      simp [TailsPhrase.tokens, ParseState.before]
    rw [hstate]
    refine .step (accept_before opening.kind_mem) ?_
    refine Reaches.congr (P := i.levels < n ∧ rest.levels ≤ n) ?_ Nat.max_le.symm
    exact enclosed_before hexpression hx.1 closing (by decide) hrest
  | length dot word rest ih =>
    intro e k hx hk
    obtain ⟨k, rfl⟩ := Nat.exists_eq_add_one.mpr (Nat.zero_lt_of_lt hk)
    have hrest := ih (.arrayLength e) k hx (by
      simp only [TailsPhrase.tokens, List.length_append, List.length_cons] at hk ⊢
      omega)
    refine .step (accept_of_notMem (by simp [TailsPhrase.tokens, dot.kind_eq])) ?_
    refine .step (accept_before dot.kind_mem) (.step (expect_before (by simp [word.kind_eq])) ?_)
    rw [if_pos word.kind_eq]
    exact hrest
  | call dot method args rest ih =>
    intro e k hx hk
    obtain ⟨k, rfl⟩ := Nat.exists_eq_add_one.mpr (Nat.zero_lt_of_lt hk)
    have hrest := ih (.call e method.token args.trees) k hx.2 (by
      simp only [TailsPhrase.tokens, List.length_append, List.length_cons] at hk ⊢
      omega)
    refine .step (accept_of_notMem (by simp [TailsPhrase.tokens, dot.kind_eq])) ?_
    refine .step (accept_before dot.kind_mem) (.step (expect_before (by simp [method.kind_eq])) ?_)
    rw [if_neg (by simp [method.kind_eq]), ParseState.before_append]
    refine Reaches.congr (P := args.levels ≤ n ∧ rest.levels ≤ n) ?_ Nat.max_le.symm
    exact (parseArgs_before hexpression args hx.1).bind (fun _ => hrest)

theorem parseOperand_before (hexpression : ReadsExprs expression n)
    (hnegand : ReadsHeads negand n) (head : HeadPhrase) (tails : TailsPhrase)
    (hhead : head.Grouped) (htails : tails.Grouped) (hnext : ¬ (c.nextKind s).opensTail) :
    Reaches (parseOperand expression negand c (s.before (head.tokens ++ tails.tokens)))
      (.ok (tails.extend head.tree), s) (max head.levels tails.levels ≤ n) := by
  rw [ParseState.before_append]
  refine Reaches.congr (P := head.levels ≤ n ∧ tails.levels ≤ n) ?_ Nat.max_le.symm
  refine (parseHead_before hexpression hnegand head hhead).bind (fun _ => .step bound_run ?_)
  exact parseTails_before hexpression tails hnext head.tree _ htails (Nat.lt_succ_self _)

/-! ## Operators -/

-- The parser reads every operand with at most `n` levels inside.
def ReadsOperands (p : Parse Expr) (n : Nat) : Prop :=
  ∀ (c : ParseContext) (s : ParseState) (head : HeadPhrase) (tails : TailsPhrase),
    (ExprPhrase.operand head tails).Grouped → ¬ (c.nextKind s).opensTail →
    Reaches (p c (s.before (head.tokens ++ tails.tokens))) (.ok (tails.extend head.tree), s)
      (max head.levels tails.levels ≤ n)

/-- Operands and operators are read up to the end of `x`, and the loop over operators goes on there
with `x` as its left side. -/
def ReachesInfix (operand : Parse Expr) (n : Nat) (x : ExprPhrase) : Prop :=
  ∀ (c : ParseContext) (s : ParseState) (m low : Nat), x.Grouped → low < x.tightness →
    TokenKind.maxPrecedence ≤ low + (m + 1) → ¬ (c.nextKind s).opensTail →
    (c.nextKind s).precedence ≤ x.tightness →
    ∃ k, s.ahead.length < k ∧
      Reaches (parseChain operand (m + 1) low c (s.before x.tokens))
        (parseInfix (parseChain operand m) low k x.tree c s) (x.levels ≤ n)

-- The loop over operators stops before one that does not bind tightly enough.
theorem parseInfix_stop {right : Nat → Parse Expr} {low k : Nat} {left : Expr}
    (h : (c.nextKind s).precedence ≤ low) : parseInfix right low k left c s = (.ok left, s) := by
  cases k with
  | zero => rfl
  | succ k =>
    have hpeek : peek c s = (.ok (s.ahead.headD c.ending), s) := rfl
    have hstop : ¬ low < (s.ahead.headD c.ending).kind.precedence := Nat.not_lt.mpr h
    apply (bind_of_ok hpeek).trans
    rw [if_neg hstop]
    rfl

-- Where the loop over operators stops behind `x`, a chain of operands is `x`.
theorem ReachesInfix.parseChain_before {operand : Parse Expr} (hoperand : ReadsOperands operand n)
    {x : ExprPhrase} (h : ReachesInfix operand n x) {m low : Nat} (hx : x.Grouped)
    (hlow : low < x.tightness) (hm : TokenKind.maxPrecedence ≤ low + m)
    (hnext : ¬ (c.nextKind s).opensTail) (hstop : (c.nextKind s).precedence ≤ low) :
    Reaches (parseChain operand m low c (s.before x.tokens)) (.ok x.tree, s) (x.levels ≤ n) := by
  cases m with
  | zero =>
    cases x with
    | operand head tails => exact hoperand c s head tails hx hnext
    | binary left op right =>
      -- Above the tightest operator there are only operands.
      have hop := TokenKind.precedence_le op.token.kind
      have hlow' : low < op.token.kind.precedence := hlow
      omega
  | succ m =>
    obtain ⟨k, -, hchain⟩ := h c s m low hx hlow hm hnext (by omega)
    rwa [parseInfix_stop hstop] at hchain

/-- Every chain of operands reaches the loop over operators behind it: by induction on the sides,
the left one being what the loop has joined so far. -/
theorem reachesInfix {operand : Parse Expr} (hoperand : ReadsOperands operand n) (x : ExprPhrase) :
    ReachesInfix operand n x := by
  induction x using ExprPhrase.sides with
  | operand head tails =>
    intro c s m low hx _ _ hnext _
    refine ⟨s.ahead.length + 1, Nat.lt_succ_self _, ?_⟩
    exact (hoperand c s head tails hx hnext).bind_free (.step bound_run (.of_eq rfl))
  | binary left op right ihleft ihright =>
    intro c s m low hx hlow hm hnext hprec
    obtain ⟨hopLeft, hopRight, hleft, hright⟩ := hx
    have hlowOp : low < op.token.kind.precedence := hlow
    -- The left side ends before its operator, which opens no tail.
    have hopTail : ¬ op.token.kind.opensTail := by
      have hmem := op.kind_mem
      simp only [TokenKind.binaryOperators, List.mem_cons, List.not_mem_nil, or_false] at hmem
      rcases hmem with h | h | h | h | h | h | h | h | h | h <;> rw [h] <;> decide
    obtain ⟨k, hk, hreach⟩ := ihleft c (s.before (op.token :: right.tokens)) m low hleft
      (by omega) hm hopTail hopLeft
    obtain ⟨k, rfl⟩ := Nat.exists_eq_add_one.mpr (Nat.zero_lt_of_lt hk)
    refine ⟨k, ?_, ?_⟩
    · simp only [ParseState.ahead_before, List.length_append, List.length_cons] at hk
      omega
    · rw [ExprPhrase.tokens, ParseState.before_append]
      refine Reaches.congr (P := left.levels ≤ n ∧ right.levels ≤ n) ?_ Nat.max_le.symm
      -- The loop stands behind the left side, takes the operator and reads the right side.
      refine hreach.trans (fun _ => .step peek_before ?_)
      rw [if_pos hlowOp]
      refine .step (accept_before (List.mem_singleton.mpr rfl)) ?_
      exact (ihright.parseChain_before hoperand hright hopRight (by omega) hnext hprec).bind_free
        (.of_eq rfl)

end

/-! ## Levels -/

/-- With `n` levels left, expressions and the heads behind `!` are read if they open fewer than `n`
inside. -/
theorem parse_before (n : Nat) : ReadsExprs (parse n) n ∧ ReadsHeads (parseNegand n) n := by
  induction n with
  -- Without levels nothing can be opened, and no phrase has fewer than none.
  | zero => exact ⟨fun _ _ _ _ _ => .tooDeep (Nat.not_lt_zero _),
      fun _ _ _ _ => .tooDeep (Nat.not_lt_zero _)⟩
  | succ n ih =>
    have hoperand : ReadsOperands (parseOperand (parse n) (parseNegand n)) n :=
      fun c s head tails hx hnext => parseOperand_before ih.1 ih.2 head tails hx.1 hx.2 hnext
    refine ⟨fun c s x hx hends => ?_, fun c s x hx => ?_⟩
    · rw [parse_succ]
      refine ((reachesInfix hoperand x).parseChain_before hoperand hx x.tightness_pos
        (Nat.le_add_left _ _) hends.1 (Nat.le_of_eq hends.2)).congr Nat.lt_succ_iff.symm
    · rw [parseNegand_succ]
      exact (parseHead_before ih.1 ih.2 x hx).congr Nat.lt_succ_iff.symm

end Expr

end MiniJava
