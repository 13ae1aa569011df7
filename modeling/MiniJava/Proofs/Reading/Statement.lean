import MiniJava.Proofs.Phrase.Statement
import MiniJava.Proofs.Reading.Expr
import MiniJava.Statement.Parse

/-!
# Reading the phrases of statements

What `Expr.parse_before` says of expressions, `Statement.parse_before` says of regular statements,
for a parser that gives up at the first error. What stands behind a statement must not be an `else`
that an `if` inside the statement would take.
-/

namespace MiniJava

open Parse

variable {c : ParseContext} {s : ParseState}

/-! ## Types and declarations -/

-- An optional `[]`, where no other bracket follows.
theorem TypeRef.parseSuffix_before (base : Token)
    (suffix? : Option (Terminal [.lbracket] × Terminal [.rbracket]))
    (hnext : c.nextKind s ≠ .lbracket) :
    TypeRef.parseSuffix base c (s.before (TypePhrase.suffixTokens suffix?)) =
      (.ok ⟨base, suffix?.isSome⟩, s) := by
  cases suffix? with
  | none => exact bind_of_ok (accept_of_notMem (fun h => hnext (List.mem_singleton.mp h)))
  | some brackets =>
    exact (bind_of_ok (accept_before brackets.1.kind_mem)).trans
      (bind_of_ok (expect_before brackets.2.kind_mem))

theorem TypeRef.parse_before {bases : List TokenKind} (x : TypePhrase bases)
    (hnext : c.nextKind s ≠ .lbracket) :
    TypeRef.parse bases c (s.before x.tokens) = (.ok x.tree, s) :=
  (bind_of_ok (expect_before x.base.kind_mem)).trans
    (TypeRef.parseSuffix_before x.base.token x.suffix? hnext)

theorem VarDecl.parse_before {bases : List TokenKind} (x : DeclPhrase bases) :
    VarDecl.parse bases c (s.before x.tokens) = (.ok x.tree, s) := by
  have hname : c.nextKind (s.before [x.name.token, x.ending.token]) ≠ .lbracket := by
    rw [ParseContext.nextKind_before_leaf]
    decide
  rw [DeclPhrase.tokens, ParseState.before_append]
  apply (bind_of_ok (TypeRef.parse_before x.type hname)).trans
  apply (bind_of_ok (expect_before x.name.kind_mem)).trans
  exact bind_of_ok (expect_before x.ending.kind_mem)

namespace Statement

/-- The parser reads every regular statement with fewer than `n` levels inside. -/
def ReadsStatements (p : Parse Statement) (n : Nat) : Prop :=
  ∀ (c : ParseContext) (s : ParseState) (x : StatementPhrase), c.policy = .failFast →
    x.Every (·.Regular) → (x.endsOpen = true → c.nextKind s ≠ .elseWord) →
    Reaches (p c (s.before x.tokens)) (.ok x.tree, s) (x.levels < n)

/-! ## First tokens -/

-- A name at the beginning of an expression is followed by no other name.
theorem nextKind_behind_name (x : ExprPhrase) :
    ∀ {t : Token} {ts rest : List Token}, x.tokens = t :: ts → t.kind = .identifier →
      c.nextKind (s.before rest) ≠ .identifier →
      c.nextKind (s.before (ts ++ rest)) ≠ .identifier := by
  induction x using ExprPhrase.sides with
  | operand head tails =>
    intro t ts rest heq hkind hrest
    cases head with
    | name leaf =>
      -- Behind the name stands the token of a tail, or what follows the whole expression.
      obtain ⟨rfl, rfl⟩ := List.cons.inj heq
      cases tails with
      | nil => exact hrest
      | index leaf _ _ _ | length leaf _ _ | call leaf _ _ _ =>
        simp [TailsPhrase.tokens, leaf.kind_eq]
    | not leaf _ | parens leaf _ _ | newObject leaf _ _ _ | newArray leaf _ _ _ _ =>
      obtain ⟨rfl, -⟩ := List.cons.inj heq
      exact absurd (leaf.kind_eq.symm.trans hkind) (by decide)
    | this leaf | boolLiteral leaf | intLiteral leaf =>
      obtain ⟨rfl, -⟩ := List.cons.inj heq
      exact absurd (leaf.kind_eq.symm.trans hkind) (by decide)
  | binary left op right ih _ =>
    intro t ts rest heq hkind hrest
    -- The name is the first token of the left side, and the operator behind it is no name.
    obtain ⟨u, us, hleft, -⟩ := left.exists_tokens_eq_cons
    rw [ExprPhrase.tokens, hleft, List.cons_append] at heq
    obtain ⟨rfl, rfl⟩ := List.cons.inj heq
    rw [List.append_assoc]
    apply ih hleft hkind
    intro hop
    rw [List.cons_append, ParseContext.nextKind_before_cons] at hop
    have hmem := op.kind_mem
    rw [hop] at hmem
    exact absurd hmem (by decide)

-- A regular statement begins with a token that statements begin with.
theorem exists_tokens_eq_cons (x : StatementPhrase) (hx : x.NameFirst) :
    ∃ t ts, x.tokens = t :: ts ∧ t.kind ∈ NodeKind.statementStart := by
  have hexpr (e : ExprPhrase) (ts : List Token) (he : e.BeginsWithName) :
      ∃ t us, e.tokens ++ ts = t :: us ∧ t.kind ∈ NodeKind.statementStart := by
    obtain ⟨t, us, heq, -⟩ := e.exists_tokens_eq_cons
    rw [ExprPhrase.BeginsWithName, heq, List.head?_cons, Option.map_some, Option.some.injEq] at he
    exact ⟨t, us ++ ts, by rw [heq, List.cons_append], by simp [he, NodeKind.statementStart]⟩
  cases x with
  | assignment target sign value ending => exact hexpr target _ hx
  | call call ending => exact hexpr call.expr _ hx
  | varDecl decl bare =>
    refine ⟨decl.type.base.token, _, rfl, ?_⟩
    have hmem := decl.type.base.kind_mem
    simp only [NodeKind.varDeclStart, List.mem_cons, List.not_mem_nil, or_false] at hmem
    rcases hmem with h | h | h <;> rw [h] <;> decide
  | block leaf _ _ | print leaf _ _ _ _ _ _ | assert leaf _ _ | returnValue leaf _ _ =>
    exact ⟨leaf.token, _, rfl, by simp [leaf.kind_eq, NodeKind.statementStart]⟩
  | ifThen leaf _ _ | ifElse leaf _ _ _ _ | loop leaf _ _ =>
    exact ⟨leaf.token, _, rfl, by simp [leaf.kind_eq, NodeKind.statementStart]⟩

-- No `else` stands before regular statements or, if there are none, before what follows them.
theorem nextKind_statements_ne (x : StatementsPhrase) (hx : x.Every (·.Regular))
    (hnext : c.nextKind s ≠ .elseWord) : c.nextKind (s.before x.tokens) ≠ .elseWord := by
  cases x with
  | nil => exact hnext
  | cons first rest =>
    obtain ⟨t, ts, heq, hkind⟩ := exists_tokens_eq_cons first hx.1.self.2
    rw [StatementsPhrase.tokens, heq, List.cons_append, ParseContext.nextKind_before_cons]
    intro h
    rw [h] at hkind
    exact absurd hkind (by decide)

section

variable {n : Nat} {expression : Parse Expr} {statement : Parse Statement}

/-! ## Parts of statements -/

theorem parseParenthesized_before (hexpression : Expr.ReadsExprs expression n) (x : ParensPhrase)
    (hx : x.inner.Grouped) :
    Reaches (parseParenthesized expression c (s.before x.tokens)) (.ok x.inner.tree, s)
      (x.inner.levels < n) :=
  .step (expect_before x.opening.kind_mem)
    (Expr.enclosed_before_pure (f := fun e => e) hexpression hx x.closing (by decide))

-- A step that may be recovered from is the step alone where the first error ends the parse.
theorem recovering_reaches {α : Type} {step : Parse α} {boundary : Boundary} {a : α}
    {s s' : ParseState} {P : Prop} (hc : c.policy = .failFast)
    (h : Reaches (step c s) (.ok a, s') P) :
    Reaches (recovering boundary step c s) (.ok (some a), s') P := by
  refine ⟨fun hp => recovering_of_ok boundary (h.1 hp), fun hn => ?_⟩
  obtain ⟨t, u, herror⟩ := h.2 hn
  exact ⟨t, u, recovering_of_failFast boundary hc herror⟩

-- Statements up to the brace that closes them.
theorem parseMany_before (hstatement : ReadsStatements statement n) (hc : c.policy = .failFast)
    (x : StatementsPhrase) (hnext : c.nextKind s = .rbrace) :
    ∀ k : Nat, x.Every (·.Regular) → (x.tokens ++ s.ahead).length < k →
      Reaches (parseMany statement k c (s.before x.tokens)) (.ok x.trees, s) (x.levels ≤ n) := by
  induction x using StatementsPhrase.chain with
  | nil =>
    intro k _ hk
    obtain ⟨k, rfl⟩ := Nat.exists_eq_add_one.mpr (Nat.zero_lt_of_lt hk)
    have hpeek : peek c s = (.ok (s.ahead.headD c.ending), s) := rfl
    have hbrace : (s.ahead.headD c.ending).kind = .rbrace := hnext
    refine .step hpeek ?_
    rw [if_pos (.inl hbrace)]
    exact (Reaches.pure _).congr (by simp [StatementsPhrase.levels])
  | cons first rest ih =>
    intro k hx hk
    obtain ⟨k, rfl⟩ := Nat.exists_eq_add_one.mpr (Nat.zero_lt_of_lt hk)
    obtain ⟨t, ts, heq, hkind⟩ := exists_tokens_eq_cons first hx.1.self.2
    have hrest := ih k hx.2 (by
      simp only [StatementsPhrase.tokens, heq, List.length_append, List.length_cons] at hk ⊢
      omega)
    -- An `else` behind the first statement would be the first token of the others or the brace.
    have hfirst : Reaches (statement c ((s.before rest.tokens).before first.tokens))
        (.ok first.tree, s.before rest.tokens) (first.levels < n) := by
      refine hstatement c _ first hc hx.1 (fun _ => ?_)
      exact nextKind_statements_ne rest hx.2 (by rw [hnext]; decide)
    rw [StatementsPhrase.tokens, ParseState.before_append]
    have hpeek : peek c ((s.before rest.tokens).before first.tokens) =
        (.ok t, (s.before rest.tokens).before first.tokens) := by
      rw [heq]
      exact peek_before
    refine .step hpeek ?_
    -- A statement begins neither with the brace nor with the end of file.
    rw [if_neg (by
      rintro (h | h) <;> rw [h] at hkind <;> exact absurd hkind (by decide))]
    refine Reaches.congr (P := first.levels < n ∧ rest.levels ≤ n) ?_ Nat.max_le.symm
    exact (recovering_reaches hc hfirst).bind (fun _ => hrest.map)

theorem parseList_before (hstatement : ReadsStatements statement n) (hc : c.policy = .failFast)
    (x : StatementsPhrase) (hx : x.Every (·.Regular)) (closing : Terminal [.rbrace]) :
    Reaches (parseList statement c (s.before (x.tokens ++ [closing.token]))) (.ok x.trees, s)
      (x.levels ≤ n) := by
  have hnext : c.nextKind (s.before [closing.token]) = .rbrace := closing.kind_eq
  rw [ParseState.before_append]
  refine .step bound_run ((parseMany_before hstatement hc x hnext _ hx ?_).bind_free ?_)
  · exact Nat.lt_succ_self _
  · exact .step (expect_before closing.kind_mem) (.pure _)

-- The part of a conditional or of a loop before its branches.
theorem condition_before {α : Type} (hexpression : Expr.ReadsExprs expression n) (x : ParensPhrase)
    (hx : x.inner.Grouped) {ts : List Token} {f : Expr → Parse α}
    {r : Except SyntaxError α × ParseState} {Q : Prop}
    (hf : Reaches (f x.inner.tree c (s.before ts)) r Q) :
    Reaches ((parseParenthesized expression >>= f) c (s.before (x.tokens ++ ts))) r
      (x.inner.levels < n ∧ Q) := by
  rw [ParseState.before_append]
  exact (parseParenthesized_before hexpression x hx).bind (fun _ => hf)

-- The part of a statement from its expression in parentheses on, where only a semicolon follows
-- that.
theorem parenthesized_before_pure {α : Type} (hexpression : Expr.ReadsExprs expression n)
    (x : ParensPhrase) (hx : x.inner.Grouped) (ending : Terminal [.semicolon]) {f : Expr → α} :
    Reaches ((parseParenthesized expression >>= fun e => expect [.semicolon] >>= fun _ =>
        pure (f e)) c (s.before (x.tokens ++ [ending.token])))
      (.ok (f x.inner.tree), s) (x.inner.levels < n) := by
  rw [ParseState.before_append]
  apply (parseParenthesized_before hexpression x hx).bind_free
  exact .step (expect_before ending.kind_mem) (.pure _)

/-! ## Forms of statements -/

-- A name that no other name follows begins an expression.
theorem parseForm_of_name {x : ExprPhrase} (hx : x.BeginsWithName) {ts : List Token}
    (hts : c.nextKind (s.before ts) ≠ .identifier) :
    parseForm expression statement c (s.before (x.tokens ++ ts)) =
      parseExpression expression c (s.before (x.tokens ++ ts)) := by
  obtain ⟨t, us, heq, -⟩ := x.exists_tokens_eq_cons
  have hkind : t.kind = .identifier := by
    rw [ExprPhrase.BeginsWithName, heq, List.head?_cons, Option.map_some, Option.some.injEq] at hx
    exact hx
  have hbehind := nextKind_behind_name (c := c) (s := s) x heq hkind hts
  rw [heq, List.cons_append]
  apply (bind_of_ok peek_before).trans
  simp only [hkind]
  apply (bind_of_ok peekBehind_before).trans
  rw [if_neg hbehind]

theorem parseForm_varDecl (decl : DeclPhrase NodeKind.varDeclStart)
    (bare : decl.type.base.token.kind = .identifier → decl.type.suffix? = none) :
    parseForm expression statement c (s.before decl.tokens) = (.ok (.varDecl decl.tree), s) := by
  have hdecl : parseVarDecl c (s.before decl.tokens) = (.ok (.varDecl decl.tree), s) :=
    bind_of_ok (VarDecl.parse_before decl)
  have hpeek : peek c (s.before decl.tokens) = (.ok decl.type.base.token, s.before decl.tokens) :=
    peek_before
  apply (bind_of_ok hpeek).trans
  have hmem := decl.type.base.kind_mem
  simp only [NodeKind.varDeclStart, List.mem_cons, List.not_mem_nil, or_false] at hmem
  rcases hmem with h | h | h
  · simp only [h]
    exact hdecl
  · simp only [h]
    exact hdecl
  -- A class name has no brackets here, so that the variable's name stands right behind it.
  · have hbehind : peekBehind c (s.before decl.tokens) =
        (.ok .identifier, s.before decl.tokens) := by
      rw [DeclPhrase.tokens, TypePhrase.tokens, bare h]
      apply peekBehind_before.trans
      show (Except.ok decl.name.token.kind, _) = _
      rw [decl.name.kind_eq]
      rfl
    simp only [h]
    apply (bind_of_ok hbehind).trans
    rw [if_pos rfl]
    exact hdecl

theorem parseExpression_assignment (hexpression : Expr.ReadsExprs expression n)
    (target : ExprPhrase) (sign : Terminal [.assign]) (value : ExprPhrase)
    (ending : Terminal [.semicolon]) (htarget : target.Grouped) (hvalue : value.Grouped) :
    Reaches (parseExpression expression c
        (s.before (target.tokens ++ sign.token :: (value.tokens ++ [ending.token]))))
      (.ok (.assignment target.tree value.tree target.tree.position), s)
      (max (target.levels + 1) (value.levels + 1) ≤ n) := by
  have hends :
      (c.nextKind (s.before (sign.token :: (value.tokens ++ [ending.token])))).EndsExpr := by
    rw [ParseContext.nextKind_before_leaf]
    decide
  rw [ParseState.before_append]
  refine Reaches.congr (P := target.levels < n ∧ value.levels < n) ?_ Nat.max_le.symm
  refine (hexpression c _ target htarget hends).bind (fun _ => ?_)
  refine .step (accept_before sign.kind_mem) ?_
  exact Expr.enclosed_before_pure hexpression hvalue ending (by decide)

theorem parseExpression_call (hexpression : Expr.ReadsExprs expression n) (call : CallPhrase)
    (ending : Terminal [.semicolon]) (hcall : call.expr.Grouped) :
    Reaches (parseExpression expression c (s.before (call.expr.tokens ++ [ending.token])))
      (.ok (.call (call.tails.extend call.head.tree) call.method.token call.args.trees), s)
      (call.expr.levels < n) := by
  have hends : (c.nextKind (s.before [ending.token])).EndsExpr := by
    rw [ParseContext.nextKind_before_leaf]
    decide
  have hassign : c.nextKind (s.before [ending.token]) ∉ [TokenKind.assign] := by
    rw [ParseContext.nextKind_before_leaf]
    decide
  rw [ParseState.before_append]
  apply (hexpression c _ call.expr hcall hends).bind_free
  refine .step (accept_of_notMem hassign) ?_
  rw [CallPhrase.tree_expr]
  exact .step (expect_before ending.kind_mem) (.pure _)

-- A statement, where the expressions and statements inside have at most `n` levels.
theorem parseForm_before (hexpression : Expr.ReadsExprs expression n)
    (hstatement : ReadsStatements statement n) (hc : c.policy = .failFast) (x : StatementPhrase)
    (hx : x.Every (·.Regular)) (hnext : x.endsOpen = true → c.nextKind s ≠ .elseWord) :
    Reaches (parseForm expression statement c (s.before x.tokens)) (.ok x.tree, s)
      (x.levels ≤ n) := by
  have hgrouped := hx.self.1.1
  have hname := hx.self.2
  cases x with
  | block opening statements closing =>
    refine .step peek_before ?_
    simp only [opening.kind_eq]
    refine .step (expect_before opening.kind_mem) ?_
    exact (parseList_before hstatement hc statements hx.2 closing).map
  | varDecl decl bare =>
    exact (Reaches.of_eq (parseForm_varDecl decl bare)).congr (by simp [StatementPhrase.levels])
  | assignment target sign value ending =>
    rw [StatementPhrase.tokens, parseForm_of_name hname (by simp [sign.kind_eq])]
    exact parseExpression_assignment hexpression target sign value ending
      (hgrouped target (by simp [StatementPhrase.exprs]))
      (hgrouped value (by simp [StatementPhrase.exprs]))
  | print word dot out dot' println value ending =>
    refine .step peek_before ?_
    simp only [word.kind_eq]
    refine .step (expect_before word.kind_mem) (.step (expect_before dot.kind_mem) ?_)
    refine .step (expect_before out.kind_mem) (.step (expect_before dot'.kind_mem) ?_)
    refine .step (expect_before println.kind_mem) ?_
    exact parenthesized_before_pure hexpression value
      (hgrouped value.inner (by simp [StatementPhrase.exprs])) ending
  | assert word condition ending =>
    refine .step peek_before ?_
    simp only [word.kind_eq]
    refine .step (expect_before word.kind_mem) ?_
    exact parenthesized_before_pure hexpression condition
      (hgrouped condition.inner (by simp [StatementPhrase.exprs])) ending
  | returnValue word value ending =>
    refine .step peek_before ?_
    simp only [word.kind_eq]
    refine .step (expect_before word.kind_mem) ?_
    exact Expr.enclosed_before_pure hexpression
      (hgrouped value (by simp [StatementPhrase.exprs])) ending (by decide)
  | call call ending =>
    rw [StatementPhrase.tokens, parseForm_of_name hname (by simp [ending.kind_eq])]
    exact parseExpression_call hexpression call ending
      (hgrouped call.expr (by simp [StatementPhrase.exprs]))
  | ifThen word condition thenBranch =>
    have hcondition := hgrouped condition.inner (by simp [StatementPhrase.exprs])
    -- The `if` takes no `else`: neither its branch nor what follows it may be followed by one.
    have hthen := hstatement c s thenBranch hc hx.2 (fun _ => hnext rfl)
    refine .step peek_before ?_
    simp only [word.kind_eq]
    refine .step (expect_before word.kind_mem) ?_
    refine Reaches.congr (P := condition.inner.levels < n ∧ thenBranch.levels < n ∧ True) ?_
      (by simp only [StatementPhrase.levels, and_true]; omega)
    refine condition_before hexpression condition hcondition (hthen.bind (fun _ => ?_))
    exact .step (accept_of_notMem (fun h => hnext rfl (List.mem_singleton.mp h))) (.pure _)
  | ifElse word condition thenBranch elseWord elseBranch =>
    have hcondition := hgrouped condition.inner (by simp [StatementPhrase.exprs])
    -- The first branch does not end open, and so leaves the `else` to this `if`.
    have hnearest : thenBranch.endsOpen = false := hx.self.1.2
    have hthen := hstatement c (s.before (elseWord.token :: elseBranch.tokens)) thenBranch hc hx.2.1
      (fun h => absurd (hnearest.symm.trans h) (by decide))
    have helse := hstatement c s elseBranch hc hx.2.2 hnext
    refine .step peek_before ?_
    simp only [word.kind_eq]
    refine .step (expect_before word.kind_mem) ?_
    refine Reaches.congr
      (P := condition.inner.levels < n ∧ thenBranch.levels < n ∧ elseBranch.levels < n) ?_
      (by simp only [StatementPhrase.levels]; omega)
    apply condition_before hexpression condition hcondition
    rw [ParseState.before_append]
    refine hthen.bind (fun _ => ?_)
    exact .step (accept_before elseWord.kind_mem) helse.map
  | loop word condition body =>
    have hcondition := hgrouped condition.inner (by simp [StatementPhrase.exprs])
    have hbody := hstatement c s body hc hx.2 hnext
    refine .step peek_before ?_
    simp only [word.kind_eq]
    refine .step (expect_before word.kind_mem) ?_
    refine Reaches.congr (P := condition.inner.levels < n ∧ body.levels < n) ?_ Nat.max_le.symm
    exact condition_before hexpression condition hcondition hbody.map

end

/-- With `n` levels left, regular statements are read if they open fewer than `n` inside. -/
theorem parse_before (n : Nat) : ReadsStatements (parse n) n := by
  induction n with
  | zero => exact fun _ _ _ _ _ _ => .tooDeep (Nat.not_lt_zero _)
  | succ n ih =>
    intro c s x hc hx hnext
    rw [parse_succ]
    exact (parseForm_before (Expr.parse_before n).1 ih hc x hx hnext).congr Nat.lt_succ_iff.symm

end Statement

end MiniJava
