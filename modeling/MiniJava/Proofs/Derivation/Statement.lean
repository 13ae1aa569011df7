import MiniJava.Proofs.Derivation.Expr
import MiniJava.Proofs.Phrase.Statement
import MiniJava.Statement.Parse

/-!
# Deriving what was read — statements

What `Expr.derives_parse` says of expressions, `Statement.derives_parse` says of statements, for a
parser that gives up at the first error: what was read is a regular statement, and no `else` stands
behind it that an `if` inside it could have taken.
-/

namespace MiniJava

open Parse

variable {c : ParseContext} {s s' : ParseState}

/-! ## Types and declarations -/

theorem TypeRef.derives_parseSuffix (hending : c.ending.kind = .eof) {base : Token} {a : TypeRef}
    (h : TypeRef.parseSuffix base c s = (.ok a, s')) :
    ∃ suffix? : Option (Terminal [.lbracket] × Terminal [.rbracket]),
      s = s'.before (TypePhrase.suffixTokens suffix?) ∧ ⟨base, suffix?.isSome⟩ = a := by
  replace h := accept_bind_eq_ok hending (by decide) h
  obtain ⟨opening, u, rfl, h⟩ | ⟨-, h⟩ := h
  · replace h := expect_bind_eq_ok hending (by decide) h
    obtain ⟨closing, v, rfl, h⟩ := h
    cases h
    exact ⟨some (opening, closing), rfl, rfl⟩
  · cases h
    exact ⟨none, rfl, rfl⟩

theorem TypeRef.derives_parse {bases : List TokenKind} (hending : c.ending.kind = .eof)
    (heof : TokenKind.eof ∉ bases) {a : TypeRef} (h : TypeRef.parse bases c s = (.ok a, s')) :
    ∃ x : TypePhrase bases, s = s'.before x.tokens ∧ x.tree = a := by
  replace h := expect_bind_eq_ok hending heof h
  obtain ⟨base, u, rfl, h⟩ := h
  obtain ⟨suffix?, rfl, rfl⟩ := TypeRef.derives_parseSuffix hending h
  exact ⟨⟨base, suffix?⟩, rfl, rfl⟩

theorem VarDecl.derives_parse {bases : List TokenKind} (hending : c.ending.kind = .eof)
    (heof : TokenKind.eof ∉ bases) {a : VarDecl} (h : VarDecl.parse bases c s = (.ok a, s')) :
    ∃ x : DeclPhrase bases, s = s'.before x.tokens ∧ x.tree = a := by
  replace h := Parse.bind_eq_ok.mp h
  obtain ⟨_, u, htype, h⟩ := h
  obtain ⟨type, rfl, rfl⟩ := TypeRef.derives_parse hending heof htype
  replace h := expect_bind_eq_ok hending (by decide) h
  obtain ⟨name, v, rfl, h⟩ := h
  replace h := expect_bind_eq_ok hending (by decide) h
  obtain ⟨ending, w, rfl, h⟩ := h
  cases h
  refine ⟨⟨type, name, ending⟩, ?_, rfl⟩
  simp [DeclPhrase.tokens, ParseState.before]

/-! ## Calls -/

-- Tails that make a call of an expression end in one, unless there are none.
theorem TailsPhrase.eq_nil_or_append (x : TailsPhrase) :
    ∀ {e receiver : Expr} {method : Token} {args : List Expr},
      x.extend e = .call receiver method args →
      x = .nil ∨ ∃ (tails : TailsPhrase) (dot : Terminal [.dot]) (name : Terminal [.identifier])
        (as : ArgsPhrase), x = tails.append (.call dot name as .nil) := by
  induction x using TailsPhrase.chain with
  | nil => exact fun _ => .inl rfl
  | index opening i closing rest ih =>
    intro e receiver method args h
    -- The last tail is that of the rest, unless there is none and the whole is no call.
    obtain rfl | ⟨tails, dot, name, as, rfl⟩ := ih h
    · cases h
    · exact .inr ⟨.index opening i closing tails, dot, name, as, rfl⟩
  | length dot' word rest ih =>
    intro e receiver method args h
    obtain rfl | ⟨tails, dot, name, as, rfl⟩ := ih h
    · cases h
    · exact .inr ⟨.length dot' word tails, dot, name, as, rfl⟩
  | call dot' method' args' rest ih =>
    intro e receiver method args h
    obtain rfl | ⟨tails, dot, name, as, rfl⟩ := ih h
    · exact .inr ⟨.nil, dot', method', args', rfl⟩
    · exact .inr ⟨.call dot' method' args' tails, dot, name, as, rfl⟩

-- An expression that begins with a name and stands for a call is one.
theorem ExprPhrase.exists_callPhrase {x : ExprPhrase} (hx : x.BeginsWithName) {receiver : Expr}
    {method : Token} {args : List Expr} (h : x.tree = .call receiver method args) :
    ∃ call : CallPhrase, call.expr = x := by
  cases x with
  | binary left op right => cases h
  | operand head tails =>
    obtain rfl | ⟨tails', dot, name, as, rfl⟩ := tails.eq_nil_or_append h
    · cases head with
      | name leaf => cases h
      | this | boolLiteral | intLiteral | newObject | newArray => cases h
      -- Without tails only parentheses could hold the call, and those do not begin with a name.
      | not leaf | parens leaf =>
        rw [BeginsWithName, ExprPhrase.tokens, HeadPhrase.tokens, List.cons_append, List.head?_cons,
          Option.map_some, leaf.kind_eq] at hx
        cases hx
    · exact ⟨⟨head, tails', dot, name, as⟩, rfl⟩

namespace Statement

/-- A regular statement with fewer than `n` levels inside lies between the two states, and no `else`
follows that it would have taken. -/
def Derived (c : ParseContext) (n : Nat) (s s' : ParseState) (a : Statement) : Prop :=
  ∃ x : StatementPhrase, s = s'.before x.tokens ∧ x.tree = a ∧ x.Every (·.Regular) ∧
    x.levels < n ∧ (x.endsOpen = true → c.nextKind s' ≠ .elseWord)

/-- Whatever the parser gives lies between two states. -/
def DerivesStatements (p : Parse Statement) (n : Nat) : Prop :=
  ∀ {c : ParseContext} {s s' : ParseState} {a : Statement}, c.policy = .failFast →
    c.ending.kind = .eof → p c s = (.ok a, s') → Derived c n s s' a

section

variable {n : Nat} {expression : Parse Expr} {statement : Parse Statement} {a : Statement}

/-! ## Parts of statements -/

-- An expression in parentheses at the beginning of what was read.
theorem parenthesized_bind_eq_ok {β : Type} (hexpression : Expr.DerivesExprs expression n)
    (hending : c.ending.kind = .eof) {f : Expr → Parse β} {b : β}
    (h : (parseParenthesized expression >>= f) c s = (.ok b, s')) :
    ∃ (x : ParensPhrase) (u : ParseState), s = u.before x.tokens ∧ x.inner.Grouped ∧
      x.inner.levels < n ∧ f x.inner.tree c u = (.ok b, s') := by
  replace h := Parse.bind_eq_ok.mp h
  obtain ⟨e, u, he, h⟩ := h
  replace he := expect_bind_eq_ok hending (by decide) he
  obtain ⟨opening, v, rfl, he⟩ := he
  replace he := hexpression.enclosed_eq_ok (f := fun e => pure e) hending (by decide) he
  obtain ⟨inner, closing, w, rfl, hinner, hlevels, he⟩ := he
  cases he
  exact ⟨⟨opening, inner, closing⟩, u, rfl, hinner, hlevels, h⟩

-- A step that may be recovered from gives a value if the step alone does, where the first error
-- ends the parse.
theorem recovering_eq_ok {α : Type} {step : Parse α} {boundary : Boundary} {a? : Option α}
    (hc : c.policy = .failFast) (h : recovering boundary step c s = (.ok a?, s')) :
    ∃ a, a? = some a ∧ step c s = (.ok a, s') := by
  cases hstep : step c s with
  | mk result u =>
    cases result with
    | ok a =>
      rw [recovering_of_ok boundary hstep] at h
      cases h
      exact ⟨a, rfl, rfl⟩
    | error e =>
      rw [recovering_of_failFast boundary hc hstep] at h
      cases h

theorem derives_parseMany (hstatement : DerivesStatements statement n)
    (hc : c.policy = .failFast) (hending : c.ending.kind = .eof) (k : Nat) :
    ∀ {s : ParseState} {as : List Statement}, parseMany statement k c s = (.ok as, s') →
      ∃ x : StatementsPhrase, s = s'.before x.tokens ∧ x.trees = as ∧ x.Every (·.Regular) ∧
        x.levels ≤ n := by
  induction k with
  | zero =>
    intro s as h
    cases h
    exact ⟨.nil, rfl, rfl, trivial, Nat.zero_le n⟩
  | succ k ih =>
    intro s as h
    have hpeek : peek c s = (.ok (s.ahead.headD c.ending), s) := rfl
    replace h := (bind_of_ok hpeek).symm.trans h
    by_cases hstop : (s.ahead.headD c.ending).kind = .rbrace ∨ (s.ahead.headD c.ending).kind = .eof
    · rw [if_pos hstop] at h
      cases h
      exact ⟨.nil, rfl, rfl, trivial, Nat.zero_le n⟩
    · rw [if_neg hstop] at h
      replace h := Parse.bind_eq_ok.mp h
      obtain ⟨_, u, hfirst, h⟩ := h
      replace hfirst := recovering_eq_ok hc hfirst
      obtain ⟨a, rfl, hfirst⟩ := hfirst
      obtain ⟨first, rfl, rfl, hregular, hlevels, -⟩ := hstatement hc hending hfirst
      replace h := Parse.bind_eq_ok.mp h
      obtain ⟨_, v, hrest, h⟩ := h
      cases h
      obtain ⟨rest, rfl, rfl, hrestRegular, hrestLevels⟩ := ih hrest
      exact ⟨.cons first rest, (ParseState.before_append _ _ _).symm, rfl,
        ⟨hregular, hrestRegular⟩, Nat.max_le.mpr ⟨hlevels, hrestLevels⟩⟩

theorem derives_parseList (hstatement : DerivesStatements statement n)
    (hc : c.policy = .failFast) (hending : c.ending.kind = .eof) {as : List Statement}
    (h : parseList statement c s = (.ok as, s')) :
    ∃ (x : StatementsPhrase) (closing : Terminal [.rbrace]),
      s = s'.before (x.tokens ++ [closing.token]) ∧ x.trees = as ∧ x.Every (·.Regular) ∧
      x.levels ≤ n := by
  replace h := (bind_of_ok bound_run).symm.trans h
  replace h := Parse.bind_eq_ok.mp h
  obtain ⟨_, u, hmany, h⟩ := h
  obtain ⟨x, rfl, rfl, hx, hlevels⟩ := derives_parseMany hstatement hc hending _ hmany
  replace h := expect_bind_eq_ok hending (by decide) h
  obtain ⟨closing, v, rfl, h⟩ := h
  cases h
  exact ⟨x, closing, (ParseState.before_append _ _ _).symm, rfl, hx, hlevels⟩

/-! ## Forms of statements -/

theorem derives_parseBlock (hstatement : DerivesStatements statement n)
    (hc : c.policy = .failFast) (hending : c.ending.kind = .eof)
    (h : parseBlock statement c s = (.ok a, s')) : Derived c (n + 1) s s' a := by
  replace h := expect_bind_eq_ok hending (by decide) h
  obtain ⟨opening, u, rfl, h⟩ := h
  replace h := Parse.bind_eq_ok.mp h
  obtain ⟨_, v, hlist, h⟩ := h
  cases h
  obtain ⟨x, closing, rfl, rfl, hx, hlevels⟩ := derives_parseList hstatement hc hending hlist
  refine ⟨.block opening x closing, rfl, rfl, ⟨⟨⟨?_, trivial⟩, trivial⟩, hx⟩,
    Nat.lt_succ_of_le hlevels, nofun⟩
  exact fun e he => absurd he List.not_mem_nil

-- A local declaration, where the type is a name only if another name stands right behind it.
theorem derives_parseVarDecl (hending : c.ending.kind = .eof)
    (hbare : c.nextKind s = .identifier → (s.ahead.tail.headD c.ending).kind = .identifier)
    (h : parseVarDecl c s = (.ok a, s')) : Derived c (n + 1) s s' a := by
  replace h := Parse.bind_eq_ok.mp h
  obtain ⟨_, v, hdecl, h⟩ := h
  cases h
  obtain ⟨decl, rfl, rfl⟩ := VarDecl.derives_parse hending (by decide) hdecl
  -- Brackets behind the type would stand where the name was seen.
  have bare : decl.type.base.token.kind = .identifier → decl.type.suffix? = none := by
    intro hbase
    have hbehind := hbare hbase
    cases hsuffix : decl.type.suffix? with
    | none => rfl
    | some brackets =>
      have hkind : (((s'.before decl.tokens).ahead.tail).headD c.ending).kind = .lbracket := by
        rw [DeclPhrase.tokens, TypePhrase.tokens, hsuffix]
        exact brackets.1.kind_eq
      exact absurd (hkind.symm.trans hbehind) (by decide)
  refine ⟨.varDecl decl bare, rfl, rfl, ⟨⟨?_, trivial⟩, trivial⟩, Nat.succ_pos n, nofun⟩
  exact fun e he => absurd he List.not_mem_nil

theorem derives_parseReturn (hexpression : Expr.DerivesExprs expression n)
    (hending : c.ending.kind = .eof) (h : parseReturn expression c s = (.ok a, s')) :
    Derived c (n + 1) s s' a := by
  replace h := expect_bind_eq_ok hending (by decide) h
  obtain ⟨word, u, rfl, h⟩ := h
  replace h := hexpression.enclosed_eq_ok hending (by decide) h
  obtain ⟨value, ending, v, rfl, hvalue, hlevels, h⟩ := h
  cases h
  refine ⟨.returnValue word value ending, rfl, rfl, ⟨⟨?_, trivial⟩, trivial⟩,
    Nat.succ_lt_succ hlevels, nofun⟩
  simpa [StatementPhrase.Grouped, StatementPhrase.exprs] using hvalue

theorem derives_parseAssert (hexpression : Expr.DerivesExprs expression n)
    (hending : c.ending.kind = .eof) (h : parseAssert expression c s = (.ok a, s')) :
    Derived c (n + 1) s s' a := by
  replace h := expect_bind_eq_ok hending (by decide) h
  obtain ⟨word, u, rfl, h⟩ := h
  replace h := parenthesized_bind_eq_ok hexpression hending h
  obtain ⟨condition, v, rfl, hcondition, hlevels, h⟩ := h
  replace h := expect_bind_eq_ok hending (by decide) h
  obtain ⟨ending, w, rfl, h⟩ := h
  cases h
  refine ⟨.assert word condition ending, ?_, rfl, ⟨⟨?_, trivial⟩, trivial⟩,
    Nat.succ_lt_succ hlevels, nofun⟩
  · simp [StatementPhrase.tokens, ParseState.before]
  · simpa [StatementPhrase.Grouped, StatementPhrase.exprs] using hcondition

theorem derives_parsePrint (hexpression : Expr.DerivesExprs expression n)
    (hending : c.ending.kind = .eof) (h : parsePrint expression c s = (.ok a, s')) :
    Derived c (n + 1) s s' a := by
  replace h := expect_bind_eq_ok hending (by decide) h
  obtain ⟨word, u, rfl, h⟩ := h
  replace h := expect_bind_eq_ok hending (by decide) h
  obtain ⟨dot, u, rfl, h⟩ := h
  replace h := expect_bind_eq_ok hending (by decide) h
  obtain ⟨out, u, rfl, h⟩ := h
  replace h := expect_bind_eq_ok hending (by decide) h
  obtain ⟨dot', u, rfl, h⟩ := h
  replace h := expect_bind_eq_ok hending (by decide) h
  obtain ⟨println, u, rfl, h⟩ := h
  replace h := parenthesized_bind_eq_ok hexpression hending h
  obtain ⟨value, v, rfl, hvalue, hlevels, h⟩ := h
  replace h := expect_bind_eq_ok hending (by decide) h
  obtain ⟨ending, w, rfl, h⟩ := h
  cases h
  refine ⟨.print word dot out dot' println value ending, ?_, rfl, ⟨⟨?_, trivial⟩, trivial⟩,
    Nat.succ_lt_succ hlevels, nofun⟩
  · simp [StatementPhrase.tokens, ParseState.before]
  · simpa [StatementPhrase.Grouped, StatementPhrase.exprs] using hvalue

-- A conditional. An `else` that follows its branch is taken at once.
theorem derives_parseConditional (hexpression : Expr.DerivesExprs expression n)
    (hstatement : DerivesStatements statement n) (hc : c.policy = .failFast)
    (hending : c.ending.kind = .eof)
    (h : parseConditional expression statement c s = (.ok a, s')) :
    Derived c (n + 1) s s' a := by
  replace h := expect_bind_eq_ok hending (by decide) h
  obtain ⟨word, u, rfl, h⟩ := h
  replace h := parenthesized_bind_eq_ok hexpression hending h
  obtain ⟨condition, v, rfl, hcondition, hlevels, h⟩ := h
  replace h := Parse.bind_eq_ok.mp h
  obtain ⟨_, w, hthen, h⟩ := h
  obtain ⟨thenBranch, rfl, rfl, hregular, hthenLevels, hopen⟩ := hstatement hc hending hthen
  replace h := accept_bind_eq_ok hending (by decide) h
  obtain ⟨elseWord, w', rfl, h⟩ | ⟨hnext, h⟩ := h
  · replace h := Parse.bind_eq_ok.mp h
    obtain ⟨_, z, helse, h⟩ := h
    cases h
    obtain ⟨elseBranch, rfl, rfl, hregular', helseLevels, hopen'⟩ := hstatement hc hending helse
    -- A branch that ends open would have taken this `else` itself.
    have hclosed : thenBranch.endsOpen = false := by
      rw [Bool.eq_false_iff]
      exact fun hthenOpen => hopen hthenOpen elseWord.kind_eq
    refine ⟨.ifElse word condition thenBranch elseWord elseBranch, ?_, rfl,
      ⟨⟨⟨?_, hclosed⟩, trivial⟩, hregular, hregular'⟩, ?_, hopen'⟩
    · simp [StatementPhrase.tokens, ParseState.before]
    · simpa [StatementPhrase.Grouped, StatementPhrase.exprs] using hcondition
    · simp only [StatementPhrase.levels]
      omega
  · cases h
    refine ⟨.ifThen word condition thenBranch, ?_, rfl, ⟨⟨⟨?_, trivial⟩, trivial⟩, hregular⟩, ?_,
      fun _ hkind => hnext (List.mem_singleton.mpr hkind)⟩
    · simp [StatementPhrase.tokens, ParseState.before]
    · simpa [StatementPhrase.Grouped, StatementPhrase.exprs] using hcondition
    · simp only [StatementPhrase.levels]
      omega

theorem derives_parseLoop (hexpression : Expr.DerivesExprs expression n)
    (hstatement : DerivesStatements statement n) (hc : c.policy = .failFast)
    (hending : c.ending.kind = .eof) (h : parseLoop expression statement c s = (.ok a, s')) :
    Derived c (n + 1) s s' a := by
  replace h := expect_bind_eq_ok hending (by decide) h
  obtain ⟨word, u, rfl, h⟩ := h
  replace h := parenthesized_bind_eq_ok hexpression hending h
  obtain ⟨condition, v, rfl, hcondition, hlevels, h⟩ := h
  replace h := Parse.bind_eq_ok.mp h
  obtain ⟨_, w, hbody, h⟩ := h
  cases h
  obtain ⟨body, rfl, rfl, hregular, hbodyLevels, hopen⟩ := hstatement hc hending hbody
  refine ⟨.loop word condition body, ?_, rfl, ⟨⟨⟨?_, trivial⟩, trivial⟩, hregular⟩, ?_, hopen⟩
  · simp [StatementPhrase.tokens, ParseState.before]
  · simpa [StatementPhrase.Grouped, StatementPhrase.exprs] using hcondition
  · simp only [StatementPhrase.levels]
    omega

-- The expression that a name comes first in begins with it.
theorem beginsWithName_of_nextKind {x : ExprPhrase}
    (h : c.nextKind (s.before x.tokens) = .identifier) : x.BeginsWithName := by
  obtain ⟨t, ts, heq, -⟩ := x.exists_tokens_eq_cons
  rw [heq, ParseContext.nextKind_before_cons] at h
  rw [ExprPhrase.BeginsWithName, heq, List.head?_cons, Option.map_some, h]

-- An assignment or a call, where a name comes first.
theorem derives_parseExpression (hexpression : Expr.DerivesExprs expression n)
    (hending : c.ending.kind = .eof) (hname : c.nextKind s = .identifier)
    (h : parseExpression expression c s = (.ok a, s')) : Derived c (n + 1) s s' a := by
  replace h := hexpression.bind_eq_ok hending h
  obtain ⟨target, u, rfl, htarget, hlevels, h⟩ := h
  have hfirst := beginsWithName_of_nextKind hname
  replace h := accept_bind_eq_ok hending (by decide) h
  obtain ⟨sign, v, rfl, h⟩ | ⟨-, h⟩ := h
  · replace h := hexpression.enclosed_eq_ok hending (by decide) h
    obtain ⟨value, ending, w, rfl, hvalue, hvalueLevels, h⟩ := h
    cases h
    refine ⟨.assignment target sign value ending, ?_, rfl, ⟨⟨?_, trivial⟩, hfirst⟩, ?_,
      fun hopen => by cases hopen⟩
    · simp [StatementPhrase.tokens, ParseState.before]
    · simpa [StatementPhrase.Grouped, StatementPhrase.exprs] using ⟨htarget, hvalue⟩
    · simp only [StatementPhrase.levels]
      omega
  · cases htree : target.tree with
    | call receiver method args =>
      -- The last tail of the expression is the call, as a name and not a parenthesis comes first.
      obtain ⟨call, rfl⟩ := target.exists_callPhrase hfirst htree
      simp only [htree] at h
      replace h := expect_bind_eq_ok hending (by decide) h
      obtain ⟨ending, v, rfl, h⟩ := h
      cases h
      rw [CallPhrase.tree_expr, Expr.call.injEq] at htree
      obtain ⟨rfl, rfl, rfl⟩ := htree
      refine ⟨.call call ending, (ParseState.before_append _ _ _).symm, rfl,
        ⟨⟨?_, trivial⟩, hfirst⟩, Nat.succ_lt_succ hlevels, fun hopen => by cases hopen⟩
      simpa [StatementPhrase.Grouped, StatementPhrase.exprs] using htarget
    | _ =>
      simp only [htree] at h
      cases h

-- A statement, where the expressions and statements inside have fewer than `n` levels.
theorem derives_parseForm (hexpression : Expr.DerivesExprs expression n)
    (hstatement : DerivesStatements statement n) (hc : c.policy = .failFast)
    (hending : c.ending.kind = .eof) (h : parseForm expression statement c s = (.ok a, s')) :
    Derived c (n + 1) s s' a := by
  have hpeek : peek c s = (.ok (s.ahead.headD c.ending), s) := rfl
  replace h := (bind_of_ok hpeek).symm.trans h
  cases hkind : (s.ahead.headD c.ending).kind
  case identifier =>
    have hbehind : peekBehind c s = (.ok (s.ahead.tail.headD c.ending).kind, s) := rfl
    simp only [hkind] at h
    replace h := (bind_of_ok hbehind).symm.trans h
    -- The second token decides: a name behind a name is a declaration.
    by_cases hname : (s.ahead.tail.headD c.ending).kind = .identifier
    · rw [if_pos hname] at h
      exact derives_parseVarDecl hending (fun _ => hname) h
    · rw [if_neg hname] at h
      exact derives_parseExpression hexpression hending hkind h
  case intWord | booleanWord =>
    simp only [hkind] at h
    exact derives_parseVarDecl hending
      (fun hname => absurd (hkind.symm.trans hname) (by decide)) h
  all_goals simp only [hkind] at h
  case lbrace => exact derives_parseBlock hstatement hc hending h
  case returnWord => exact derives_parseReturn hexpression hending h
  case assertWord => exact derives_parseAssert hexpression hending h
  case systemWord => exact derives_parsePrint hexpression hending h
  case ifWord => exact derives_parseConditional hexpression hstatement hc hending h
  case whileWord => exact derives_parseLoop hexpression hstatement hc hending h
  -- No statement begins with what is left.
  all_goals cases h

end

/-- With `n` levels left, whatever is read is a regular statement that opens fewer than `n` levels
inside. -/
theorem derives_parse (n : Nat) : DerivesStatements (parse n) n := by
  induction n with
  | zero => exact fun _ _ h => (by cases h)
  | succ n ih =>
    intro c s s' a hc hending h
    rw [parse_succ] at h
    exact derives_parseForm (Expr.derives_parse n).1 ih hc hending h

end Statement

end MiniJava
