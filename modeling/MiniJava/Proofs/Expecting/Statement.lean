import MiniJava.Proofs.Expecting.Expr

/-!
# What statements expect

A statement is chosen by its first token, and before a name by the token behind it too. That second
token is the only one that is looked at and not passed. Where it is changed from what is no name to
a name, a declaration is read instead of an expression, which passes both names.

A list of statements stops before a closing brace, which is what is expected behind it, or at the
end of the file.
-/

namespace MiniJava

/-- The statement that begins with a token of this kind. -/
def Statement.formOf (expression : Parse Expr) (statement : Parse Statement) :
    TokenKind → Parse Statement
  | .lbrace => parseBlock statement
  | .returnWord => parseReturn expression
  | .assertWord => parseAssert expression
  | .systemWord => parsePrint expression
  | .ifWord => parseConditional expression statement
  | .whileWord => parseLoop expression statement
  | .intWord => parseVarDecl
  | .booleanWord => parseVarDecl
  | .identifier => do
    if (← Parse.peekBehind) = .identifier then parseVarDecl else parseExpression expression
  | _ => Parse.fail (.unexpected (NodeKind.firstSet .statement))

-- What stands in front of a state, told apart at its first token.
theorem ParseState.eq_of_before_eq {s s' : ParseState} {t t' : Token} {ts : List Token}
    (h : s.before [t] = s'.before (t' :: ts)) : t = t' ∧ s = s'.before ts := by
  obtain ⟨ahead, recoveries⟩ := s
  cases h
  exact ⟨rfl, rfl⟩

namespace Parse

open Statement

/-! ## Types and declarations -/

theorem truthful_suffix (base : Token) : Truthful (TypeRef.parseSuffix base) :=
  .accept_or (by decide) (fun _ => .expect_bind (by decide) fun _ => truthful_pure _)
    (truthful_pure _)

theorem begins_truthful_type (bases : List TokenKind) :
    Begins @Truthful bases (TypeRef.parse bases) :=
  ⟨_, rfl, truthful_suffix⟩

theorem begins_truthful_varDecl (bases : List TokenKind) :
    Begins @Truthful bases (VarDecl.parse bases) :=
  begins_truthful_bind (begins_truthful_type bases) fun _ =>
    .expect_bind (by decide) fun _ => .expect_bind (by decide) fun _ => truthful_pure _

theorem begins_truthful_local : Begins @Truthful (NodeKind.firstSet .varDecl) parseVarDecl :=
  begins_truthful_bind (begins_truthful_varDecl _) fun _ => truthful_pure _

/-! ## Forms -/

section Forms

variable {expression : Parse Expr} {statement : Parse Statement}

theorem truthful_parenthesized (hexpression : Truthful expression) :
    Truthful (parseParenthesized expression) :=
  .expect_bind (by decide) fun _ => .bind hexpression fun _ =>
    .expect_bind (by decide) fun _ => truthful_pure _

theorem begins_truthful_block (hlist : Truthful (parseList statement)) :
    Begins @Truthful [.lbrace] (parseBlock statement) :=
  ⟨_, rfl, fun _ => .bind hlist fun _ => truthful_pure _⟩

theorem begins_truthful_return (hexpression : Truthful expression) :
    Begins @Truthful [.returnWord] (parseReturn expression) :=
  ⟨_, rfl, fun _ => .bind hexpression fun _ => .expect_bind (by decide) fun _ => truthful_pure _⟩

theorem begins_truthful_assert (hexpression : Truthful expression) :
    Begins @Truthful [.assertWord] (parseAssert expression) :=
  ⟨_, rfl, fun _ => .bind (truthful_parenthesized hexpression) fun _ =>
    .expect_bind (by decide) fun _ => truthful_pure _⟩

theorem begins_truthful_print (hexpression : Truthful expression) :
    Begins @Truthful [.systemWord] (parsePrint expression) := by
  refine ⟨_, rfl, fun _ => .expect_bind (by decide) fun _ => .expect_bind (by decide) fun _ => ?_⟩
  refine .expect_bind (by decide) fun _ => .expect_bind (by decide) fun _ => ?_
  exact .bind (truthful_parenthesized hexpression) fun _ =>
    .expect_bind (by decide) fun _ => truthful_pure _

theorem begins_truthful_conditional (hexpression : Truthful expression)
    (hstatement : Truthful statement) :
    Begins @Truthful [.ifWord] (parseConditional expression statement) := by
  refine ⟨_, rfl, fun _ => .bind (truthful_parenthesized hexpression) fun _ => ?_⟩
  refine .bind hstatement fun _ => .accept_or (by decide) (fun _ => ?_) (truthful_pure _)
  exact .bind hstatement fun _ => truthful_pure _

theorem begins_truthful_loop (hexpression : Truthful expression) (hstatement : Truthful statement) :
    Begins @Truthful [.whileWord] (parseLoop expression statement) :=
  ⟨_, rfl, fun _ => .bind (truthful_parenthesized hexpression) fun _ =>
    .bind hstatement fun _ => truthful_pure _⟩

/-- The equals sign is all that is expected behind an expression that is no call. -/
theorem truthful_parseExpression (hexpression : Truthful expression) :
    Truthful (parseExpression expression) := by
  refine .bind hexpression fun target => ?_
  have hassignment (t : Token) : Truthful (do
      let value ← expression
      let _ ← expect [.semicolon]
      pure (Statement.assignment target value target.position)) :=
    .bind hexpression fun _ => .expect_bind (by decide) fun _ => truthful_pure _
  cases target with
  | call receiver method args =>
    exact .accept_or (by decide) hassignment (.expect_bind (by decide) fun _ => truthful_pure _)
  | _ => exact .accept_or_fail (by decide) .invalidStatement (List.Subset.refl _) hassignment

theorem opens_parseExpression (hexpression : Truthful expression)
    (hopens : Opens TokenKind.expressionStart expression) :
    Opens TokenKind.expressionStart (parseExpression expression) := by
  obtain ⟨f, heq, hf⟩ := lifts_forward.parseBehind hexpression.forward
  rw [heq]
  exact hopens.bind hf

end Forms

/-! ## Names -/

section Names

variable {expression : Parse Expr} {statement : Parse Statement} {c : ParseContext}
  {s u : ParseState} {x y : Token}

/-- What follows the type and the name of a local declaration. -/
def closeLocal (x y : Token) : Parse Statement := do
  let _ ← expect [.semicolon]
  pure (.varDecl ⟨⟨x, false⟩, y⟩)

theorem truthful_closeLocal (x y : Token) : Truthful (closeLocal x y) :=
  .expect_bind (by decide) fun _ => truthful_pure _

-- A local declaration passes two names.
theorem parseVarDecl_names (hx : x.kind = .identifier) (hy : y.kind = .identifier) :
    parseVarDecl c (u.before [x, y]) = closeLocal x y c u := by
  have hbase : expect (NodeKind.firstSet .varDecl) c (u.before [x, y]) =
      (.ok x, u.before [y]) := expect_before (by rw [hx]; decide)
  have hbracket : accept [.lbracket] c (u.before [y]) = (.ok none, u.before [y]) :=
    accept_of_notMem (by rw [ParseContext.nextKind_before_cons, hy]; decide)
  have hname : expect [.identifier] c (u.before [y]) = (.ok y, u) :=
    expect_before (by rw [hy]; decide)
  have htype : TypeRef.parse (NodeKind.firstSet .varDecl) c (u.before [x, y]) =
      (.ok ⟨x, false⟩, u.before [y]) :=
    (bind_of_ok hbase).trans (bind_of_ok hbracket)
  simp only [parseVarDecl, VarDecl.parse, bind_assoc]
  rw [bind_of_ok htype, bind_of_ok hname]
  simp only [closeLocal, pure_bind]

-- Before a name, the token behind it decides.
theorem formOf_of_name (hsecond : c.nextKind u = .identifier) :
    formOf expression statement .identifier c (u.before [x]) = parseVarDecl c (u.before [x]) := by
  have hpeek : peekBehind c (u.before [x]) = (.ok (c.nextKind u), u.before [x]) := rfl
  exact (bind_of_ok hpeek).trans (by rw [if_pos hsecond])

theorem formOf_of_not_name (hsecond : c.nextKind u ≠ .identifier) :
    formOf expression statement .identifier c (u.before [x]) =
      parseExpression expression c (u.before [x]) := by
  have hpeek : peekBehind c (u.before [x]) = (.ok (c.nextKind u), u.before [x]) := rfl
  exact (bind_of_ok hpeek).trans (by rw [if_neg hsecond])

theorem formOf_names (hx : x.kind = .identifier) (hy : y.kind = .identifier) :
    formOf expression statement .identifier c (u.before [x, y]) = closeLocal x y c u := by
  have hsecond : c.nextKind (u.before [y]) = .identifier := hy
  exact (formOf_of_name hsecond).trans (parseVarDecl_names hx hy)

-- A second name behind the first one is passed with it.
theorem beyond_names (hc : c.Strict) (hx : x.kind = .identifier)
    (hnext : c.nextKind s = .identifier) :
    Beyond s (formOf expression statement .identifier c (s.before [x])) := by
  obtain ⟨y, u, rfl, hy⟩ := exists_eq_before hc (by rw [hnext]; decide)
  rw [hnext] at hy
  rw [← ParseState.before_append]
  refine .inl ?_
  have hrun : formOf expression statement .identifier c (u.before ([x] ++ [y])) =
      closeLocal x y c u := formOf_names hx hy
  rw [hrun]
  exact Nat.lt_succ_of_le ((truthful_closeLocal x y).forward c u).length_le

variable (hexpression : Truthful expression) (hopens : Opens TokenKind.expressionStart expression)
include hexpression hopens

theorem beyond_formOf_identifier (hc : c.Strict) (hnext : c.nextKind s = .identifier) :
    Beyond s (formOf expression statement .identifier c s) := by
  obtain ⟨x, u, rfl, -⟩ := exists_eq_before hc (by rw [hnext]; decide)
  by_cases hsecond : c.nextKind u = .identifier
  · rw [formOf_of_name hsecond]
    exact (opens_of_begins begins_truthful_local (by decide)).beyond c _ hc
      (by rw [hnext]; decide)
  · rw [formOf_of_not_name hsecond]
    exact (opens_parseExpression hexpression hopens).beyond c _ hc (by rw [hnext]; decide)

theorem replaysAt_formOf_identifier (hc : c.Strict) (hnext : c.nextKind s = .identifier) :
    (formOf expression statement .identifier).ReplaysAt (fun _ _ => True) c s := by
  obtain ⟨x, u, rfl, hx⟩ := exists_eq_before hc (by rw [hnext]; decide)
  rw [hnext] at hx
  by_cases hsecond : c.nextKind u = .identifier
  · -- A declaration has passed both names, so that they are there again.
    obtain ⟨y, w, rfl, hy⟩ := exists_eq_before hc (by rw [hsecond]; decide)
    rw [hsecond] at hy
    rw [← ParseState.before_append]
    exact ((truthful_closeLocal x y).replays c w hc).behind fun _ _ => formOf_names hx hy
  · refine ((truthful_parseExpression hexpression).replays c (u.before [x]) hc).of_beyond
      (formOf_of_not_name hsecond) (beyond_formOf_identifier hexpression hopens hc hnext) ?_
    intro t ts s' hs c' v hc'
    obtain ⟨rfl, rfl⟩ := ParseState.eq_of_before_eq hs
    -- The second token is another one only where the first run did not pass it.
    by_cases hsecond' : c'.nextKind (v.before ts) = .identifier
    · cases ts with
      | nil => exact .inr ⟨fun h => hsecond (h ▸ hsecond'), beyond_names hc' hx hsecond'⟩
      | cons y ts => exact absurd hsecond' hsecond
    · exact .inl (formOf_of_not_name hsecond')

end Names

/-! ## Lists -/

section Lists

variable {statement : Parse Statement} (hstatement : Truthful statement)
  (hopens : Opens (NodeKind.firstSet .statement) statement)
include hstatement hopens

/-- A round reads a statement if one can begin, and before a closing brace nothing more. -/
theorem truthfulBefore_manyRound (statements : List Statement) :
    TruthfulBefore (Round.Follow fun _ kind => kind ∈ [TokenKind.rbrace])
      (manyRound statement statements) := by
  have hfirst := TruthfulBefore.recovering hstatement .statement
  have hforward : (manyRound statement statements).Forward := by
    refine lifts_forward.bind lifts_forward.peek fun t => Lifts.ite (lifts_forward.pure _) ?_
    exact lifts_forward.bind hfirst.forward fun _ => lifts_forward.pure _
  refine truthful_of_branches (NodeKind.firstSet .statement) (fun kind =>
    if kind = .rbrace ∨ kind = .eof then pure (.stop statements)
    else do
      let first? ← recovering .statement statement
      pure (.goOn (statements ++ first?.toList))) hforward (fun _ _ => rfl) fun kind => ?_
  by_cases hstop : kind = .rbrace ∨ kind = .eof
  · refine .inr ⟨?_, .stop statements, if_pos hstop, fun kind' hkind => .inr (if_pos ?_)⟩
    · rcases hstop with rfl | rfl <;> decide
    · exact .inl (List.mem_singleton.mp hkind)
  · simp only [if_neg hstop]
    exact .inl ⟨_, List.Subset.refl _, .bind hfirst fun _ => truthful_pure _,
      (hopens.recovering _).bind fun _ => lifts_forward.pure _, id⟩

theorem truthful_list (hpasses : statement.Passes) : Truthful (parseList statement) := by
  have hfirst := hstatement.forward.recovering .statement
  have hforward : (bound >>= fun n => parseMany statement n).Forward :=
    lifts_forward.bind lifts_forward.bound (lifts_forward.parseMany_of_recovering hfirst)
  have hmany : TruthfulBefore (fun _ kind => kind ∈ [TokenKind.rbrace])
      (bound >>= fun n => parseMany statement n) :=
    truthfulBefore_of_repeats hforward (truthfulBefore_manyRound hstatement hopens)
      fun _ _ hending => repeats_many hpasses hstatement.forward hending (Nat.lt_succ_self _)
  rw [parseList, ← bind_assoc]
  exact hmany.bind_expect (by decide) fun _ _ => truthful_pure _

end Lists

/-! ## Levels -/

section Levels

variable {expression : Parse Expr} {statement : Parse Statement}
  (hexpression : Truthful expression) (hstatement : Truthful statement)
  (hlist : Truthful (parseList statement))

theorem parseForm_run (c : ParseContext) (s : ParseState) :
    parseForm expression statement c s = formOf expression statement (c.nextKind s) c s := rfl

-- Before no other kind a statement begins.
theorem formOf_of_notMem {kind : TokenKind} (h : kind ∉ NodeKind.firstSet .statement) :
    formOf expression statement kind = fail (.unexpected (NodeKind.firstSet .statement)) := by
  cases kind with
  | lbrace | returnWord | assertWord | systemWord | ifWord | whileWord | intWord | booleanWord
  | identifier => exact absurd (by decide) h
  | _ => rfl

include hexpression hstatement hlist

-- Before a kind other than a name, the first token is passed at once.
theorem exists_begins_formOf {kind : TokenKind} (h : kind ∈ NodeKind.firstSet .statement)
    (hname : kind ≠ .identifier) :
    ∃ kinds, kind ∈ kinds ∧ .eof ∉ kinds ∧
      Begins @Truthful kinds (formOf expression statement kind) := by
  cases kind with
  | lbrace => exact ⟨_, List.mem_singleton_self _, by decide, begins_truthful_block hlist⟩
  | returnWord =>
    exact ⟨_, List.mem_singleton_self _, by decide, begins_truthful_return hexpression⟩
  | assertWord =>
    exact ⟨_, List.mem_singleton_self _, by decide, begins_truthful_assert hexpression⟩
  | systemWord =>
    exact ⟨_, List.mem_singleton_self _, by decide, begins_truthful_print hexpression⟩
  | ifWord =>
    exact ⟨_, List.mem_singleton_self _, by decide,
      begins_truthful_conditional hexpression hstatement⟩
  | whileWord =>
    exact ⟨_, List.mem_singleton_self _, by decide, begins_truthful_loop hexpression hstatement⟩
  | intWord => exact ⟨_, by decide, by decide, begins_truthful_local⟩
  | booleanWord => exact ⟨_, by decide, by decide, begins_truthful_local⟩
  | identifier => exact absurd rfl hname
  | _ => exact absurd h (by decide)

variable (hexpressionOpens : Opens TokenKind.expressionStart expression)
include hexpressionOpens

theorem opens_form : Opens (NodeKind.firstSet .statement) (parseForm expression statement) where
  beyond c s hc hnext := by
    rw [parseForm_run]
    by_cases hname : c.nextKind s = .identifier
    · rw [hname]
      exact beyond_formOf_identifier hexpression hexpressionOpens hc hname
    · obtain ⟨kinds, hmem, heof, hbegins⟩ :=
        exists_begins_formOf hexpression hstatement hlist hnext hname
      exact (opens_of_begins hbegins heof).beyond c s hc hmem
  fails c s _ hnext := by
    refine ⟨.unexpected (NodeKind.firstSet .statement), ?_, List.Subset.refl _⟩
    rw [parseForm_run, formOf_of_notMem hnext]
    rfl

theorem truthful_form : Truthful (parseForm expression statement) := by
  have hopens := opens_form hexpression hstatement hlist hexpressionOpens
  have hforward := lifts_forward.parseForm hexpression.forward hstatement.forward hlist.forward
  refine truthful_of_choice _ (formOf expression statement) hforward parseForm_run hopens.beyond
    (fun c s hc hnext => ?_) fun c s hc hnext => .inr (hopens.fails c s hc hnext)
  by_cases hname : c.nextKind s = .identifier
  · rw [hname]
    exact replaysAt_formOf_identifier hexpression hexpressionOpens hc hname
  · obtain ⟨kinds, -, heof, hbegins⟩ :=
      exists_begins_formOf hexpression hstatement hlist hnext hname
    exact (truthful_of_begins hbegins heof).replays c s hc

end Levels

/-- Statements are truthful with any number of levels left, and read on before the kinds with which
a statement begins. -/
theorem truthful_statement (n : Nat) :
    Truthful (Statement.parse n) ∧ Opens (NodeKind.firstSet .statement) (Statement.parse n) := by
  induction n with
  | zero => exact ⟨truthful_tooDeep, opens_tooDeep⟩
  | succ n ih =>
    have hlist := truthful_list ih.1 ih.2 (passes_statement n)
    have hexpression := (truthful_expression n).1
    rw [Statement.parse_succ]
    exact ⟨truthful_form hexpression ih.1 hlist (opens_expression n),
      opens_form hexpression ih.1 hlist (opens_expression n)⟩

end Parse

end MiniJava
