import MiniJava.Program.Parse

/-!
# Lifting — properties that every parser has

Parsers are built from a few steps. A property that these steps have and that sequences of steps
keep (`Lifts`) therefore holds of every parser: of expressions at once, of statements where it holds
of lists of statements, and of whole programs where `recovering` keeps it (`Lifts.program_parse`).

No step fails for no reason: it names kinds that would have fitted only where the token that comes
next is of none of them. The two forms that such a step takes are `accept_or_fail` and
`peek_or_fail`.
-/

namespace MiniJava

namespace Parse

/-- The property holds of single steps, and a sequence has it if its steps do. -/
structure Lifts (I : {α : Type} → Parse α → Prop) : Prop where
  pure {α : Type} (a : α) : I (pure a : Parse α)
  peek : I peek
  peekBehind : I peekBehind
  bound : I bound
  accept (kinds : List TokenKind) : I (accept kinds)
  tooDeep {α : Type} : I (fail .tooDeep : Parse α)
  /-- A step that fails only where none of the kinds comes that would have fitted. -/
  accept_or_fail {α : Type} {kinds : List TokenKind} (fault : SyntaxFault) {p : Token → Parse α}
    (hfault : fault.expected ⊆ kinds) (hp : ∀ t, I (p t)) :
    I (Parse.accept kinds >>= fun t? => match t? with | some t => p t | none => fail fault)
  /-- A step that looks at the next token and fails only if it is of no kind that would fit. -/
  peek_or_fail {α : Type} (fault : SyntaxFault) {f : Token → Parse α}
    (hf : ∀ t, I (f t) ∨ (t.kind ∉ fault.expected ∧ f t = fail fault)) : I (Parse.peek >>= f)
  bind {α β : Type} {p : Parse α} {f : α → Parse β} (hp : I p) (hf : ∀ a, I (f a)) : I (p >>= f)

/-- The parser begins with a token of one of these kinds, and what follows has the property. -/
def Begins {α : Type} (I : {α : Type} → Parse α → Prop) (kinds : List TokenKind) (p : Parse α) :
    Prop :=
  ∃ f : Token → Parse α, p = expect kinds >>= f ∧ ∀ t, I (f t)

namespace Lifts

variable {I : {α : Type} → Parse α → Prop} {α : Type}

-- Where failing needs no reason, the two guarded forms are sequences like any other.
theorem of_fail (hpure : ∀ {α : Type} (a : α), I (Pure.pure a : Parse α)) (hpeek : I Parse.peek)
    (hpeekBehind : I Parse.peekBehind) (hbound : I Parse.bound)
    (haccept : ∀ kinds, I (Parse.accept kinds))
    (hfail : ∀ {α : Type} (fault : SyntaxFault), I (fail fault : Parse α))
    (hbind : ∀ {α β : Type} {p : Parse α} {f : α → Parse β}, I p → (∀ a, I (f a)) → I (p >>= f)) :
    Lifts I where
  pure := hpure
  peek := hpeek
  peekBehind := hpeekBehind
  bound := hbound
  accept := haccept
  tooDeep := hfail _
  accept_or_fail _ _ _ hp := by
    refine hbind (haccept _) fun t? => ?_
    cases t? with
    | some t => exact hp t
    | none => exact hfail _
  peek_or_fail _ _ hf := by
    refine hbind hpeek fun t => ?_
    rcases hf t with ht | ⟨-, ht⟩
    · exact ht
    · rw [ht]
      exact hfail _
  bind := hbind

variable (h : Lifts I)
include h

/-! ## Steps -/

omit h in
theorem ite {P : Prop} [Decidable P] {p q : Parse α} (hp : I p) (hq : I q) :
    I (if P then p else q) := by
  by_cases hP : P
  · rwa [if_pos hP]
  · rwa [if_neg hP]

-- A step that depends on whether a token was passed.
theorem accept_or {kinds : List TokenKind} {p : Token → Parse α} {q : Parse α}
    (hp : ∀ t, I (p t)) (hq : I q) :
    I (Parse.accept kinds >>= fun t? => match t? with | some t => p t | none => q) := by
  refine h.bind (h.accept kinds) fun t? => ?_
  cases t? with
  | some t => exact hp t
  | none => exact hq

theorem expect (kinds : List TokenKind) : I (expect kinds) :=
  h.accept_or_fail (.unexpected kinds) (List.Subset.refl kinds) h.pure

-- What follows a token that was expected.
theorem expect_bind {kinds : List TokenKind} {f : Token → Parse α} (hf : ∀ t, I (f t)) :
    I (Parse.expect kinds >>= f) :=
  h.bind (h.expect kinds) hf

theorem of_begins {kinds : List TokenKind} {p : Parse α} (hp : Begins I kinds p) : I p := by
  obtain ⟨f, rfl, hf⟩ := hp
  exact h.expect_bind hf

-- Whatever follows a parser, the first token is that of the parser.
theorem begins_bind {β : Type} {kinds : List TokenKind} {p : Parse α} {g : α → Parse β}
    (hp : Begins I kinds p) (hg : ∀ a, I (g a)) : Begins I kinds (p >>= g) := by
  obtain ⟨f, rfl, hf⟩ := hp
  exact ⟨fun t => f t >>= g, bind_assoc _ _ _, fun t => h.bind (hf t) hg⟩

/-! ## Expressions -/

section Expressions

variable {expression negand : Parse Expr}

theorem parseCreation (hexpression : I expression) (word : Token) :
    I (Expr.parseCreation expression word) := by
  have harray (base : Token) : I (Expr.parseCreationOfArray expression word base) :=
    h.bind hexpression fun _ => h.expect_bind fun _ => h.pure _
  refine h.expect_bind fun base => ite ?_ ?_
  · refine h.expect_bind fun opening => ite ?_ (harray base)
    exact h.expect_bind fun _ => h.pure _
  · exact h.expect_bind fun _ => harray base

theorem begins_head (hexpression : I expression) (hnegand : I negand) :
    Begins I TokenKind.expressionStart (Expr.parseHead expression negand) := by
  refine ⟨_, rfl, fun t => ?_⟩
  dsimp only
  split
  · exact h.bind hnegand fun _ => h.pure _
  · exact h.bind hexpression fun _ => h.expect_bind fun _ => h.pure _
  · exact h.pure _
  · exact h.pure _
  · exact h.pure _
  · exact h.parseCreation hexpression t
  · exact h.pure _

theorem parseMoreArgs (hexpression : I expression) (n : Nat) :
    I (Expr.parseMoreArgs expression n) := by
  induction n with
  | zero => exact h.pure []
  | succ n ih =>
    refine h.bind hexpression fun arg => h.accept_or (fun _ => ?_) (h.pure [arg])
    exact h.bind ih fun _ => h.pure _

theorem parseArgs (hexpression : I expression) : I (Expr.parseArgs expression) := by
  refine h.expect_bind fun _ => h.accept_or (fun _ => h.pure _) ?_
  refine h.bind h.bound fun n => h.bind (h.parseMoreArgs hexpression n) fun _ => ?_
  exact h.expect_bind fun _ => h.pure _

theorem parseTails (hexpression : I expression) (n : Nat) :
    ∀ e : Expr, I (Expr.parseTails expression n e) := by
  induction n with
  | zero => exact h.pure
  | succ n ih =>
    intro e
    refine h.accept_or (fun _ => ?_) (h.accept_or (fun _ => ?_) (h.pure e))
    · exact h.bind hexpression fun _ => h.expect_bind fun _ => ih _
    · refine h.expect_bind fun member => ite (ih _) ?_
      exact h.bind (h.parseArgs hexpression) fun _ => ih _

theorem begins_operand (hexpression : I expression) (hnegand : I negand) :
    Begins I TokenKind.expressionStart (Expr.parseOperand expression negand) :=
  h.begins_bind (h.begins_head hexpression hnegand) fun _ =>
    h.bind h.bound fun _ => h.parseTails hexpression _ _

theorem parseInfix {right : Nat → Parse Expr} (hright : ∀ p, I (right p)) (low n : Nat) :
    ∀ left : Expr, I (Expr.parseInfix right low n left) := by
  induction n with
  | zero => exact h.pure
  | succ n ih =>
    intro left
    refine h.bind h.peek fun op => ite ?_ (h.pure left)
    exact h.bind (h.accept _) fun _ => h.bind (hright _) fun _ => ih _

theorem begins_chain {kinds : List TokenKind} {operand : Parse Expr}
    (hoperand : Begins I kinds operand) (n : Nat) :
    ∀ low : Nat, Begins I kinds (Expr.parseChain operand n low) := by
  induction n with
  | zero => exact fun _ => hoperand
  | succ n ih =>
    intro low
    have hright (p : Nat) := h.of_begins (ih p)
    exact h.begins_bind hoperand fun _ => h.bind h.bound fun _ => h.parseInfix hright low _ _

theorem expr_parse (n : Nat) : I (Expr.parse n) ∧ I (Expr.parseNegand n) := by
  induction n with
  | zero => exact ⟨h.tooDeep, h.tooDeep⟩
  | succ n ih =>
    rw [Expr.parse_succ, Expr.parseNegand_succ]
    -- What is inside has fewer levels left.
    constructor
    · exact h.of_begins (h.begins_chain (h.begins_operand ih.1 ih.2) _ 0)
    · exact h.of_begins (h.begins_head ih.1 ih.2)

theorem begins_expression (n : Nat) : Begins I TokenKind.expressionStart (Expr.parse (n + 1)) := by
  rw [Expr.parse_succ]
  exact h.begins_chain (h.begins_operand (h.expr_parse n).1 (h.expr_parse n).2) _ 0

end Expressions

/-! ## Types and declarations -/

theorem parseSuffix (base : Token) : I (TypeRef.parseSuffix base) :=
  h.accept_or (fun _ => h.expect_bind fun _ => h.pure _) (h.pure _)

theorem begins_type (bases : List TokenKind) : Begins I bases (TypeRef.parse bases) :=
  ⟨_, rfl, fun _ => h.parseSuffix _⟩

theorem begins_varDecl (bases : List TokenKind) : Begins I bases (VarDecl.parse bases) :=
  h.begins_bind (h.begins_type bases) fun _ =>
    h.expect_bind fun _ => h.expect_bind fun _ => h.pure _

/-! ## Statements -/

section Statements

variable {expression : Parse Expr} {statement : Parse Statement}

theorem parseParenthesized (hexpression : I expression) :
    I (Statement.parseParenthesized expression) :=
  h.expect_bind fun _ => h.bind hexpression fun _ => h.expect_bind fun _ => h.pure _

theorem begins_block (hlist : I (Statement.parseList statement)) :
    Begins I [.lbrace] (Statement.parseBlock statement) :=
  ⟨_, rfl, fun _ => h.bind hlist fun _ => h.pure _⟩

theorem begins_local : Begins I (NodeKind.firstSet .varDecl) Statement.parseVarDecl :=
  h.begins_bind (h.begins_varDecl _) fun _ => h.pure _

theorem begins_return (hexpression : I expression) :
    Begins I [.returnWord] (Statement.parseReturn expression) :=
  ⟨_, rfl, fun _ => h.bind hexpression fun _ => h.expect_bind fun _ => h.pure _⟩

theorem begins_assert (hexpression : I expression) :
    Begins I [.assertWord] (Statement.parseAssert expression) :=
  ⟨_, rfl, fun _ => h.bind (h.parseParenthesized hexpression) fun _ =>
    h.expect_bind fun _ => h.pure _⟩

theorem begins_print (hexpression : I expression) :
    Begins I [.systemWord] (Statement.parsePrint expression) := by
  refine ⟨_, rfl, fun _ => h.expect_bind fun _ => h.expect_bind fun _ => ?_⟩
  refine h.expect_bind fun _ => h.expect_bind fun _ => ?_
  exact h.bind (h.parseParenthesized hexpression) fun _ => h.expect_bind fun _ => h.pure _

theorem begins_conditional (hexpression : I expression) (hstatement : I statement) :
    Begins I [.ifWord] (Statement.parseConditional expression statement) := by
  refine ⟨_, rfl, fun _ => h.bind (h.parseParenthesized hexpression) fun _ => ?_⟩
  refine h.bind hstatement fun _ => h.accept_or (fun _ => ?_) (h.pure _)
  exact h.bind hstatement fun _ => h.pure _

theorem begins_loop (hexpression : I expression) (hstatement : I statement) :
    Begins I [.whileWord] (Statement.parseLoop expression statement) :=
  ⟨_, rfl, fun _ => h.bind (h.parseParenthesized hexpression) fun _ =>
    h.bind hstatement fun _ => h.pure _⟩

-- What follows the expression with which an assignment or a call begins.
theorem parseBehind (hexpression : I expression) :
    ∃ f, Statement.parseExpression expression = expression >>= f ∧ ∀ target, I (f target) := by
  refine ⟨_, rfl, fun target => ?_⟩
  have hassignment (t : Token) : I (do
      let value ← expression
      let _ ← Parse.expect [.semicolon]
      Pure.pure (Statement.assignment target value target.position)) :=
    h.bind hexpression fun _ => h.expect_bind fun _ => h.pure _
  -- Only a call can stand without an assignment.
  cases target with
  | call receiver method args =>
    exact h.accept_or hassignment (h.expect_bind fun _ => h.pure _)
  | _ => exact h.accept_or_fail .invalidStatement (List.Subset.refl _) hassignment

theorem parseExpression (hexpression : I expression) :
    I (Statement.parseExpression expression) := by
  obtain ⟨f, heq, hf⟩ := h.parseBehind hexpression
  rw [heq]
  exact h.bind hexpression hf

theorem parseForm (hexpression : I expression) (hstatement : I statement)
    (hlist : I (Statement.parseList statement)) :
    I (Statement.parseForm expression statement) := by
  refine h.peek_or_fail (.unexpected (NodeKind.firstSet .statement)) fun t => ?_
  split
  · exact .inl (h.of_begins (h.begins_block hlist))
  · exact .inl (h.of_begins (h.begins_return hexpression))
  · exact .inl (h.of_begins (h.begins_assert hexpression))
  · exact .inl (h.of_begins (h.begins_print hexpression))
  · exact .inl (h.of_begins (h.begins_conditional hexpression hstatement))
  · exact .inl (h.of_begins (h.begins_loop hexpression hstatement))
  · exact .inl (h.of_begins h.begins_local)
  · exact .inl (h.of_begins h.begins_local)
  · exact .inl (h.bind h.peekBehind fun _ =>
      ite (h.of_begins h.begins_local) (h.parseExpression hexpression))
  · -- Every kind with which a statement begins was one of the cases above.
    refine .inr ⟨fun hkind => ?_, rfl⟩
    simp only [SyntaxFault.expected, NodeKind.firstSet, NodeKind.statementStart, List.mem_cons,
      List.not_mem_nil] at hkind
    grind

-- Before a statement other than an expression, the first token is passed at once.
theorem exists_form (hexpression : I expression) (hstatement : I statement)
    (hlist : I (Statement.parseList statement)) {t : Token} (hstart : t.kind.resumesStatement = true)
    (hbrace : t.kind ≠ .rbrace) :
    ∃ kinds p, t.kind ∈ kinds ∧ Begins I kinds p ∧ ∀ c s, s.ahead.headD c.ending = t →
      Statement.parseForm expression statement c s = p c s := by
  have hform {kinds : List TokenKind} {p : Parse Statement} {f : Token → Parse Statement}
      (heq : Statement.parseForm expression statement = Parse.peek >>= f) (hp : Begins I kinds p)
      (hf : f t = p) (hkind : t.kind ∈ kinds) : ∃ kinds p, t.kind ∈ kinds ∧ Begins I kinds p ∧
        ∀ c s, s.ahead.headD c.ending = t → Statement.parseForm expression statement c s = p c s := by
    refine ⟨kinds, p, hkind, hp, fun c s hnext => ?_⟩
    have hpeek : Parse.peek c s = (.ok t, s) := by rw [← hnext]; rfl
    rw [heq, bind_of_ok hpeek, hf]
  obtain ⟨kind, hkind⟩ : ∃ kind, t.kind = kind := ⟨_, rfl⟩
  cases kind with
  | lbrace => exact hform rfl (h.begins_block hlist) (by simp only [hkind]) (by simp [hkind])
  | returnWord =>
    exact hform rfl (h.begins_return hexpression) (by simp only [hkind]) (by simp [hkind])
  | assertWord =>
    exact hform rfl (h.begins_assert hexpression) (by simp only [hkind]) (by simp [hkind])
  | systemWord =>
    exact hform rfl (h.begins_print hexpression) (by simp only [hkind]) (by simp [hkind])
  | ifWord =>
    exact hform rfl (h.begins_conditional hexpression hstatement) (by simp only [hkind])
      (by simp [hkind])
  | whileWord =>
    exact hform rfl (h.begins_loop hexpression hstatement) (by simp only [hkind]) (by simp [hkind])
  | intWord => exact hform rfl h.begins_local (by simp only [hkind]) (by rw [hkind]; decide)
  | booleanWord => exact hform rfl h.begins_local (by simp only [hkind]) (by rw [hkind]; decide)
  | rbrace => exact absurd hkind hbrace
  | _ =>
    rw [hkind] at hstart
    exact absurd hstart (by decide)

theorem statement_parse
    (hlist : ∀ n, I (Statement.parse n) → I (Statement.parseList (Statement.parse n))) (n : Nat) :
    I (Statement.parse n) := by
  induction n with
  | zero => exact h.tooDeep
  | succ n ih =>
    rw [Statement.parse_succ]
    exact h.parseForm (h.expr_parse n).1 ih (hlist n ih)

end Statements

/-! ## Methods and classes -/

section Declarations

theorem parseParamBehind (base : Token) : I (Method.parseParamBehind base) :=
  h.bind (h.parseSuffix base) fun _ => h.expect_bind fun _ => h.pure _

theorem parseMoreParams (n : Nat) : I (Method.parseMoreParams n) := by
  induction n with
  | zero => exact h.pure []
  | succ n ih =>
    refine h.accept_or (fun _ => ?_) (h.pure [])
    refine h.expect_bind fun base => h.bind (h.parseParamBehind base) fun _ => ?_
    exact h.bind ih fun _ => h.pure _

theorem parseParams : I Method.parseParams := by
  refine h.expect_bind fun opening => ite (h.pure []) ?_
  refine h.bind (h.parseParamBehind opening) fun _ => h.bind h.bound fun n => ?_
  exact h.bind (h.parseMoreParams n) fun _ => h.expect_bind fun _ => h.pure _

variable (hlist : ∀ n, I (Statement.parse n) → I (Statement.parseList (Statement.parse n)))
include hlist

theorem parseBody : I Method.parseBody :=
  h.expect_bind fun _ => hlist maxNesting (h.statement_parse hlist maxNesting)

theorem begins_method : Begins I [.publicWord] Method.parse := by
  refine ⟨_, rfl, fun _ => h.bind (h.of_begins (h.begins_type _)) fun _ => ?_⟩
  refine h.expect_bind fun _ => h.expect_bind fun _ => h.bind h.parseParams fun _ => ?_
  exact h.bind (h.parseBody hlist) fun _ => h.pure _

theorem parseMain : I Method.parseMain := by
  refine h.expect_bind fun _ => h.expect_bind fun _ => ?_
  refine h.bind (h.of_begins (h.begins_type _)) fun _ => ?_
  refine h.expect_bind fun _ => h.expect_bind fun _ => h.expect_bind fun _ => ?_
  exact h.bind (h.parseBody hlist) fun _ => h.pure _

theorem begins_mainClass : Begins I [.classWord] MainClass.parse := by
  refine ⟨_, rfl, fun _ => h.expect_bind fun _ => h.expect_bind fun _ => ?_⟩
  exact h.bind (h.parseMain hlist) fun _ => h.expect_bind fun _ => h.pure _

omit hlist in
theorem parseParent : I ClassDecl.parseParent :=
  h.accept_or (fun _ => h.expect_bind fun _ => h.pure _) (h.pure none)

theorem parseMembers (n : Nat) : I (ClassDecl.parseMembers n) := by
  induction n with
  | zero => exact h.pure _
  | succ n ih =>
    refine h.bind h.peek fun _ => ite (h.pure _) (ite ?_ ?_)
    · refine h.bind (h.of_begins (h.begins_method hlist)) fun _ => ?_
      exact h.bind ih fun _ => h.pure _
    · refine h.bind (h.of_begins (h.begins_varDecl _)) fun _ => ?_
      exact h.bind ih fun _ => h.pure _

theorem begins_class : Begins I [.classWord] ClassDecl.parse := by
  refine ⟨_, rfl, fun _ => h.expect_bind fun _ => h.bind h.parseParent fun _ => ?_⟩
  refine h.expect_bind fun _ => h.bind h.bound fun n => ?_
  exact h.bind (h.parseMembers hlist n) fun _ => h.expect_bind fun _ => h.pure _

end Declarations

/-! ## Recovering -/

section Lists

variable {statement : Parse Statement} (hfirst : I (recovering .statement statement))
include hfirst

theorem parseMany_of_recovering (n : Nat) : I (Statement.parseMany statement n) := by
  induction n with
  | zero => exact h.pure []
  | succ n ih =>
    refine h.bind h.peek fun _ => ite (h.pure []) ?_
    exact h.bind hfirst fun _ => h.bind ih fun _ => h.pure _

-- A list of statements asks of recovering only that it goes on with statements.
theorem parseList_of_recovering : I (Statement.parseList statement) :=
  h.bind h.bound fun n => h.bind (h.parseMany_of_recovering hfirst n) fun _ =>
    h.expect_bind fun _ => h.pure _

end Lists

section Recovering

variable (hrecovering : ∀ {α : Type} (boundary : Boundary) {step : Parse α}, I step →
  I (recovering boundary step))
include hrecovering

theorem parseList {statement : Parse Statement} (hstatement : I statement) :
    I (Statement.parseList statement) :=
  h.parseList_of_recovering (hrecovering _ hstatement)

theorem classDecl_parseMany (n : Nat) : I (ClassDecl.parseMany n) := by
  have hclass := h.of_begins (h.begins_class fun _ => h.parseList hrecovering)
  induction n with
  | zero => exact h.pure []
  | succ n ih =>
    refine h.bind h.peek fun _ => ite ?_ (h.pure [])
    exact h.bind (hrecovering _ hclass) fun _ => h.bind ih fun _ => h.pure _

/-- What steps have and what sequences and recovering keep holds of whole programs. -/
theorem program_parse : I Program.parse := by
  have hmain := h.of_begins (h.begins_mainClass fun _ => h.parseList hrecovering)
  refine h.bind (hrecovering _ hmain) fun _ => h.bind h.bound fun n => ?_
  exact h.bind (h.classDecl_parseMany hrecovering n) fun _ => h.expect_bind fun _ => h.pure _

end Recovering

end Lifts

end Parse

end MiniJava
