import MiniJava.Proofs.Relabeling.Tree

/-!
# Parsing relabelled tokens

Parsers look at the kinds of tokens and hand on everything else. So a parser that reads relabelled
tokens gives what it gives for the tokens as they were, relabelled: the tree, the error and all that
is on record (`Commutes`). This holds of the single steps, sequences keep it, and so do recovering
and every parser that is built from these (`Program.commutes_parse`).
-/

namespace MiniJava

def SyntaxError.relabel (r : Relabeling) (e : SyntaxError) : SyntaxError :=
  ⟨e.fault, e.found.relabel r⟩

def Recovery.relabel (r : Relabeling) (recovery : Recovery) : Recovery :=
  ⟨recovery.error.relabel r, recovery.boundary, r.position recovery.skippedFrom⟩

def TokenStream.relabel (r : Relabeling) (s : TokenStream) : TokenStream :=
  ⟨s.ahead.map (·.relabel r), s.ending.relabel r⟩

def ParseContext.relabel (r : Relabeling) (c : ParseContext) : ParseContext :=
  ⟨c.policy, c.ending.relabel r⟩

def ParseState.relabel (r : Relabeling) (s : ParseState) : ParseState :=
  ⟨s.ahead.map (·.relabel r), s.recoveries.map (·.relabel r)⟩

namespace Parse

variable {r : Relabeling} {α β γ δ : Type}

-- What a parser gives, with a new value and new labels.
def relabelled (r : Relabeling) (f : α → β) :
    Except SyntaxError α × ParseState → Except SyntaxError β × ParseState
  | (.ok a, s) => (.ok (f a), s.relabel r)
  | (.error e, s) => (.error (e.relabel r), s.relabel r)

/-- Reading relabelled tokens, the second parser gives what the first one gives for the tokens as
they were, relabelled; `f` relabels its value. -/
def Commutes (r : Relabeling) (f : α → β) (p : Parse α) (q : Parse β) : Prop :=
  ∀ c s, q (c.relabel r) (s.relabel r) = relabelled r f (p c s)

/-! ## Steps -/

-- The token that comes next is relabelled like all others.
theorem next_relabel (c : ParseContext) (s : ParseState) :
    (s.relabel r).ahead.headD (c.relabel r).ending = (s.ahead.headD c.ending).relabel r := by
  unfold ParseState.relabel
  cases s.ahead <;> rfl

theorem commutes_pure (f : α → β) (a : α) : Commutes r f (pure a) (pure (f a)) := fun _ _ => rfl

theorem commutes_fail (f : α → β) (fault : SyntaxFault) : Commutes r f (fail fault) (fail fault) := by
  intro c s
  unfold fail
  rw [next_relabel]
  rfl

theorem commutes_peek : Commutes r (·.relabel r) peek peek := by
  intro c s
  unfold peek
  rw [next_relabel]
  rfl

theorem commutes_peekBehind : Commutes r id peekBehind peekBehind := by
  rintro c ⟨ahead, recoveries⟩
  cases ahead with
  | nil => rfl
  | cons t rest => cases rest <;> rfl

theorem commutes_bound : Commutes r id bound bound := by
  intro c s
  unfold bound ParseState.relabel
  rw [List.length_map]
  rfl

theorem commutes_accept (kinds : List TokenKind) :
    Commutes r (Option.map (·.relabel r)) (accept kinds) (accept kinds) := by
  intro c s
  unfold accept
  rw [next_relabel]
  -- The kind decides, and it is the same.
  show (if kinds.contains (s.ahead.headD c.ending).kind then _ else _) = _
  by_cases hkind : kinds.contains (s.ahead.headD c.ending).kind = true
  · rw [if_pos hkind]
    simp only [if_pos hkind, relabelled, ParseState.relabel, List.map_tail]
    rfl
  · rw [if_neg hkind]
    simp only [if_neg hkind, relabelled]
    rfl

namespace Commutes

variable {f : α → β} {g : γ → δ} {p p' : Parse α} {q q' : Parse β}

-- What follows has to commute for the relabelled value.
theorem bind (hp : Commutes r f p q) {k : α → Parse γ} {k' : β → Parse δ}
    (hk : ∀ a, Commutes r g (k a) (k' (f a))) : Commutes r g (p >>= k) (q >>= k') := by
  intro c s
  have hq := hp c s
  cases hrun : p c s with
  | mk result u =>
    rw [hrun] at hq
    cases result with
    | ok a =>
      rw [bind_of_ok hrun, bind_of_ok hq]
      exact hk a c u
    | error e =>
      rw [bind_of_error hrun, bind_of_error hq]
      rfl

theorem ite {P : Prop} [Decidable P] (hp : Commutes r f p q) (hp' : Commutes r f p' q') :
    Commutes r f (if P then p else p') (if P then q else q') := by
  by_cases hP : P
  · rwa [if_pos hP, if_pos hP]
  · rwa [if_neg hP, if_neg hP]

-- A step that depends on whether a token was passed.
theorem accept_or {kinds : List TokenKind} {p : Token → Parse α} {q : Token → Parse β}
    {none : Parse α} {none' : Parse β} (hp : ∀ t, Commutes r f (p t) (q (t.relabel r)))
    (hnone : Commutes r f none none') :
    Commutes r f (accept kinds >>= fun t? => match t? with | some t => p t | .none => none)
      (accept kinds >>= fun t? => match t? with | some t => q t | .none => none') := by
  refine (commutes_accept kinds).bind fun t? => ?_
  cases t? with
  | some t => exact hp t
  | none => exact hnone

end Commutes

theorem commutes_expect (kinds : List TokenKind) :
    Commutes r (·.relabel r) (expect kinds) (expect kinds) :=
  .accept_or (fun t => commutes_pure (Token.relabel r) t) (commutes_fail _ _)

-- What follows a token that was expected.
theorem Commutes.expect_bind {f : α → β} {kinds : List TokenKind} {p : Token → Parse α}
    {q : Token → Parse β} (hp : ∀ t, Commutes r f (p t) (q (t.relabel r))) :
    Commutes r f (expect kinds >>= p) (expect kinds >>= q) :=
  (commutes_expect kinds).bind hp

/-! ## Recovering -/

-- Where skipping stops is a matter of kinds.
theorem skip_map_relabel (boundary : Boundary) (moved : Bool) (ts : List Token) :
    boundary.skip moved (ts.map (·.relabel r)) = (boundary.skip moved ts).map (·.relabel r) := by
  cases boundary with
  | statement =>
    show skipStatement moved _ = (skipStatement moved ts).map _
    induction ts generalizing moved with
    | nil => rfl
    | cons t rest ih =>
      rw [List.map_cons, skipStatement, skipStatement, ih, apply_ite (List.map _),
        apply_ite (List.map _)]
      rfl
  | classDecl =>
    show skipClass moved _ = (skipClass moved ts).map _
    induction ts generalizing moved with
    | nil => rfl
    | cons t rest ih =>
      rw [List.map_cons, skipClass, skipClass, ih, apply_ite (List.map _)]
      rfl

theorem Commutes.recovering {f : α → β} {p : Parse α} {q : Parse β} (h : Commutes r f p q)
    (boundary : Boundary) :
    Commutes r (Option.map f) (recovering boundary p) (recovering boundary q) := by
  intro c s
  have hq := h c s
  cases hrun : p c s with
  | mk result u =>
    rw [hrun] at hq
    cases result with
    | ok a => rw [recovering_of_ok boundary hrun, recovering_of_ok boundary hq]; rfl
    | error e =>
      cases hpolicy : c.policy with
      | failFast =>
        have hpolicy' : (c.relabel r).policy = .failFast := hpolicy
        rw [recovering_of_failFast boundary hpolicy hrun,
          recovering_of_failFast boundary hpolicy' hq]
        rfl
      | recover =>
        have hpolicy' : (c.relabel r).policy = .recover := hpolicy
        have hnext := next_relabel (r := r) c u
        rw [recovering_of_recover boundary hpolicy hrun, recovering_of_recover boundary hpolicy' hq,
          hnext]
        simp only [relabelled, ParseState.relabel, List.length_map, skip_map_relabel,
          List.map_append]
        rfl

end Parse

open Parse

variable {r : Relabeling}

/-! ## Expressions -/

namespace Expr

variable {expression negand : Parse Expr}

theorem commutes_creationOfArray (h : Commutes r (relabel r) expression expression)
    (word base : Token) :
    Commutes r (relabel r) (parseCreationOfArray expression word base)
      (parseCreationOfArray expression (word.relabel r) (base.relabel r)) :=
  h.bind fun length => .expect_bind fun _ =>
    commutes_pure (relabel r) (.newArray ⟨base, false⟩ length word.position)

theorem commutes_creation (h : Commutes r (relabel r) expression expression) (word : Token) :
    Commutes r (relabel r) (parseCreation expression word)
      (parseCreation expression (word.relabel r)) := by
  refine .expect_bind fun base => .ite ?_ ?_
  · refine .expect_bind fun opening => .ite ?_ (commutes_creationOfArray h word base)
    exact .expect_bind fun _ => commutes_pure (relabel r) (.newObject base word.position)
  · exact .expect_bind fun _ => commutes_creationOfArray h word base

theorem commutes_head (h : Commutes r (relabel r) expression expression)
    (hnegand : Commutes r (relabel r) negand negand) :
    Commutes r (relabel r) (parseHead expression negand) (parseHead expression negand) := by
  refine .expect_bind fun t => ?_
  obtain ⟨kind, text, position⟩ := t
  cases kind with
  | not => exact hnegand.bind fun operand => commutes_pure (relabel r) (.unary _ operand)
  | lparen => exact h.bind fun inner => .expect_bind fun _ => commutes_pure (relabel r) inner
  | newWord => exact commutes_creation h _
  | thisWord => exact commutes_pure (relabel r) (.this _)
  | boolLiteral => exact commutes_pure (relabel r) (.boolLiteral _)
  | intLiteral => exact commutes_pure (relabel r) (.intLiteral _)
  | _ => exact commutes_pure (relabel r) (.identifier _)

theorem commutes_moreArgs (h : Commutes r (relabel r) expression expression) (n : Nat) :
    Commutes r (relabelEach r) (parseMoreArgs expression n) (parseMoreArgs expression n) := by
  induction n with
  | zero => exact commutes_pure (relabelEach r) []
  | succ n ih =>
    refine h.bind fun arg => .accept_or (fun _ => ?_) (commutes_pure (relabelEach r) [arg])
    exact ih.bind fun rest => commutes_pure (relabelEach r) (arg :: rest)

theorem commutes_args (h : Commutes r (relabel r) expression expression) :
    Commutes r (relabelEach r) (parseArgs expression) (parseArgs expression) := by
  refine .expect_bind fun _ => .accept_or (fun _ => commutes_pure (relabelEach r) []) ?_
  refine commutes_bound.bind fun n => (commutes_moreArgs h n).bind fun args => ?_
  exact .expect_bind fun _ => commutes_pure (relabelEach r) args

theorem commutes_tails (h : Commutes r (relabel r) expression expression) (n : Nat) :
    ∀ e : Expr, Commutes r (relabel r) (parseTails expression n e)
      (parseTails expression n (e.relabel r)) := by
  induction n with
  | zero => exact commutes_pure (relabel r)
  | succ n ih =>
    intro e
    refine .accept_or (fun _ => ?_) (.accept_or (fun _ => ?_) (commutes_pure (relabel r) e))
    · exact h.bind fun i => .expect_bind fun _ => ih (.index e i)
    · refine .expect_bind fun member => .ite (ih (.arrayLength e)) ?_
      exact (commutes_args h).bind fun args => ih (.call e member args)

theorem commutes_operand (h : Commutes r (relabel r) expression expression)
    (hnegand : Commutes r (relabel r) negand negand) :
    Commutes r (relabel r) (parseOperand expression negand) (parseOperand expression negand) :=
  (commutes_head h hnegand).bind fun head => commutes_bound.bind fun n => commutes_tails h n head

theorem commutes_infix {right : Nat → Parse Expr}
    (h : ∀ p, Commutes r (relabel r) (right p) (right p)) (low n : Nat) :
    ∀ left : Expr, Commutes r (relabel r) (parseInfix right low n left)
      (parseInfix right low n (left.relabel r)) := by
  induction n with
  | zero => exact commutes_pure (relabel r)
  | succ n ih =>
    intro left
    refine commutes_peek.bind fun op => .ite ?_ (commutes_pure (relabel r) left)
    refine (commutes_accept [op.kind]).bind fun _ => ?_
    exact (h op.kind.precedence).bind fun operand => ih (.binary left op operand)

theorem commutes_chain {operand : Parse Expr} (h : Commutes r (relabel r) operand operand)
    (n : Nat) : ∀ low : Nat, Commutes r (relabel r) (parseChain operand n low)
      (parseChain operand n low) := by
  induction n with
  | zero => exact fun _ => h
  | succ n ih =>
    intro low
    exact h.bind fun left => commutes_bound.bind fun n => commutes_infix ih low n left

theorem commutes_parse (n : Nat) :
    Commutes r (relabel r) (parse n) (parse n) ∧
      Commutes r (relabel r) (parseNegand n) (parseNegand n) := by
  induction n with
  | zero => exact ⟨commutes_fail _ _, commutes_fail _ _⟩
  | succ n ih =>
    rw [parse_succ, parseNegand_succ]
    exact ⟨commutes_chain (commutes_operand ih.1 ih.2) _ 0, commutes_head ih.1 ih.2⟩

end Expr

/-! ## Types and declarations -/

theorem TypeRef.commutes_suffix (base : Token) :
    Commutes r (relabel r) (parseSuffix base) (parseSuffix (base.relabel r)) :=
  .accept_or (fun _ => .expect_bind fun _ => commutes_pure (relabel r) ⟨base, true⟩)
    (commutes_pure (relabel r) ⟨base, false⟩)

theorem TypeRef.commutes_parse (bases : List TokenKind) :
    Commutes r (relabel r) (TypeRef.parse bases) (TypeRef.parse bases) :=
  .expect_bind fun base => commutes_suffix base

theorem VarDecl.commutes_parse (bases : List TokenKind) :
    Commutes r (relabel r) (VarDecl.parse bases) (VarDecl.parse bases) :=
  (TypeRef.commutes_parse bases).bind fun type => .expect_bind fun name => .expect_bind fun _ =>
    commutes_pure (relabel r) ⟨type, name⟩

/-! ## Statements -/

namespace Statement

variable {expression : Parse Expr} {statement : Parse Statement}

-- The trees of a list are relabelled one by one.
theorem relabelEach_append (first? : Option Statement) (ss : List Statement) :
    relabelEach r (first?.toList ++ ss) =
      (first?.map (relabel r)).toList ++ relabelEach r ss := by
  cases first? <;> rfl

theorem commutes_parenthesized (h : Commutes r (Expr.relabel r) expression expression) :
    Commutes r (Expr.relabel r) (parseParenthesized expression) (parseParenthesized expression) :=
  .expect_bind fun _ => h.bind fun e => .expect_bind fun _ => commutes_pure (Expr.relabel r) e

theorem commutes_many (h : Commutes r (relabel r) statement statement) (n : Nat) :
    Commutes r (relabelEach r) (parseMany statement n) (parseMany statement n) := by
  induction n with
  | zero => exact commutes_pure (relabelEach r) []
  | succ n ih =>
    refine commutes_peek.bind fun t => .ite (commutes_pure (relabelEach r) []) ?_
    refine (h.recovering .statement).bind fun first? => ih.bind fun rest => ?_
    rw [← relabelEach_append]
    exact commutes_pure (relabelEach r) _

theorem commutes_list (h : Commutes r (relabel r) statement statement) :
    Commutes r (relabelEach r) (parseList statement) (parseList statement) :=
  commutes_bound.bind fun n => (commutes_many h n).bind fun ss => .expect_bind fun _ =>
    commutes_pure (relabelEach r) ss

theorem commutes_local : Commutes r (relabel r) parseVarDecl parseVarDecl :=
  (VarDecl.commutes_parse _).bind fun d => commutes_pure (relabel r) (.varDecl d)

theorem commutes_print (h : Commutes r (Expr.relabel r) expression expression) :
    Commutes r (relabel r) (parsePrint expression) (parsePrint expression) := by
  refine .expect_bind fun word => .expect_bind fun _ => .expect_bind fun _ => ?_
  refine .expect_bind fun _ => .expect_bind fun _ => (commutes_parenthesized h).bind fun value => ?_
  exact .expect_bind fun _ => commutes_pure (relabel r) (.print value word.position)

theorem commutes_conditional (h : Commutes r (Expr.relabel r) expression expression)
    (hstatement : Commutes r (relabel r) statement statement) :
    Commutes r (relabel r) (parseConditional expression statement)
      (parseConditional expression statement) := by
  refine .expect_bind fun word => (commutes_parenthesized h).bind fun condition => ?_
  refine hstatement.bind fun thenBranch => .accept_or (fun _ => ?_)
    (commutes_pure (relabel r) (.ifThen condition thenBranch word.position))
  exact hstatement.bind fun elseBranch =>
    commutes_pure (relabel r) (.ifElse condition thenBranch elseBranch word.position)

-- The position of an assignment is that of its target.
theorem commutes_assignment (h : Commutes r (Expr.relabel r) expression expression) (target : Expr) :
    Commutes r (relabel r)
      (do
        let value ← expression
        let _ ← expect [.semicolon]
        pure (.assignment target value target.position))
      (do
        let value ← expression
        let _ ← expect [.semicolon]
        pure (.assignment (target.relabel r) value (target.relabel r).position)) := by
  rw [Expr.position_relabel]
  exact h.bind fun value => .expect_bind fun _ =>
    commutes_pure (relabel r) (.assignment target value target.position)

theorem commutes_expression (h : Commutes r (Expr.relabel r) expression expression) :
    Commutes r (relabel r) (parseExpression expression) (parseExpression expression) := by
  refine h.bind fun target => .accept_or (fun _ => commutes_assignment h target) ?_
  -- Only a call can stand without an assignment.
  cases target with
  | call receiver method args =>
    exact .expect_bind fun _ => commutes_pure (relabel r) (.call receiver method args)
  | _ => exact commutes_fail _ _

theorem commutes_form (h : Commutes r (Expr.relabel r) expression expression)
    (hstatement : Commutes r (relabel r) statement statement) :
    Commutes r (relabel r) (parseForm expression statement) (parseForm expression statement) := by
  refine commutes_peek.bind fun t => ?_
  obtain ⟨kind, text, position⟩ := t
  cases kind with
  | lbrace =>
    exact .expect_bind fun brace => (commutes_list hstatement).bind fun ss =>
      commutes_pure (relabel r) (.block ss brace.position)
  | returnWord =>
    exact .expect_bind fun word => h.bind fun value => .expect_bind fun _ =>
      commutes_pure (relabel r) (.returnValue value word.position)
  | assertWord =>
    exact .expect_bind fun word => (commutes_parenthesized h).bind fun condition =>
      .expect_bind fun _ => commutes_pure (relabel r) (.assert condition word.position)
  | systemWord => exact commutes_print h
  | ifWord => exact commutes_conditional h hstatement
  | whileWord =>
    exact .expect_bind fun word => (commutes_parenthesized h).bind fun condition =>
      hstatement.bind fun body => commutes_pure (relabel r) (.loop condition body word.position)
  | intWord | booleanWord => exact commutes_local
  | identifier => exact commutes_peekBehind.bind fun _ => .ite commutes_local (commutes_expression h)
  | _ => exact commutes_fail _ _

theorem commutes_parse (n : Nat) : Commutes r (relabel r) (Statement.parse n) (Statement.parse n) := by
  induction n with
  | zero => exact commutes_fail _ _
  | succ n ih =>
    rw [parse_succ]
    exact commutes_form (Expr.commutes_parse n).1 ih

end Statement

/-! ## Classes and programs -/

namespace Method

theorem commutes_paramBehind (base : Token) :
    Commutes r (VarDecl.relabel r) (parseParamBehind base) (parseParamBehind (base.relabel r)) :=
  (TypeRef.commutes_suffix base).bind fun type => .expect_bind fun name =>
    commutes_pure (VarDecl.relabel r) ⟨type, name⟩

theorem commutes_moreParams (n : Nat) :
    Commutes r (List.map (VarDecl.relabel r)) (parseMoreParams n) (parseMoreParams n) := by
  induction n with
  | zero => exact commutes_pure _ []
  | succ n ih =>
    refine .accept_or (fun _ => ?_) (commutes_pure _ [])
    refine .expect_bind fun base => (commutes_paramBehind base).bind fun param => ?_
    exact ih.bind fun rest => commutes_pure (List.map (VarDecl.relabel r)) (param :: rest)

theorem commutes_params :
    Commutes r (List.map (VarDecl.relabel r)) parseParams parseParams := by
  refine .expect_bind fun opening => .ite (commutes_pure _ []) ?_
  refine (commutes_paramBehind opening).bind fun param => commutes_bound.bind fun n => ?_
  refine (commutes_moreParams n).bind fun rest => .expect_bind fun _ => ?_
  exact commutes_pure (List.map (VarDecl.relabel r)) (param :: rest)

theorem commutes_body : Commutes r (Statement.relabelEach r) parseBody parseBody :=
  .expect_bind fun _ => Statement.commutes_list (Statement.commutes_parse maxNesting)

theorem commutes_parse : Commutes r (relabel r) Method.parse Method.parse := by
  refine .expect_bind fun _ => (TypeRef.commutes_parse _).bind fun type => ?_
  refine .expect_bind fun name => .expect_bind fun _ => commutes_params.bind fun params => ?_
  exact commutes_body.bind fun body => commutes_pure (relabel r) ⟨type, name, params, body⟩

theorem commutes_main : Commutes r (relabel r) parseMain parseMain := by
  refine .expect_bind fun _ => .expect_bind fun _ => (TypeRef.commutes_parse _).bind fun type => ?_
  refine .expect_bind fun name => .expect_bind fun _ => .expect_bind fun _ => ?_
  exact commutes_body.bind fun body => commutes_pure (relabel r) ⟨type, name, [], body⟩

end Method

theorem MainClass.commutes_parse : Commutes r (relabel r) MainClass.parse MainClass.parse := by
  refine .expect_bind fun _ => .expect_bind fun name => .expect_bind fun _ => ?_
  refine Method.commutes_main.bind fun main => .expect_bind fun _ => ?_
  exact commutes_pure (relabel r) ⟨name, main⟩

namespace ClassDecl

theorem commutes_parent :
    Commutes r (Option.map (Token.relabel r)) parseParent parseParent :=
  .accept_or (fun _ => .expect_bind fun parent =>
    commutes_pure (Option.map (Token.relabel r)) (some parent)) (commutes_pure _ none)

-- What is read of a class is relabelled one by one.
def relabelMembers (r : Relabeling) (members : List VarDecl × List Method) :
    List VarDecl × List Method :=
  (members.1.map (·.relabel r), members.2.map (·.relabel r))

theorem commutes_members (n : Nat) :
    Commutes r (relabelMembers r) (parseMembers n) (parseMembers n) := by
  induction n with
  | zero => exact commutes_pure (relabelMembers r) ([], [])
  | succ n ih =>
    refine commutes_peek.bind fun t => .ite (commutes_pure (relabelMembers r) ([], [])) (.ite ?_ ?_)
    · refine Method.commutes_parse.bind fun method => ih.bind fun members => ?_
      exact commutes_pure (relabelMembers r) (members.1, method :: members.2)
    · refine (VarDecl.commutes_parse _).bind fun field => ih.bind fun members => ?_
      exact commutes_pure (relabelMembers r) (field :: members.1, members.2)

theorem commutes_parse : Commutes r (relabel r) ClassDecl.parse ClassDecl.parse := by
  refine .expect_bind fun _ => .expect_bind fun name => commutes_parent.bind fun parent? => ?_
  refine .expect_bind fun _ => commutes_bound.bind fun n => (commutes_members n).bind fun members => ?_
  exact .expect_bind fun _ => commutes_pure (relabel r) ⟨name, parent?, members.1, members.2⟩

theorem commutes_many (n : Nat) :
    Commutes r (List.map (relabel r)) (parseMany n) (parseMany n) := by
  induction n with
  | zero => exact commutes_pure _ []
  | succ n ih =>
    refine commutes_peek.bind fun t => .ite ?_ (commutes_pure _ [])
    refine (commutes_parse.recovering .classDecl).bind fun first? => ih.bind fun rest => ?_
    have hlist : (first?.map (relabel r)).toList ++ rest.map (relabel r) =
        (first?.toList ++ rest).map (relabel r) := by
      cases first? <;> rfl
    rw [hlist]
    exact commutes_pure (List.map (relabel r)) _

end ClassDecl

/-- Reading relabelled tokens gives the relabelled program, error and record. -/
theorem Program.commutes_parse :
    Commutes r (Option.map (relabel r)) Program.parse Program.parse := by
  refine (MainClass.commutes_parse.recovering .classDecl).bind fun main? => ?_
  refine commutes_bound.bind fun n => (ClassDecl.commutes_many n).bind fun classes => ?_
  refine .expect_bind fun _ => ?_
  have hprogram : (main?.map (MainClass.relabel r)).map
        (fun mainClass => Program.mk mainClass (classes.map (·.relabel r))) =
      (main?.map fun mainClass => Program.mk mainClass classes).map (relabel r) := by
    cases main? <;> rfl
  rw [hprogram]
  exact commutes_pure _ _

end MiniJava
