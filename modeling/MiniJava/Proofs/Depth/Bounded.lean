import MiniJava.Proofs.Depth.Follows
import MiniJava.Proofs.Reading.Expr
import MiniJava.Session

/-!
# The depth of a parse is bounded

Every production follows the parser of the same name (`Production.reads`), and the calls that it
needs can be told in advance from the levels that are left (`Production.calls`). An expression that
opens a level needs eleven more than one that finds none left: itself, a chain of seven for the
operators, since the precedence rises from one to the next, the operand, its tails or its head, and
the arguments or the creation in it. So a whole program needs no more than `11 * maxNesting`, for
all tokens and both policies (`Production.program_follows`).
-/

namespace MiniJava

namespace Production

open Parse

variable {α : Type}

/-! ## What a production reads and what it needs -/

/-- What the production reads, with so many levels left to open. -/
def reads (levels : Nat) : Production α → Parse α
  | .program => Program.parse
  | .mainClass => MainClass.parse
  | .mainMethod => Method.parseMain
  | .classDecl => ClassDecl.parse
  | .method => Method.parse
  | .field => VarDecl.parse (NodeKind.firstSet .field)
  | .params => Method.parseParams
  | .param base => Method.parseParamBehind base
  | .body => Method.parseBody
  | .type => TypeRef.parse (NodeKind.firstSet .type)
  | .typeFrom bases => TypeRef.parse bases
  | .arraySuffix base => TypeRef.parseSuffix base
  | .statements => Statement.parseList (Statement.parse levels)
  | .statement => Statement.parse levels
  | .statementKind => Statement.parseForm (Expr.parse levels) (Statement.parse levels)
  | .block => Statement.parseBlock (Statement.parse levels)
  | .varDecl => Statement.parseVarDecl
  | .returnValue => Statement.parseReturn (Expr.parse levels)
  | .assert => Statement.parseAssert (Expr.parse levels)
  | .print => Statement.parsePrint (Expr.parse levels)
  | .conditional => Statement.parseConditional (Expr.parse levels) (Statement.parse levels)
  | .loop => Statement.parseLoop (Expr.parse levels) (Statement.parse levels)
  | .expressionStatement => Statement.parseExpression (Expr.parse levels)
  | .parenthesized => Statement.parseParenthesized (Expr.parse levels)
  | .expression => Expr.parse levels
  | .binary low =>
    Expr.parseChain (Expr.parseOperand (Expr.parse levels) (Expr.parseNegand levels))
      (TokenKind.maxPrecedence - low) low
  | .operand => Expr.parseOperand (Expr.parse levels) (Expr.parseNegand levels)
  | .head => Expr.parseHead (Expr.parse levels) (Expr.parseNegand levels)
  | .creation word => Expr.parseCreation (Expr.parse levels) word
  | .tails e => bound >>= fun n => Expr.parseTails (Expr.parse levels) n e
  | .args => Expr.parseArgs (Expr.parse levels)

/-- The production holds method bodies, in which no level is open yet. -/
def isOuter : Production α → Bool
  | .program | .mainClass | .mainMethod | .classDecl | .method | .body => true
  | _ => false

/-- The calls that a statement needs. -/
def statementCalls : Nat → Nat
  | 0 => 1
  | levels + 1 => 11 * levels + 5

/-- The most calls of productions that are active at once, the one of the production among them. -/
def calls (levels : Nat) : Production α → Nat
  | .program => statementCalls levels + 5
  | .mainClass | .classDecl => statementCalls levels + 4
  | .mainMethod | .method => statementCalls levels + 3
  | .body => statementCalls levels + 2
  | .field | .params | .type => 3
  | .typeFrom _ | .param _ => 2
  | .arraySuffix _ => 1
  | .statements => statementCalls levels + 1
  | .statement => statementCalls levels
  | .statementKind => 11 * levels + 4
  | .block | .varDecl | .returnValue | .assert | .print | .conditional | .loop
  | .expressionStatement => 11 * levels + 3
  | .expression => 11 * levels + 1
  | .binary low => 11 * levels + 5 + (TokenKind.maxPrecedence - low)
  | .operand => 11 * levels + 4
  | .head | .tails _ => 11 * levels + 3
  | .creation _ | .args | .parenthesized => 11 * levels + 2

theorem statementCalls_pos (levels : Nat) : 0 < statementCalls levels := by
  cases levels <;> exact Nat.succ_pos _

theorem statementCalls_le (levels : Nat) : statementCalls levels ≤ 11 * levels + 1 := by
  cases levels with
  | zero => exact Nat.le_refl _
  | succ levels =>
    rw [statementCalls]
    omega

theorem calls_pos (levels : Nat) (p : Production α) : 0 < p.calls levels := by
  have hstatement := statementCalls_pos levels
  cases p <;> simp only [calls] <;> omega

end Production

/-! ## Chains of operators -/

namespace Expr

open Parse

variable {operand : Parse Expr}

-- Only right sides of operators that bind tighter are read.
theorem parseInfix_congr {right right' : Nat → Parse Expr} {low : Nat}
    (h : ∀ precedence, low < precedence → right precedence = right' precedence) (n : Nat) :
    ∀ left, parseInfix right low n left = parseInfix right' low n left := by
  induction n with
  | zero => exact fun _ => rfl
  | succ n ih =>
    intro left
    simp only [parseInfix, ih]
    refine congrArg (Parse.peek >>= ·) (funext fun op => ?_)
    by_cases hlow : low < op.kind.precedence
    · rw [if_pos hlow, if_pos hlow, h _ hlow]
    · rw [if_neg hlow, if_neg hlow]

-- Where no operator binds tighter, no right side is read.
theorem parseChain_tightest {low : Nat} (h : TokenKind.maxPrecedence ≤ low) :
    parseChain operand 1 low = operand := by
  have hstop (left : Expr) :
      (bound >>= fun n => parseInfix (parseChain operand 0) low n left) = pure left := by
    funext c s
    have hlow : (c.nextKind s).precedence ≤ low := Nat.le_trans (TokenKind.precedence_le _) h
    rw [bind_of_ok bound_run, parseInfix_stop hlow, pure_run]
  calc parseChain operand 1 low
      = operand >>= fun left => bound >>= fun n => parseInfix (parseChain operand 0) low n left :=
        rfl
    _ = operand >>= pure := by simp only [hstop]
    _ = operand := bind_pure operand

-- A chain that is long enough for the precedences above `low` need not be longer.
theorem parseChain_succ : ∀ (n : Nat) {low : Nat}, TokenKind.maxPrecedence ≤ low + n →
    parseChain operand (n + 1) low = parseChain operand n low
  | 0, _, h => parseChain_tightest h
  | n + 1, low, h => by
    have hright (precedence : Nat) (hlow : low < precedence) :
        parseChain operand (n + 1) precedence = parseChain operand n precedence :=
      parseChain_succ n (by omega)
    calc parseChain operand (n + 2) low
        = operand >>= fun left => bound >>= fun k =>
            parseInfix (parseChain operand (n + 1)) low k left := rfl
      _ = operand >>= fun left => bound >>= fun k =>
            parseInfix (parseChain operand n) low k left := by
          simp only [parseInfix_congr hright]
      _ = parseChain operand (n + 1) low := rfl

theorem parseChain_of_le {low n : Nat} (h : TokenKind.maxPrecedence - low ≤ n) :
    parseChain operand n low = parseChain operand (TokenKind.maxPrecedence - low) low := by
  obtain ⟨more, rfl⟩ := Nat.exists_eq_add_of_le h
  induction more with
  | zero => rfl
  | succ more ih => rw [← Nat.add_assoc, parseChain_succ _ (by omega), ih (Nat.le_add_right _ _)]

end Expr

/-! ## Productions follow parsers -/

namespace Production

open Parse Follows

variable {α : Type} {levels k : Nat}

/-- Calls of productions that need no more than `k` follow what they read. -/
def Answers (k : Nat) (call : {α : Type} → Production α → Counted α) : Prop :=
  ∀ {α : Type} (p : Production α) (levels : Nat), (p.isOuter = true → levels = maxNesting) →
    p.calls levels ≤ k → Follows levels k (call p) (p.reads levels)

namespace Answers

variable {call : {α : Type} → Production α → Counted α} (h : Answers k call)
include h

-- A call of a production that does not hold method bodies.
theorem inner (levels : Nat) (p : Production α) (hinner : p.isOuter = false)
    (hk : p.calls levels ≤ k) : Follows levels k (call p) (p.reads levels) :=
  h p levels (fun houter => by rw [hinner] at houter; cases houter) hk

theorem expression (hk : 11 * levels + 1 ≤ k) :
    Follows levels k (call .expression) (Expr.parse levels) :=
  h.inner levels .expression rfl hk

theorem parenthesized (hk : 11 * levels + 2 ≤ k) :
    Follows levels k (call .parenthesized) (Statement.parseParenthesized (Expr.parse levels)) :=
  h.inner levels .parenthesized rfl hk

theorem statement (hk : 11 * levels + 1 ≤ k) :
    Follows levels k (call .statement) (Statement.parse levels) :=
  h.inner levels .statement rfl (Nat.le_trans (statementCalls_le levels) hk)

end Answers

/-! ### Loops -/

section Loops

variable {expression : Counted Expr} {reading : Parse Expr}

theorem follows_infixLoop {right : Nat → Counted Expr} {right' : Nat → Parse Expr} {low : Nat}
    (hright : ∀ kind : TokenKind, low < kind.precedence →
      Follows levels k (right kind.precedence) (right' kind.precedence)) (n : Nat) :
    ∀ left, Follows levels k (infixLoop right low n left) (Expr.parseInfix right' low n left) := by
  induction n with
  | zero => exact .pure
  | succ n ih =>
    intro left
    refine .peek_bind fun op => .ite (fun hlow => ?_) (.pure left)
    exact .bind (.step (lifts_silent.accept _)) fun _ => .bind (hright _ hlow) fun _ => ih _

theorem follows_argsLoop (hexpression : Follows levels k expression reading) (n : Nat) :
    Follows levels k (argsLoop expression n) (Expr.parseMoreArgs reading n) := by
  induction n with
  | zero => exact .pure []
  | succ n ih =>
    refine .bind hexpression fun arg => .accept_or (fun _ => ?_) (.pure [arg])
    exact .bind ih fun _ => .pure _

theorem follows_tailsLoop {args : Counted (List Expr)}
    (hexpression : Follows levels k expression reading)
    (hargs : Follows levels k args (Expr.parseArgs reading)) (n : Nat) :
    ∀ e, Follows levels k (tailsLoop expression args n e) (Expr.parseTails reading n e) := by
  induction n with
  | zero => exact .pure
  | succ n ih =>
    intro e
    refine .accept_or (fun _ => ?_) (.accept_or (fun _ => ?_) (.pure e))
    · exact .bind hexpression fun _ => .expect_bind fun _ => ih _
    · refine .expect_bind fun member => .ite (fun _ => ih _) ?_
      exact .bind hargs fun _ => ih _

theorem follows_statementsLoop {statement : Counted Statement} {reading : Parse Statement}
    (hstatement : Follows levels k statement reading) (n : Nat) :
    Follows levels k (statementsLoop statement n) (Statement.parseMany reading n) := by
  induction n with
  | zero => exact .pure []
  | succ n ih =>
    refine .peek_bind fun _ => .ite (fun _ => .pure []) ?_
    exact .bind (.recovering _ hstatement) fun _ => .bind ih fun _ => .pure _

theorem follows_paramsLoop {param : Token → Counted VarDecl}
    (hparam : ∀ base, Follows levels k (param base) (Method.parseParamBehind base)) (n : Nat) :
    Follows levels k (paramsLoop param n) (Method.parseMoreParams n) := by
  induction n with
  | zero => exact .pure []
  | succ n ih =>
    refine .accept_or (fun _ => ?_) (.pure [])
    refine .expect_bind fun base => .bind (hparam base) fun _ => ?_
    exact .bind ih fun _ => .pure _

theorem follows_membersLoop {method : Counted Method} {field : Counted VarDecl}
    (hmethod : Follows levels k method Method.parse)
    (hfield : Follows levels k field (VarDecl.parse (NodeKind.firstSet .field))) (n : Nat) :
    Follows levels k (membersLoop method field n) (ClassDecl.parseMembers n) := by
  induction n with
  | zero => exact .pure _
  | succ n ih =>
    refine .peek_bind fun _ => .ite (fun _ => .pure _) (.ite (fun _ => ?_) ?_)
    · exact .bind hmethod fun _ => .bind ih fun _ => .pure _
    · exact .bind hfield fun _ => .bind ih fun _ => .pure _

theorem follows_classesLoop {classDecl : Counted ClassDecl}
    (hclass : Follows levels k classDecl ClassDecl.parse) (n : Nat) :
    Follows levels k (classesLoop classDecl n) (ClassDecl.parseMany n) := by
  induction n with
  | zero => exact .pure []
  | succ n ih =>
    refine .peek_bind fun _ => .ite (fun _ => ?_) (.pure [])
    exact .bind (.recovering _ hclass) fun _ => .bind ih fun _ => .pure _

end Loops

/-! ### Bodies -/

section Bodies

variable {call : {α : Type} → Production α → Counted α} (hcall : Answers k call)
include hcall

-- The right side of an operator is a chain that takes tighter operators only.
theorem follows_binary {low : Nat}
    (hk : 11 * levels + 4 + (TokenKind.maxPrecedence - low) ≤ k) :
    Follows levels k ((Production.binary low).run call) ((Production.binary low).reads levels) := by
  have hoperand := hcall.inner levels .operand rfl (Nat.le_trans (Nat.le_add_right _ _) hk)
  have hright (kind : TokenKind) (hlow : low < kind.precedence) :
      Follows levels k (call (.binary kind.precedence))
        (Expr.parseChain (Expr.parseOperand (Expr.parse levels) (Expr.parseNegand levels))
          (TokenKind.maxPrecedence - low) kind.precedence) := by
    have htightest := kind.precedence_le
    rw [Expr.parseChain_of_le (by omega)]
    refine hcall.inner levels (.binary kind.precedence) rfl ?_
    rw [calls]
    omega
  rw [reads, ← Expr.parseChain_of_le (Nat.le_succ _)]
  exact .bind hoperand fun left => .bound_bind fun n => follows_infixLoop hright n left

theorem follows_expression (hk : 11 * levels ≤ k) :
    Follows levels k (Production.expression.run call) (Expr.parse levels) := by
  cases levels with
  | zero => exact nested_zero
  | succ levels =>
    rw [Expr.parse_succ]
    exact .nested (hcall.inner levels (.binary 0) rfl hk)

-- The operand of `!` opens a level of its own.
theorem follows_negand (hk : 11 * levels + 2 ≤ k) :
    Follows levels k (Counted.nested (call .head)) (Expr.parseNegand levels) := by
  cases levels with
  | zero => exact nested_zero
  | succ levels =>
    rw [Expr.parseNegand_succ]
    refine .nested (hcall.inner levels .head rfl ?_)
    rw [calls]
    omega

theorem follows_head (hk : 11 * levels + 2 ≤ k) :
    Follows levels k (Production.head.run call) (Production.head.reads levels) := by
  refine .expect_bind fun t => ?_
  have hcreation := hcall.inner levels (.creation t) rfl hk
  generalize t.kind = kind
  cases kind with
  | not => exact .bind (follows_negand hcall hk) fun _ => .pure _
  | lparen => exact .bind (hcall.expression (by omega)) fun _ => .expect_bind fun _ => .pure _
  | newWord => exact hcreation
  | _ => exact .pure _

theorem follows_creation {word : Token} (hk : 11 * levels + 1 ≤ k) :
    Follows levels k ((Production.creation word).run call)
      ((Production.creation word).reads levels) := by
  have harray (base : Token) : Follows levels k (arrayCreation (call .expression) word base)
      (Expr.parseCreationOfArray (Expr.parse levels) word base) :=
    .bind (hcall.expression hk) fun _ => .expect_bind fun _ => .pure _
  refine .expect_bind fun base => .ite (fun _ => ?_) ?_
  · refine .expect_bind fun opening => .ite (fun _ => ?_) (harray base)
    exact .expect_bind fun _ => .pure _
  · exact .expect_bind fun _ => harray base

theorem follows_statement (hk : statementCalls levels ≤ k + 1) :
    Follows levels k (Production.statement.run call) (Statement.parse levels) := by
  cases levels with
  | zero => exact nested_zero
  | succ levels =>
    rw [Statement.parse_succ]
    exact .nested (hcall.inner levels .statementKind rfl (Nat.le_of_succ_le_succ hk))

theorem follows_statementKind (hk : 11 * levels + 3 ≤ k) :
    Follows levels k (Production.statementKind.run call)
      (Production.statementKind.reads levels) := by
  refine .peek_bind fun t => ?_
  generalize t.kind = kind
  cases kind with
  | lbrace => exact hcall.inner levels .block rfl hk
  | returnWord => exact hcall.inner levels .returnValue rfl hk
  | assertWord => exact hcall.inner levels .assert rfl hk
  | systemWord => exact hcall.inner levels .print rfl hk
  | ifWord => exact hcall.inner levels .conditional rfl hk
  | whileWord => exact hcall.inner levels .loop rfl hk
  | intWord | booleanWord => exact hcall.inner levels .varDecl rfl hk
  | identifier =>
    refine .bind (.step lifts_silent.peekBehind) fun _ => .ite (fun _ => ?_) ?_
    · exact hcall.inner levels .varDecl rfl hk
    · exact hcall.inner levels .expressionStatement rfl hk
  | _ => exact .fail _

theorem follows_expressionStatement (hk : 11 * levels + 2 ≤ k) :
    Follows levels k (Production.expressionStatement.run call)
      (Production.expressionStatement.reads levels) := by
  have hexpression : Follows levels k (call .expression) (Expr.parse levels) :=
    hcall.expression (Nat.le_of_succ_le hk)
  refine .bind hexpression fun target => .accept_or (fun _ => ?_) ?_
  · exact .bind hexpression fun _ => .expect_bind fun _ => .pure _
  · -- Only a call can stand without an assignment.
    cases target with
    | call => exact .expect_bind fun _ => .pure _
    | _ => exact .fail _

-- Productions that hold method bodies are called where no level is open.
theorem follows_outer {p : Production α} (hp : p.isOuter = true)
    (hk : p.calls maxNesting ≤ k + 1) :
    Follows maxNesting k (p.run call) (p.reads maxNesting) := by
  have hroom := statementCalls_pos maxNesting
  have houter {β : Type} (q : Production β) (hq : q.calls maxNesting ≤ k) :
      Follows maxNesting k (call q) (q.reads maxNesting) := hcall q maxNesting (fun _ => rfl) hq
  cases p with
  | program =>
    have hk : statementCalls maxNesting + 4 ≤ k := Nat.le_of_succ_le_succ hk
    refine .bind (.recovering _ (houter .mainClass hk)) fun _ => .bound_bind fun n => ?_
    refine .bind (follows_classesLoop (houter .classDecl hk) n) fun _ => ?_
    exact .expect_bind fun _ => .pure _
  | mainClass =>
    have hmethod := houter .mainMethod (Nat.le_of_succ_le_succ hk)
    refine .expect_bind fun _ => .expect_bind fun _ => .expect_bind fun _ => ?_
    exact .bind hmethod fun _ => .expect_bind fun _ => .pure _
  | mainMethod =>
    have hk : statementCalls maxNesting + 2 ≤ k := Nat.le_of_succ_le_succ hk
    have htype := houter .type (Nat.le_trans (Nat.succ_le_succ (Nat.succ_le_succ hroom)) hk)
    refine .expect_bind fun _ => .expect_bind fun _ => .bind htype fun _ => ?_
    refine .expect_bind fun _ => .expect_bind fun _ => .expect_bind fun _ => ?_
    exact .bind (houter .body hk) fun _ => .pure _
  | classDecl =>
    have hk : statementCalls maxNesting + 3 ≤ k := Nat.le_of_succ_le_succ hk
    have hfield := houter .field (Nat.le_trans (Nat.le_add_left _ _) hk)
    refine .expect_bind fun _ => .expect_bind fun _ => ?_
    refine .bind (.step lifts_silent.parseParent) fun _ => .expect_bind fun _ => ?_
    refine .bound_bind fun n => .bind (follows_membersLoop (houter .method hk) hfield n) fun _ => ?_
    exact .expect_bind fun _ => .pure _
  | method =>
    have hk : statementCalls maxNesting + 2 ≤ k := Nat.le_of_succ_le_succ hk
    have hthree : 3 ≤ k := Nat.le_trans (Nat.succ_le_succ (Nat.succ_le_succ hroom)) hk
    refine .expect_bind fun _ => .bind (houter .type hthree) fun _ => .expect_bind fun _ => ?_
    refine .expect_bind fun _ => .bind (houter .params hthree) fun _ => ?_
    exact .bind (houter .body hk) fun _ => .pure _
  | body => exact .expect_bind fun _ => houter .statements (Nat.le_of_succ_le_succ hk)
  | _ => cases hp

/-- The body of a production follows what the production reads, if there is room for the calls in
it and they follow what they read. -/
theorem follows_run (p : Production α) (hp : p.isOuter = true → levels = maxNesting)
    (hcalls : p.calls levels ≤ k + 1) : Follows levels k (p.run call) (p.reads levels) := by
  have hroom := statementCalls_le levels
  -- What is left for the calls inside: one less.
  have hk : p.calls levels - 1 ≤ k := Nat.sub_le_of_le_add hcalls
  cases p with
  | program | mainClass | mainMethod | classDecl | method | body =>
    obtain rfl := hp rfl
    exact follows_outer hcall rfl hcalls
  | field =>
    refine .bind (hcall.inner levels (.typeFrom _) rfl hk) fun _ => ?_
    exact .expect_bind fun _ => .expect_bind fun _ => .pure _
  | params =>
    have hparam (base : Token) := hcall.inner levels (.param base) rfl hk
    refine .expect_bind fun opening => .ite (fun _ => .pure []) ?_
    refine .bind (hparam opening) fun _ => .bound_bind fun n => ?_
    exact .bind (follows_paramsLoop hparam n) fun _ => .expect_bind fun _ => .pure _
  | param base =>
    refine .bind (hcall.inner levels (.arraySuffix base) rfl hk) fun _ => ?_
    exact .expect_bind fun _ => .pure _
  | type => exact hcall.inner levels (.typeFrom _) rfl hk
  | typeFrom bases =>
    exact .expect_bind fun base => hcall.inner levels (.arraySuffix base) rfl hk
  | arraySuffix base => exact .step (lifts_silent.parseSuffix base)
  | statements =>
    refine .bound_bind fun n => ?_
    refine .bind (follows_statementsLoop (hcall.inner levels .statement rfl hk) n) fun _ => ?_
    exact .expect_bind fun _ => .pure _
  | statement => exact follows_statement hcall hcalls
  | statementKind => exact follows_statementKind hcall hk
  | block =>
    have hlist := hcall.inner levels .statements rfl
      (Nat.le_trans (Nat.succ_le_succ hroom) hk)
    exact .expect_bind fun _ => .bind hlist fun _ => .pure _
  | varDecl =>
    have htype := hcall.inner levels (.typeFrom (NodeKind.firstSet .varDecl)) rfl
      (Nat.le_trans (Nat.le_add_left _ _) hk)
    rw [reads, Statement.parseVarDecl, VarDecl.parse]
    simp only [bind_assoc, pure_bind]
    exact .bind htype fun _ => .expect_bind fun _ => .expect_bind fun _ => .pure _
  | returnValue =>
    have hvalue := hcall.expression (Nat.le_of_succ_le hk)
    exact .expect_bind fun _ => .bind hvalue fun _ => .expect_bind fun _ => .pure _
  | assert =>
    refine .expect_bind fun _ => .bind (hcall.parenthesized hk) fun _ => ?_
    exact .expect_bind fun _ => .pure _
  | print =>
    refine .expect_bind fun _ => .expect_bind fun _ => .expect_bind fun _ => ?_
    refine .expect_bind fun _ => .expect_bind fun _ => ?_
    exact .bind (hcall.parenthesized hk) fun _ => .expect_bind fun _ => .pure _
  | conditional =>
    have hbranch := hcall.statement (Nat.le_of_succ_le hk)
    refine .expect_bind fun _ => .bind (hcall.parenthesized hk) fun _ => .bind hbranch fun _ => ?_
    exact .accept_or (fun _ => .bind hbranch fun _ => .pure _) (.pure _)
  | loop =>
    have hbody := hcall.statement (Nat.le_of_succ_le hk)
    exact .expect_bind fun _ => .bind (hcall.parenthesized hk) fun _ => .bind hbody fun _ => .pure _
  | expressionStatement => exact follows_expressionStatement hcall hk
  | parenthesized =>
    exact .expect_bind fun _ => .bind (hcall.expression hk) fun _ => .expect_bind fun _ => .pure _
  | expression => exact follows_expression hcall hk
  | binary low => exact follows_binary hcall (by rw [calls] at hcalls; omega)
  | operand =>
    refine .bind (hcall.inner levels .head rfl hk) fun head => ?_
    exact hcall.inner levels (.tails head) rfl hk
  | head => exact follows_head hcall hk
  | creation word => exact follows_creation hcall hk
  | tails e =>
    have hindex := hcall.expression (Nat.le_of_succ_le hk)
    have hargs := hcall.inner levels .args rfl hk
    exact .bound_bind fun n => follows_tailsLoop hindex hargs n e
  | args =>
    refine .expect_bind fun _ => .accept_or (fun _ => .pure _) (.bound_bind fun n => ?_)
    refine .bind (follows_argsLoop (hcall.expression hk) n) fun _ => ?_
    exact .expect_bind fun _ => .pure _

end Bodies

/-! ### Fuel -/

/-- With fuel for the calls that it needs, a production follows what it reads: by induction on the
fuel, the calls in its body needing less. -/
theorem follows_withFuel : ∀ (fuel : Nat) {α : Type} (p : Production α) (levels : Nat),
    (p.isOuter = true → levels = maxNesting) → p.calls levels ≤ fuel →
      Follows levels (p.calls levels) (p.withFuel fuel) (p.reads levels)
  | 0, _, p, levels, _, hfuel => absurd (p.calls_pos levels) (Nat.not_lt.mpr hfuel)
  | fuel + 1, _, p, levels, hp, hfuel => by
    obtain ⟨k, hk⟩ := Nat.exists_eq_add_of_lt (p.calls_pos levels)
    rw [Nat.zero_add] at hk
    have hcall : Answers k (withFuel fuel) := fun q levels' hq hcalls =>
      (follows_withFuel fuel q levels' hq (by omega)).mono hcalls
    rw [hk]
    exact (follows_run hcall p hp (Nat.le_of_eq hk)).during

/-- A program follows the parser with fuel for eleven calls to each level. -/
theorem follows_program (extra : Nat) :
    Follows maxNesting (program.calls maxNesting) (program.withFuel (11 * maxNesting + extra))
      Program.parse := by
  have hcalls : program.calls maxNesting ≤ 11 * maxNesting := by decide
  exact follows_withFuel _ program maxNesting (fun _ => rfl)
    (Nat.le_trans hcalls (Nat.le_add_right _ _))

end Production

namespace Session

/-- Whatever the tokens of a session are, wherever it stands and under either policy, reading never
needs more than `11 * maxNesting` productions to be active at once: with fuel for as many, or more,
the counted parser has a result, which is what the parser reads, and leaves the same errors and
tokens behind. The depth never exceeds `maxNesting`, and every use of `nested` ends at the depth at
which it began. -/
theorem withFuel_agrees (s : Session) (extra : Nat) :
    let context : ParseContext := ⟨s.policy, s.stream.ending⟩
    let parsed := Program.parse context ⟨s.stream.ahead, []⟩
    ∃ t, Production.program.withFuel (11 * maxNesting + extra) context
        (.before s.stream.ahead [] 0) = some (parsed.1, t) ∧
      t.ahead = parsed.2.ahead ∧ t.errors = recordedErrors parsed.2.recoveries ∧
      t.busiest ≤ 11 * maxNesting ∧ t.active = 0 ∧ t.deepest ≤ maxNesting ∧ t.depth = 0 ∧
      ∀ o ∈ t.openings, o.exit = o.entry := by
  intro context parsed
  obtain ⟨t, hrun, hmatches, hbalanced⟩ := Production.follows_program extra context
    (.before s.stream.ahead [] 0) ⟨s.stream.ahead, []⟩ (Nat.zero_add _) ⟨rfl, rfl⟩
  have hcalls : max 0 (0 + Production.program.calls maxNesting) ≤ 11 * maxNesting := by decide
  have hbusiest : t.busiest ≤ 11 * maxNesting := Nat.le_trans hbalanced.busiest hcalls
  have hdeepest : t.deepest ≤ maxNesting :=
    Nat.le_trans hbalanced.deepest (Nat.max_le.mpr ⟨Nat.zero_le _, Nat.le_refl _⟩)
  obtain ⟨os, hos, hexits⟩ := hbalanced.openings
  refine ⟨t, hrun, hmatches.ahead, hmatches.errors, hbusiest, hbalanced.active, hdeepest,
    hbalanced.depth, ?_⟩
  rw [hos]
  exact hexits

-- The negation of a name in an assignment needs fuel for thirteen calls, and opens three levels.
example :
    let stream := (ofText "class M \x7b public static void main() \x7b a = !b; \x7d \x7d").stream
    let run (fuel : Nat) := Production.program.withFuel fuel ⟨.failFast, stream.ending⟩
      (.before stream.ahead [] 0)
    run 12 = none ∧ (run 13).map (fun r => (r.2.busiest, r.2.deepest)) = some (13, 3) := by
  decide +kernel

end Session

end MiniJava
