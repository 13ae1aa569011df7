import MiniJava.Outcome

/-!
# Counted parsing — productions that call each other under a depth counter

The parsers elsewhere are built by recursion on the levels that are left to open. Here the same
productions call each other by name, and nothing but the depth counter stops them: `nested` raises
it by one, runs a parser and lowers it again, and fails where `maxNesting` levels are open.

A run is counted. Its state says how many productions are active and how deep the counter stands,
the most that either has been, and the depth before and behind every use of `nested`. Calls use up
fuel: with none left, a call gives no result at all. So fuel bounds how many productions can be
active at once, and a parser that needs more has no result.
-/

namespace MiniJava

/-! ## States -/

/-- The depth before and behind the opening of a level. -/
structure Opening where
  entry : Nat
  exit : Nat
deriving DecidableEq, Repr, Inhabited

/-- What a counted parse changes. -/
structure CountedState where
  ahead : List Token
  /-- The errors recovered from, those left out that repeat the position of the one before. -/
  errors : List SyntaxError
  /-- The levels that are open. -/
  depth : Nat
  /-- The most levels that were open. -/
  deepest : Nat
  /-- The productions that are active. -/
  active : Nat
  /-- The most productions that were active. -/
  busiest : Nat
  /-- Every use of `nested` that has ended, refused ones included. -/
  openings : List Opening
deriving Repr, Inhabited

/-- The state before tokens, with nothing counted so far. -/
def CountedState.before (ahead : List Token) (errors : List SyntaxError) (depth : Nat) :
    CountedState :=
  ⟨ahead, errors, depth, depth, 0, 0, []⟩

/-! ## Parsers -/

/-- A parser that may run out of fuel, and then has no result. -/
def Counted (α : Type) : Type :=
  ParseContext → CountedState → Option (Except SyntaxError α × CountedState)

namespace Counted

instance : Monad Counted where
  pure a := fun _ s => some (.ok a, s)
  bind m f := fun c s =>
    match m c s with
    | some (.ok a, s') => f a c s'
    | some (.error e, s') => some (.error e, s')
    | none => none

section Bind

variable {α β : Type} {m : Counted α} {f : α → Counted β} {c : ParseContext} {s s' : CountedState}

-- What follows a step that succeeded goes on where the step stopped.
theorem bind_of_ok {a : α} (h : m c s = some (.ok a, s')) : (m >>= f) c s = f a c s' := by
  show (match m c s with
    | some (.ok a, s') => f a c s'
    | some (.error e, s') => some (.error e, s')
    | none => none) = f a c s'
  rw [h]

-- What follows a step that failed is not tried.
theorem bind_of_error {e : SyntaxError} (h : m c s = some (.error e, s')) :
    (m >>= f) c s = some (.error e, s') := by
  show (match m c s with
    | some (.ok a, s') => f a c s'
    | some (.error e, s') => some (.error e, s')
    | none => none) = some (.error e, s')
  rw [h]

end Bind

variable {α : Type}

/-- A step that puts no error on record. It leaves the counts as they are. -/
def step (p : Parse α) : Counted α := fun c s =>
  let (result, s') := p c ⟨s.ahead, []⟩
  some (result, { s with ahead := s'.ahead })

instance : MonadLift Parse Counted := ⟨step⟩

/-- The parser has no fuel left. -/
def outOfFuel : Counted α := fun _ _ => none

/-- Runs the body of a production, which is active as long as it runs. -/
def during (m : Counted α) : Counted α := fun c s =>
  match m c { s with active := s.active + 1, busiest := max s.busiest (s.active + 1) } with
  | some (result, s') => some (result, { s' with active := s'.active - 1 })
  | none => none

/-- Runs a parser one level deeper. Where `maxNesting` levels are open, it fails instead. -/
def nested (m : Counted α) : Counted α := fun c s =>
  if maxNesting ≤ s.depth then
    some (.error ⟨.tooDeep, s.ahead.headD c.ending⟩,
      { s with openings := s.openings ++ [⟨s.depth, s.depth⟩] })
  else
    match m c { s with depth := s.depth + 1, deepest := max s.deepest (s.depth + 1) } with
    | some (result, s') =>
      some (result,
        { s' with
          depth := s'.depth - 1
          openings := s'.openings ++ [⟨s.depth, s'.depth - 1⟩] })
    | none => none

/-- Runs a step that may fail. Where the policy allows it, its error goes on record, tokens are
skipped up to the boundary, and there is no value. -/
def recovering (boundary : Boundary) (m : Counted α) : Counted (Option α) := fun c s =>
  match m c s with
  | some (.ok a, s') => some (.ok (some a), s')
  | some (.error e, s') =>
    match c.policy with
    | .failFast => some (.error e, s')
    | .recover =>
      let moved := decide (s'.ahead.length < s.ahead.length)
      some (.ok none,
        { s' with ahead := boundary.skip moved s'.ahead, errors := keepError s'.errors e })
  | none => none

end Counted

/-! ## Productions -/

/-- A production, by what it gives. -/
inductive Production : Type → Type where
  | program : Production (Option Program)
  | mainClass : Production MainClass
  | mainMethod : Production Method
  | classDecl : Production ClassDecl
  | method : Production Method
  | field : Production VarDecl
  | params : Production (List VarDecl)
  /-- What is left of a parameter behind the base of its type. -/
  | param (base : Token) : Production VarDecl
  | body : Production (List Statement)
  | type : Production TypeRef
  | typeFrom (bases : List TokenKind) : Production TypeRef
  /-- An optional `[]` behind the base of a type. -/
  | arraySuffix (base : Token) : Production TypeRef
  /-- Statements and the closing brace. -/
  | statements : Production (List Statement)
  | statement : Production Statement
  /-- A statement, the level for it being open. -/
  | statementKind : Production Statement
  | block : Production Statement
  | varDecl : Production Statement
  | returnValue : Production Statement
  | assert : Production Statement
  | print : Production Statement
  | conditional : Production Statement
  | loop : Production Statement
  | expressionStatement : Production Statement
  | parenthesized : Production Expr
  | expression : Production Expr
  /-- Operands joined by operators that bind tighter than `low`. -/
  | binary (low : Nat) : Production Expr
  | operand : Production Expr
  | head : Production Expr
  /-- What follows the word `new`. -/
  | creation (word : Token) : Production Expr
  /-- The tails behind an expression. -/
  | tails (e : Expr) : Production Expr
  | args : Production (List Expr)

namespace Production

open Parse Counted

/-! ### Loops -/

/-- Operators that bind tighter than `low` and their right sides, at most `n` of them. -/
def infixLoop (right : Nat → Counted Expr) (low : Nat) : Nat → Expr → Counted Expr
  | 0, left => pure left
  | n + 1, left => do
    let op ← peek
    if low < op.kind.precedence then do
      let _ ← accept [op.kind]
      let operand ← right op.kind.precedence
      infixLoop right low n (.binary left op operand)
    else pure left

/-- Tails behind an expression, at most `n` of them. -/
def tailsLoop (expression : Counted Expr) (args : Counted (List Expr)) :
    Nat → Expr → Counted Expr
  | 0, e => pure e
  | n + 1, e => do
    match ← accept [.lbracket] with
    | some _ => do
      let index ← expression
      let _ ← expect [.rbracket]
      tailsLoop expression args n (.index e index)
    | none =>
      match ← accept [.dot] with
      | some _ => do
        let member ← expect [.lengthWord, .identifier]
        if member.kind = .lengthWord then tailsLoop expression args n (.arrayLength e)
        else do
          let list ← args
          tailsLoop expression args n (.call e member list)
      | none => pure e

/-- One argument and, as long as commas follow, the next; at most `n` of them. -/
def argsLoop (expression : Counted Expr) : Nat → Counted (List Expr)
  | 0 => pure []
  | n + 1 => do
    let arg ← expression
    match ← accept [.comma] with
    | some _ => do
      let rest ← argsLoop expression n
      pure (arg :: rest)
    | none => pure [arg]

/-- Statements up to a closing brace or the end of file, at most `n` of them. -/
def statementsLoop (statement : Counted Statement) : Nat → Counted (List Statement)
  | 0 => pure []
  | n + 1 => do
    let t ← peek
    if t.kind = .rbrace ∨ t.kind = .eof then pure []
    else do
      let first? ← Counted.recovering .statement statement
      let rest ← statementsLoop statement n
      pure (first?.toList ++ rest)

/-- Parameters with a comma before each, at most `n` of them. -/
def paramsLoop (param : Token → Counted VarDecl) : Nat → Counted (List VarDecl)
  | 0 => pure []
  | n + 1 => do
    match ← accept [.comma] with
    | some _ => do
      let base ← expect (NodeKind.firstSet .param)
      let first ← param base
      let rest ← paramsLoop param n
      pure (first :: rest)
    | none => pure []

/-- Fields and methods up to a closing brace or the end of file, at most `n` of them. -/
def membersLoop (method : Counted Method) (field : Counted VarDecl) :
    Nat → Counted (List VarDecl × List Method)
  | 0 => pure ([], [])
  | n + 1 => do
    let t ← peek
    if t.kind = .rbrace ∨ t.kind = .eof then pure ([], [])
    else if t.kind = .publicWord then do
      let first ← method
      let (fields, methods) ← membersLoop method field n
      pure (fields, first :: methods)
    else do
      let first ← field
      let (fields, methods) ← membersLoop method field n
      pure (first :: fields, methods)

/-- Classes as long as the word `class` comes, at most `n` of them. -/
def classesLoop (classDecl : Counted ClassDecl) : Nat → Counted (List ClassDecl)
  | 0 => pure []
  | n + 1 => do
    let t ← peek
    if t.kind = .classWord then do
      let first? ← Counted.recovering .classDecl classDecl
      let rest ← classesLoop classDecl n
      pure (first?.toList ++ rest)
    else pure []

/-! ### Bodies -/

/-- The length and the closing bracket of `new T[e]`. -/
def arrayCreation (expression : Counted Expr) (word base : Token) : Counted Expr := do
  let length ← expression
  let _ ← expect [.rbracket]
  pure (.newArray ⟨base, false⟩ length word.position)

/-- What a production does, given how to call the others. -/
def run (call : {α : Type} → Production α → Counted α) {α : Type} : Production α → Counted α
  | .program => do
    let mainClass? ← Counted.recovering .classDecl (call .mainClass)
    let classes ← classesLoop (call .classDecl) (← bound)
    let _ ← expect (NodeKind.followSet .classDecl)
    pure (mainClass?.map fun mainClass => ⟨mainClass, classes⟩)
  | .mainClass => do
    let _ ← expect [.classWord]
    let name ← expect [.identifier]
    let _ ← expect [.lbrace]
    let mainMethod ← call .mainMethod
    let _ ← expect [.rbrace]
    pure ⟨name, mainMethod⟩
  | .mainMethod => do
    let _ ← expect [.publicWord]
    let _ ← expect [.staticWord]
    let returnType ← call .type
    let name ← expect [.identifier]
    let _ ← expect [.lparen]
    let _ ← expect [.rparen]
    let body ← call .body
    pure ⟨returnType, name, [], body⟩
  | .classDecl => do
    let _ ← expect [.classWord]
    let name ← expect [.identifier]
    let parent? ← ClassDecl.parseParent
    let _ ← expect [.lbrace]
    let (fields, methods) ← membersLoop (call .method) (call .field) (← bound)
    let _ ← expect [.rbrace]
    pure ⟨name, parent?, fields, methods⟩
  | .method => do
    let _ ← expect [.publicWord]
    let returnType ← call .type
    let name ← expect [.identifier]
    let _ ← expect [.lparen]
    let params ← call .params
    let body ← call .body
    pure ⟨returnType, name, params, body⟩
  | .field => do
    let type ← call (.typeFrom (NodeKind.firstSet .field))
    let name ← expect [.identifier]
    let _ ← expect [.semicolon]
    pure ⟨type, name⟩
  | .params => do
    let opening ← expect (.rparen :: NodeKind.firstSet .param)
    if opening.kind = .rparen then pure []
    else do
      let first ← call (.param opening)
      let rest ← paramsLoop (fun base => call (.param base)) (← bound)
      let _ ← expect [.comma, .rparen]
      pure (first :: rest)
  | .param base => do
    let type ← call (.arraySuffix base)
    let name ← expect [.identifier]
    pure ⟨type, name⟩
  | .body => do
    let _ ← expect [.lbrace]
    call .statements
  | .type => call (.typeFrom (NodeKind.firstSet .type))
  | .typeFrom bases => do
    let base ← expect bases
    call (.arraySuffix base)
  | .arraySuffix base => step (TypeRef.parseSuffix base)
  | .statements => do
    let statements ← statementsLoop (call .statement) (← bound)
    let _ ← expect [.rbrace]
    pure statements
  | .statement => nested (call .statementKind)
  | .statementKind => do
    let t ← peek
    match t.kind with
    | .lbrace => call .block
    | .returnWord => call .returnValue
    | .assertWord => call .assert
    | .systemWord => call .print
    | .ifWord => call .conditional
    | .whileWord => call .loop
    | .intWord => call .varDecl
    | .booleanWord => call .varDecl
    | .identifier => do
      if (← peekBehind) = .identifier then call .varDecl else call .expressionStatement
    | _ => fail (.unexpected (NodeKind.firstSet .statement))
  | .block => do
    let brace ← expect [.lbrace]
    let statements ← call .statements
    pure (.block statements brace.position)
  | .varDecl => do
    let type ← call (.typeFrom (NodeKind.firstSet .varDecl))
    let name ← expect [.identifier]
    let _ ← expect [.semicolon]
    pure (.varDecl ⟨type, name⟩)
  | .returnValue => do
    let word ← expect [.returnWord]
    let value ← call .expression
    let _ ← expect [.semicolon]
    pure (.returnValue value word.position)
  | .assert => do
    let word ← expect [.assertWord]
    let condition ← call .parenthesized
    let _ ← expect [.semicolon]
    pure (.assert condition word.position)
  | .print => do
    let word ← expect [.systemWord]
    let _ ← expect [.dot]
    let _ ← expect [.outWord]
    let _ ← expect [.dot]
    let _ ← expect [.printlnWord]
    let value ← call .parenthesized
    let _ ← expect [.semicolon]
    pure (.print value word.position)
  | .conditional => do
    let word ← expect [.ifWord]
    let condition ← call .parenthesized
    let thenBranch ← call .statement
    match ← accept [.elseWord] with
    | some _ => do
      let elseBranch ← call .statement
      pure (.ifElse condition thenBranch elseBranch word.position)
    | none => pure (.ifThen condition thenBranch word.position)
  | .loop => do
    let word ← expect [.whileWord]
    let condition ← call .parenthesized
    let body ← call .statement
    pure (.loop condition body word.position)
  | .expressionStatement => do
    let target ← call .expression
    match ← accept [.assign] with
    | some _ => do
      let value ← call .expression
      let _ ← expect [.semicolon]
      pure (.assignment target value target.position)
    | none =>
      match target with
      | .call receiver name list => do
        let _ ← expect [.semicolon]
        pure (.call receiver name list)
      | _ => fail .invalidStatement
  | .parenthesized => do
    let _ ← expect [.lparen]
    let e ← call .expression
    let _ ← expect [.rparen]
    pure e
  | .expression => nested (call (.binary 0))
  | .binary low => do
    let left ← call .operand
    infixLoop (fun precedence => call (.binary precedence)) low (← bound) left
  | .operand => do
    let head ← call .head
    call (.tails head)
  | .head => do
    let t ← expect TokenKind.expressionStart
    match t.kind with
    | .not => do
      let operand ← nested (call .head)
      pure (.unary t operand)
    | .lparen => do
      let inner ← call .expression
      let _ ← expect [.rparen]
      pure inner
    | .thisWord => pure (.this t)
    | .boolLiteral => pure (.boolLiteral t)
    | .intLiteral => pure (.intLiteral t)
    | .newWord => call (.creation t)
    | _ => pure (.identifier t)
  | .creation word => do
    let base ← expect [.intWord, .booleanWord, .identifier]
    if base.kind = .identifier then do
      let opening ← expect [.lparen, .lbracket]
      if opening.kind = .lparen then do
        let _ ← expect [.rparen]
        pure (.newObject base word.position)
      else arrayCreation (call .expression) word base
    else do
      let _ ← expect [.lbracket]
      arrayCreation (call .expression) word base
  | .tails e => do
    tailsLoop (call .expression) (call .args) (← bound) e
  | .args => do
    let _ ← expect [.lparen]
    match ← accept [.rparen] with
    | some _ => pure []
    | none => do
      let args ← argsLoop (call .expression) (← bound)
      let _ ← expect [.comma, .rparen]
      pure args

/-- The production with fuel for so many calls to be active at once, its own among them. -/
def withFuel : Nat → {α : Type} → Production α → Counted α
  | 0, _, _ => outOfFuel
  | fuel + 1, _, p => during (p.run (withFuel fuel))

end Production

end MiniJava
