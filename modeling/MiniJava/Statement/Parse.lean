import MiniJava.Expr.Parse
import MiniJava.Statement

/-!
# Parsing statements

The first token decides which statement comes, except for a name: a second name behind it makes a
declaration, and anything else makes an expression, which then has to be assigned to or be a call.
An `else` belongs to the nearest `if`. In a list of statements a broken one may be recovered from.
-/

namespace MiniJava

open Parse

/-- An optional `[]` behind the base of a type. -/
def TypeRef.parseSuffix (base : Token) : Parse TypeRef := do
  match ← accept [.lbracket] with
  | some _ => do
    let _ ← expect [.rbracket]
    pure ⟨base, true⟩
  | none => pure ⟨base, false⟩

/-- A type whose base is of one of these kinds. -/
def TypeRef.parse (bases : List TokenKind) : Parse TypeRef := do
  let base ← expect bases
  parseSuffix base

/-- A type, a name and a semicolon. -/
def VarDecl.parse (bases : List TokenKind) : Parse VarDecl := do
  let type ← TypeRef.parse bases
  let name ← expect [.identifier]
  let _ ← expect [.semicolon]
  pure ⟨type, name⟩

namespace Statement

/-- An expression in parentheses. -/
def parseParenthesized (expression : Parse Expr) : Parse Expr := do
  let _ ← expect [.lparen]
  let e ← expression
  let _ ← expect [.rparen]
  pure e

/-- Statements up to a closing brace or the end of file, at most `n` of them. -/
def parseMany (statement : Parse Statement) : Nat → Parse (List Statement)
  | 0 => pure []
  | n + 1 => do
    let t ← peek
    if t.kind = .rbrace ∨ t.kind = .eof then pure []
    else do
      let first? ← recovering .statement statement
      let rest ← parseMany statement n
      pure (first?.toList ++ rest)

/-- Statements and the closing brace behind them. -/
def parseList (statement : Parse Statement) : Parse (List Statement) := do
  let statements ← parseMany statement (← bound)
  let _ ← expect [.rbrace]
  pure statements

/-- `{ … }`. -/
def parseBlock (statement : Parse Statement) : Parse Statement := do
  let brace ← expect [.lbrace]
  let statements ← parseList statement
  pure (.block statements brace.position)

/-- A local declaration. -/
def parseVarDecl : Parse Statement := do
  let decl ← VarDecl.parse (NodeKind.firstSet .varDecl)
  pure (.varDecl decl)

/-- `return e;`. -/
def parseReturn (expression : Parse Expr) : Parse Statement := do
  let word ← expect [.returnWord]
  let value ← expression
  let _ ← expect [.semicolon]
  pure (.returnValue value word.position)

/-- `assert(e);`. -/
def parseAssert (expression : Parse Expr) : Parse Statement := do
  let word ← expect [.assertWord]
  let condition ← parseParenthesized expression
  let _ ← expect [.semicolon]
  pure (.assert condition word.position)

/-- `System.out.println(e);`. -/
def parsePrint (expression : Parse Expr) : Parse Statement := do
  let word ← expect [.systemWord]
  let _ ← expect [.dot]
  let _ ← expect [.outWord]
  let _ ← expect [.dot]
  let _ ← expect [.printlnWord]
  let value ← parseParenthesized expression
  let _ ← expect [.semicolon]
  pure (.print value word.position)

/-- `if (e) s`, and `else s` if it follows. -/
def parseConditional (expression : Parse Expr) (statement : Parse Statement) :
    Parse Statement := do
  let word ← expect [.ifWord]
  let condition ← parseParenthesized expression
  let thenBranch ← statement
  match ← accept [.elseWord] with
  | some _ => do
    let elseBranch ← statement
    pure (.ifElse condition thenBranch elseBranch word.position)
  | none => pure (.ifThen condition thenBranch word.position)

/-- `while (e) s`. -/
def parseLoop (expression : Parse Expr) (statement : Parse Statement) : Parse Statement := do
  let word ← expect [.whileWord]
  let condition ← parseParenthesized expression
  let body ← statement
  pure (.loop condition body word.position)

/-- An assignment or a call. -/
def parseExpression (expression : Parse Expr) : Parse Statement := do
  let target ← expression
  match ← accept [.assign] with
  | some _ => do
    let value ← expression
    let _ ← expect [.semicolon]
    pure (.assignment target value target.position)
  | none =>
    match target with
    | .call receiver method args => do
      let _ ← expect [.semicolon]
      pure (.call receiver method args)
    | _ => fail .invalidStatement

/-- A statement, given how to read the expressions and the statements inside it. -/
def parseForm (expression : Parse Expr) (statement : Parse Statement) : Parse Statement := do
  let t ← peek
  match t.kind with
  | .lbrace => parseBlock statement
  | .returnWord => parseReturn expression
  | .assertWord => parseAssert expression
  | .systemWord => parsePrint expression
  | .ifWord => parseConditional expression statement
  | .whileWord => parseLoop expression statement
  | .intWord => parseVarDecl
  | .booleanWord => parseVarDecl
  | .identifier => do
    if (← peekBehind) = .identifier then parseVarDecl else parseExpression expression
  | _ => fail (.unexpected (NodeKind.firstSet .statement))

/-- A statement, with so many levels left to open. -/
def parse : Nat → Parse Statement
  | 0 => fail .tooDeep
  | n + 1 => fun c s => parseForm (Expr.parse n) (parse n) c s

theorem parse_succ (n : Nat) : parse (n + 1) = parseForm (Expr.parse n) (parse n) := rfl

end Statement

end MiniJava
