import MiniJava.Expr
import MiniJava.Parse

/-!
# Parsing expressions

An operand is a head (a literal, a name, `this`, a `new` form, a negation or an expression in
parentheses) with any number of tails behind it: an index, `.length` or a call. Operands are joined
by operators; the right side of an operator takes only operators that bind tighter, so that equal
ones group to the left. `!` takes the head behind it, before any tails.

The parsers of one level are built from those one level deeper, `Expr.parse n` standing for an
expression with `n` levels left to open. Where none is left, opening one is an error.
-/

namespace MiniJava

namespace Expr

open Parse

/-! ## Heads -/

/-- The length and the closing bracket of `new T[e]`. -/
def parseCreationOfArray (expression : Parse Expr) (word base : Token) : Parse Expr := do
  let length ← expression
  let _ ← expect [.rbracket]
  pure (.newArray ⟨base, false⟩ length word.position)

/-- What follows the word `new`: `C()`, `C[e]`, `int[e]` or `boolean[e]`. -/
def parseCreation (expression : Parse Expr) (word : Token) : Parse Expr := do
  let base ← expect [.intWord, .booleanWord, .identifier]
  if base.kind = .identifier then do
    let opening ← expect [.lparen, .lbracket]
    if opening.kind = .lparen then do
      let _ ← expect [.rparen]
      pure (.newObject base word.position)
    else parseCreationOfArray expression word base
  else do
    let _ ← expect [.lbracket]
    parseCreationOfArray expression word base

/-- The head of an operand; `negand` reads the head behind a `!`. -/
def parseHead (expression negand : Parse Expr) : Parse Expr := do
  let t ← expect TokenKind.expressionStart
  match t.kind with
  | .not => do
    let operand ← negand
    pure (.unary t operand)
  | .lparen => do
    let inner ← expression
    let _ ← expect [.rparen]
    pure inner
  | .thisWord => pure (.this t)
  | .boolLiteral => pure (.boolLiteral t)
  | .intLiteral => pure (.intLiteral t)
  | .newWord => parseCreation expression t
  | _ => pure (.identifier t)

/-! ## Tails -/

/-- One argument and, as long as commas follow, the next; at most `n` of them. -/
def parseMoreArgs (expression : Parse Expr) : Nat → Parse (List Expr)
  | 0 => pure []
  | n + 1 => do
    let arg ← expression
    match ← accept [.comma] with
    | some _ => do
      let rest ← parseMoreArgs expression n
      pure (arg :: rest)
    | none => pure [arg]

/-- The arguments of a call, in parentheses. -/
def parseArgs (expression : Parse Expr) : Parse (List Expr) := do
  let _ ← expect [.lparen]
  match ← accept [.rparen] with
  | some _ => pure []
  | none => do
    let args ← parseMoreArgs expression (← bound)
    let _ ← expect [.comma, .rparen]
    pure args

/-- The tails behind an expression, at most `n` of them. -/
def parseTails (expression : Parse Expr) : Nat → Expr → Parse Expr
  | 0, e => pure e
  | n + 1, e => do
    match ← accept [.lbracket] with
    | some _ => do
      let index ← expression
      let _ ← expect [.rbracket]
      parseTails expression n (.index e index)
    | none =>
      match ← accept [.dot] with
      | some _ => do
        let member ← expect [.lengthWord, .identifier]
        if member.kind = .lengthWord then parseTails expression n (.arrayLength e)
        else do
          let args ← parseArgs expression
          parseTails expression n (.call e member args)
      | none => pure e

/-- A head and its tails. -/
def parseOperand (expression negand : Parse Expr) : Parse Expr := do
  let head ← parseHead expression negand
  parseTails expression (← bound) head

/-! ## Operators -/

/-- Joins operators that bind tighter than `low` and their right sides to the left side read so far,
at most `n` of them. `right p` reads a right side whose operators bind tighter than `p`. -/
def parseInfix (right : Nat → Parse Expr) (low : Nat) : Nat → Expr → Parse Expr
  | 0, left => pure left
  | n + 1, left => do
    let op ← peek
    if low < op.kind.precedence then do
      let _ ← accept [op.kind]
      let operand ← right op.kind.precedence
      parseInfix right low n (.binary left op operand)
    else pure left

/-- Operands joined by operators that bind tighter than `low`, where `n` is at least the number of
precedences above `low`. -/
def parseChain (operand : Parse Expr) : Nat → Nat → Parse Expr
  | 0, _ => operand
  | n + 1, low => do
    let left ← operand
    parseInfix (parseChain operand n) low (← bound) left

/-! ## Levels -/

mutual

/-- An expression, with so many levels left to open. -/
def parse : Nat → Parse Expr
  | 0 => fail .tooDeep
  | n + 1 => fun c s =>
    parseChain (parseOperand (parse n) (parseNegand n)) TokenKind.maxPrecedence 0 c s

/-- The head behind a `!`, with so many levels left to open. -/
def parseNegand : Nat → Parse Expr
  | 0 => fail .tooDeep
  | n + 1 => fun c s => parseHead (parse n) (parseNegand n) c s

end

theorem parse_succ (n : Nat) :
    parse (n + 1) =
      parseChain (parseOperand (parse n) (parseNegand n)) TokenKind.maxPrecedence 0 := rfl

theorem parseNegand_succ (n : Nat) : parseNegand (n + 1) = parseHead (parse n) (parseNegand n) :=
  rfl

end Expr

end MiniJava
