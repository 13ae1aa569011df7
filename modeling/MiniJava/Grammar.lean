import MiniJava.Token.Kind

/-!
# Grammar tables

For every kind of node: the kinds of token it can begin with, and the kinds that can stand right
behind it. Where a message lists what was expected, it lists it in the order of these tables.
-/

namespace MiniJava

/-- The kinds of node of a syntax tree, and the two classes `statement` and `expression` of them. -/
inductive NodeKind where
  | program | mainClass | classDecl | method | field | param | type | identifier
  | statement
  | block | varDecl | assignment | print | assert | returnValue | callStatement | conditional | loop
  | expression
  | binary | unary | index | arrayLength | newObject | newArray | call
  | intLiteral | boolLiteral | this
deriving DecidableEq, Repr, Inhabited

namespace NodeKind

open TokenKind

/-- The kinds a local declaration begins with. -/
def varDeclStart : List TokenKind := [intWord, booleanWord, .identifier]

/-- The kinds a type begins with. -/
def typeStart : List TokenKind := [intWord, booleanWord, voidWord, .identifier]

/-- The kinds a statement begins with. -/
def statementStart : List TokenKind :=
  [lbrace, returnWord, assertWord, systemWord, intWord, booleanWord, ifWord, whileWord, .identifier]

/-- The kinds that can stand behind a statement. -/
def statementFollow : List TokenKind :=
  [lbrace, returnWord, assertWord, systemWord, intWord, booleanWord, ifWord, whileWord, .identifier,
    rbrace, elseWord]

/-- The kinds that can stand behind an expression. -/
def expressionFollow : List TokenKind :=
  [add, sub, mul, div, mod, and, or, eq, lt, gt, rparen, rbracket, assign, semicolon, comma]

/-- The kinds a node of this kind can begin with. -/
def firstSet : NodeKind → List TokenKind
  | program | mainClass | classDecl => [classWord]
  | method => [publicWord]
  | field | param | type => typeStart
  | varDecl => varDeclStart
  | identifier => [.identifier]
  | statement => statementStart
  | block => [lbrace]
  | assignment | callStatement => [.identifier]
  | print => [systemWord]
  | assert => [assertWord]
  | returnValue => [returnWord]
  | conditional => [ifWord]
  | loop => [whileWord]
  | expression | binary | index | arrayLength | call => expressionStart
  | unary => [not]
  | newObject | newArray => [newWord]
  | intLiteral => [.intLiteral]
  | boolLiteral => [.boolLiteral]
  | this => [thisWord]

/-- The kinds that can stand right behind a node of this kind. -/
def followSet : NodeKind → List TokenKind
  | program => [eof]
  | mainClass | classDecl => [classWord, eof]
  | method | field => [publicWord, intWord, booleanWord, .identifier, rbrace]
  | param => [comma, rparen]
  | type => [.identifier]
  | identifier =>
    [lbrace, lparen, lbracket, rparen, rbracket, semicolon, comma, dot, assign, extendsWord,
      add, sub, mul, div, mod, and, or, eq, lt, gt]
  | statement | block | varDecl | assignment | print | assert | returnValue | callStatement
  | conditional | loop => statementFollow
  | expression | binary | unary | index | arrayLength | newObject | newArray | call | intLiteral
  | boolLiteral | this => expressionFollow

end NodeKind

namespace TokenKind

/-- Reading can go on before a token of this kind after a broken statement. Names are left out,
because they stand inside statements far more often than in front of them. -/
def resumesStatement (kind : TokenKind) : Bool :=
  kind != identifier && kind != elseWord && (NodeKind.followSet .statement).contains kind

/-- Reading can go on before a token of this kind after a broken class. -/
def resumesClass (kind : TokenKind) : Bool := (NodeKind.followSet .classDecl).contains kind

/-- The boundaries of statements are the closing brace and the kinds other than names with which a
statement begins. -/
theorem resumesStatement_iff (kind : TokenKind) :
    kind.resumesStatement = true ↔
      kind = rbrace ∨ (kind ∈ NodeKind.firstSet .statement ∧ kind ≠ identifier) := by
  cases kind <;> decide

end TokenKind

end MiniJava
