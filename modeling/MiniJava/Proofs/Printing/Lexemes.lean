import MiniJava.Lexed
import MiniJava.Program.Print

/-!
# Lexemes — the tokens that a printed tree consists of

A lexeme is a kind and a text: a token without its place. `lexemes` of a tree are those of its
printed text, in order, and `printedLevels` is how many levels that text opens at once, which is
more than the text had from which the tree was read, because printing adds parentheses.

A tree is `Legible` if its tokens are spelled as their kinds want it, its types are among those that
can stand where they do, and no `else` would be taken by another `if`. Such a tree can be read back
if its assignments and calls also begin with a name (`BeginsWithNames`).
-/

namespace MiniJava

/-- A kind and a text that stands for it. -/
@[ext]
structure Lexeme where
  kind : TokenKind
  text : String
deriving DecidableEq, Repr

-- A token without its place.
def Token.lexeme (t : Token) : Lexeme := ⟨t.kind, t.text⟩

-- A kind in its one spelling.
def TokenKind.lexeme (kind : TokenKind) : Lexeme := ⟨kind, kind.spelling?.getD ""⟩

/-- The text is how the kind can be written. -/
def Lexeme.Spelled (l : Lexeme) : Prop :=
  match l.kind with
  | .identifier => Segment.isLegalName l.text.toList = true ∧ TokenKind.ofWord? l.text = none
  | .intLiteral => l.text ≠ "" ∧ ∀ c ∈ l.text.toList, c.isDigit = true
  | .boolLiteral => l.text = "true" ∨ l.text = "false"
  | kind => kind.spelling? = some l.text

-- A kind that has one spelling is spelled in no other way.
theorem Lexeme.Spelled.eq_lexeme {l : Lexeme} {w : String} (h : l.Spelled)
    (hw : l.kind.spelling? = some w) : l = l.kind.lexeme := by
  obtain ⟨kind, text⟩ := l
  have htext : kind.spelling? = some text := by
    cases kind <;> first | exact h | cases hw
  rw [TokenKind.lexeme, htext, Option.getD_some]

/-- The token is of one of these kinds and spelled as its kind wants it. -/
def Token.IsA (kinds : List TokenKind) (t : Token) : Prop := t.kind ∈ kinds ∧ t.lexeme.Spelled

/-! ## Types and declarations -/

namespace TypeRef

def lexemes (t : TypeRef) : List Lexeme :=
  t.base.lexeme :: if t.isArray then [TokenKind.lbracket.lexeme, TokenKind.rbracket.lexeme] else []

end TypeRef

namespace VarDecl

def lexemes (d : VarDecl) : List Lexeme := d.type.lexemes ++ [d.name.lexeme]

-- The base of the type is of one of these kinds.
def Legible (bases : List TokenKind) (d : VarDecl) : Prop :=
  d.type.base.IsA bases ∧ d.name.IsA [.identifier]

end VarDecl

/-! ## Expressions -/

namespace Expr

mutual

-- The lexemes of an expression.
def lexemes : Expr → List Lexeme
  | binary left op right =>
    TokenKind.lparen.lexeme ::
      (left.lexemes ++ op.lexeme :: (right.lexemes ++ [TokenKind.rparen.lexeme]))
  | unary op operand =>
    if operand.hasTail then
      TokenKind.lparen.lexeme :: op.lexeme :: TokenKind.lparen.lexeme ::
        (operand.lexemes ++ [TokenKind.rparen.lexeme, TokenKind.rparen.lexeme])
    else TokenKind.lparen.lexeme :: op.lexeme :: (operand.lexemes ++ [TokenKind.rparen.lexeme])
  | index array i =>
    array.lexemes ++ TokenKind.lbracket.lexeme :: (i.lexemes ++ [TokenKind.rbracket.lexeme])
  | arrayLength array =>
    array.lexemes ++ [TokenKind.dot.lexeme, TokenKind.lengthWord.lexeme]
  | newObject className _ =>
    [TokenKind.newWord.lexeme, className.lexeme, TokenKind.lparen.lexeme, TokenKind.rparen.lexeme]
  | newArray elementType length _ =>
    TokenKind.newWord.lexeme :: elementType.base.lexeme :: TokenKind.lbracket.lexeme ::
      (length.lexemes ++ [TokenKind.rbracket.lexeme])
  | call receiver method args =>
    receiver.lexemes ++ TokenKind.dot.lexeme :: method.lexeme :: TokenKind.lparen.lexeme ::
      (argLexemes args ++ [TokenKind.rparen.lexeme])
  | intLiteral t => [t.lexeme]
  | boolLiteral t => [t.lexeme]
  | identifier t => [t.lexeme]
  | this t => [t.lexeme]

def argLexemes : List Expr → List Lexeme
  | [] => []
  | e :: es => e.lexemes ++ moreArgLexemes es

-- The lexemes of arguments with a comma before each.
def moreArgLexemes : List Expr → List Lexeme
  | [] => []
  | e :: es => TokenKind.comma.lexeme :: (e.lexemes ++ moreArgLexemes es)

end

mutual

/-- How many levels the printed expression opens at once. -/
def printedLevels : Expr → Nat
  | binary left _ right => max left.printedLevels right.printedLevels + 1
  | unary _ operand =>
    if operand.hasTail then operand.printedLevels + 3 else operand.printedLevels + 2
  | index array i => max array.printedLevels (i.printedLevels + 1)
  | arrayLength array => array.printedLevels
  | newObject .. => 0
  | newArray _ length _ => length.printedLevels + 1
  | call receiver _ args => max receiver.printedLevels (argLevels args)
  | intLiteral _ | boolLiteral _ | identifier _ | this _ => 0

def argLevels : List Expr → Nat
  | [] => 0
  | e :: es => max (e.printedLevels + 1) (argLevels es)

end

mutual

/-- The tokens of the expression are spelled as their kinds want it, and of the kinds that their
places want. -/
def Legible : Expr → Prop
  | binary left op right => left.Legible ∧ op.IsA TokenKind.binaryOperators ∧ right.Legible
  | unary op operand => op.IsA [.not] ∧ operand.Legible
  | index array i => array.Legible ∧ i.Legible
  | arrayLength array => array.Legible
  | newObject className _ => className.IsA [.identifier]
  | newArray elementType length _ =>
    elementType.base.IsA [.intWord, .booleanWord, .identifier] ∧ elementType.isArray = false ∧
      length.Legible
  | call receiver method args => receiver.Legible ∧ method.IsA [.identifier] ∧ EachLegible args
  | intLiteral t => t.IsA [.intLiteral]
  | boolLiteral t => t.IsA [.boolLiteral]
  | identifier t => t.IsA [.identifier]
  | this t => t.IsA [.thisWord]

def EachLegible : List Expr → Prop
  | [] => True
  | e :: es => e.Legible ∧ EachLegible es

end

/-- The innermost array or receiver is a name. -/
def reachesName : Expr → Bool
  | index array _ => array.reachesName
  | arrayLength array => array.reachesName
  | call receiver _ _ => receiver.reachesName
  | identifier _ => true
  | _ => false

end Expr

/-! ## Statements -/

namespace Statement

mutual

-- The lexemes of a statement.
def lexemes : Statement → List Lexeme
  | block statements _ =>
    TokenKind.lbrace.lexeme :: (lexemesEach statements ++ [TokenKind.rbrace.lexeme])
  | varDecl d => d.lexemes ++ [TokenKind.semicolon.lexeme]
  | assignment target value _ =>
    target.lexemes ++ TokenKind.assign.lexeme :: (value.lexemes ++ [TokenKind.semicolon.lexeme])
  | print value _ =>
    TokenKind.systemWord.lexeme :: TokenKind.dot.lexeme :: TokenKind.outWord.lexeme ::
      TokenKind.dot.lexeme :: TokenKind.printlnWord.lexeme :: TokenKind.lparen.lexeme ::
      (value.lexemes ++ [TokenKind.rparen.lexeme, TokenKind.semicolon.lexeme])
  | assert condition _ =>
    TokenKind.assertWord.lexeme :: TokenKind.lparen.lexeme ::
      (condition.lexemes ++ [TokenKind.rparen.lexeme, TokenKind.semicolon.lexeme])
  | returnValue value _ =>
    TokenKind.returnWord.lexeme :: (value.lexemes ++ [TokenKind.semicolon.lexeme])
  | call receiver method args =>
    (Expr.call receiver method args).lexemes ++ [TokenKind.semicolon.lexeme]
  | ifThen condition thenBranch _ =>
    TokenKind.ifWord.lexeme :: TokenKind.lparen.lexeme ::
      (condition.lexemes ++ TokenKind.rparen.lexeme :: thenBranch.lexemes)
  | ifElse condition thenBranch elseBranch _ =>
    TokenKind.ifWord.lexeme :: TokenKind.lparen.lexeme ::
      (condition.lexemes ++ TokenKind.rparen.lexeme ::
        (thenBranch.lexemes ++ TokenKind.elseWord.lexeme :: elseBranch.lexemes))
  | loop condition body _ =>
    TokenKind.whileWord.lexeme :: TokenKind.lparen.lexeme ::
      (condition.lexemes ++ TokenKind.rparen.lexeme :: body.lexemes)

def lexemesEach : List Statement → List Lexeme
  | [] => []
  | s :: ss => s.lexemes ++ lexemesEach ss

end

mutual

-- How many levels the printed statement opens at once.
def printedLevels : Statement → Nat
  | block statements _ => levelsEach statements
  | varDecl _ => 0
  | assignment target value _ => max (target.printedLevels + 1) (value.printedLevels + 1)
  | print value _ => value.printedLevels + 1
  | assert condition _ => condition.printedLevels + 1
  | returnValue value _ => value.printedLevels + 1
  | call receiver method args => (Expr.call receiver method args).printedLevels + 1
  | ifThen condition thenBranch _ =>
    max (condition.printedLevels + 1) (thenBranch.printedLevels + 1)
  | ifElse condition thenBranch elseBranch _ =>
    max (condition.printedLevels + 1)
      (max (thenBranch.printedLevels + 1) (elseBranch.printedLevels + 1))
  | loop condition body _ => max (condition.printedLevels + 1) (body.printedLevels + 1)

def levelsEach : List Statement → Nat
  | [] => 0
  | s :: ss => max (s.printedLevels + 1) (levelsEach ss)

end

/-- The statement ends in an `if` without `else`, through `else` branches and loops. -/
def endsOpen : Statement → Bool
  | ifThen .. => true
  | ifElse _ _ elseBranch _ => elseBranch.endsOpen
  | loop _ body _ => body.endsOpen
  | _ => false

mutual

/-- The statement can be read, except that an assignment or a call may begin with something else
than a name. -/
def Legible : Statement → Prop
  | block statements _ => EachLegible statements
  | varDecl d => d.Legible NodeKind.varDeclStart ∧ (d.type.isNamed = true → d.type.isArray = false)
  | assignment target value _ => target.Legible ∧ value.Legible
  | print value _ => value.Legible
  | assert condition _ => condition.Legible
  | returnValue value _ => value.Legible
  | call receiver method args => (Expr.call receiver method args).Legible
  | ifThen condition thenBranch _ => condition.Legible ∧ thenBranch.Legible
  | ifElse condition thenBranch elseBranch _ =>
    condition.Legible ∧ thenBranch.Legible ∧ thenBranch.endsOpen = false ∧ elseBranch.Legible
  | loop condition body _ => condition.Legible ∧ body.Legible

def EachLegible : List Statement → Prop
  | [] => True
  | s :: ss => s.Legible ∧ EachLegible ss

end

mutual

/-- Every target of an assignment and every receiver of a call statement reaches a name. -/
def BeginsWithNames : Statement → Prop
  | block statements _ => EachBeginsWithNames statements
  | assignment target _ _ => target.reachesName = true
  | call receiver _ _ => receiver.reachesName = true
  | ifThen _ thenBranch _ => thenBranch.BeginsWithNames
  | ifElse _ thenBranch elseBranch _ =>
    thenBranch.BeginsWithNames ∧ elseBranch.BeginsWithNames
  | loop _ body _ => body.BeginsWithNames
  | varDecl _ | print .. | assert .. | returnValue .. => True

def EachBeginsWithNames : List Statement → Prop
  | [] => True
  | s :: ss => s.BeginsWithNames ∧ EachBeginsWithNames ss

end

end Statement

/-! ## Methods, classes and programs -/

-- The lexemes of parameters with a comma before each.
def VarDecl.moreLexemes (ds : List VarDecl) : List Lexeme :=
  ds.flatMap fun d => TokenKind.comma.lexeme :: d.lexemes

-- The lexemes of parameters with commas between them.
def VarDecl.paramLexemes : List VarDecl → List Lexeme
  | [] => []
  | d :: ds => d.lexemes ++ moreLexemes ds

namespace Method

def bodyLexemes (m : Method) : List Lexeme :=
  TokenKind.lbrace.lexeme :: (Statement.lexemesEach m.body ++ [TokenKind.rbrace.lexeme])

def lexemes (m : Method) : List Lexeme :=
  TokenKind.publicWord.lexeme :: (m.returnType.lexemes ++ m.name.lexeme ::
    TokenKind.lparen.lexeme :: (VarDecl.paramLexemes m.params ++ TokenKind.rparen.lexeme ::
      m.bodyLexemes))

def mainLexemes (m : Method) : List Lexeme :=
  TokenKind.publicWord.lexeme :: TokenKind.staticWord.lexeme :: (m.returnType.lexemes ++
    m.name.lexeme :: TokenKind.lparen.lexeme :: TokenKind.rparen.lexeme :: m.bodyLexemes)

-- The method can be read, but for what its assignments and calls begin with.
def Legible (m : Method) : Prop :=
  m.returnType.base.IsA NodeKind.typeStart ∧ m.name.IsA [.identifier] ∧
    (∀ d ∈ m.params, d.Legible NodeKind.typeStart) ∧ Statement.EachLegible m.body

end Method

namespace MainClass

def lexemes (c : MainClass) : List Lexeme :=
  TokenKind.classWord.lexeme :: c.name.lexeme :: TokenKind.lbrace.lexeme ::
    (c.mainMethod.mainLexemes ++ [TokenKind.rbrace.lexeme])

def Legible (c : MainClass) : Prop :=
  c.name.IsA [.identifier] ∧ c.mainMethod.params = [] ∧ c.mainMethod.Legible

end MainClass

namespace ClassDecl

-- The lexemes of the clause that names the class that is extended.
def parentLexemes : Option Token → List Lexeme
  | some parent => [TokenKind.extendsWord.lexeme, parent.lexeme]
  | none => []

-- The lexemes of a class, its fields before its methods.
def lexemes (c : ClassDecl) : List Lexeme :=
  TokenKind.classWord.lexeme :: c.name.lexeme :: (parentLexemes c.parent? ++
    TokenKind.lbrace.lexeme ::
      (c.fields.flatMap (fun d => d.lexemes ++ [TokenKind.semicolon.lexeme]) ++
        (c.methods.flatMap (·.lexemes) ++ [TokenKind.rbrace.lexeme])))

def Legible (c : ClassDecl) : Prop :=
  c.name.IsA [.identifier] ∧ (∀ parent ∈ c.parent?, parent.IsA [.identifier]) ∧
    (∀ d ∈ c.fields, d.Legible NodeKind.typeStart) ∧ ∀ m ∈ c.methods, m.Legible

end ClassDecl

namespace Program

def lexemes (p : Program) : List Lexeme :=
  p.mainClass.lexemes ++ p.classes.flatMap (·.lexemes)

/-- The printed program opens no more than so many levels at once. -/
def PrintsWithin (limit : Nat) (p : Program) : Prop :=
  ∀ m ∈ p.methods, Statement.levelsEach m.body ≤ limit

/-- The program can be read, but for what its assignments and calls begin with. -/
def Legible (p : Program) : Prop := p.mainClass.Legible ∧ ∀ c ∈ p.classes, c.Legible

/-- Every assignment and every call statement begins with a name. -/
def BeginsWithNames (p : Program) : Prop :=
  ∀ m ∈ p.methods, Statement.EachBeginsWithNames m.body

end Program

end MiniJava
