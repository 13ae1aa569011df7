import MiniJava.Program.Print

/-!
# Outlines — a tree as a list of indented rows

Every node of a program is a row: how deep it is, what it is, and where it stands. The nodes inside
a node follow it one level deeper, in the order of the text. An `else` is a row of its own, level
with its `if`.
-/

namespace MiniJava

/-- A node of a tree. -/
structure OutlineRow where
  depth : Nat
  label : String
  position : Position
deriving DecidableEq, Repr, Inhabited

namespace Expr

mutual

/-- The rows of an expression. -/
def outline (depth : Nat) : Expr → List OutlineRow
  | binary left op right =>
    ⟨depth, "binary " ++ op.text, op.position⟩ ::
      outline (depth + 1) left ++ outline (depth + 1) right
  | unary op operand => ⟨depth, "unary " ++ op.text, op.position⟩ :: outline (depth + 1) operand
  | index array i =>
    ⟨depth, "index", array.position⟩ :: outline (depth + 1) array ++ outline (depth + 1) i
  | arrayLength array => ⟨depth, "length", array.position⟩ :: outline (depth + 1) array
  | newObject className p => [⟨depth, "new " ++ className.text ++ "()", p⟩]
  | newArray elementType length p =>
    ⟨depth, "new " ++ elementType.base.text ++ "[]", p⟩ :: outline (depth + 1) length
  | call receiver method args =>
    ⟨depth, "call ." ++ method.text, method.position⟩ ::
      outline (depth + 1) receiver ++ outlineEach (depth + 1) args
  | intLiteral t => [⟨depth, "int " ++ t.text, t.position⟩]
  | boolLiteral t => [⟨depth, "boolean " ++ t.text, t.position⟩]
  | identifier t => [⟨depth, "ident " ++ t.text, t.position⟩]
  | this t => [⟨depth, "this", t.position⟩]

/-- The rows of expressions one behind the other. -/
def outlineEach (depth : Nat) : List Expr → List OutlineRow
  | [] => []
  | e :: es => outline depth e ++ outlineEach depth es

end

end Expr

namespace Statement

mutual

/-- The rows of a statement. -/
def outline (depth : Nat) : Statement → List OutlineRow
  | block statements p => ⟨depth, "block", p⟩ :: outlineEach (depth + 1) statements
  | varDecl d => [⟨depth, "var " ++ d.type.print ++ " " ++ d.name.text, d.position⟩]
  | assignment target value p =>
    ⟨depth, "assign", p⟩ :: target.outline (depth + 1) ++ value.outline (depth + 1)
  | print value p => ⟨depth, "println", p⟩ :: value.outline (depth + 1)
  | assert condition p => ⟨depth, "assert", p⟩ :: condition.outline (depth + 1)
  | returnValue value p => ⟨depth, "return", p⟩ :: value.outline (depth + 1)
  | call receiver method args =>
    ⟨depth, "call statement", receiver.position⟩ ::
      (Expr.call receiver method args).outline (depth + 1)
  | ifThen condition thenBranch p =>
    ⟨depth, "if", p⟩ :: condition.outline (depth + 1) ++ outline (depth + 1) thenBranch
  | ifElse condition thenBranch elseBranch p =>
    ⟨depth, "if", p⟩ :: condition.outline (depth + 1) ++ outline (depth + 1) thenBranch ++
      ⟨depth, "else", elseBranch.position⟩ :: outline (depth + 1) elseBranch
  | loop condition body p =>
    ⟨depth, "while", p⟩ :: condition.outline (depth + 1) ++ outline (depth + 1) body

/-- The rows of statements one behind the other. -/
def outlineEach (depth : Nat) : List Statement → List OutlineRow
  | [] => []
  | s :: ss => outline depth s ++ outlineEach depth ss

end

end Statement

namespace Program

/-- The rows of a method under a class; `word` says which sort of method it is. -/
def outlineMethod (word : String) (m : Method) : List OutlineRow :=
  ⟨1, word ++ " " ++ m.signature, m.position⟩ :: Statement.outlineEach 2 m.body

/-- The rows of a class. -/
def outlineClass (c : ClassDecl) : List OutlineRow :=
  ⟨0, c.heading, c.position⟩ ::
    c.fields.map (fun d => ⟨1, "field " ++ d.type.print ++ " " ++ d.name.text, d.position⟩) ++
    c.methods.flatMap (outlineMethod "method")

/-- The rows of a program. -/
def outline (p : Program) : List OutlineRow :=
  ⟨0, "class " ++ p.mainClass.name.text ++ " (main)", p.mainClass.name.position⟩ ::
    outlineMethod "static method" p.mainClass.mainMethod ++ p.classes.flatMap outlineClass

end Program

end MiniJava
