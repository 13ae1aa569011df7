import MiniJava.Proofs.Printing.Shape
import MiniJava.Program.Parse

/-!
# Relabelling — other texts and positions for the same kinds

A relabelling gives every token another text and another position, and keeps its kind. A tree is
relabelled token by token; where it stores a position without its token, the position is replaced as
that of the token would be. Setting all positions to the start is a relabelling
(`Program.erase_eq_relabel`), and one relabelling behind another is one (`Program.relabel_relabel`).
-/

namespace MiniJava

/-- New texts for tokens and new positions. -/
structure Relabeling where
  text : Token → String
  position : Position → Position

/-- The token with its new text and its new position. -/
def Token.relabel (r : Relabeling) (t : Token) : Token := ⟨t.kind, r.text t, r.position t.position⟩

namespace Relabeling

/-- One relabelling behind another. -/
def comp (r' r : Relabeling) : Relabeling where
  text t := r'.text (t.relabel r)
  position p := r'.position (r.position p)

/-- Every position becomes the start. -/
def erasing : Relabeling := ⟨Token.text, fun _ => .start⟩

end Relabeling

/-! ## Expressions -/

def TypeRef.relabel (r : Relabeling) (t : TypeRef) : TypeRef := ⟨t.base.relabel r, t.isArray⟩

namespace Expr

mutual

/-- The expression with its new labels. -/
def relabel (r : Relabeling) : Expr → Expr
  | binary left op right => binary (left.relabel r) (op.relabel r) (right.relabel r)
  | unary op operand => unary (op.relabel r) (operand.relabel r)
  | index array i => index (array.relabel r) (i.relabel r)
  | arrayLength array => arrayLength (array.relabel r)
  | newObject className p => newObject (className.relabel r) (r.position p)
  | newArray elementType length p =>
    newArray (elementType.relabel r) (length.relabel r) (r.position p)
  | call receiver method args => call (receiver.relabel r) (method.relabel r) (relabelEach r args)
  | intLiteral t => intLiteral (t.relabel r)
  | boolLiteral t => boolLiteral (t.relabel r)
  | identifier t => identifier (t.relabel r)
  | this t => this (t.relabel r)

def relabelEach (r : Relabeling) : List Expr → List Expr
  | [] => []
  | e :: es => e.relabel r :: relabelEach r es

end

-- An expression begins where the token stood with which it begins.
theorem position_relabel (r : Relabeling) : ∀ e : Expr, (e.relabel r).position = r.position e.position
  | binary left _ _ => position_relabel r left
  | index array _ => position_relabel r array
  | arrayLength array => position_relabel r array
  | call receiver _ _ => position_relabel r receiver
  | unary .. | newObject .. | newArray .. | intLiteral _ | boolLiteral _ | identifier _ | this _ =>
    rfl

mutual

theorem relabel_relabel (r' r : Relabeling) :
    ∀ e : Expr, (e.relabel r).relabel r' = e.relabel (r'.comp r)
  | binary left op right => by
    rw [relabel, relabel, relabel_relabel r' r left, relabel_relabel r' r right]
    rfl
  | unary op operand => by
    rw [relabel, relabel, relabel_relabel r' r operand]
    rfl
  | index array i => by
    rw [relabel, relabel, relabel_relabel r' r array, relabel_relabel r' r i]
    rfl
  | arrayLength array => by
    rw [relabel, relabel, relabel_relabel r' r array]
    rfl
  | newArray elementType length p => by
    rw [relabel, relabel, relabel_relabel r' r length]
    rfl
  | call receiver method args => by
    rw [relabel, relabel, relabel_relabel r' r receiver, relabelEach_relabelEach r' r args]
    rfl
  | newObject .. | intLiteral _ | boolLiteral _ | identifier _ | this _ => rfl

theorem relabelEach_relabelEach (r' r : Relabeling) :
    ∀ es : List Expr, relabelEach r' (relabelEach r es) = relabelEach (r'.comp r) es
  | [] => rfl
  | e :: es => by
    rw [relabelEach, relabelEach, relabel_relabel r' r e, relabelEach_relabelEach r' r es]
    rfl

end

mutual

theorem erase_eq_relabel : ∀ e : Expr, e.erase = e.relabel .erasing
  | binary left op right => by
    rw [erase, erase_eq_relabel left, erase_eq_relabel right]
    rfl
  | unary op operand => by
    rw [erase, erase_eq_relabel operand]
    rfl
  | index array i => by rw [erase, erase_eq_relabel array, erase_eq_relabel i, relabel]
  | arrayLength array => by rw [erase, erase_eq_relabel array, relabel]
  | newArray elementType length _ => by
    rw [erase, erase_eq_relabel length]
    rfl
  | call receiver method args => by
    rw [erase, erase_eq_relabel receiver, eraseEach_eq_relabelEach args]
    rfl
  | newObject .. | intLiteral _ | boolLiteral _ | identifier _ | this _ => rfl

theorem eraseEach_eq_relabelEach : ∀ es : List Expr, eraseEach es = relabelEach .erasing es
  | [] => rfl
  | e :: es => by rw [eraseEach, erase_eq_relabel e, eraseEach_eq_relabelEach es, relabelEach]

end

end Expr

/-! ## Statements -/

def VarDecl.relabel (r : Relabeling) (d : VarDecl) : VarDecl :=
  ⟨d.type.relabel r, d.name.relabel r⟩

namespace Statement

mutual

/-- The statement with its new labels. -/
def relabel (r : Relabeling) : Statement → Statement
  | block statements p => block (relabelEach r statements) (r.position p)
  | varDecl d => varDecl (d.relabel r)
  | assignment target value p => assignment (target.relabel r) (value.relabel r) (r.position p)
  | print value p => print (value.relabel r) (r.position p)
  | assert condition p => assert (condition.relabel r) (r.position p)
  | returnValue value p => returnValue (value.relabel r) (r.position p)
  | call receiver method args =>
    call (receiver.relabel r) (method.relabel r) (Expr.relabelEach r args)
  | ifThen condition thenBranch p =>
    ifThen (condition.relabel r) (thenBranch.relabel r) (r.position p)
  | ifElse condition thenBranch elseBranch p =>
    ifElse (condition.relabel r) (thenBranch.relabel r) (elseBranch.relabel r) (r.position p)
  | loop condition body p => loop (condition.relabel r) (body.relabel r) (r.position p)

def relabelEach (r : Relabeling) : List Statement → List Statement
  | [] => []
  | s :: ss => s.relabel r :: relabelEach r ss

end

mutual

theorem relabel_relabel (r' r : Relabeling) :
    ∀ s : Statement, (s.relabel r).relabel r' = s.relabel (r'.comp r)
  | block statements p => by
    rw [relabel, relabel, relabelEach_relabelEach r' r statements]
    rfl
  | varDecl _ => rfl
  | assignment target value p => by
    rw [relabel, relabel, Expr.relabel_relabel, Expr.relabel_relabel]
    rfl
  | print value p => by
    rw [relabel, relabel, Expr.relabel_relabel]
    rfl
  | assert condition p => by
    rw [relabel, relabel, Expr.relabel_relabel]
    rfl
  | returnValue value p => by
    rw [relabel, relabel, Expr.relabel_relabel]
    rfl
  | call receiver method args => by
    rw [relabel, relabel, Expr.relabel_relabel, Expr.relabelEach_relabelEach]
    rfl
  | ifThen condition thenBranch p => by
    rw [relabel, relabel, Expr.relabel_relabel, relabel_relabel r' r thenBranch]
    rfl
  | ifElse condition thenBranch elseBranch p => by
    rw [relabel, relabel, Expr.relabel_relabel, relabel_relabel r' r thenBranch,
      relabel_relabel r' r elseBranch]
    rfl
  | loop condition body p => by
    rw [relabel, relabel, Expr.relabel_relabel, relabel_relabel r' r body]
    rfl

theorem relabelEach_relabelEach (r' r : Relabeling) :
    ∀ ss : List Statement, relabelEach r' (relabelEach r ss) = relabelEach (r'.comp r) ss
  | [] => rfl
  | s :: ss => by
    rw [relabelEach, relabelEach, relabel_relabel r' r s, relabelEach_relabelEach r' r ss]
    rfl

end

mutual

theorem erase_eq_relabel : ∀ s : Statement, s.erase = s.relabel .erasing
  | block statements _ => by
    rw [erase, eraseEach_eq_relabelEach statements]
    rfl
  | varDecl _ => rfl
  | assignment target value _ => by
    rw [erase, Expr.erase_eq_relabel, Expr.erase_eq_relabel]
    rfl
  | print value _ => by
    rw [erase, Expr.erase_eq_relabel]
    rfl
  | assert condition _ => by
    rw [erase, Expr.erase_eq_relabel]
    rfl
  | returnValue value _ => by
    rw [erase, Expr.erase_eq_relabel]
    rfl
  | call receiver method args => by
    rw [erase, Expr.erase_eq_relabel, Expr.eraseEach_eq_relabelEach]
    rfl
  | ifThen condition thenBranch _ => by
    rw [erase, Expr.erase_eq_relabel, erase_eq_relabel thenBranch]
    rfl
  | ifElse condition thenBranch elseBranch _ => by
    rw [erase, Expr.erase_eq_relabel, erase_eq_relabel thenBranch, erase_eq_relabel elseBranch]
    rfl
  | loop condition body _ => by
    rw [erase, Expr.erase_eq_relabel, erase_eq_relabel body]
    rfl

theorem eraseEach_eq_relabelEach :
    ∀ ss : List Statement, eraseEach ss = relabelEach .erasing ss
  | [] => rfl
  | s :: ss => by rw [eraseEach, erase_eq_relabel s, eraseEach_eq_relabelEach ss, relabelEach]

end

end Statement

/-! ## Programs -/

def Method.relabel (r : Relabeling) (m : Method) : Method :=
  ⟨m.returnType.relabel r, m.name.relabel r, m.params.map (·.relabel r),
    Statement.relabelEach r m.body⟩

def MainClass.relabel (r : Relabeling) (c : MainClass) : MainClass :=
  ⟨c.name.relabel r, c.mainMethod.relabel r⟩

def ClassDecl.relabel (r : Relabeling) (c : ClassDecl) : ClassDecl :=
  ⟨c.name.relabel r, c.parent?.map (·.relabel r), c.fields.map (·.relabel r),
    c.methods.map (·.relabel r)⟩

/-- The program with its new labels. -/
def Program.relabel (r : Relabeling) (p : Program) : Program :=
  ⟨p.mainClass.relabel r, p.classes.map (·.relabel r)⟩

theorem Method.relabel_relabel (r' r : Relabeling) (m : Method) :
    (m.relabel r).relabel r' = m.relabel (r'.comp r) := by
  simp only [relabel, List.map_map, Statement.relabelEach_relabelEach]
  rfl

theorem ClassDecl.relabel_relabel (r' r : Relabeling) (c : ClassDecl) :
    (c.relabel r).relabel r' = c.relabel (r'.comp r) := by
  have hmethods : (c.methods.map (·.relabel r)).map (·.relabel r') =
      c.methods.map (·.relabel (r'.comp r)) := by
    rw [List.map_map]
    exact List.map_congr_left fun m _ => m.relabel_relabel r' r
  simp only [relabel, List.map_map, Option.map_map, hmethods]
  rfl

-- One relabelling behind another.
theorem Program.relabel_relabel (r' r : Relabeling) (p : Program) :
    (p.relabel r).relabel r' = p.relabel (r'.comp r) := by
  have hmain : (p.mainClass.relabel r).relabel r' = p.mainClass.relabel (r'.comp r) := by
    rw [MainClass.relabel, MainClass.relabel, Method.relabel_relabel]
    rfl
  have hclasses : (p.classes.map (·.relabel r)).map (·.relabel r') =
      p.classes.map (·.relabel (r'.comp r)) := by
    rw [List.map_map]
    exact List.map_congr_left fun c _ => c.relabel_relabel r' r
  rw [relabel, relabel, hmain, hclasses, relabel]

-- Without positions a program is relabelled.
theorem Program.erase_eq_relabel (p : Program) : p.erase = p.relabel .erasing := by
  have hmethod (m : Method) : m.erase = m.relabel .erasing := by
    rw [Method.erase, Statement.eraseEach_eq_relabelEach]
    rfl
  have hclass (c : ClassDecl) : c.erase = c.relabel .erasing := by
    have hmethods : c.methods.map (·.erase) = c.methods.map (·.relabel .erasing) :=
      List.map_congr_left fun m _ => hmethod m
    rw [ClassDecl.erase, hmethods]
    rfl
  have hclasses : p.classes.map (·.erase) = p.classes.map (·.relabel .erasing) :=
    List.map_congr_left fun c _ => hclass c
  rw [erase, hclasses, MainClass.erase, hmethod]
  rfl

end MiniJava
