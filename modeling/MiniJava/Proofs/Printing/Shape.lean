import MiniJava.Program.Print

/-!
# Shapes — trees without their positions

`erase` sets every position in a tree to the start of the text. Two trees with the same erasure have
the same nodes, the same kinds and texts of tokens and the same lists in the same order, so that
they are printed alike (`Program.print_eq_of_erase_eq`).
-/

namespace MiniJava

/-- The token at the start of the text. -/
def Token.erase (t : Token) : Token := { t with position := .start }

def TypeRef.erase (t : TypeRef) : TypeRef := { t with base := t.base.erase }

namespace Expr

mutual

/-- The expression without positions. -/
def erase : Expr → Expr
  | binary left op right => binary left.erase op.erase right.erase
  | unary op operand => unary op.erase operand.erase
  | index array i => index array.erase i.erase
  | arrayLength array => arrayLength array.erase
  | newObject className _ => newObject className.erase .start
  | newArray elementType length _ => newArray elementType.erase length.erase .start
  | call receiver method args => call receiver.erase method.erase (eraseEach args)
  | intLiteral t => intLiteral t.erase
  | boolLiteral t => boolLiteral t.erase
  | identifier t => identifier t.erase
  | this t => this t.erase

def eraseEach : List Expr → List Expr
  | [] => []
  | e :: es => e.erase :: eraseEach es

end

theorem hasTail_erase (e : Expr) : e.erase.hasTail = e.hasTail := by
  cases e <;> rfl

mutual

theorem print_erase : ∀ e : Expr, e.erase.print = e.print
  | binary left op right => by
    rw [erase, print, print_erase left, print_erase right]
    rfl
  | unary op operand => by
    rw [erase, print, hasTail_erase, print_erase operand]
    rfl
  | index array i => by rw [erase, print, print_erase array, print_erase i, print]
  | arrayLength array => by rw [erase, print, print_erase array, print]
  | newObject .. => rfl
  | newArray elementType length _ => by
    rw [erase, print, print_erase length]
    rfl
  | call receiver method args => by
    rw [erase, print, print_erase receiver, printEach_eraseEach args]
    rfl
  | intLiteral _ | boolLiteral _ | identifier _ | this _ => rfl

theorem printEach_eraseEach : ∀ es : List Expr, printEach (eraseEach es) = printEach es
  | [] => rfl
  | e :: es => by rw [eraseEach, printEach, print_erase e, printEach_eraseEach es, printEach]

end

end Expr

def VarDecl.erase (d : VarDecl) : VarDecl := ⟨d.type.erase, d.name.erase⟩

namespace Statement

mutual

/-- The statement without positions. -/
def erase : Statement → Statement
  | block statements _ => block (eraseEach statements) .start
  | varDecl d => varDecl d.erase
  | assignment target value _ => assignment target.erase value.erase .start
  | print value _ => print value.erase .start
  | assert condition _ => assert condition.erase .start
  | returnValue value _ => returnValue value.erase .start
  | call receiver method args => call receiver.erase method.erase (Expr.eraseEach args)
  | ifThen condition thenBranch _ => ifThen condition.erase thenBranch.erase .start
  | ifElse condition thenBranch elseBranch _ =>
    ifElse condition.erase thenBranch.erase elseBranch.erase .start
  | loop condition body _ => loop condition.erase body.erase .start

def eraseEach : List Statement → List Statement
  | [] => []
  | s :: ss => s.erase :: eraseEach ss

end

theorem branchDepth_erase (s : Statement) : s.erase.branchDepth = s.branchDepth := by
  cases s <;> rfl

mutual

theorem lines_erase : ∀ (s : Statement) (depth : Nat), s.erase.lines depth = s.lines depth
  | block statements _, depth => by
    rw [erase, lines, linesEach_eraseEach statements, lines]
  | varDecl _, _ => rfl
  | assignment target value _, depth => by
    rw [erase, lines, Expr.print_erase, Expr.print_erase, lines]
  | print value _, depth => by rw [erase, lines, Expr.print_erase, lines]
  | assert condition _, depth => by rw [erase, lines, Expr.print_erase, lines]
  | returnValue value _, depth => by rw [erase, lines, Expr.print_erase, lines]
  | call receiver method args, depth => by
    have hprint := Expr.print_erase (.call receiver method args)
    rw [Expr.erase] at hprint
    rw [erase, lines, hprint, lines]
  | ifThen condition thenBranch _, depth => by
    rw [erase, lines, Expr.print_erase, branchDepth_erase, lines_erase thenBranch, lines]
  | ifElse condition thenBranch elseBranch _, depth => by
    rw [erase, lines, Expr.print_erase, branchDepth_erase, branchDepth_erase,
      lines_erase thenBranch, lines_erase elseBranch, lines]
  | loop condition body _, depth => by
    rw [erase, lines, Expr.print_erase, branchDepth_erase, lines_erase body, lines]

theorem linesEach_eraseEach :
    ∀ (ss : List Statement) (depth : Nat), linesEach depth (eraseEach ss) = linesEach depth ss
  | [], _ => rfl
  | s :: ss, depth => by
    rw [eraseEach, linesEach, lines_erase s, linesEach_eraseEach ss, linesEach]

end

end Statement

/-! ## Programs -/

def Method.erase (m : Method) : Method :=
  ⟨m.returnType.erase, m.name.erase, m.params.map (·.erase), Statement.eraseEach m.body⟩

def MainClass.erase (c : MainClass) : MainClass := ⟨c.name.erase, c.mainMethod.erase⟩

def ClassDecl.erase (c : ClassDecl) : ClassDecl :=
  ⟨c.name.erase, c.parent?.map (·.erase), c.fields.map (·.erase), c.methods.map (·.erase)⟩

def Program.erase (p : Program) : Program := ⟨p.mainClass.erase, p.classes.map (·.erase)⟩

theorem Method.linesUnder_erase (m : Method) (header : String) :
    m.erase.linesUnder header = m.linesUnder header := by
  rw [linesUnder, erase, Statement.linesEach_eraseEach, linesUnder]

theorem Method.lines_erase (m : Method) : m.erase.lines = m.lines := by
  have hsignature : m.erase.signature = m.signature := by
    rw [signature, signature, VarDecl.printParams, VarDecl.printParams, erase, List.map_map]
    rfl
  rw [lines, linesUnder_erase, hsignature, lines]

theorem ClassDecl.lines_erase (c : ClassDecl) : c.erase.lines = c.lines := by
  have hspaced (ms : List Method) : spacedMethods (ms.map (·.erase)) = spacedMethods ms := by
    simp only [spacedMethods, List.flatMap_map, Method.lines_erase]
  have hmembers : c.erase.memberLines = c.memberLines := by
    obtain ⟨name, parent?, fields, methods⟩ := c
    cases fields with
    | nil =>
      cases methods with
      | nil => rfl
      | cons m ms =>
        show m.erase.lines ++ spacedMethods (ms.map (·.erase)) = m.lines ++ spacedMethods ms
        rw [Method.lines_erase, hspaced]
    | cons d ds =>
      show ((d :: ds).map (·.erase)).map _ ++ spacedMethods (methods.map (·.erase)) = _
      rw [hspaced, List.map_map]
      rfl
  have hheading : c.erase.heading = c.heading := by
    obtain ⟨name, parent?, fields, methods⟩ := c
    cases parent? <;> rfl
  rw [lines, hmembers, hheading, lines]

/-- Programs of one shape are printed alike. -/
theorem Program.print_eq_of_erase_eq {p q : Program} (h : p.erase = q.erase) :
    p.print = q.print := by
  have hprint (p : Program) : p.erase.print = p.print := by
    have hmain : p.mainClass.erase.lines = p.mainClass.lines := by
      rw [MainClass.lines, MainClass.erase, Method.linesUnder_erase]
      rfl
    have hlines : p.erase.lines = p.lines := by
      rw [lines, erase, hmain, List.flatMap_map]
      simp only [ClassDecl.lines_erase]
      rfl
    rw [print, hlines, print]
  rw [← hprint p, h, hprint q]

end MiniJava
