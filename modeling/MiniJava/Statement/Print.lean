import MiniJava.Expr.Print
import MiniJava.Statement

/-!
# Printing statements

A statement is printed on lines of its own, each four spaces deeper than the level it is on. The
branches of `if` and the body of `while` are one level deeper than their word, except for blocks,
whose braces stay on its level.
-/

namespace MiniJava

/-- A line of printed text and how many levels deep it is. -/
structure PrintedLine where
  depth : Nat
  text : String
deriving DecidableEq, Repr, Inhabited

namespace PrintedLine

/-- The spaces in front of a line. -/
def indentation (depth : Nat) : String := String.ofList (List.replicate (4 * depth) ' ')

/-- The line with its spaces and its newline. -/
def render (l : PrintedLine) : String := indentation l.depth ++ l.text ++ "\n"

/-- The same line, so many levels deeper. -/
def deeper (levels : Nat) (l : PrintedLine) : PrintedLine := { l with depth := l.depth + levels }

/-- Lines as one text. -/
def renderAll (ls : List PrintedLine) : String := String.join (ls.map render)

end PrintedLine

/-- A declaration with its semicolon. -/
def VarDecl.print (d : VarDecl) : String := d.type.print ++ " " ++ d.name.text ++ ";"

namespace Statement

/-- How much deeper a statement is printed as a branch than on its own. -/
def branchDepth : Statement → Nat
  | block .. => 0
  | _ => 1

mutual

/-- The lines of a statement on a level. -/
def lines (depth : Nat) : Statement → List PrintedLine
  | block statements _ => ⟨depth, "\x7b"⟩ :: linesEach (depth + 1) statements ++ [⟨depth, "\x7d"⟩]
  | varDecl d => [⟨depth, d.print⟩]
  | assignment target value _ => [⟨depth, target.print ++ " = " ++ value.print ++ ";"⟩]
  | print value _ => [⟨depth, "System.out.println(" ++ value.print ++ ");"⟩]
  | assert condition _ => [⟨depth, "assert(" ++ condition.print ++ ");"⟩]
  | returnValue value _ => [⟨depth, "return " ++ value.print ++ ";"⟩]
  | call receiver method args => [⟨depth, (Expr.call receiver method args).print ++ ";"⟩]
  | ifThen condition thenBranch _ =>
    ⟨depth, "if (" ++ condition.print ++ ")"⟩ ::
      lines (depth + thenBranch.branchDepth) thenBranch
  | ifElse condition thenBranch elseBranch _ =>
    ⟨depth, "if (" ++ condition.print ++ ")"⟩ ::
      lines (depth + thenBranch.branchDepth) thenBranch ++
      ⟨depth, "else"⟩ :: lines (depth + elseBranch.branchDepth) elseBranch
  | loop condition body _ =>
    ⟨depth, "while (" ++ condition.print ++ ")"⟩ :: lines (depth + body.branchDepth) body

/-- The lines of statements one behind the other. -/
def linesEach (depth : Nat) : List Statement → List PrintedLine
  | [] => []
  | s :: ss => lines depth s ++ linesEach depth ss

end

/-- A statement on a level as text. -/
def render (depth : Nat) (s : Statement) : String := PrintedLine.renderAll (s.lines depth)

theorem linesEach_eq_flatMap (depth : Nat) (ss : List Statement) :
    linesEach depth ss = ss.flatMap (lines depth) := by
  induction ss with
  | nil => rfl
  | cons s ss ih => simp [linesEach, ih]

end Statement

end MiniJava
