import MiniJava.Expr

/-!
# Printing expressions

An expression is printed on one line. Every operation with an operator stands in parentheses, so
that grouping never depends on how tightly operators bind; indexes, lengths and calls need none,
except behind a `!`, which would otherwise take only what is before the tail.
-/

namespace MiniJava

/-- A type as it is written. -/
def TypeRef.print (t : TypeRef) : String := if t.isArray then t.base.text ++ "[]" else t.base.text

namespace Expr

/-- The expression ends in a tail: an index, a length or a call. -/
def hasTail : Expr → Bool
  | index .. | arrayLength .. | call .. => true
  | _ => false

mutual

/-- An expression as text. -/
def print : Expr → String
  | binary left op right => "(" ++ print left ++ " " ++ op.text ++ " " ++ print right ++ ")"
  | unary op operand =>
    if operand.hasTail then "(" ++ op.text ++ "(" ++ print operand ++ "))"
    else "(" ++ op.text ++ print operand ++ ")"
  | index array i => print array ++ "[" ++ print i ++ "]"
  | arrayLength array => print array ++ ".length"
  | newObject className _ => "new " ++ className.text ++ "()"
  | newArray elementType length _ =>
    "new " ++ elementType.base.text ++ "[" ++ print length ++ "]"
  | call receiver method args =>
    print receiver ++ "." ++ method.text ++ "(" ++ ", ".intercalate (printEach args) ++ ")"
  | intLiteral t => t.text
  | boolLiteral t => t.text
  | identifier t => t.text
  | this t => t.text

/-- Each of some expressions as text. -/
def printEach : List Expr → List String
  | [] => []
  | e :: es => print e :: printEach es

end

theorem printEach_eq_map (es : List Expr) : printEach es = es.map print := by
  induction es with
  | nil => rfl
  | cons e es ih => simp [printEach, ih]

end Expr

end MiniJava
