import MiniJava.Expr

/-!
# Statements

The statements of method bodies. A block is a statement and opens no scope. An assignment and a call
begin with an expression; a local declaration is a type and a name. `Statement.position` is where
the statement begins; equality of trees, positions included, is decidable.
-/

namespace MiniJava

/-- A type and a name: a field, a local variable or a parameter. -/
structure VarDecl where
  type : TypeRef
  name : Token
deriving DecidableEq, Repr, Inhabited

namespace VarDecl

/-- Where the type begins. -/
def position (d : VarDecl) : Position := d.type.base.position

end VarDecl

/-- A statement. -/
inductive Statement where
  | block (statements : List Statement) (position : Position)
  | varDecl (decl : VarDecl)
  | assignment (target : Expr) (value : Expr) (position : Position)
  | print (value : Expr) (position : Position)
  | assert (condition : Expr) (position : Position)
  | returnValue (value : Expr) (position : Position)
  | call (receiver : Expr) (method : Token) (args : List Expr)
  | ifThen (condition : Expr) (thenBranch : Statement) (position : Position)
  | ifElse (condition : Expr) (thenBranch elseBranch : Statement) (position : Position)
  | loop (condition : Expr) (body : Statement) (position : Position)
deriving Repr, Inhabited

namespace Statement

/-- Where the first token of the statement stands. -/
def position : Statement → Position
  | block _ p => p
  | varDecl d => d.position
  | assignment _ _ p => p
  | print _ p => p
  | assert _ p => p
  | returnValue _ p => p
  | call receiver _ _ => receiver.position
  | ifThen _ _ p => p
  | ifElse _ _ _ p => p
  | loop _ _ p => p

/-- The kind of node at the root. -/
def kind : Statement → NodeKind
  | block .. => .block
  | varDecl .. => .varDecl
  | assignment .. => .assignment
  | print .. => .print
  | assert .. => .assert
  | returnValue .. => .returnValue
  | call .. => .callStatement
  | ifThen .. | ifElse .. => .conditional
  | loop .. => .loop

/-! ## Equality -/

mutual

/-- The two trees are the same. -/
def same : Statement → Statement → Bool
  | block ss p, block ss' p' => sameList ss ss' && p == p'
  | varDecl d, varDecl d' => d == d'
  | assignment t v p, assignment t' v' p' => t == t' && v == v' && p == p'
  | print v p, print v' p' => v == v' && p == p'
  | assert c p, assert c' p' => c == c' && p == p'
  | returnValue v p, returnValue v' p' => v == v' && p == p'
  | call r m args, call r' m' args' => r == r' && m == m' && args == args'
  | ifThen c s p, ifThen c' s' p' => c == c' && same s s' && p == p'
  | ifElse c s t p, ifElse c' s' t' p' => c == c' && same s s' && same t t' && p == p'
  | loop c s p, loop c' s' p' => c == c' && same s s' && p == p'
  | _, _ => false

/-- The two lists hold the same trees. -/
def sameList : List Statement → List Statement → Bool
  | [], [] => true
  | s :: ss, s' :: ss' => same s s' && sameList ss ss'
  | _, _ => false

end

mutual

theorem same_refl : ∀ s : Statement, same s s = true
  | block ss _ => by simp [same, sameList_refl ss]
  | varDecl _ => by simp [same]
  | assignment .. => by simp [same]
  | print .. => by simp [same]
  | assert .. => by simp [same]
  | returnValue .. => by simp [same]
  | call .. => by simp [same]
  | ifThen _ s _ => by simp [same, same_refl s]
  | ifElse _ s t _ => by simp [same, same_refl s, same_refl t]
  | loop _ s _ => by simp [same, same_refl s]

theorem sameList_refl : ∀ ss : List Statement, sameList ss ss = true
  | [] => rfl
  | s :: ss => by simp [sameList, same_refl s, sameList_refl ss]

end

mutual

theorem eq_of_same : ∀ s s' : Statement, same s s' = true → s = s'
  | block ss _, s' => by
    cases s' <;> simp +contextual [same]
    rename_i ss' _
    exact fun h _ => eq_of_sameList ss ss' h
  | varDecl _, s' => by cases s' <;> simp [same]
  | assignment .., s' => by cases s' <;> simp +contextual [same]
  | print .., s' => by cases s' <;> simp +contextual [same]
  | assert .., s' => by cases s' <;> simp +contextual [same]
  | returnValue .., s' => by cases s' <;> simp +contextual [same]
  | call .., s' => by cases s' <;> simp +contextual [same]
  | ifThen _ s _, s' => by
    cases s' <;> simp +contextual [same]
    rename_i _ t' _
    exact fun _ h _ => eq_of_same s t' h
  | ifElse _ s t _, s' => by
    cases s' <;> simp +contextual [same]
    rename_i _ s' t' _
    exact fun _ hs ht _ => ⟨eq_of_same s s' hs, eq_of_same t t' ht⟩
  | loop _ s _, s' => by
    cases s' <;> simp +contextual [same]
    rename_i _ t' _
    exact fun _ h _ => eq_of_same s t' h

theorem eq_of_sameList : ∀ ss ss' : List Statement, sameList ss ss' = true → ss = ss'
  | [], ss' => by cases ss' <;> simp [sameList]
  | s :: ss, ss' => by
    cases ss' <;> simp [sameList]
    rename_i s' ss'
    exact fun hs hss => ⟨eq_of_same s s' hs, eq_of_sameList ss ss' hss⟩

end

instance : DecidableEq Statement := fun s s' =>
  decidable_of_iff (same s s' = true) ⟨eq_of_same s s', fun h => h ▸ same_refl s⟩

end Statement

end MiniJava
