import MiniJava.Grammar
import MiniJava.Token

/-!
# Expressions

The tree of an expression keeps the tokens of its names, literals and operators. Brackets, dots and
commas are implied by the shape, and parentheses leave no trace. `Expr.position` is where the
expression begins; equality of trees, positions included, is decidable.
-/

namespace MiniJava

/-- A type as it is written: a base, and whether `[]` follows it. -/
structure TypeRef where
  base : Token
  isArray : Bool
deriving DecidableEq, Repr, Inhabited

namespace TypeRef

/-- The base is the name of a class. -/
def isNamed (t : TypeRef) : Bool := t.base.kind == .identifier

end TypeRef

/-- An expression. -/
inductive Expr where
  | binary (left : Expr) (op : Token) (right : Expr)
  | unary (op : Token) (operand : Expr)
  | index (array : Expr) (index : Expr)
  | arrayLength (array : Expr)
  | newObject (className : Token) (position : Position)
  | newArray (elementType : TypeRef) (length : Expr) (position : Position)
  | call (receiver : Expr) (method : Token) (args : List Expr)
  | intLiteral (token : Token)
  | boolLiteral (token : Token)
  | identifier (token : Token)
  | this (token : Token)
deriving Repr, Inhabited

namespace Expr

/-- Where the leftmost token of the expression stands, outer parentheses apart. -/
def position : Expr → Position
  | binary left _ _ => left.position
  | unary op _ => op.position
  | index array _ => array.position
  | arrayLength array => array.position
  | newObject _ p => p
  | newArray _ _ p => p
  | call receiver _ _ => receiver.position
  | intLiteral t => t.position
  | boolLiteral t => t.position
  | identifier t => t.position
  | this t => t.position

/-- The kind of node at the root. -/
def kind : Expr → NodeKind
  | binary .. => .binary
  | unary .. => .unary
  | index .. => .index
  | arrayLength .. => .arrayLength
  | newObject .. => .newObject
  | newArray .. => .newArray
  | call .. => .call
  | intLiteral .. => .intLiteral
  | boolLiteral .. => .boolLiteral
  | identifier .. => .identifier
  | this .. => .this

/-! ## Equality -/

mutual

/-- The two trees are the same. -/
def same : Expr → Expr → Bool
  | binary l o r, binary l' o' r' => same l l' && o == o' && same r r'
  | unary o e, unary o' e' => o == o' && same e e'
  | index a i, index a' i' => same a a' && same i i'
  | arrayLength a, arrayLength a' => same a a'
  | newObject c p, newObject c' p' => c == c' && p == p'
  | newArray t n p, newArray t' n' p' => t == t' && same n n' && p == p'
  | call r m args, call r' m' args' => same r r' && m == m' && sameList args args'
  | intLiteral t, intLiteral t' => t == t'
  | boolLiteral t, boolLiteral t' => t == t'
  | identifier t, identifier t' => t == t'
  | this t, this t' => t == t'
  | _, _ => false

/-- The two lists hold the same trees. -/
def sameList : List Expr → List Expr → Bool
  | [], [] => true
  | e :: es, e' :: es' => same e e' && sameList es es'
  | _, _ => false

end

mutual

theorem same_refl : ∀ e : Expr, same e e = true
  | binary l _ r => by simp [same, same_refl l, same_refl r]
  | unary _ e => by simp [same, same_refl e]
  | index a i => by simp [same, same_refl a, same_refl i]
  | arrayLength a => by simp [same, same_refl a]
  | newObject .. => by simp [same]
  | newArray _ n _ => by simp [same, same_refl n]
  | call r _ args => by simp [same, same_refl r, sameList_refl args]
  | intLiteral _ => by simp [same]
  | boolLiteral _ => by simp [same]
  | identifier _ => by simp [same]
  | this _ => by simp [same]

theorem sameList_refl : ∀ es : List Expr, sameList es es = true
  | [] => rfl
  | e :: es => by simp [sameList, same_refl e, sameList_refl es]

end

mutual

theorem eq_of_same : ∀ e e' : Expr, same e e' = true → e = e'
  | binary l _ r, e' => by
    cases e' <;> simp +contextual [same]
    rename_i l' _ r'
    exact fun hl _ hr => ⟨eq_of_same l l' hl, eq_of_same r r' hr⟩
  | unary _ e, e' => by
    cases e' <;> simp +contextual [same]
    rename_i _ f
    exact fun _ h => eq_of_same e f h
  | index a i, e' => by
    cases e' <;> simp [same]
    rename_i a' i'
    exact fun ha hi => ⟨eq_of_same a a' ha, eq_of_same i i' hi⟩
  | arrayLength a, e' => by
    cases e' <;> simp [same]
    rename_i a'
    exact eq_of_same a a'
  | newObject .., e' => by cases e' <;> simp +contextual [same]
  | newArray _ n _, e' => by
    cases e' <;> simp +contextual [same]
    rename_i _ n' _
    exact fun _ h _ => eq_of_same n n' h
  | call r _ args, e' => by
    cases e' <;> simp +contextual [same]
    rename_i r' _ args'
    exact fun hr _ ha => ⟨eq_of_same r r' hr, eq_of_sameList args args' ha⟩
  | intLiteral _, e' => by cases e' <;> simp [same]
  | boolLiteral _, e' => by cases e' <;> simp [same]
  | identifier _, e' => by cases e' <;> simp [same]
  | this _, e' => by cases e' <;> simp [same]

theorem eq_of_sameList : ∀ es es' : List Expr, sameList es es' = true → es = es'
  | [], es' => by cases es' <;> simp [sameList]
  | e :: es, es' => by
    cases es' <;> simp [sameList]
    rename_i e' es'
    exact fun he hes => ⟨eq_of_same e e' he, eq_of_sameList es es' hes⟩

end

instance : DecidableEq Expr := fun e e' =>
  decidable_of_iff (same e e' = true) ⟨eq_of_same e e', fun h => h ▸ same_refl e⟩

end Expr

end MiniJava
