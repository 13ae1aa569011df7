import MiniJava.Expr

/-!
# Phrases — expressions as the grammar derives them

A phrase is a derivation: a tree with a node for every production that was applied and a token at
every leaf, punctuation and parentheses included. An operand is a head with tails behind it, and an
expression is an operand or two expressions around an operator. Nothing in the type says how
operators group; `ExprPhrase.Grouped` is the one grouping that the precedences ask for, with equal
ones to the left.

`tokens` is what the phrase derives, `tree` is the expression it stands for, and `levels` is how
many expressions and operands of `!` are open at once inside it, the phrase itself not counted.
-/

namespace MiniJava

/-- A leaf of a phrase: a token of one of these kinds. -/
@[ext]
structure Terminal (kinds : List TokenKind) where
  token : Token
  kind_mem : token.kind ∈ kinds

-- A leaf that allows one kind alone is of that kind.
theorem Terminal.kind_eq {kind : TokenKind} (t : Terminal [kind]) : t.token.kind = kind := by
  simpa using t.kind_mem

mutual

/-- An operand, or two expressions around an operator. -/
inductive ExprPhrase where
  | operand (head : HeadPhrase) (tails : TailsPhrase)
  | binary (left : ExprPhrase) (op : Terminal TokenKind.binaryOperators) (right : ExprPhrase)

/-- The beginning of an operand, before its tails. -/
inductive HeadPhrase where
  | not (bang : Terminal [.not]) (negand : HeadPhrase)
  | parens (opening : Terminal [.lparen]) (inner : ExprPhrase) (closing : Terminal [.rparen])
  | this (word : Terminal [.thisWord])
  | boolLiteral (literal : Terminal [.boolLiteral])
  | intLiteral (literal : Terminal [.intLiteral])
  | name (name : Terminal [.identifier])
  | newObject (word : Terminal [.newWord]) (className : Terminal [.identifier])
      (opening : Terminal [.lparen]) (closing : Terminal [.rparen])
  | newArray (word : Terminal [.newWord]) (base : Terminal [.intWord, .booleanWord, .identifier])
      (opening : Terminal [.lbracket]) (length : ExprPhrase) (closing : Terminal [.rbracket])

/-- Indexes, lengths and calls, one behind the other. -/
inductive TailsPhrase where
  | nil
  | index (opening : Terminal [.lbracket]) (index : ExprPhrase) (closing : Terminal [.rbracket])
      (rest : TailsPhrase)
  | length (dot : Terminal [.dot]) (word : Terminal [.lengthWord]) (rest : TailsPhrase)
  | call (dot : Terminal [.dot]) (method : Terminal [.identifier]) (args : ArgsPhrase)
      (rest : TailsPhrase)

/-- The arguments of a call, in parentheses. -/
inductive ArgsPhrase where
  | none (opening : Terminal [.lparen]) (closing : Terminal [.rparen])
  | some (opening : Terminal [.lparen]) (first : ExprPhrase) (more : MoreArgsPhrase)
      (closing : Terminal [.rparen])

/-- Arguments with a comma before each. -/
inductive MoreArgsPhrase where
  | nil
  | cons (comma : Terminal [.comma]) (arg : ExprPhrase) (rest : MoreArgsPhrase)

end

/-! ## Induction on one type of phrase at a time -/

-- Induction on the two sides of operators.
@[elab_as_elim]
theorem ExprPhrase.sides {motive : ExprPhrase → Prop}
    (operand : ∀ head tails, motive (.operand head tails))
    (binary : ∀ left op right, motive left → motive right → motive (.binary left op right)) :
    ∀ x, motive x
  | .operand head tails => operand head tails
  | .binary left op right =>
    binary left op right (ExprPhrase.sides operand binary left)
      (ExprPhrase.sides operand binary right)

-- Induction on tails, the first of them in front.
@[elab_as_elim]
theorem TailsPhrase.chain {motive : TailsPhrase → Prop} (nil : motive .nil)
    (index : ∀ opening i closing rest, motive rest → motive (.index opening i closing rest))
    (length : ∀ dot word rest, motive rest → motive (.length dot word rest))
    (call : ∀ dot method args rest, motive rest → motive (.call dot method args rest)) :
    ∀ x, motive x
  | .nil => nil
  | .index opening i closing rest =>
    index opening i closing rest (TailsPhrase.chain nil index length call rest)
  | .length dot word rest => length dot word rest (TailsPhrase.chain nil index length call rest)
  | .call dot method args rest =>
    call dot method args rest (TailsPhrase.chain nil index length call rest)

-- Induction on further arguments, the first of them in front.
@[elab_as_elim]
theorem MoreArgsPhrase.chain {motive : MoreArgsPhrase → Prop} (nil : motive .nil)
    (cons : ∀ comma arg rest, motive rest → motive (.cons comma arg rest)) : ∀ x, motive x
  | .nil => nil
  | .cons comma arg rest => cons comma arg rest (MoreArgsPhrase.chain nil cons rest)

/-! ## What a phrase derives -/

mutual

/-- The tokens of an expression. -/
def ExprPhrase.tokens : ExprPhrase → List Token
  | .operand head tails => head.tokens ++ tails.tokens
  | .binary left op right => left.tokens ++ op.token :: right.tokens

def HeadPhrase.tokens : HeadPhrase → List Token
  | .not bang negand => bang.token :: negand.tokens
  | .parens opening inner closing => opening.token :: (inner.tokens ++ [closing.token])
  | .this word => [word.token]
  | .boolLiteral literal => [literal.token]
  | .intLiteral literal => [literal.token]
  | .name name => [name.token]
  | .newObject word className opening closing =>
    [word.token, className.token, opening.token, closing.token]
  | .newArray word base opening length closing =>
    word.token :: base.token :: opening.token :: (length.tokens ++ [closing.token])

def TailsPhrase.tokens : TailsPhrase → List Token
  | .nil => []
  | .index opening index closing rest =>
    opening.token :: (index.tokens ++ closing.token :: rest.tokens)
  | .length dot word rest => dot.token :: word.token :: rest.tokens
  | .call dot method args rest => dot.token :: method.token :: (args.tokens ++ rest.tokens)

def ArgsPhrase.tokens : ArgsPhrase → List Token
  | .none opening closing => [opening.token, closing.token]
  | .some opening first more closing =>
    opening.token :: (first.tokens ++ (more.tokens ++ [closing.token]))

def MoreArgsPhrase.tokens : MoreArgsPhrase → List Token
  | .nil => []
  | .cons comma arg rest => comma.token :: (arg.tokens ++ rest.tokens)

end

mutual

/-- The expression that a phrase stands for. -/
def ExprPhrase.tree : ExprPhrase → Expr
  | .operand head tails => tails.extend head.tree
  | .binary left op right => .binary left.tree op.token right.tree

/-- The expression that a head stands for; parentheses leave no trace. -/
def HeadPhrase.tree : HeadPhrase → Expr
  | .not bang negand => .unary bang.token negand.tree
  | .parens _ inner _ => inner.tree
  | .this word => .this word.token
  | .boolLiteral literal => .boolLiteral literal.token
  | .intLiteral literal => .intLiteral literal.token
  | .name name => .identifier name.token
  | .newObject word className _ _ => .newObject className.token word.token.position
  | .newArray word base _ length _ => .newArray ⟨base.token, false⟩ length.tree word.token.position

/-- An expression with tails behind it. -/
def TailsPhrase.extend : TailsPhrase → Expr → Expr
  | .nil, e => e
  | .index _ index _ rest, e => rest.extend (.index e index.tree)
  | .length _ _ rest, e => rest.extend (.arrayLength e)
  | .call _ method args rest, e => rest.extend (.call e method.token args.trees)

def ArgsPhrase.trees : ArgsPhrase → List Expr
  | .none _ _ => []
  | .some _ first more _ => first.tree :: more.trees

def MoreArgsPhrase.trees : MoreArgsPhrase → List Expr
  | .nil => []
  | .cons _ arg rest => arg.tree :: rest.trees

end

mutual

/-- How many levels are open at once inside an expression. -/
def ExprPhrase.levels : ExprPhrase → Nat
  | .operand head tails => max head.levels tails.levels
  | .binary left _ right => max left.levels right.levels

def HeadPhrase.levels : HeadPhrase → Nat
  | .not _ negand => negand.levels + 1
  | .parens _ inner _ => inner.levels + 1
  | .this _ | .boolLiteral _ | .intLiteral _ | .name _ | .newObject .. => 0
  | .newArray _ _ _ length _ => length.levels + 1

def TailsPhrase.levels : TailsPhrase → Nat
  | .nil => 0
  | .index _ index _ rest => max (index.levels + 1) rest.levels
  | .length _ _ rest => rest.levels
  | .call _ _ args rest => max args.levels rest.levels

def ArgsPhrase.levels : ArgsPhrase → Nat
  | .none _ _ => 0
  | .some _ first more _ => max (first.levels + 1) more.levels

def MoreArgsPhrase.levels : MoreArgsPhrase → Nat
  | .nil => 0
  | .cons _ arg rest => max (arg.levels + 1) rest.levels

end

/-! ## Tails behind tails -/

namespace TailsPhrase

-- Tails with more tails behind them.
def append : TailsPhrase → TailsPhrase → TailsPhrase
  | .nil, y => y
  | .index opening i closing rest, y => .index opening i closing (rest.append y)
  | .length dot word rest, y => .length dot word (rest.append y)
  | .call dot method args rest, y => .call dot method args (rest.append y)

theorem tokens_append (x y : TailsPhrase) : (x.append y).tokens = x.tokens ++ y.tokens := by
  induction x using TailsPhrase.chain with
  | nil => rfl
  | index _ _ _ _ ih | length _ _ _ ih | call _ _ _ _ ih => simp [append, tokens, ih]

-- Tails extend what the tails before them made.
theorem extend_append (x y : TailsPhrase) (e : Expr) :
    (x.append y).extend e = y.extend (x.extend e) := by
  induction x using TailsPhrase.chain generalizing e with
  | nil => rfl
  | index opening i closing rest ih => exact ih (.index e i.tree)
  | length dot word rest ih => exact ih (.arrayLength e)
  | call dot method args rest ih => exact ih (.call e method.token args.trees)

theorem levels_append (x y : TailsPhrase) : (x.append y).levels = max x.levels y.levels := by
  induction x using TailsPhrase.chain with
  | nil => exact (Nat.zero_max _).symm
  | index _ _ _ _ ih | call _ _ _ _ ih => rw [append, levels, levels, ih, Nat.max_assoc]
  | length _ _ _ ih => exact ih

end TailsPhrase

/-! ## First tokens -/

-- A head begins with a token that expressions begin with.
theorem HeadPhrase.exists_tokens_eq_cons (x : HeadPhrase) :
    ∃ t ts, x.tokens = t :: ts ∧ t.kind ∈ TokenKind.expressionStart := by
  cases x with
  | not leaf _ | parens leaf _ _ | newObject leaf _ _ _ | newArray leaf _ _ _ _ =>
    exact ⟨leaf.token, _, rfl, by simp [leaf.kind_eq, TokenKind.expressionStart]⟩
  | this leaf | boolLiteral leaf | intLiteral leaf | name leaf =>
    exact ⟨leaf.token, _, rfl, by simp [leaf.kind_eq, TokenKind.expressionStart]⟩

-- An expression begins with a token that expressions begin with.
theorem ExprPhrase.exists_tokens_eq_cons (x : ExprPhrase) :
    ∃ t ts, x.tokens = t :: ts ∧ t.kind ∈ TokenKind.expressionStart := by
  induction x using ExprPhrase.sides with
  | operand head tails =>
    obtain ⟨t, ts, heq, hkind⟩ := head.exists_tokens_eq_cons
    exact ⟨t, ts ++ tails.tokens, by rw [ExprPhrase.tokens, heq, List.cons_append], hkind⟩
  | binary left op right ih _ =>
    obtain ⟨t, ts, heq, hkind⟩ := ih
    exact ⟨t, ts ++ op.token :: right.tokens, by rw [ExprPhrase.tokens, heq, List.cons_append],
      hkind⟩

/-- The expression begins with a name. -/
def ExprPhrase.BeginsWithName (x : ExprPhrase) : Prop :=
  x.tokens.head?.map (·.kind) = some .identifier

/-! ## Grouping -/

/-- The precedence of the operator at the root; an operand holds together more tightly than any
operator. -/
def ExprPhrase.tightness : ExprPhrase → Nat
  | .operand .. => TokenKind.maxPrecedence + 1
  | .binary _ op _ => op.token.kind.precedence

-- Every expression holds together more tightly than one that takes any operator.
theorem ExprPhrase.tightness_pos (x : ExprPhrase) : 0 < x.tightness := by
  cases x with
  | operand => exact Nat.succ_pos _
  | binary left op right =>
    have hop : op.token.kind.isBinaryOperator = true := List.contains_iff_mem.mpr op.kind_mem
    exact (TokenKind.isBinaryOperator_iff_precedence_pos _).mp hop

mutual

/-- Operators group by their precedences, and to the left where these are equal: no operator on the
left side binds less tightly, and all on the right side bind more tightly. -/
def ExprPhrase.Grouped : ExprPhrase → Prop
  | .operand head tails => head.Grouped ∧ tails.Grouped
  | .binary left op right =>
    op.token.kind.precedence ≤ left.tightness ∧ op.token.kind.precedence < right.tightness ∧
      left.Grouped ∧ right.Grouped

def HeadPhrase.Grouped : HeadPhrase → Prop
  | .not _ negand => negand.Grouped
  | .parens _ inner _ => inner.Grouped
  | .this _ | .boolLiteral _ | .intLiteral _ | .name _ | .newObject .. => True
  | .newArray _ _ _ length _ => length.Grouped

def TailsPhrase.Grouped : TailsPhrase → Prop
  | .nil => True
  | .index _ index _ rest => index.Grouped ∧ rest.Grouped
  | .length _ _ rest => rest.Grouped
  | .call _ _ args rest => args.Grouped ∧ rest.Grouped

def ArgsPhrase.Grouped : ArgsPhrase → Prop
  | .none _ _ => True
  | .some _ first more _ => first.Grouped ∧ more.Grouped

def MoreArgsPhrase.Grouped : MoreArgsPhrase → Prop
  | .nil => True
  | .cons _ arg rest => arg.Grouped ∧ rest.Grouped

end

theorem TailsPhrase.grouped_append (x y : TailsPhrase) :
    (x.append y).Grouped ↔ x.Grouped ∧ y.Grouped := by
  induction x using TailsPhrase.chain with
  | nil => exact (iff_of_eq (true_and _)).symm
  | index _ _ _ _ ih | call _ _ _ _ ih => rw [append, Grouped, Grouped, ih, and_assoc]
  | length _ _ _ ih => exact ih

end MiniJava
