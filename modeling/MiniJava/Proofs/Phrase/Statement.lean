import MiniJava.Proofs.Phrase.Expr
import MiniJava.Statement

/-!
# Phrases of statements

Phrases of types, declarations and statements. `tokens`, `tree` and `levels` are as for expressions.
The type allows two things that only a condition rules out. An `else` may stand behind a branch that
ends in an `if` without `else`, although it could belong to that `if` (`ElseNearest`); and the
expression of an assignment or of a call may begin with any token, although a statement may only
begin with a name there (`NameFirst`). `Every` asks such a condition of all statements inside.
-/

namespace MiniJava

/-! ## Types and declarations -/

/-- The base of a type and perhaps `[]` behind it. -/
structure TypePhrase (bases : List TokenKind) where
  base : Terminal bases
  suffix? : Option (Terminal [.lbracket] × Terminal [.rbracket])

namespace TypePhrase

variable {bases : List TokenKind}

-- The tokens of what may stand behind the base.
def suffixTokens : Option (Terminal [.lbracket] × Terminal [.rbracket]) → List Token
  | some (opening, closing) => [opening.token, closing.token]
  | none => []

def tokens (x : TypePhrase bases) : List Token := x.base.token :: suffixTokens x.suffix?

def tree (x : TypePhrase bases) : TypeRef := ⟨x.base.token, x.suffix?.isSome⟩

end TypePhrase

-- A type, a name and a semicolon.
structure DeclPhrase (bases : List TokenKind) where
  type : TypePhrase bases
  name : Terminal [.identifier]
  ending : Terminal [.semicolon]

namespace DeclPhrase

variable {bases : List TokenKind}

def tokens (x : DeclPhrase bases) : List Token := x.type.tokens ++ [x.name.token, x.ending.token]

def tree (x : DeclPhrase bases) : VarDecl := ⟨x.type.tree, x.name.token⟩

end DeclPhrase

/-! ## Statements -/

-- An expression in the parentheses that a statement asks for.
structure ParensPhrase where
  opening : Terminal [.lparen]
  inner : ExprPhrase
  closing : Terminal [.rparen]

def ParensPhrase.tokens (x : ParensPhrase) : List Token :=
  x.opening.token :: (x.inner.tokens ++ [x.closing.token])

/-- A call, given by its receiver and what stands behind it. -/
structure CallPhrase where
  head : HeadPhrase
  tails : TailsPhrase
  dot : Terminal [.dot]
  method : Terminal [.identifier]
  args : ArgsPhrase

-- A call as an expression.
def CallPhrase.expr (x : CallPhrase) : ExprPhrase :=
  .operand x.head (x.tails.append (.call x.dot x.method x.args .nil))

-- A call stands for a call.
theorem CallPhrase.tree_expr (x : CallPhrase) :
    x.expr.tree = .call (x.tails.extend x.head.tree) x.method.token x.args.trees :=
  x.tails.extend_append (.call x.dot x.method x.args .nil) x.head.tree

mutual

/-- A statement. A local declaration of a class type has no `[]`. -/
inductive StatementPhrase where
  | block (opening : Terminal [.lbrace]) (statements : StatementsPhrase)
      (closing : Terminal [.rbrace])
  | varDecl (decl : DeclPhrase NodeKind.varDeclStart)
      (bare : decl.type.base.token.kind = .identifier → decl.type.suffix? = none)
  | assignment (target : ExprPhrase) (sign : Terminal [.assign]) (value : ExprPhrase)
      (ending : Terminal [.semicolon])
  | print (word : Terminal [.systemWord]) (dot : Terminal [.dot]) (out : Terminal [.outWord])
      (dot' : Terminal [.dot]) (println : Terminal [.printlnWord]) (value : ParensPhrase)
      (ending : Terminal [.semicolon])
  | assert (word : Terminal [.assertWord]) (condition : ParensPhrase)
      (ending : Terminal [.semicolon])
  | returnValue (word : Terminal [.returnWord]) (value : ExprPhrase)
      (ending : Terminal [.semicolon])
  | call (call : CallPhrase) (ending : Terminal [.semicolon])
  | ifThen (word : Terminal [.ifWord]) (condition : ParensPhrase) (thenBranch : StatementPhrase)
  | ifElse (word : Terminal [.ifWord]) (condition : ParensPhrase) (thenBranch : StatementPhrase)
      (elseWord : Terminal [.elseWord]) (elseBranch : StatementPhrase)
  | loop (word : Terminal [.whileWord]) (condition : ParensPhrase) (body : StatementPhrase)

/-- Statements one behind the other. -/
inductive StatementsPhrase where
  | nil
  | cons (first : StatementPhrase) (rest : StatementsPhrase)

end

mutual

def StatementPhrase.tokens : StatementPhrase → List Token
  | .block opening statements closing => opening.token :: (statements.tokens ++ [closing.token])
  | .varDecl decl _ => decl.tokens
  | .assignment target sign value ending =>
    target.tokens ++ sign.token :: (value.tokens ++ [ending.token])
  | .print word dot out dot' println value ending =>
    word.token :: dot.token :: out.token :: dot'.token :: println.token ::
      (value.tokens ++ [ending.token])
  | .assert word condition ending => word.token :: (condition.tokens ++ [ending.token])
  | .returnValue word value ending => word.token :: (value.tokens ++ [ending.token])
  | .call call ending => call.expr.tokens ++ [ending.token]
  | .ifThen word condition thenBranch =>
    word.token :: (condition.tokens ++ thenBranch.tokens)
  | .ifElse word condition thenBranch elseWord elseBranch =>
    word.token :: (condition.tokens ++
      (thenBranch.tokens ++ elseWord.token :: elseBranch.tokens))
  | .loop word condition body => word.token :: (condition.tokens ++ body.tokens)

def StatementsPhrase.tokens : StatementsPhrase → List Token
  | .nil => []
  | .cons first rest => first.tokens ++ rest.tokens

end

mutual

def StatementPhrase.tree : StatementPhrase → Statement
  | .block opening statements _ => .block statements.trees opening.token.position
  | .varDecl decl _ => .varDecl decl.tree
  | .assignment target _ value _ => .assignment target.tree value.tree target.tree.position
  | .print word _ _ _ _ value _ => .print value.inner.tree word.token.position
  | .assert word condition _ => .assert condition.inner.tree word.token.position
  | .returnValue word value _ => .returnValue value.tree word.token.position
  | .call call _ =>
    .call (call.tails.extend call.head.tree) call.method.token call.args.trees
  | .ifThen word condition thenBranch =>
    .ifThen condition.inner.tree thenBranch.tree word.token.position
  | .ifElse word condition thenBranch _ elseBranch =>
    .ifElse condition.inner.tree thenBranch.tree elseBranch.tree word.token.position
  | .loop word condition body => .loop condition.inner.tree body.tree word.token.position

def StatementsPhrase.trees : StatementsPhrase → List Statement
  | .nil => []
  | .cons first rest => first.tree :: rest.trees

end

mutual

def StatementPhrase.levels : StatementPhrase → Nat
  | .block _ statements _ => statements.levels
  | .varDecl _ _ => 0
  | .assignment target _ value _ => max (target.levels + 1) (value.levels + 1)
  | .print _ _ _ _ _ value _ => value.inner.levels + 1
  | .assert _ condition _ => condition.inner.levels + 1
  | .returnValue _ value _ => value.levels + 1
  | .call call _ => call.expr.levels + 1
  | .ifThen _ condition thenBranch => max (condition.inner.levels + 1) (thenBranch.levels + 1)
  | .ifElse _ condition thenBranch _ elseBranch =>
    max (condition.inner.levels + 1) (max (thenBranch.levels + 1) (elseBranch.levels + 1))
  | .loop _ condition body => max (condition.inner.levels + 1) (body.levels + 1)

-- How many levels are open at once inside statements, each of them counted.
def StatementsPhrase.levels : StatementsPhrase → Nat
  | .nil => 0
  | .cons first rest => max (first.levels + 1) rest.levels

end

-- Induction on statements one behind the other.
@[elab_as_elim]
theorem StatementsPhrase.chain {motive : StatementsPhrase → Prop} (nil : motive .nil)
    (cons : ∀ first rest, motive rest → motive (.cons first rest)) : ∀ x, motive x
  | .nil => nil
  | .cons first rest => cons first rest (StatementsPhrase.chain nil cons rest)

/-! ## Conditions -/

/-- The expressions that stand directly in a statement. -/
def StatementPhrase.exprs : StatementPhrase → List ExprPhrase
  | .block .. | .varDecl .. => []
  | .assignment target _ value _ => [target, value]
  | .print _ _ _ _ _ value _ => [value.inner]
  | .assert _ condition _ => [condition.inner]
  | .returnValue _ value _ => [value]
  | .call c _ => [c.expr]
  | .ifThen _ condition _ => [condition.inner]
  | .ifElse _ condition _ _ _ => [condition.inner]
  | .loop _ condition _ => [condition.inner]

/-- The statement ends in an `if` that an `else` behind it could belong to. -/
def StatementPhrase.endsOpen : StatementPhrase → Bool
  | .ifThen .. => true
  | .ifElse _ _ _ _ elseBranch => elseBranch.endsOpen
  | .loop _ _ body => body.endsOpen
  | _ => false

namespace StatementPhrase

/-- The operators of the expressions in the statement group as the precedences ask for. -/
def Grouped (x : StatementPhrase) : Prop := ∀ e ∈ x.exprs, e.Grouped

/-- The `else` of the statement belongs to the nearest `if` that is open before it. -/
def ElseNearest : StatementPhrase → Prop
  | ifElse _ _ thenBranch _ _ => thenBranch.endsOpen = false
  | _ => True

/-- An assignment or a call begins with a name. -/
def NameFirst : StatementPhrase → Prop
  | assignment target _ _ _ => target.BeginsWithName
  | call c _ => c.expr.BeginsWithName
  | _ => True

/-- The two rules that leave one derivation: operators are grouped and every `else` is attached to
the nearest open `if`. -/
def Settled (x : StatementPhrase) : Prop := x.Grouped ∧ x.ElseNearest

/-- All that is asked of a statement. -/
def Regular (x : StatementPhrase) : Prop := x.Settled ∧ x.NameFirst

end StatementPhrase

mutual

/-- The condition holds of the statement and of every statement inside it. -/
def StatementPhrase.Every (p : StatementPhrase → Prop) : StatementPhrase → Prop
  | .block opening statements closing => p (.block opening statements closing) ∧ statements.Every p
  | .ifThen word condition thenBranch =>
    p (.ifThen word condition thenBranch) ∧ thenBranch.Every p
  | .ifElse word condition thenBranch elseWord elseBranch =>
    p (.ifElse word condition thenBranch elseWord elseBranch) ∧
      thenBranch.Every p ∧ elseBranch.Every p
  | .loop word condition body => p (.loop word condition body) ∧ body.Every p
  | x => p x

def StatementsPhrase.Every (p : StatementPhrase → Prop) : StatementsPhrase → Prop
  | .nil => True
  | .cons first rest => first.Every p ∧ rest.Every p

end

-- What holds of every statement inside holds of the statement itself.
theorem StatementPhrase.Every.self {p : StatementPhrase → Prop} {x : StatementPhrase}
    (h : x.Every p) : p x := by
  cases x with
  | block | ifThen | ifElse | loop => exact h.1
  | varDecl | assignment | print | assert | returnValue | call => exact h

mutual

-- A condition that follows from another one holds of every statement inside if that one does.
theorem StatementPhrase.Every.imp {p q : StatementPhrase → Prop} (h : ∀ x, p x → q x) :
    ∀ {x : StatementPhrase}, x.Every p → x.Every q
  | .block .., hx => ⟨h _ hx.1, StatementsPhrase.Every.imp h hx.2⟩
  | .ifThen .., hx => ⟨h _ hx.1, StatementPhrase.Every.imp h hx.2⟩
  | .ifElse .., hx =>
    ⟨h _ hx.1, StatementPhrase.Every.imp h hx.2.1, StatementPhrase.Every.imp h hx.2.2⟩
  | .loop .., hx => ⟨h _ hx.1, StatementPhrase.Every.imp h hx.2⟩
  | .varDecl .., hx | .assignment .., hx | .print .., hx | .assert .., hx | .returnValue .., hx
  | .call .., hx => h _ hx

theorem StatementsPhrase.Every.imp {p q : StatementPhrase → Prop} (h : ∀ x, p x → q x) :
    ∀ {x : StatementsPhrase}, x.Every p → x.Every q
  | .nil, _ => trivial
  | .cons .., hx => ⟨StatementPhrase.Every.imp h hx.1, StatementsPhrase.Every.imp h hx.2⟩

end

mutual

-- Two conditions that hold of every statement inside hold there together.
theorem StatementPhrase.Every.and {p q : StatementPhrase → Prop} :
    ∀ {x : StatementPhrase}, x.Every p → x.Every q → x.Every fun x => p x ∧ q x
  | .block .., hp, hq => ⟨⟨hp.1, hq.1⟩, StatementsPhrase.Every.and hp.2 hq.2⟩
  | .ifThen .., hp, hq => ⟨⟨hp.1, hq.1⟩, StatementPhrase.Every.and hp.2 hq.2⟩
  | .ifElse .., hp, hq =>
    ⟨⟨hp.1, hq.1⟩, StatementPhrase.Every.and hp.2.1 hq.2.1,
      StatementPhrase.Every.and hp.2.2 hq.2.2⟩
  | .loop .., hp, hq => ⟨⟨hp.1, hq.1⟩, StatementPhrase.Every.and hp.2 hq.2⟩
  | .varDecl .., hp, hq | .assignment .., hp, hq | .print .., hp, hq | .assert .., hp, hq
  | .returnValue .., hp, hq | .call .., hp, hq => ⟨hp, hq⟩

theorem StatementsPhrase.Every.and {p q : StatementPhrase → Prop} :
    ∀ {x : StatementsPhrase}, x.Every p → x.Every q → x.Every fun x => p x ∧ q x
  | .nil, _, _ => trivial
  | .cons .., hp, hq =>
    ⟨StatementPhrase.Every.and hp.1 hq.1, StatementsPhrase.Every.and hp.2 hq.2⟩

end

end MiniJava
