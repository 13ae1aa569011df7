import MiniJava.Proofs.Phrase.Program

/-!
# Nodes — the trees inside a tree, and where they stand in the text

`Program.nodes` lists the nodes of a tree: classes, methods, fields, parameters, types, names,
statements and expressions. In a derivation every node has tokens of its own, those of the phrase
that stands for it (`Phrase`), and there are tokens behind these (`Site`). Parentheses around an
expression are not its own, as they leave no trace in the tree.

What may stand right behind a node is told by a table, `NodeKind.followSet`. The table leaves some
kinds out (`NodeKind.overlooked`): what continues an expression, where only names have it; the word
`void`, with which a member may begin; and the bracket behind the type of the elements of a new
array.
-/

namespace MiniJava

/-! ## Nodes of trees -/

/-- A node of a tree. -/
inductive Node where
  | program (p : Program)
  | mainClass (c : MainClass)
  | classDecl (c : ClassDecl)
  | method (m : Method)
  | field (d : VarDecl)
  | param (d : VarDecl)
  | type (t : TypeRef)
  | name (t : Token)
  | statement (s : Statement)
  | expr (e : Expr)
deriving DecidableEq

/-- The kind of a node. -/
def Node.kind : Node → NodeKind
  | program _ => .program
  | mainClass _ => .mainClass
  | classDecl _ => .classDecl
  | method _ => .method
  | field _ => .field
  | param _ => .param
  | type _ => .type
  | name _ => .identifier
  | statement s => s.kind
  | expr e => e.kind

namespace Expr

mutual

/-- The nodes of an expression, the expression itself last. -/
def nodes : Expr → List Node
  | binary left op right => nodes left ++ (nodes right ++ [.expr (binary left op right)])
  | unary op operand => nodes operand ++ [.expr (unary op operand)]
  | index array i => nodes array ++ (nodes i ++ [.expr (index array i)])
  | arrayLength array => nodes array ++ [.expr (arrayLength array)]
  | newObject className p => [.name className, .expr (newObject className p)]
  | newArray elementType length p =>
    .type elementType :: (nodes length ++ [.expr (newArray elementType length p)])
  | call receiver method args =>
    nodes receiver ++ .name method :: (nodesEach args ++ [.expr (call receiver method args)])
  | intLiteral t => [.expr (intLiteral t)]
  | boolLiteral t => [.expr (boolLiteral t)]
  | identifier t => [.expr (identifier t)]
  | this t => [.expr (this t)]

/-- The nodes of expressions one behind the other. -/
def nodesEach : List Expr → List Node
  | [] => []
  | e :: es => nodes e ++ nodesEach es

end

end Expr

/-- The type and the name of a declaration. -/
def VarDecl.nodes (d : VarDecl) : List Node := [.type d.type, .name d.name]

namespace Statement

mutual

/-- The nodes of a statement, the statement itself last. -/
def nodes : Statement → List Node
  | block statements p => nodesEach statements ++ [.statement (block statements p)]
  | varDecl d => d.nodes ++ [.statement (varDecl d)]
  | assignment target value p =>
    target.nodes ++ (value.nodes ++ [.statement (assignment target value p)])
  | print value p => value.nodes ++ [.statement (print value p)]
  | assert condition p => condition.nodes ++ [.statement (assert condition p)]
  | returnValue value p => value.nodes ++ [.statement (returnValue value p)]
  | call receiver method args =>
    receiver.nodes ++ .name method ::
      (Expr.nodesEach args ++ [.statement (call receiver method args)])
  | ifThen condition thenBranch p =>
    condition.nodes ++ (nodes thenBranch ++ [.statement (ifThen condition thenBranch p)])
  | ifElse condition thenBranch elseBranch p =>
    condition.nodes ++ (nodes thenBranch ++
      (nodes elseBranch ++ [.statement (ifElse condition thenBranch elseBranch p)]))
  | loop condition body p => condition.nodes ++ (nodes body ++ [.statement (loop condition body p)])

/-- The nodes of statements one behind the other. -/
def nodesEach : List Statement → List Node
  | [] => []
  | s :: ss => nodes s ++ nodesEach ss

end

end Statement

/-- The nodes of a parameter. -/
def VarDecl.nodesOfParam (d : VarDecl) : List Node := d.nodes ++ [.param d]

/-- The nodes of a field. -/
def VarDecl.nodesOfField (d : VarDecl) : List Node := d.nodes ++ [.field d]

/-- The nodes of a method. -/
def Method.nodes (m : Method) : List Node :=
  .type m.returnType :: .name m.name :: (m.params.flatMap VarDecl.nodesOfParam ++
    (Statement.nodesEach m.body ++ [.method m]))

/-- The nodes of the main class. -/
def MainClass.nodes (c : MainClass) : List Node :=
  .name c.name :: (c.mainMethod.nodes ++ [.mainClass c])

/-- The nodes of a class. -/
def ClassDecl.nodes (c : ClassDecl) : List Node :=
  .name c.name :: (c.parent?.toList.map .name ++ (c.fields.flatMap VarDecl.nodesOfField ++
    (c.methods.flatMap Method.nodes ++ [.classDecl c])))

/-- The nodes of a program. -/
def Program.nodes (p : Program) : List Node :=
  p.mainClass.nodes ++ (p.classes.flatMap ClassDecl.nodes ++ [.program p])

/-! ## The table -/

/-- The kinds that can stand right behind a node of this kind and that the table leaves out. -/
def NodeKind.overlooked : NodeKind → List TokenKind
  | unary | index | arrayLength | newObject | newArray | call | intLiteral | boolLiteral | this =>
    [.lbracket, .dot]
  | method | field => [.voidWord]
  | type => [.lbracket]
  | _ => []

namespace NodeKind

/-- The kinds that can stand right behind an operand, where it may go on. -/
def operandFollow : List TokenKind := expressionFollow ++ [.lbracket, .dot]

/-- The kinds that can stand right behind a member of a class. -/
def memberFollow : List TokenKind := followSet .method ++ overlooked .method

/-- What the table leaves out of a row is not in it. -/
theorem notMem_followSet_of_mem_overlooked {kind : NodeKind} {k : TokenKind}
    (h : k ∈ kind.overlooked) : k ∉ kind.followSet := by
  have hrows : ∀ k ∈ kind.overlooked, k ∉ kind.followSet := by
    cases kind <;> decide
  exact hrows k h

end NodeKind

/-! ## Nodes of derivations -/

/-- The expression is more than another one in parentheses. -/
def ExprPhrase.isBare : ExprPhrase → Bool
  | .operand (.parens ..) .nil => false
  | _ => true

namespace TailsPhrase

theorem append_ne_nil (done : TailsPhrase) {more : TailsPhrase} (h : more ≠ .nil) :
    done.append more ≠ .nil := by
  cases done with
  | nil => exact h
  | index | length | call => exact nofun

end TailsPhrase

theorem ExprPhrase.isBare_of_ne_nil (head : HeadPhrase) {tails : TailsPhrase} (h : tails ≠ .nil) :
    (ExprPhrase.operand head tails).isBare = true := by
  cases tails with
  | nil => exact absurd rfl h
  | index | length | call => cases head <;> rfl

/-- A phrase that stands for a node. -/
inductive Phrase where
  | program (x : ProgramPhrase)
  | mainClass (x : MainClassPhrase)
  | classDecl (x : ClassPhrase)
  | mainMethod (x : MainMethodPhrase)
  | method (x : MethodPhrase)
  | field (x : DeclPhrase NodeKind.typeStart)
  | param (x : ParamPhrase)
  | type {bases : List TokenKind} (x : TypePhrase bases)
  | name (x : Terminal [.identifier])
  | statement (x : StatementPhrase)
  | expr (x : ExprPhrase) (bare : x.isBare = true)

namespace Phrase

/-- The tokens of a node. -/
def tokens : Phrase → List Token
  | program x => x.tokens
  | mainClass x => x.tokens
  | classDecl x => x.tokens
  | mainMethod x => x.tokens
  | method x => x.tokens
  | field x => x.tokens
  | param x => x.tokens
  | type x => x.tokens
  | name x => [x.token]
  | statement x => x.tokens
  | expr x _ => x.tokens

/-- The node that a phrase stands for. -/
def node : Phrase → Node
  | program x => .program x.tree
  | mainClass x => .mainClass x.tree
  | classDecl x => .classDecl x.tree
  | mainMethod x => .method x.tree
  | method x => .method x.tree
  | field x => .field x.tree
  | param x => .param x.tree
  | type x => .type x.tree
  | name x => .name x.token
  | statement x => .statement x.tree
  | expr x _ => .expr x.tree

end Phrase

/-- A node of a derivation and the tokens behind its own. -/
structure Site where
  phrase : Phrase
  behind : List Token

namespace Site

/-- The node at a site. -/
def node (s : Site) : Node := s.phrase.node

/-- The kind of the node at a site. -/
def kind (s : Site) : NodeKind := s.node.kind

end Site

/-! ## What comes next -/

/-- There is a next token, and it is of one of these kinds. -/
def Leads (kinds : List TokenKind) (ts : List Token) : Prop := ∃ t ∈ ts.head?, t.kind ∈ kinds

section

variable {kinds more : List TokenKind} {t : Token} {ts text longer : List Token}

theorem leads_cons : Leads kinds (t :: ts) ↔ t.kind ∈ kinds := by simp [Leads]

theorem Terminal.leads (x : Terminal kinds) (ts : List Token) (h : ∀ k ∈ kinds, k ∈ more) :
    Leads more (x.token :: ts) :=
  leads_cons.mpr (h _ x.kind_mem)

theorem Leads.mono (h : Leads kinds ts) (hkinds : ∀ k ∈ kinds, k ∈ more) : Leads more ts := by
  obtain ⟨t, ht, hkind⟩ := h
  exact ⟨t, ht, hkinds _ hkind⟩

/-- The tokens of the site and those behind it end the text, and the next one is of a kind that the
table has or is known to leave out. -/
structure Site.Fits (text : List Token) (s : Site) : Prop where
  suffix : s.phrase.tokens ++ s.behind <:+ text
  next : Leads (s.kind.followSet ++ s.kind.overlooked) s.behind

theorem Site.Fits.mono {s : Site} (h : s.Fits text) (htext : text <:+ longer) : s.Fits longer :=
  ⟨h.suffix.trans htext, h.next⟩

namespace Site

theorem fits_name (x : Terminal [.identifier]) (h : Leads (NodeKind.followSet .identifier) ts) :
    Fits (x.token :: ts) ⟨.name x, ts⟩ :=
  ⟨List.suffix_refl _, h.mono fun _ hk => List.mem_append_left _ hk⟩

theorem fits_type {bases : List TokenKind} (x : TypePhrase bases)
    (h : Leads (NodeKind.followSet .type ++ NodeKind.overlooked .type) ts) :
    Fits (x.tokens ++ ts) ⟨.type x, ts⟩ :=
  ⟨List.suffix_refl _, h⟩

end Site

-- What fits at the end of a text fits at the end of a longer one.
theorem forall_fits_mono {sites : List Site} (h : ∀ s ∈ sites, s.Fits text)
    (htext : text <:+ longer) : ∀ s ∈ sites, s.Fits longer :=
  fun s hs => (h s hs).mono htext

end

end MiniJava
