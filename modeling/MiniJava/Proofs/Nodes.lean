import MiniJava.Proofs.Following.Node
import MiniJava.Proofs.Printed.Legible
import MiniJava.Proofs.Storage.Program

/-!
# Nodes that are well-formed

The types of trees allow more than a text can be read as. `Node.WellFormed` says of a node what the
parser sees to and no type asks for: which tokens are operators, which types can stand in a local
declaration and behind `new`, what an assignment or a call begins with, and that no `else` could
belong to another `if`. Every node of a program that was read is well-formed
(`wellFormed_of_mem_nodes`).
-/

namespace MiniJava

/-- The expression with which an expression begins: what is left when left sides, arrays and
receivers are followed as far as they go. -/
def Expr.leftmost : Expr → Expr
  | binary left _ _ => left.leftmost
  | index array _ => array.leftmost
  | arrayLength array => array.leftmost
  | call receiver _ _ => receiver.leftmost
  | e => e

/-- The expression begins with a name, and so with no negation, creation, literal or `this`. -/
def Expr.BeginsWithName (e : Expr) : Prop :=
  ∃ t : Token, e.leftmost = .identifier t ∧ t.kind = .identifier

/-- What holds of a node that was read, besides what its type says. -/
def Node.WellFormed : Node → Prop
  | statement (.ifElse _ thenBranch _ _) => thenBranch.endsOpen = false
  | statement (.assignment target _ _) => target.BeginsWithName
  | statement (.call receiver _ _) => receiver.BeginsWithName
  | statement (.varDecl d) =>
    d.type.base.kind = .intWord ∨ d.type.base.kind = .booleanWord ∨
      (d.type.base.kind = .identifier ∧ d.type.isArray = false)
  | expr (.binary _ op _) => op.kind ∈ TokenKind.binaryOperators
  | expr (.unary op _) => op.kind = .not
  | expr (.newArray elementType _ _) =>
    elementType.base.kind ∈ [.intWord, .booleanWord, .identifier] ∧ elementType.isArray = false
  | mainClass c => c.mainMethod.params = []
  | _ => True

/-! ## Expressions -/

-- Tails do not change what an expression begins with.
theorem TailsPhrase.leftmost_extend (x : TailsPhrase) (e : Expr) :
    (x.extend e).leftmost = e.leftmost := by
  induction x using TailsPhrase.chain generalizing e with
  | nil => rfl
  | index opening i closing rest ih => exact ih (.index e i.tree)
  | length dot word rest ih => exact ih (.arrayLength e)
  | call dot method args rest ih => exact ih (.call e method.token args.trees)

-- A head whose first token is a name is that name.
theorem HeadPhrase.exists_eq_name {x : HeadPhrase}
    (h : x.tokens.head?.map (·.kind) = some .identifier) :
    ∃ name : Terminal [.identifier], x = .name name := by
  cases x with
  | name name => exact ⟨name, rfl⟩
  | not leaf | parens leaf | this leaf | boolLiteral leaf | intLiteral leaf | newObject leaf
  | newArray leaf =>
    have hkind : leaf.token.kind = .identifier := Option.some.inj h
    rw [leaf.kind_eq] at hkind
    cases hkind

theorem ExprPhrase.beginsWithName_tree (x : ExprPhrase) :
    x.BeginsWithName → x.tree.BeginsWithName := by
  induction x using ExprPhrase.sides with
  | operand head tails =>
    intro h
    obtain ⟨t, ts, hhead, -⟩ := head.exists_tokens_eq_cons
    rw [BeginsWithName, ExprPhrase.tokens, hhead, List.cons_append] at h
    obtain ⟨name, rfl⟩ := HeadPhrase.exists_eq_name (by rw [hhead]; exact h)
    exact ⟨name.token, tails.leftmost_extend _, name.kind_eq⟩
  | binary left op right ih _ =>
    intro h
    obtain ⟨t, ts, hleft, -⟩ := left.exists_tokens_eq_cons
    rw [BeginsWithName, ExprPhrase.tokens, hleft] at h
    -- The left side is not empty, so that both begin with the same token.
    exact ih (by rw [BeginsWithName, hleft]; exact h)

mutual

theorem ExprPhrase.wellFormed : ∀ x : ExprPhrase, ∀ node ∈ x.tree.nodes, node.WellFormed
  | .operand head tails => tails.wellFormed_extend head.wellFormed
  | .binary left op right => by
    simp only [ExprPhrase.tree, Expr.nodes, List.forall_mem_append, List.forall_mem_singleton]
    exact ⟨left.wellFormed, right.wellFormed, op.kind_mem⟩

theorem HeadPhrase.wellFormed : ∀ x : HeadPhrase, ∀ node ∈ x.tree.nodes, node.WellFormed
  | .not bang negand => by
    simp only [HeadPhrase.tree, Expr.nodes, List.forall_mem_append, List.forall_mem_singleton]
    exact ⟨negand.wellFormed, bang.kind_eq⟩
  | .parens _ inner _ => inner.wellFormed
  | .this _ | .boolLiteral _ | .intLiteral _ | .name _ => List.forall_mem_singleton.mpr trivial
  | .newObject .. => List.forall_mem_cons.mpr ⟨trivial, List.forall_mem_singleton.mpr trivial⟩
  | .newArray _ base _ length _ => by
    simp only [HeadPhrase.tree, Expr.nodes, List.forall_mem_append, List.forall_mem_cons]
    exact ⟨trivial, length.wellFormed, ⟨base.kind_mem, rfl⟩, List.forall_mem_nil _⟩

-- Tails behind an expression with well-formed nodes.
theorem TailsPhrase.wellFormed_extend : ∀ (x : TailsPhrase) {e : Expr},
    (∀ node ∈ e.nodes, node.WellFormed) → ∀ node ∈ (x.extend e).nodes, node.WellFormed
  | .nil, _, he => he
  | .index _ i _ rest, _, he => by
    refine rest.wellFormed_extend ?_
    simp only [Expr.nodes, List.forall_mem_append, List.forall_mem_singleton]
    exact ⟨he, i.wellFormed, trivial⟩
  | .length _ _ rest, _, he => by
    refine rest.wellFormed_extend ?_
    simp only [Expr.nodes, List.forall_mem_append, List.forall_mem_singleton]
    exact ⟨he, trivial⟩
  | .call _ _ args rest, _, he => by
    refine rest.wellFormed_extend ?_
    simp only [Expr.nodes, List.forall_mem_append, List.forall_mem_cons]
    exact ⟨he, trivial, args.wellFormed, trivial, List.forall_mem_nil _⟩

theorem ArgsPhrase.wellFormed :
    ∀ x : ArgsPhrase, ∀ node ∈ Expr.nodesEach x.trees, node.WellFormed
  | .none _ _ => List.forall_mem_nil _
  | .some _ first more _ => List.forall_mem_append.mpr ⟨first.wellFormed, more.wellFormed⟩

theorem MoreArgsPhrase.wellFormed :
    ∀ x : MoreArgsPhrase, ∀ node ∈ Expr.nodesEach x.trees, node.WellFormed
  | .nil => List.forall_mem_nil _
  | .cons _ arg rest => List.forall_mem_append.mpr ⟨arg.wellFormed, rest.wellFormed⟩

end

/-! ## Statements -/

theorem VarDecl.wellFormed_nodes (d : VarDecl) : ∀ node ∈ d.nodes, node.WellFormed :=
  List.forall_mem_cons.mpr ⟨trivial, List.forall_mem_singleton.mpr trivial⟩

-- A local declaration has a type that is no array of a class.
theorem DeclPhrase.wellFormed_varDecl (x : DeclPhrase NodeKind.varDeclStart)
    (bare : x.type.base.token.kind = .identifier → x.type.suffix? = none) :
    (Node.statement (.varDecl x.tree)).WellFormed := by
  have hkind := x.type.base.kind_mem
  simp only [NodeKind.varDeclStart, List.mem_cons, List.not_mem_nil, or_false] at hkind
  rcases hkind with hkind | hkind | hkind
  · exact .inl hkind
  · exact .inr (.inl hkind)
  · exact .inr (.inr ⟨hkind, by rw [tree, TypePhrase.tree, bare hkind]; rfl⟩)

-- A call begins with what its receiver begins with.
theorem CallPhrase.beginsWithName {x : CallPhrase} (h : x.expr.BeginsWithName) :
    (x.tails.extend x.head.tree).BeginsWithName := by
  have hcall := x.expr.beginsWithName_tree h
  rwa [x.tree_expr] at hcall

mutual

theorem StatementPhrase.wellFormed : ∀ x : StatementPhrase, x.Every (·.Regular) →
    ∀ node ∈ x.tree.nodes, node.WellFormed
  | .block _ statements _, h => by
    simp only [StatementPhrase.tree, Statement.nodes, List.forall_mem_append,
      List.forall_mem_singleton]
    exact ⟨statements.wellFormed h.2, trivial⟩
  | .varDecl decl bare, _ => by
    simp only [StatementPhrase.tree, Statement.nodes, List.forall_mem_append,
      List.forall_mem_singleton]
    exact ⟨decl.tree.wellFormed_nodes, decl.wellFormed_varDecl bare⟩
  | .assignment target _ value _, h => by
    simp only [StatementPhrase.tree, Statement.nodes, List.forall_mem_append,
      List.forall_mem_singleton]
    exact ⟨target.wellFormed, value.wellFormed, target.beginsWithName_tree h.2⟩
  | .print _ _ _ _ _ value _, _ => by
    simp only [StatementPhrase.tree, Statement.nodes, List.forall_mem_append,
      List.forall_mem_singleton]
    exact ⟨value.inner.wellFormed, trivial⟩
  | .assert _ condition _, _ => by
    simp only [StatementPhrase.tree, Statement.nodes, List.forall_mem_append,
      List.forall_mem_singleton]
    exact ⟨condition.inner.wellFormed, trivial⟩
  | .returnValue _ value _, _ => by
    simp only [StatementPhrase.tree, Statement.nodes, List.forall_mem_append,
      List.forall_mem_singleton]
    exact ⟨value.wellFormed, trivial⟩
  | .call call _, h => by
    simp only [StatementPhrase.tree, Statement.nodes, List.forall_mem_append, List.forall_mem_cons]
    exact ⟨call.tails.wellFormed_extend call.head.wellFormed, trivial, call.args.wellFormed,
      call.beginsWithName h.2, List.forall_mem_nil _⟩
  | .ifThen _ condition thenBranch, h => by
    simp only [StatementPhrase.tree, Statement.nodes, List.forall_mem_append,
      List.forall_mem_singleton]
    exact ⟨condition.inner.wellFormed, thenBranch.wellFormed h.2, trivial⟩
  | .ifElse _ condition thenBranch _ elseBranch, h => by
    obtain ⟨⟨⟨-, hnearest⟩, -⟩, hthen, helse⟩ := h
    simp only [StatementPhrase.tree, Statement.nodes, List.forall_mem_append,
      List.forall_mem_singleton]
    exact ⟨condition.inner.wellFormed, thenBranch.wellFormed hthen, elseBranch.wellFormed helse,
      thenBranch.endsOpen_tree.trans hnearest⟩
  | .loop _ condition body, h => by
    simp only [StatementPhrase.tree, Statement.nodes, List.forall_mem_append,
      List.forall_mem_singleton]
    exact ⟨condition.inner.wellFormed, body.wellFormed h.2, trivial⟩

theorem StatementsPhrase.wellFormed : ∀ x : StatementsPhrase, x.Every (·.Regular) →
    ∀ node ∈ Statement.nodesEach x.trees, node.WellFormed
  | .nil, _ => List.forall_mem_nil _
  | .cons first rest, h =>
    List.forall_mem_append.mpr ⟨first.wellFormed h.1, rest.wellFormed h.2⟩

end

/-! ## Programs -/

-- Outside statements and the main class no node has anything to see to.
theorem Method.wellFormed_nodes {m : Method}
    (hbody : ∀ node ∈ Statement.nodesEach m.body, node.WellFormed) :
    ∀ node ∈ m.nodes, node.WellFormed := by
  have hparam (d : VarDecl) : ∀ node ∈ d.nodesOfParam, node.WellFormed :=
    List.forall_mem_append.mpr ⟨d.wellFormed_nodes, List.forall_mem_singleton.mpr trivial⟩
  simp only [nodes, List.forall_mem_cons, List.forall_mem_append, List.forall_mem_flatMap]
  exact ⟨trivial, trivial, fun d _ => hparam d, hbody, trivial, List.forall_mem_nil _⟩

theorem ClassDecl.wellFormed_nodes {c : ClassDecl}
    (hmethods : ∀ m ∈ c.methods, ∀ node ∈ m.nodes, node.WellFormed) :
    ∀ node ∈ c.nodes, node.WellFormed := by
  have hfield (d : VarDecl) : ∀ node ∈ d.nodesOfField, node.WellFormed :=
    List.forall_mem_append.mpr ⟨d.wellFormed_nodes, List.forall_mem_singleton.mpr trivial⟩
  simp only [nodes, List.forall_mem_cons, List.forall_mem_append, List.forall_mem_flatMap,
    List.forall_mem_map]
  exact ⟨trivial, fun _ _ => trivial, fun d _ => hfield d, hmethods, trivial,
    List.forall_mem_nil _⟩

theorem ProgramPhrase.wellFormed {x : ProgramPhrase} (h : x.Every (·.Regular)) :
    ∀ node ∈ x.tree.nodes, node.WellFormed := by
  have hbody (b : BodyPhrase) (hb : b ∈ x.bodies) :
      ∀ node ∈ Statement.nodesEach b.statements.trees, node.WellFormed :=
    b.statements.wellFormed (h b hb)
  have hmain := Method.wellFormed_nodes (m := x.mainClass.method.tree)
    (hbody _ List.mem_cons_self)
  simp only [tree, Program.nodes, MainClass.nodes, List.forall_mem_cons, List.forall_mem_append,
    List.forall_mem_flatMap, List.forall_mem_map]
  refine ⟨⟨trivial, hmain, rfl, List.forall_mem_nil _⟩,
    fun c hc => ClassDecl.wellFormed_nodes fun m hm => ?_, trivial, List.forall_mem_nil _⟩
  obtain ⟨member, hmember, hm⟩ := List.mem_filterMap.mp hm
  -- A method of the tree is one of the phrase, and its body is among those of the program.
  cases member with
  | field decl => cases hm
  | method method =>
    cases hm
    refine Method.wellFormed_nodes (hbody method.body (List.mem_cons_of_mem _ ?_))
    exact List.mem_flatMap.mpr ⟨c, hc, List.mem_flatMap.mpr ⟨_, hmember, List.mem_cons_self⟩⟩

/-- Every node of a program that was read is well-formed. -/
theorem wellFormed_of_mem_nodes {source : String} {policy : ErrorPolicy} {p : Program}
    (h : parse source policy = .ok p) : ∀ node ∈ p.nodes, node.WellFormed := by
  obtain ⟨-, d, -, hregular, -, rfl⟩ := (parse_eq_ok_iff source p).mp (parse_failFast_of_parse h)
  exact ProgramPhrase.wellFormed hregular

-- A program with an `else` behind two open `if`s.
def nestedIfs : String :=
  "class M\x7bpublic static void main()\x7bint[] b;if(!c)if(c)b[0]=new int[2];else c.d(1+2);\x7d\x7d"

/-- The program is read, and all of its nodes are well-formed. -/
theorem wellFormed_nodes_of_nestedIfs :
    ∃ p, parse nestedIfs .recover = .ok p ∧ ∀ node ∈ p.nodes, node.WellFormed := by
  have hread : (parse nestedIfs .recover).isOk = true := by decide +kernel
  cases hp : parse nestedIfs .recover with
  | error es =>
    rw [hp] at hread
    cases hread
  | ok p => exact ⟨p, rfl, wellFormed_of_mem_nodes hp⟩

end MiniJava
