import MiniJava.Program
import MiniJava.Proofs.Phrase.Expr
import MiniJava.Proofs.Tiling.Place

/-!
# What a tree keeps of its tokens

A tree keeps tokens (names, bases of types, literals, `this`, operators), the positions of some
others at its nodes, and the order of its lists. `Expr.kept`, `Statement.kept` and so on collect all
three. `Faithful` says that a tree keeps each of the tokens it was read from that is of a kind to be
kept, and nothing else; that its nodes stand at the words and braces with which they begin; and that
its lists are in the order of their positions.
-/

namespace MiniJava

/-- What a tree keeps: tokens, nodes by the kind and the position of their first token, and the
positions of what its lists hold. -/
structure Kept where
  tokens : List Token
  nodes : List (TokenKind × Position)
  lists : List (List Position)

namespace Kept

/-- Nothing at all. -/
def none : Kept := ⟨[], [], []⟩

/-- A token. -/
def token (t : Token) : Kept := ⟨[t], [], []⟩

/-- A node that begins with a token of this kind. -/
def node (kind : TokenKind) (p : Position) : Kept := ⟨[], [(kind, p)], []⟩

/-- The positions of what a list holds. -/
def list (ps : List Position) : Kept := ⟨[], [], [ps]⟩

instance : Append Kept := ⟨fun k l => ⟨k.tokens ++ l.tokens, k.nodes ++ l.nodes, k.lists ++ l.lists⟩⟩

@[simp] theorem tokens_append (k l : Kept) : (k ++ l).tokens = k.tokens ++ l.tokens := rfl

@[simp] theorem nodes_append (k l : Kept) : (k ++ l).nodes = k.nodes ++ l.nodes := rfl

@[simp] theorem lists_append (k l : Kept) : (k ++ l).lists = k.lists ++ l.lists := rfl

theorem append_none (k : Kept) : k ++ none = k := by
  show Kept.mk (k.tokens ++ []) (k.nodes ++ []) (k.lists ++ []) = k
  simp

theorem append_assoc (k l m : Kept) : k ++ l ++ m = k ++ (l ++ m) := by
  show Kept.mk (k.tokens ++ l.tokens ++ m.tokens) (k.nodes ++ l.nodes ++ m.nodes)
    (k.lists ++ l.lists ++ m.lists) = Kept.mk _ _ _
  simp

end Kept

/-! ## Trees -/

namespace Expr

mutual

/-- What an expression keeps. -/
def kept : Expr → Kept
  | binary left op right => left.kept ++ (.token op ++ right.kept)
  | unary op operand => .token op ++ operand.kept
  | index array i => array.kept ++ i.kept
  | arrayLength array => array.kept
  | newObject className p => .node .newWord p ++ .token className
  | newArray elementType length p => .node .newWord p ++ (.token elementType.base ++ length.kept)
  | call receiver method args =>
    receiver.kept ++ (.token method ++ (.list (args.map position) ++ keptAll args))
  | intLiteral t | boolLiteral t | identifier t | this t => .token t

/-- What several expressions keep. -/
def keptAll : List Expr → Kept
  | [] => .none
  | e :: es => e.kept ++ keptAll es

end

end Expr

/-- What a declaration keeps. -/
def VarDecl.kept (d : VarDecl) : Kept := .token d.type.base ++ .token d.name

/-- What several declarations keep. -/
def VarDecl.keptAll (ds : List VarDecl) : Kept := ds.foldr (fun d k => d.kept ++ k) .none

namespace Statement

mutual

/-- What a statement keeps. -/
def kept : Statement → Kept
  | block statements p => .node .lbrace p ++ (.list (statements.map position) ++ keptAll statements)
  | varDecl decl => decl.kept
  | assignment target value _ => target.kept ++ value.kept
  | print value p => .node .systemWord p ++ value.kept
  | assert condition p => .node .assertWord p ++ condition.kept
  | returnValue value p => .node .returnWord p ++ value.kept
  | call receiver method args => (Expr.call receiver method args).kept
  | ifThen condition thenBranch p => .node .ifWord p ++ (condition.kept ++ thenBranch.kept)
  | ifElse condition thenBranch elseBranch p =>
    .node .ifWord p ++ (condition.kept ++ (thenBranch.kept ++ elseBranch.kept))
  | loop condition body p => .node .whileWord p ++ (condition.kept ++ body.kept)

/-- What several statements keep. -/
def keptAll : List Statement → Kept
  | [] => .none
  | s :: ss => s.kept ++ keptAll ss

end

end Statement

/-- What a method keeps. -/
def Method.kept (m : Method) : Kept :=
  .token m.returnType.base ++ (.token m.name ++
    (.list (m.params.map (·.position)) ++ (VarDecl.keptAll m.params ++
      (.list (m.body.map (·.position)) ++ Statement.keptAll m.body))))

/-- What several methods keep. -/
def Method.keptAll (ms : List Method) : Kept := ms.foldr (fun m k => m.kept ++ k) .none

/-- What a class keeps; its fields come before its methods. -/
def ClassDecl.kept (c : ClassDecl) : Kept :=
  .token c.name ++ (c.parent?.elim .none .token ++
    (.list (c.fields.map (·.position)) ++ (.list (c.methods.map (·.position)) ++
      (VarDecl.keptAll c.fields ++ Method.keptAll c.methods))))

/-- What several classes keep. -/
def ClassDecl.keptAll (cs : List ClassDecl) : Kept := cs.foldr (fun c k => c.kept ++ k) .none

/-- What a program keeps; the main class comes before the others. -/
def Program.kept (p : Program) : Kept :=
  .list (p.mainClass.name.position :: p.classes.map (·.position)) ++
    (.token p.mainClass.name ++ (p.mainClass.mainMethod.kept ++ ClassDecl.keptAll p.classes))

/-! ## Tokens -/

namespace TokenKind

/-- The kinds of the tokens that a tree keeps. -/
def kept : List TokenKind :=
  [identifier, intLiteral, boolLiteral, thisWord, intWord, booleanWord, voidWord, not] ++
    binaryOperators

/-- The words with which nodes begin that keep their position. -/
def nodeWords : List TokenKind := [systemWord, assertWord, returnWord, ifWord, whileWord, newWord]

end TokenKind

/-- The words with which nodes begin, and the braces with which blocks begin: those that are opened
where at least two braces are open already, one for the class and one for the method. `depth` braces
are open before the tokens. -/
def nodeMarks : Nat → List Token → List (TokenKind × Position)
  | _, [] => []
  | depth, t :: rest =>
    if t.kind = .lbrace then
      if 2 ≤ depth then (t.kind, t.position) :: nodeMarks (depth + 1) rest
      else nodeMarks (depth + 1) rest
    else if t.kind = .rbrace then nodeMarks (depth - 1) rest
    else if t.kind ∈ TokenKind.nodeWords then (t.kind, t.position) :: nodeMarks depth rest
    else nodeMarks depth rest

/-- The positions are those of some of the tokens, in the same order. -/
structure Places (tokens : List Token) (ps : List Position) : Prop where
  mem : ∀ p ∈ ps, ∃ t ∈ tokens, t.position = p
  ordered : tokens.Pairwise (·.position.Before ·.position) → ps.Pairwise Position.Before

/-- Tokens behind `depth` open braces, and what a tree keeps that is read from them. -/
structure Faithful (depth : Nat) (tokens : List Token) (k : Kept) : Prop where
  tokens_perm : (tokens.filter (·.kind ∈ TokenKind.kept)).Perm k.tokens
  nodes_perm : ∀ rest, (nodeMarks depth (tokens ++ rest)).Perm (k.nodes ++ nodeMarks depth rest)
  lists_ordered : tokens.Pairwise (·.position.Before ·.position) →
    ∀ ps ∈ k.lists, ps.Pairwise Position.Before

/-! ## Places -/

namespace Places

variable {tokens tokens' : List Token} {ps ps' : List Position} {t : Token}

theorem nil : Places tokens [] := ⟨List.forall_mem_nil _, fun _ => .nil⟩

theorem singleton (h : t ∈ tokens) : Places tokens [t.position] :=
  ⟨List.forall_mem_singleton.mpr ⟨t, h, rfl⟩, fun _ => List.pairwise_singleton _ _⟩

-- What stands in front of other tokens comes before what stands in these.
theorem append (h : Places tokens ps) (h' : Places tokens' ps') :
    Places (tokens ++ tokens') (ps ++ ps') := by
  refine ⟨fun p hp => ?_, fun hordered => ?_⟩
  · rcases List.mem_append.mp hp with hp | hp
    · obtain ⟨t, ht, heq⟩ := h.mem p hp
      exact ⟨t, List.mem_append_left _ ht, heq⟩
    · obtain ⟨t, ht, heq⟩ := h'.mem p hp
      exact ⟨t, List.mem_append_right _ ht, heq⟩
  · obtain ⟨hleft, hright, hbetween⟩ := List.pairwise_append.mp hordered
    refine List.pairwise_append.mpr ⟨h.ordered hleft, h'.ordered hright, fun p hp q hq => ?_⟩
    obtain ⟨t, ht, rfl⟩ := h.mem p hp
    obtain ⟨u, hu, rfl⟩ := h'.mem q hq
    exact hbetween t ht u hu

theorem append_left (tokens : List Token) (h : Places tokens' ps) :
    Places (tokens ++ tokens') ps :=
  nil.append h

theorem append_right (h : Places tokens ps) (tokens' : List Token) :
    Places (tokens ++ tokens') ps := by
  have happend := h.append (nil : Places tokens' [])
  rwa [List.append_nil] at happend

theorem cons (t : Token) (h : Places tokens ps) : Places (t :: tokens) ps := h.append_left [t]

end Places

/-! ## Faithful trees -/

namespace Faithful

variable {depth : Nat} {tokens tokens' : List Token} {k k' : Kept} {kinds : List TokenKind}

theorem nil : Faithful depth [] .none := ⟨.nil, fun _ => .refl _, fun _ => List.forall_mem_nil _⟩

-- What is read from one stretch of tokens and then from the next.
theorem append (h : Faithful depth tokens k) (h' : Faithful depth tokens' k') :
    Faithful depth (tokens ++ tokens') (k ++ k') := by
  refine ⟨?_, fun rest => ?_, fun hordered => ?_⟩
  · rw [List.filter_append, Kept.tokens_append]
    exact h.tokens_perm.append h'.tokens_perm
  · rw [Kept.nodes_append, List.append_assoc, List.append_assoc]
    exact (h.nodes_perm _).trans ((h'.nodes_perm rest).append_left _)
  · obtain ⟨hleft, hright, -⟩ := List.pairwise_append.mp hordered
    rw [Kept.lists_append]
    exact List.forall_mem_append.mpr ⟨h.lists_ordered hleft, h'.lists_ordered hright⟩

-- The order in which a tree keeps its parts does not matter.
theorem congr (h : Faithful depth tokens k) (htokens : k.tokens.Perm k'.tokens)
    (hnodes : k.nodes.Perm k'.nodes) (hlists : k'.lists ⊆ k.lists) : Faithful depth tokens k' :=
  ⟨h.tokens_perm.trans htokens, fun rest => (h.nodes_perm rest).trans (hnodes.append_right _),
    fun hordered ps hps => h.lists_ordered hordered ps (hlists hps)⟩

-- A list whose members stand in order.
theorem list {ps : List Position} (h : Faithful depth tokens k) (hps : Places tokens ps) :
    Faithful depth tokens (.list ps ++ k) :=
  ⟨h.tokens_perm, h.nodes_perm,
    fun hordered => List.forall_mem_cons.mpr ⟨hps.ordered hordered, h.lists_ordered hordered⟩⟩

-- A token that is no brace and begins no node.
theorem nodeMarks_cons {t : Token} (rest : List Token)
    (h : t.kind ∉ .lbrace :: .rbrace :: TokenKind.nodeWords) :
    nodeMarks depth (t :: rest) = nodeMarks depth rest := by
  rw [List.mem_cons, List.mem_cons, not_or, not_or] at h
  rw [nodeMarks, if_neg h.1, if_neg h.2.1, if_neg h.2.2]

/-- A token of a kind that leaves no trace. -/
theorem silent (x : Terminal kinds)
    (hkinds : ∀ kind ∈ kinds, kind ∉ TokenKind.kept ++ .lbrace :: .rbrace :: TokenKind.nodeWords)
    (h : Faithful depth tokens k) : Faithful depth (x.token :: tokens) k := by
  have hkind := hkinds _ x.kind_mem
  rw [List.mem_append, not_or] at hkind
  refine ⟨?_, fun rest => ?_, fun hordered => h.lists_ordered (List.pairwise_cons.mp hordered).2⟩
  · rw [List.filter_cons_of_neg (by simpa using hkind.1)]
    exact h.tokens_perm
  · rw [List.cons_append, nodeMarks_cons _ hkind.2]
    exact h.nodes_perm rest

/-- A token that the tree keeps. -/
theorem token (x : Terminal kinds)
    (hkinds : ∀ kind ∈ kinds,
      kind ∈ TokenKind.kept ∧ kind ∉ .lbrace :: .rbrace :: TokenKind.nodeWords)
    (h : Faithful depth tokens k) : Faithful depth (x.token :: tokens) (.token x.token ++ k) := by
  obtain ⟨hkept, hkind⟩ := hkinds _ x.kind_mem
  refine ⟨?_, fun rest => ?_, fun hordered => h.lists_ordered (List.pairwise_cons.mp hordered).2⟩
  · rw [List.filter_cons_of_pos (by simpa using hkept)]
    exact h.tokens_perm.cons x.token
  · rw [List.cons_append, nodeMarks_cons _ hkind]
    exact h.nodes_perm rest

/-- A word with which a node begins. -/
theorem node {kind : TokenKind} (x : Terminal [kind])
    (hkind : kind ∈ TokenKind.nodeWords ∧ kind ∉ .lbrace :: .rbrace :: TokenKind.kept)
    (h : Faithful depth tokens k) :
    Faithful depth (x.token :: tokens) (.node kind x.token.position ++ k) := by
  obtain ⟨hword, hother⟩ := hkind
  rw [List.mem_cons, List.mem_cons, not_or, not_or] at hother
  refine ⟨?_, fun rest => ?_, fun hordered => h.lists_ordered (List.pairwise_cons.mp hordered).2⟩
  · rw [List.filter_cons_of_neg (by simpa [x.kind_eq] using hother.2.2)]
    exact h.tokens_perm
  · rw [List.cons_append, nodeMarks, x.kind_eq, if_neg hother.1, if_neg hother.2.1, if_pos hword]
    exact (h.nodes_perm rest).cons _

-- A closing parenthesis, bracket or semicolon.
theorem silent_end (x : Terminal kinds)
    (hkinds : ∀ kind ∈ kinds, kind ∉ TokenKind.kept ++ .lbrace :: .rbrace :: TokenKind.nodeWords)
    (h : Faithful depth tokens k) : Faithful depth (tokens ++ [x.token]) k := by
  have hend := h.append (nil.silent x hkinds)
  rwa [Kept.append_none] at hend

section Braces

variable (x : Terminal [.lbrace]) (y : Terminal [.rbrace])

-- A tree keeps no brace as a token.
theorem filter_braces (tokens : List Token) :
    (x.token :: (tokens ++ [y.token])).filter (·.kind ∈ TokenKind.kept) =
      tokens.filter (·.kind ∈ TokenKind.kept) := by
  have hopening : x.token.kind ∉ TokenKind.kept := by
    rw [x.kind_eq]
    decide
  have hclosing : y.token.kind ∉ TokenKind.kept := by
    rw [y.kind_eq]
    decide
  rw [List.filter_cons_of_neg (by simpa using hopening), List.filter_append,
    List.filter_cons_of_neg (by simpa using hclosing), List.filter_nil, List.append_nil]

-- Behind a closing brace one brace less is open.
theorem nodes_perm_closing (h : Faithful (depth + 1) tokens k) (rest : List Token) :
    (nodeMarks (depth + 1) (tokens ++ [y.token] ++ rest)).Perm
      (k.nodes ++ nodeMarks depth rest) := by
  have hclosing : nodeMarks (depth + 1) (y.token :: rest) = nodeMarks depth rest := by
    rw [nodeMarks, y.kind_eq, if_neg (by decide), if_pos rfl, Nat.add_sub_cancel]
  rw [List.append_assoc, List.singleton_append, ← hclosing]
  exact h.nodes_perm _

theorem lists_ordered_inside (h : Faithful (depth + 1) tokens k)
    (hordered : (x.token :: (tokens ++ [y.token])).Pairwise (·.position.Before ·.position)) :
    ∀ ps ∈ k.lists, ps.Pairwise Position.Before :=
  h.lists_ordered (List.pairwise_append.mp (List.pairwise_cons.mp hordered).2).1

/-- What stands in the braces of a class or of a method. -/
theorem braces (hdepth : ¬ 2 ≤ depth) (h : Faithful (depth + 1) tokens k) :
    Faithful depth (x.token :: (tokens ++ [y.token])) k := by
  refine ⟨?_, fun rest => ?_, lists_ordered_inside x y h⟩
  · rw [filter_braces]
    exact h.tokens_perm
  · rw [List.cons_append, nodeMarks, if_pos x.kind_eq, if_neg hdepth]
    exact nodes_perm_closing y h rest

/-- What stands in the braces of a block. -/
theorem block (hdepth : 2 ≤ depth) (h : Faithful (depth + 1) tokens k) :
    Faithful depth (x.token :: (tokens ++ [y.token])) (.node .lbrace x.token.position ++ k) := by
  refine ⟨?_, fun rest => ?_, lists_ordered_inside (k := k) x y h⟩
  · rw [filter_braces]
    exact h.tokens_perm
  · rw [List.cons_append, nodeMarks, if_pos x.kind_eq, if_pos hdepth, x.kind_eq]
    exact (nodes_perm_closing y h rest).cons _

end Braces

end Faithful

end MiniJava
