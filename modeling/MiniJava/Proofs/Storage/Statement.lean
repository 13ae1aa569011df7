import MiniJava.Proofs.Phrase.Statement
import MiniJava.Proofs.Storage.Expr

/-!
# What statements keep

Statements stand in the body of a method, where at least two braces are open. There, what a
statement keeps is faithful to the tokens of its phrase, and the statements of a list stand in
order.
-/

namespace MiniJava

variable {depth : Nat} {bases : List TokenKind}

/-! ## Types and declarations -/

-- The tokens behind a base leave no trace.
theorem TypePhrase.faithful_suffix (suffix? : Option (Terminal [.lbracket] × Terminal [.rbracket])) :
    Faithful depth (suffixTokens suffix?) .none := by
  cases suffix? with
  | none => exact .nil
  | some suffix => exact (Faithful.nil.silent suffix.2 (by decide)).silent suffix.1 (by decide)

theorem TypePhrase.faithful (x : TypePhrase bases) (hbases : bases ⊆ NodeKind.typeStart) :
    Faithful depth x.tokens (.token x.tree.base) := by
  have hkinds : ∀ kind ∈ NodeKind.typeStart,
      kind ∈ TokenKind.kept ∧ kind ∉ .lbrace :: .rbrace :: TokenKind.nodeWords := by decide
  exact (faithful_suffix x.suffix?).token x.base fun kind hkind => hkinds kind (hbases hkind)

theorem DeclPhrase.faithful (x : DeclPhrase bases) (hbases : bases ⊆ NodeKind.typeStart) :
    Faithful depth x.tokens x.tree.kept :=
  (x.type.faithful hbases).append ((Faithful.nil.silent x.ending (by decide)).token x.name
    (by decide))

theorem DeclPhrase.places (x : DeclPhrase bases) : Places x.tokens [x.tree.position] :=
  .singleton (List.mem_append_left _ List.mem_cons_self)

/-! ## Statements -/

theorem ParensPhrase.faithful (x : ParensPhrase) : Faithful depth x.tokens x.inner.tree.kept :=
  ((x.inner.faithful depth).silent_end x.closing (by decide)).silent x.opening (by decide)

theorem CallPhrase.faithful (x : CallPhrase) : Faithful depth x.expr.tokens
    (Expr.call (x.tails.extend x.head.tree) x.method.token x.args.trees).kept := by
  rw [← x.tree_expr]
  exact x.expr.faithful depth

theorem StatementPhrase.places : ∀ x : StatementPhrase, Places x.tokens [x.tree.position]
  | .varDecl decl _ => decl.places
  | .assignment target _ _ _ => target.places.append_right _
  | .call c ending => by
    have hcall := c.expr.places
    rw [c.tree_expr] at hcall
    exact hcall.append_right [ending.token]
  | .block .. | .print .. | .assert .. | .returnValue .. | .ifThen .. | .ifElse .. | .loop .. =>
    .singleton List.mem_cons_self

theorem StatementsPhrase.places (x : StatementsPhrase) :
    Places x.tokens (x.trees.map Statement.position) := by
  induction x using StatementsPhrase.chain with
  | nil => exact .nil
  | cons first rest ih => exact first.places.append ih

mutual

theorem StatementPhrase.faithful (depth : Nat) (hdepth : 2 ≤ depth) :
    ∀ x : StatementPhrase, Faithful depth x.tokens x.tree.kept
  | .block opening statements closing => by
    have hinside := statements.faithful (depth + 1) (Nat.le_succ_of_le hdepth)
    exact (hinside.list statements.places).block opening closing hdepth
  | .varDecl decl _ => decl.faithful (by decide)
  | .assignment target sign value ending =>
    (target.faithful depth).append
      (((value.faithful depth).silent_end ending (by decide)).silent sign (by decide))
  | .print word dot out dot' println value ending =>
    (((((value.faithful.silent_end ending (by decide)).silent println (by decide)).silent dot'
      (by decide)).silent out (by decide)).silent dot (by decide)).node word (by decide)
  | .assert word condition ending =>
    (condition.faithful.silent_end ending (by decide)).node word (by decide)
  | .returnValue word value ending =>
    ((value.faithful depth).silent_end ending (by decide)).node word (by decide)
  | .call c ending => c.faithful.silent_end ending (by decide)
  | .ifThen word condition thenBranch =>
    (condition.faithful.append (thenBranch.faithful depth hdepth)).node word (by decide)
  | .ifElse word condition thenBranch elseWord elseBranch =>
    (condition.faithful.append ((thenBranch.faithful depth hdepth).append
      ((elseBranch.faithful depth hdepth).silent elseWord (by decide)))).node word (by decide)
  | .loop word condition body =>
    (condition.faithful.append (body.faithful depth hdepth)).node word (by decide)

theorem StatementsPhrase.faithful (depth : Nat) (hdepth : 2 ≤ depth) :
    ∀ x : StatementsPhrase, Faithful depth x.tokens (Statement.keptAll x.trees)
  | .nil => .nil
  | .cons first rest => (first.faithful depth hdepth).append (rest.faithful depth hdepth)

end

end MiniJava
