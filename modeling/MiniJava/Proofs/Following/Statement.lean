import MiniJava.Proofs.Following.Expr
import MiniJava.Proofs.Reading.Statement

/-!
# What follows the nodes of a statement

As for expressions: `StatementPhrase.sites` lists the nodes with what is behind them, these are the
nodes of the tree, and what follows them is told by the table and what it leaves out. Behind a
statement comes another one, the closing brace of the list or an `else`. That another one begins
with a token that the table has is owed to the rule that assignments and calls begin with names.
-/

namespace MiniJava

/-! ## Sites -/

/-- The nodes of a declaration. -/
def DeclPhrase.sites {bases : List TokenKind} (x : DeclPhrase bases) (behind : List Token) :
    List Site :=
  [⟨.type x.type, x.name.token :: x.ending.token :: behind⟩,
    ⟨.name x.name, x.ending.token :: behind⟩]

/-- The nodes of an expression in parentheses. -/
def ParensPhrase.sites (x : ParensPhrase) (behind : List Token) : List Site :=
  x.inner.sites (x.closing.token :: behind)

/-- The nodes inside a call that is a statement. -/
def CallPhrase.sites (x : CallPhrase) (behind : List Token) : List Site :=
  let call := x.dot.token :: x.method.token :: (x.args.tokens ++ behind)
  x.head.sites (x.tails.tokens ++ call) ++ (x.tails.sites x.head .nil call ++
    ⟨.name x.method, x.args.tokens ++ behind⟩ :: x.args.sites behind)

mutual

/-- The nodes of a statement that has these tokens behind it. -/
def StatementPhrase.sites : StatementPhrase → List Token → List Site
  | .block opening statements closing, behind =>
    statements.sites (closing.token :: behind) ++
      [⟨.statement (.block opening statements closing), behind⟩]
  | .varDecl decl bare, behind => decl.sites behind ++ [⟨.statement (.varDecl decl bare), behind⟩]
  | .assignment target sign value ending, behind =>
    target.sites (sign.token :: (value.tokens ++ ending.token :: behind)) ++
      (value.sites (ending.token :: behind) ++
        [⟨.statement (.assignment target sign value ending), behind⟩])
  | .print word dot out dot' println value ending, behind =>
    value.sites (ending.token :: behind) ++
      [⟨.statement (.print word dot out dot' println value ending), behind⟩]
  | .assert word condition ending, behind =>
    condition.sites (ending.token :: behind) ++
      [⟨.statement (.assert word condition ending), behind⟩]
  | .returnValue word value ending, behind =>
    value.sites (ending.token :: behind) ++ [⟨.statement (.returnValue word value ending), behind⟩]
  | .call call ending, behind =>
    call.sites (ending.token :: behind) ++ [⟨.statement (.call call ending), behind⟩]
  | .ifThen word condition thenBranch, behind =>
    condition.sites (thenBranch.tokens ++ behind) ++ (thenBranch.sites behind ++
      [⟨.statement (.ifThen word condition thenBranch), behind⟩])
  | .ifElse word condition thenBranch elseWord elseBranch, behind =>
    condition.sites (thenBranch.tokens ++ elseWord.token :: (elseBranch.tokens ++ behind)) ++
      (thenBranch.sites (elseWord.token :: (elseBranch.tokens ++ behind)) ++
        (elseBranch.sites behind ++
          [⟨.statement (.ifElse word condition thenBranch elseWord elseBranch), behind⟩]))
  | .loop word condition body, behind =>
    condition.sites (body.tokens ++ behind) ++ (body.sites behind ++
      [⟨.statement (.loop word condition body), behind⟩])

/-- The nodes of statements one behind the other. -/
def StatementsPhrase.sites : StatementsPhrase → List Token → List Site
  | .nil, _ => []
  | .cons first rest, behind => first.sites (rest.tokens ++ behind) ++ rest.sites behind

end

/-! ## Nodes -/

theorem DeclPhrase.nodes_sites {bases : List TokenKind} (x : DeclPhrase bases)
    (behind : List Token) : (x.sites behind).map (·.node) = x.tree.nodes := rfl

theorem ParensPhrase.nodes_sites (x : ParensPhrase) (behind : List Token) :
    (x.sites behind).map (·.node) = x.inner.tree.nodes :=
  x.inner.nodes_sites _

theorem CallPhrase.nodes_sites (x : CallPhrase) (behind : List Token) :
    (x.sites behind).map (·.node) = (x.tails.extend x.head.tree).nodes ++
      .name x.method.token :: Expr.nodesEach x.args.trees := by
  rw [sites, List.map_append, List.map_append, List.map_cons, x.head.nodes_sites,
    x.args.nodes_sites, ← List.append_assoc]
  exact congrArg (· ++ _) (x.tails.nodes_sites x.head .nil _)

mutual

theorem StatementPhrase.nodes_sites : ∀ (x : StatementPhrase) (behind : List Token),
    (x.sites behind).map (·.node) = x.tree.nodes
  | .block opening statements closing, behind => by
    rw [StatementPhrase.sites, List.map_append, StatementsPhrase.nodes_sites statements]
    rfl
  | .varDecl decl bare, behind => by
    rw [StatementPhrase.sites, List.map_append, decl.nodes_sites]
    rfl
  | .assignment target sign value ending, behind => by
    rw [StatementPhrase.sites, List.map_append, List.map_append, target.nodes_sites,
      value.nodes_sites]
    rfl
  | .print _ _ _ _ _ value _, behind => by
    rw [StatementPhrase.sites, List.map_append, value.nodes_sites]
    rfl
  | .assert _ condition _, behind => by
    rw [StatementPhrase.sites, List.map_append, condition.nodes_sites]
    rfl
  | .returnValue _ value _, behind => by
    rw [StatementPhrase.sites, List.map_append, value.nodes_sites]
    rfl
  | .call call ending, behind => by
    rw [StatementPhrase.sites, List.map_append, call.nodes_sites, List.append_assoc]
    rfl
  | .ifThen _ condition thenBranch, behind => by
    rw [StatementPhrase.sites, List.map_append, List.map_append, condition.nodes_sites,
      StatementPhrase.nodes_sites thenBranch]
    rfl
  | .ifElse _ condition thenBranch _ elseBranch, behind => by
    rw [StatementPhrase.sites, List.map_append, List.map_append, List.map_append,
      condition.nodes_sites, StatementPhrase.nodes_sites thenBranch,
      StatementPhrase.nodes_sites elseBranch]
    rfl
  | .loop _ condition body, behind => by
    rw [StatementPhrase.sites, List.map_append, List.map_append, condition.nodes_sites,
      StatementPhrase.nodes_sites body]
    rfl

theorem StatementsPhrase.nodes_sites : ∀ (x : StatementsPhrase) (behind : List Token),
    (x.sites behind).map (·.node) = Statement.nodesEach x.trees
  | .nil, _ => rfl
  | .cons first rest, behind => by
    rw [StatementsPhrase.sites, List.map_append, StatementPhrase.nodes_sites first,
      StatementsPhrase.nodes_sites rest]
    rfl

end

/-! ## The nodes fit -/

section

variable {behind : List Token}

theorem DeclPhrase.fits_sites {bases : List TokenKind} (x : DeclPhrase bases)
    (behind : List Token) : ∀ s ∈ x.sites behind, s.Fits (x.tokens ++ behind) := by
  have htype := Site.fits_type x.type (x.name.leads (x.ending.token :: behind) (by decide))
  have hname := Site.fits_name x.name (x.ending.leads behind (by decide))
  have htext : x.tokens ++ behind =
      x.type.tokens ++ x.name.token :: x.ending.token :: behind := by simp [tokens]
  rw [htext]
  exact List.forall_mem_cons.mpr
    ⟨htype, List.forall_mem_singleton.mpr (hname.mono (List.suffix_append _ _))⟩

theorem ParensPhrase.fits_sites (x : ParensPhrase) (behind : List Token) :
    ∀ s ∈ x.sites behind, s.Fits (x.tokens ++ behind) := by
  have hinner := x.inner.fits_sites (x.closing.leads behind (by decide))
  exact forall_fits_mono hinner ⟨[x.opening.token], by simp [tokens]⟩

theorem CallPhrase.fits_sites (x : CallPhrase) (behind : List Token) :
    ∀ s ∈ x.sites behind, s.Fits (x.expr.tokens ++ behind) := by
  have hdot : Leads NodeKind.operandFollow
      (x.dot.token :: x.method.token :: (x.args.tokens ++ behind)) := x.dot.leads _ (by decide)
  have hname := Site.fits_name x.method (x.args.leads : Leads _ (_ ++ behind))
  have htext : x.expr.tokens ++ behind = x.head.tokens ++ (x.tails.tokens ++
      x.dot.token :: x.method.token :: (x.args.tokens ++ behind)) := by
    simp [expr, ExprPhrase.tokens, TailsPhrase.tokens_append, TailsPhrase.tokens]
  have hmethod : x.method.token :: (x.args.tokens ++ behind) <:+ x.expr.tokens ++ behind := by
    rw [htext]
    exact ((List.suffix_cons _ _).trans (List.suffix_append _ _)).trans (List.suffix_append _ _)
  refine List.forall_mem_append.mpr ⟨?_, List.forall_mem_append.mpr ⟨?_,
    List.forall_mem_cons.mpr ⟨hname.mono hmethod, ?_⟩⟩⟩
  · rw [htext]
    exact x.head.fits_sites (x.tails.leads hdot)
  · rw [htext]
    exact x.tails.fits_sites x.head .nil hdot
  · exact forall_fits_mono (x.args.fits_sites behind) ((List.suffix_cons _ _).trans hmethod)

-- The table has the same row for all statements.
theorem forall_fits_statement (x : StatementPhrase) (h : Leads NodeKind.statementFollow behind)
    {inner : List Site} (hinner : ∀ s ∈ inner, s.Fits (x.tokens ++ behind)) :
    ∀ s ∈ inner ++ [⟨.statement x, behind⟩], s.Fits (x.tokens ++ behind) := by
  refine List.forall_mem_append.mpr ⟨hinner, List.forall_mem_singleton.mpr ?_⟩
  refine ⟨List.suffix_refl _, h.mono fun k hk => List.mem_append_left _ ?_⟩
  show k ∈ x.tree.kind.followSet
  cases x.tree <;> exact hk

-- A statement of the list comes next, or what is behind it.
theorem StatementsPhrase.leads (x : StatementsPhrase) (hx : x.Every (·.NameFirst))
    (h : Leads [.rbrace] behind) : Leads NodeKind.statementFollow (x.tokens ++ behind) := by
  cases x with
  | nil => exact h.mono (by decide)
  | cons first rest =>
    obtain ⟨t, ts, heq, hkind⟩ := Statement.exists_tokens_eq_cons first hx.1.self
    rw [StatementsPhrase.tokens, heq]
    have hrow : ∀ k ∈ NodeKind.statementStart, k ∈ NodeKind.statementFollow := by decide
    exact leads_cons.mpr (hrow _ hkind)

end

mutual

/-- What stands behind the nodes of a statement, if behind the statement stands what may. -/
theorem StatementPhrase.fits_sites : ∀ (x : StatementPhrase) {behind : List Token},
    x.Every (·.NameFirst) → Leads NodeKind.statementFollow behind →
    ∀ s ∈ x.sites behind, s.Fits (x.tokens ++ behind)
  | .block opening statements closing, behind, hx, h => by
    have hinner := StatementsPhrase.fits_sites statements hx.2 (closing.leads behind (by decide))
    refine forall_fits_statement _ h (forall_fits_mono hinner ⟨[opening.token], ?_⟩)
    simp [StatementPhrase.tokens]
  | .varDecl decl bare, behind, _, h => forall_fits_statement _ h (decl.fits_sites behind)
  | .assignment target sign value ending, behind, _, h => by
    have htarget := target.fits_sites
      (sign.leads (value.tokens ++ ending.token :: behind) (by decide))
    have hvalue := value.fits_sites (ending.leads behind (by decide))
    rw [StatementPhrase.sites, ← List.append_assoc]
    refine forall_fits_statement _ h (List.forall_mem_append.mpr ⟨?_, ?_⟩)
    · exact forall_fits_mono htarget ⟨[], by simp [StatementPhrase.tokens]⟩
    · refine forall_fits_mono hvalue ⟨target.tokens ++ [sign.token], ?_⟩
      simp [StatementPhrase.tokens]
  | .print word dot out dot' println value ending, behind, _, h => by
    have hvalue := value.fits_sites (ending.token :: behind)
    refine forall_fits_statement _ h (forall_fits_mono hvalue
      ⟨[word.token, dot.token, out.token, dot'.token, println.token], ?_⟩)
    simp [StatementPhrase.tokens]
  | .assert word condition ending, behind, _, h => by
    have hcondition := condition.fits_sites (ending.token :: behind)
    refine forall_fits_statement _ h (forall_fits_mono hcondition ⟨[word.token], ?_⟩)
    simp [StatementPhrase.tokens]
  | .returnValue word value ending, behind, _, h => by
    have hvalue := value.fits_sites (ending.leads behind (by decide))
    refine forall_fits_statement _ h (forall_fits_mono hvalue ⟨[word.token], ?_⟩)
    simp [StatementPhrase.tokens]
  | .call call ending, behind, _, h => by
    have hcall := call.fits_sites (ending.token :: behind)
    refine forall_fits_statement _ h (forall_fits_mono hcall ⟨[], ?_⟩)
    simp [StatementPhrase.tokens]
  | .ifThen word condition thenBranch, behind, hx, h => by
    have hcondition := condition.fits_sites (thenBranch.tokens ++ behind)
    have hthen := StatementPhrase.fits_sites thenBranch hx.2 h
    rw [StatementPhrase.sites, ← List.append_assoc]
    refine forall_fits_statement _ h (List.forall_mem_append.mpr ⟨?_, ?_⟩)
    · exact forall_fits_mono hcondition ⟨[word.token], by simp [StatementPhrase.tokens]⟩
    · refine forall_fits_mono hthen ⟨word.token :: condition.tokens, ?_⟩
      simp [StatementPhrase.tokens]
  | .ifElse word condition thenBranch elseWord elseBranch, behind, hx, h => by
    have hcondition := condition.fits_sites
      (thenBranch.tokens ++ elseWord.token :: (elseBranch.tokens ++ behind))
    have hthen := StatementPhrase.fits_sites thenBranch hx.2.1
      (elseWord.leads (elseBranch.tokens ++ behind) (by decide))
    have helse := StatementPhrase.fits_sites elseBranch hx.2.2 h
    rw [StatementPhrase.sites, ← List.append_assoc, ← List.append_assoc]
    refine forall_fits_statement _ h (List.forall_mem_append.mpr
      ⟨List.forall_mem_append.mpr ⟨?_, ?_⟩, ?_⟩)
    · exact forall_fits_mono hcondition ⟨[word.token], by simp [StatementPhrase.tokens]⟩
    · refine forall_fits_mono hthen ⟨word.token :: condition.tokens, ?_⟩
      simp [StatementPhrase.tokens]
    · refine forall_fits_mono helse
        ⟨word.token :: (condition.tokens ++ (thenBranch.tokens ++ [elseWord.token])), ?_⟩
      simp [StatementPhrase.tokens]
  | .loop word condition body, behind, hx, h => by
    have hcondition := condition.fits_sites (body.tokens ++ behind)
    have hbody := StatementPhrase.fits_sites body hx.2 h
    rw [StatementPhrase.sites, ← List.append_assoc]
    refine forall_fits_statement _ h (List.forall_mem_append.mpr ⟨?_, ?_⟩)
    · exact forall_fits_mono hcondition ⟨[word.token], by simp [StatementPhrase.tokens]⟩
    · refine forall_fits_mono hbody ⟨word.token :: condition.tokens, ?_⟩
      simp [StatementPhrase.tokens]

theorem StatementsPhrase.fits_sites : ∀ (x : StatementsPhrase) {behind : List Token},
    x.Every (·.NameFirst) → Leads [.rbrace] behind →
    ∀ s ∈ x.sites behind, s.Fits (x.tokens ++ behind)
  | .nil, _, _, _ => List.forall_mem_nil _
  | .cons first rest, behind, hx, h => by
    rw [StatementsPhrase.sites, StatementsPhrase.tokens, List.append_assoc]
    refine List.forall_mem_append.mpr ⟨?_, ?_⟩
    · exact StatementPhrase.fits_sites first hx.1 (rest.leads hx.2 h)
    · exact forall_fits_mono (StatementsPhrase.fits_sites rest hx.2 h) (List.suffix_append _ _)

end

end MiniJava
