import MiniJava.Proofs.Following.Node

/-!
# What follows the nodes of an expression

`ExprPhrase.sites` lists the nodes of a derived expression with what is behind them, given what is
behind the expression. The nodes are those of the tree (`nodes_sites`), and what follows them is
told by the table and what it leaves out (`fits_sites`): behind an operator expression stands
what stands behind expressions, while an operand may have a bracket or a dot behind it.
-/

namespace MiniJava

/-! ## Sites -/

/-- The node that ends with the last one of these tails. -/
def Site.ofTails (head : HeadPhrase) (done more : TailsPhrase) (h : more ≠ .nil)
    (behind : List Token) : Site :=
  ⟨.expr (.operand head (done.append more))
    (ExprPhrase.isBare_of_ne_nil head (done.append_ne_nil h)), behind⟩

mutual

/-- The nodes of an expression that has these tokens behind it. -/
def ExprPhrase.sites : ExprPhrase → List Token → List Site
  | .operand head tails, behind =>
    head.sites (tails.tokens ++ behind) ++ tails.sites head .nil behind
  | .binary left op right, behind =>
    left.sites (op.token :: (right.tokens ++ behind)) ++
      (right.sites behind ++ [⟨.expr (.binary left op right) rfl, behind⟩])

/-- The nodes of a head. -/
def HeadPhrase.sites : HeadPhrase → List Token → List Site
  | .not bang negand, behind =>
    negand.sites behind ++ [⟨.expr (.operand (.not bang negand) .nil) rfl, behind⟩]
  | .parens _ inner closing, behind => inner.sites (closing.token :: behind)
  | .this word, behind => [⟨.expr (.operand (.this word) .nil) rfl, behind⟩]
  | .boolLiteral literal, behind => [⟨.expr (.operand (.boolLiteral literal) .nil) rfl, behind⟩]
  | .intLiteral literal, behind => [⟨.expr (.operand (.intLiteral literal) .nil) rfl, behind⟩]
  | .name name, behind => [⟨.expr (.operand (.name name) .nil) rfl, behind⟩]
  | .newObject word className opening closing, behind =>
    [⟨.name className, opening.token :: closing.token :: behind⟩,
      ⟨.expr (.operand (.newObject word className opening closing) .nil) rfl, behind⟩]
  | .newArray word base opening length closing, behind =>
    ⟨.type ⟨base, none⟩, opening.token :: (length.tokens ++ closing.token :: behind)⟩ ::
      (length.sites (closing.token :: behind) ++
        [⟨.expr (.operand (.newArray word base opening length closing) .nil) rfl, behind⟩])

/-- The nodes that tails add to a head and the tails before them. -/
def TailsPhrase.sites : TailsPhrase → HeadPhrase → TailsPhrase → List Token → List Site
  | .nil, _, _, _ => []
  | .index opening i closing rest, head, done, behind =>
    i.sites (closing.token :: (rest.tokens ++ behind)) ++
      .ofTails head done (.index opening i closing .nil) nofun (rest.tokens ++ behind) ::
        rest.sites head (done.append (.index opening i closing .nil)) behind
  | .length dot word rest, head, done, behind =>
    .ofTails head done (.length dot word .nil) nofun (rest.tokens ++ behind) ::
      rest.sites head (done.append (.length dot word .nil)) behind
  | .call dot method args rest, head, done, behind =>
    ⟨.name method, args.tokens ++ (rest.tokens ++ behind)⟩ ::
      (args.sites (rest.tokens ++ behind) ++
        .ofTails head done (.call dot method args .nil) nofun (rest.tokens ++ behind) ::
          rest.sites head (done.append (.call dot method args .nil)) behind)

/-- The nodes of the arguments of a call. -/
def ArgsPhrase.sites : ArgsPhrase → List Token → List Site
  | .none _ _, _ => []
  | .some _ first more closing, behind =>
    first.sites (more.tokens ++ closing.token :: behind) ++ more.sites (closing.token :: behind)

def MoreArgsPhrase.sites : MoreArgsPhrase → List Token → List Site
  | .nil, _ => []
  | .cons _ arg rest, behind => arg.sites (rest.tokens ++ behind) ++ rest.sites behind

end

/-! ## Nodes -/

theorem Site.node_ofTails (head : HeadPhrase) (done more : TailsPhrase) (h : more ≠ .nil)
    (behind : List Token) :
    (Site.ofTails head done more h behind).node = .expr (more.extend (done.extend head.tree)) :=
  congrArg Node.expr (done.extend_append more head.tree)

mutual

theorem ExprPhrase.nodes_sites : ∀ (x : ExprPhrase) (behind : List Token),
    (x.sites behind).map (·.node) = x.tree.nodes
  | .operand head tails, behind => by
    rw [ExprPhrase.sites, List.map_append, HeadPhrase.nodes_sites head]
    exact TailsPhrase.nodes_sites tails head .nil behind
  | .binary left op right, behind => by
    rw [ExprPhrase.sites, List.map_append, List.map_append, ExprPhrase.nodes_sites left,
      ExprPhrase.nodes_sites right]
    rfl

theorem HeadPhrase.nodes_sites : ∀ (x : HeadPhrase) (behind : List Token),
    (x.sites behind).map (·.node) = x.tree.nodes
  | .not bang negand, behind => by
    rw [HeadPhrase.sites, List.map_append, HeadPhrase.nodes_sites negand]
    rfl
  | .parens _ inner closing, behind => ExprPhrase.nodes_sites inner _
  | .this _, _ | .boolLiteral _, _ | .intLiteral _, _ | .name _, _ | .newObject .., _ => rfl
  | .newArray word base opening length closing, behind => by
    rw [HeadPhrase.sites, List.map_cons, List.map_append, ExprPhrase.nodes_sites length]
    rfl

-- Tails add their nodes behind those of what they extend.
theorem TailsPhrase.nodes_sites : ∀ (x : TailsPhrase) (head : HeadPhrase) (done : TailsPhrase)
    (behind : List Token),
    (done.extend head.tree).nodes ++ (x.sites head done behind).map (·.node) =
      (x.extend (done.extend head.tree)).nodes
  | .nil, _, _, _ => List.append_nil _
  | .index opening i closing rest, head, done, behind => by
    have hrest := TailsPhrase.nodes_sites rest head
      (done.append (.index opening i closing .nil)) behind
    rw [TailsPhrase.extend_append] at hrest
    rw [TailsPhrase.sites, List.map_append, List.map_cons, Site.node_ofTails,
      ExprPhrase.nodes_sites i]
    refine Eq.trans ?_ hrest
    simp [TailsPhrase.extend, Expr.nodes]
  | .length dot word rest, head, done, behind => by
    have hrest := TailsPhrase.nodes_sites rest head (done.append (.length dot word .nil)) behind
    rw [TailsPhrase.extend_append] at hrest
    rw [TailsPhrase.sites, List.map_cons, Site.node_ofTails]
    refine Eq.trans ?_ hrest
    simp [TailsPhrase.extend, Expr.nodes]
  | .call dot method args rest, head, done, behind => by
    have hrest := TailsPhrase.nodes_sites rest head
      (done.append (.call dot method args .nil)) behind
    rw [TailsPhrase.extend_append] at hrest
    rw [TailsPhrase.sites, List.map_cons, List.map_append, List.map_cons, Site.node_ofTails,
      ArgsPhrase.nodes_sites args]
    refine Eq.trans ?_ hrest
    simp [TailsPhrase.extend, Expr.nodes, Site.node, Phrase.node]

theorem ArgsPhrase.nodes_sites : ∀ (x : ArgsPhrase) (behind : List Token),
    (x.sites behind).map (·.node) = Expr.nodesEach x.trees
  | .none _ _, _ => rfl
  | .some _ first more closing, behind => by
    rw [ArgsPhrase.sites, List.map_append, ExprPhrase.nodes_sites first,
      MoreArgsPhrase.nodes_sites more]
    rfl

theorem MoreArgsPhrase.nodes_sites : ∀ (x : MoreArgsPhrase) (behind : List Token),
    (x.sites behind).map (·.node) = Expr.nodesEach x.trees
  | .nil, _ => rfl
  | .cons _ arg rest, behind => by
    rw [MoreArgsPhrase.sites, List.map_append, ExprPhrase.nodes_sites arg,
      MoreArgsPhrase.nodes_sites rest]
    rfl

end

/-! ## What comes next -/

section

variable {behind : List Token}

-- An expression other than one of an operator may have a tail behind it.
theorem Expr.leads {e : Expr} (hbinary : e.kind ≠ .binary)
    (h : Leads NodeKind.operandFollow behind) :
    Leads (e.kind.followSet ++ e.kind.overlooked) behind := by
  refine h.mono ?_
  cases e with
  | binary => exact absurd rfl hbinary
  | _ =>
    rw [kind]
    decide

theorem Leads.operand (h : Leads NodeKind.expressionFollow behind) :
    Leads NodeKind.operandFollow behind :=
  h.mono fun _ hk => List.mem_append_left _ hk

-- What ends with a tail is no operator expression.
theorem TailsPhrase.kind_extend_ne (x : TailsPhrase) :
    ∀ {e : Expr}, e.kind ≠ .binary → (x.extend e).kind ≠ .binary := by
  induction x using TailsPhrase.chain with
  | nil => exact id
  | index _ _ _ _ ih | length _ _ _ ih | call _ _ _ _ ih => exact fun _ => ih nofun

-- The first tail or what is behind all of them.
theorem TailsPhrase.leads (x : TailsPhrase) (h : Leads NodeKind.operandFollow behind) :
    Leads NodeKind.operandFollow (x.tokens ++ behind) := by
  cases x with
  | nil => exact h
  | index leaf => exact leaf.leads _ (by decide)
  | length leaf => exact leaf.leads _ (by decide)
  | call leaf => exact leaf.leads _ (by decide)

theorem MoreArgsPhrase.leads (x : MoreArgsPhrase) (h : Leads [.rparen] behind) :
    Leads NodeKind.expressionFollow (x.tokens ++ behind) := by
  cases x with
  | nil => exact h.mono (by decide)
  | cons leaf => exact leaf.leads _ (by decide)

theorem ArgsPhrase.leads (x : ArgsPhrase) :
    Leads (NodeKind.followSet .identifier) (x.tokens ++ behind) := by
  cases x with
  | none leaf => exact leaf.leads _ (by decide)
  | some leaf => exact leaf.leads _ (by decide)

end

/-! ## The nodes fit -/

section

variable {behind : List Token}

-- An expression that is a head alone.
theorem Site.fits_head (x : HeadPhrase) (bare : (ExprPhrase.operand x .nil).isBare = true)
    (h : Leads NodeKind.operandFollow behind) :
    Site.Fits (x.tokens ++ behind) ⟨.expr (.operand x .nil) bare, behind⟩ := by
  have htext : (ExprPhrase.operand x .nil).tokens ++ behind = x.tokens ++ behind :=
    congrArg (· ++ behind) (List.append_nil _)
  refine ⟨⟨[], htext⟩, Expr.leads ?_ h⟩
  -- Only parentheses may stand for an operator expression.
  cases x with
  | parens => cases bare
  | _ => exact nofun

-- An expression that ends with a tail.
theorem Site.fits_ofTails (head : HeadPhrase) (done more : TailsPhrase) (hmore : more ≠ .nil)
    (h : Leads NodeKind.operandFollow behind) :
    (Site.ofTails head done more hmore behind).Fits
      (head.tokens ++ (done.tokens ++ (more.tokens ++ behind))) := by
  have htext : head.tokens ++ (done.append more).tokens ++ behind =
      head.tokens ++ (done.tokens ++ (more.tokens ++ behind)) := by
    rw [TailsPhrase.tokens_append, List.append_assoc, List.append_assoc]
  refine ⟨⟨[], htext⟩, ?_⟩
  rw [Site.kind, Site.node_ofTails]
  refine Expr.leads ?_ h
  cases more with
  | nil => exact absurd rfl hmore
  | index _ _ _ rest | length _ _ rest | call _ _ _ rest => exact rest.kind_extend_ne nofun

end

mutual

/-- What stands behind the nodes of an expression, if behind the expression stands what may. -/
theorem ExprPhrase.fits_sites : ∀ (x : ExprPhrase) {behind : List Token},
    Leads NodeKind.expressionFollow behind → ∀ s ∈ x.sites behind, s.Fits (x.tokens ++ behind)
  | .operand head tails, behind, h => by
    rw [ExprPhrase.sites, ExprPhrase.tokens, List.append_assoc]
    refine List.forall_mem_append.mpr ⟨?_, ?_⟩
    · exact HeadPhrase.fits_sites head (tails.leads h.operand)
    · exact TailsPhrase.fits_sites tails head .nil h.operand
  | .binary left op right, behind, h => by
    have hop : Leads NodeKind.expressionFollow (op.token :: (right.tokens ++ behind)) :=
      op.leads _ (by decide)
    have htext : (ExprPhrase.binary left op right).tokens ++ behind =
        left.tokens ++ op.token :: (right.tokens ++ behind) := by simp [ExprPhrase.tokens]
    rw [ExprPhrase.sites, htext]
    refine List.forall_mem_append.mpr ⟨ExprPhrase.fits_sites left hop,
      List.forall_mem_append.mpr ⟨?_, List.forall_mem_singleton.mpr ⟨⟨[], htext⟩, ?_⟩⟩⟩
    · refine forall_fits_mono (ExprPhrase.fits_sites right h) ?_
      exact (List.suffix_cons _ _).trans (List.suffix_append _ _)
    · exact h.mono fun _ hk => List.mem_append_left _ hk

theorem HeadPhrase.fits_sites : ∀ (x : HeadPhrase) {behind : List Token},
    Leads NodeKind.operandFollow behind → ∀ s ∈ x.sites behind, s.Fits (x.tokens ++ behind)
  | .not bang negand, behind, h => by
    rw [HeadPhrase.sites]
    refine List.forall_mem_append.mpr ⟨?_, List.forall_mem_singleton.mpr ?_⟩
    · exact forall_fits_mono (HeadPhrase.fits_sites negand h) (List.suffix_cons _ _)
    · exact Site.fits_head _ rfl h
  | .parens opening inner closing, behind, h => by
    have hinner := ExprPhrase.fits_sites inner (closing.leads behind (by decide))
    have htext : (HeadPhrase.parens opening inner closing).tokens ++ behind =
        opening.token :: (inner.tokens ++ closing.token :: behind) := by simp [HeadPhrase.tokens]
    rw [htext]
    exact forall_fits_mono hinner (List.suffix_cons _ _)
  | .this _, _, h => List.forall_mem_singleton.mpr (Site.fits_head _ rfl h)
  | .boolLiteral _, _, h => List.forall_mem_singleton.mpr (Site.fits_head _ rfl h)
  | .intLiteral _, _, h => List.forall_mem_singleton.mpr (Site.fits_head _ rfl h)
  | .name _, _, h => List.forall_mem_singleton.mpr (Site.fits_head _ rfl h)
  | .newObject word className opening closing, behind, h => by
    have hname := Site.fits_name className (opening.leads (closing.token :: behind) (by decide))
    rw [HeadPhrase.sites]
    refine List.forall_mem_cons.mpr ⟨hname.mono (List.suffix_cons _ _), ?_⟩
    exact List.forall_mem_singleton.mpr (Site.fits_head _ rfl h)
  | .newArray word base opening length closing, behind, h => by
    have hlength := ExprPhrase.fits_sites length (closing.leads behind (by decide))
    have htext : (HeadPhrase.newArray word base opening length closing).tokens ++ behind =
        word.token :: base.token :: opening.token ::
          (length.tokens ++ closing.token :: behind) := by simp [HeadPhrase.tokens]
    have hself := Site.fits_head (.newArray word base opening length closing) rfl h
    rw [htext] at hself
    have htype := Site.fits_type ⟨base, none⟩
      (opening.leads (length.tokens ++ closing.token :: behind) (by decide))
    rw [HeadPhrase.sites, htext]
    refine List.forall_mem_cons.mpr ⟨htype.mono (List.suffix_cons _ _),
      List.forall_mem_append.mpr ⟨?_, List.forall_mem_singleton.mpr hself⟩⟩
    refine forall_fits_mono hlength ?_
    exact ((List.suffix_cons _ _).trans (List.suffix_cons _ _)).trans (List.suffix_cons _ _)

theorem TailsPhrase.fits_sites : ∀ (x : TailsPhrase) (head : HeadPhrase) (done : TailsPhrase)
    {behind : List Token}, Leads NodeKind.operandFollow behind →
    ∀ s ∈ x.sites head done behind, s.Fits (head.tokens ++ (done.tokens ++ (x.tokens ++ behind)))
  | .nil, _, _, _, _ => List.forall_mem_nil _
  | .index opening i closing rest, head, done, behind, h => by
    have hindex := ExprPhrase.fits_sites i
      (closing.leads (rest.tokens ++ behind) (by decide))
    have hself := Site.fits_ofTails head done (.index opening i closing .nil) nofun (rest.leads h)
    have hrest := TailsPhrase.fits_sites rest head (done.append (.index opening i closing .nil)) h
    simp only [TailsPhrase.tokens_append, TailsPhrase.tokens, List.append_assoc, List.cons_append,
      List.nil_append] at hself hrest ⊢
    rw [TailsPhrase.sites]
    refine List.forall_mem_append.mpr ⟨?_, List.forall_mem_cons.mpr ⟨hself, hrest⟩⟩
    refine forall_fits_mono hindex ?_
    exact ((List.suffix_cons _ _).trans (List.suffix_append _ _)).trans (List.suffix_append _ _)
  | .length dot word rest, head, done, behind, h => by
    have hself := Site.fits_ofTails head done (.length dot word .nil) nofun (rest.leads h)
    have hrest := TailsPhrase.fits_sites rest head (done.append (.length dot word .nil)) h
    simp only [TailsPhrase.tokens_append, TailsPhrase.tokens, List.append_assoc, List.cons_append,
      List.nil_append] at hself hrest ⊢
    rw [TailsPhrase.sites]
    exact List.forall_mem_cons.mpr ⟨hself, hrest⟩
  | .call dot method args rest, head, done, behind, h => by
    have hname := Site.fits_name method (args.leads : Leads _ (_ ++ (rest.tokens ++ behind)))
    have hargs := ArgsPhrase.fits_sites args (rest.tokens ++ behind)
    have hself := Site.fits_ofTails head done (.call dot method args .nil) nofun (rest.leads h)
    have hrest := TailsPhrase.fits_sites rest head (done.append (.call dot method args .nil)) h
    simp only [TailsPhrase.tokens_append, TailsPhrase.tokens, List.append_assoc, List.cons_append,
      List.append_nil] at hself hrest ⊢
    have hbehind : ∀ ts : List Token, method.token :: ts <:+
        head.tokens ++ (done.tokens ++ dot.token :: method.token :: ts) := fun ts =>
      ((List.suffix_cons _ _).trans (List.suffix_append _ _)).trans (List.suffix_append _ _)
    rw [TailsPhrase.sites]
    refine List.forall_mem_cons.mpr ⟨hname.mono (hbehind _), List.forall_mem_append.mpr
      ⟨?_, List.forall_mem_cons.mpr ⟨hself, hrest⟩⟩⟩
    exact forall_fits_mono hargs ((List.suffix_cons _ _).trans (hbehind _))

theorem ArgsPhrase.fits_sites : ∀ (x : ArgsPhrase) (behind : List Token),
    ∀ s ∈ x.sites behind, s.Fits (x.tokens ++ behind)
  | .none _ _, _ => List.forall_mem_nil _
  | .some opening first more closing, behind => by
    have htext : (ArgsPhrase.some opening first more closing).tokens ++ behind =
        opening.token :: (first.tokens ++ (more.tokens ++ closing.token :: behind)) := by
      simp [ArgsPhrase.tokens]
    have hclosing : Leads [.rparen] (closing.token :: behind) := closing.leads _ (by decide)
    rw [ArgsPhrase.sites, htext]
    refine List.forall_mem_append.mpr ⟨?_, ?_⟩
    · refine forall_fits_mono (ExprPhrase.fits_sites first (more.leads hclosing)) ?_
      exact List.suffix_cons _ _
    · refine forall_fits_mono (MoreArgsPhrase.fits_sites more hclosing) ?_
      exact (List.suffix_append _ _).trans (List.suffix_cons _ _)

theorem MoreArgsPhrase.fits_sites : ∀ (x : MoreArgsPhrase) {behind : List Token},
    Leads [.rparen] behind → ∀ s ∈ x.sites behind, s.Fits (x.tokens ++ behind)
  | .nil, _, _ => List.forall_mem_nil _
  | .cons comma arg rest, behind, h => by
    rw [MoreArgsPhrase.sites, MoreArgsPhrase.tokens, List.cons_append, List.append_assoc]
    refine List.forall_mem_append.mpr ⟨?_, ?_⟩
    · exact forall_fits_mono (ExprPhrase.fits_sites arg (rest.leads h)) (List.suffix_cons _ _)
    · refine forall_fits_mono (MoreArgsPhrase.fits_sites rest h) ?_
      exact (List.suffix_append _ _).trans (List.suffix_cons _ _)

end

end MiniJava
