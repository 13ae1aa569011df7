import MiniJava.Proofs.Beginnings
import MiniJava.Outline

/-!
# Anchors — the tokens at which rows stand

A row of an outline stands where its node stands, and a node stands at a token: at its first one, at
its name or at its operator. So each row stands at one of the tokens that were read for the tree
(`ProgramPhrase.anchored`).
-/

namespace MiniJava

/-! ## Rows and tokens -/

/-- Each of the rows stands at one of the tokens. -/
def Anchored (tokens : List Token) (rows : List OutlineRow) : Prop :=
  ∀ r ∈ rows, ∃ t ∈ tokens, t.position = r.position

namespace Anchored

variable {tokens tokens' : List Token} {rows rows' : List OutlineRow} {r : OutlineRow}

theorem nil : Anchored tokens [] := List.forall_mem_nil _

theorem row (hr : Places tokens [r.position]) (h : Anchored tokens rows) :
    Anchored tokens (r :: rows) :=
  List.forall_mem_cons.mpr ⟨hr.mem _ List.mem_cons_self, h⟩

theorem append (h : Anchored tokens rows) (h' : Anchored tokens rows') :
    Anchored tokens (rows ++ rows') :=
  List.forall_mem_append.mpr ⟨h, h'⟩

-- Rows that stand at some of the tokens.
theorem mono (h : Anchored tokens rows) (hsubset : tokens ⊆ tokens') : Anchored tokens' rows := by
  intro r hr
  obtain ⟨t, ht, hposition⟩ := h r hr
  exact ⟨t, hsubset ht, hposition⟩

end Anchored

/-! ## Expressions -/

namespace Expr

mutual

-- The rows of an expression stand at what its tree keeps.
theorem position_mem_kept_of_mem_outline : ∀ (e : Expr) (depth : Nat),
    ∀ r ∈ e.outline depth, r.position ∈ e.kept.positions
  | binary left op right, depth => by
    have hleft := left.position_mem_kept_of_mem_outline (depth + 1)
    have hright := right.position_mem_kept_of_mem_outline (depth + 1)
    simp only [outline, List.cons_append, List.forall_mem_cons, List.forall_mem_append, kept,
      Kept.mem_positions_append]
    exact ⟨.inr (.inl List.mem_cons_self), fun r hr => .inl (hleft r hr),
      fun r hr => .inr (.inr (hright r hr))⟩
  | unary op operand, depth => by
    have hoperand := operand.position_mem_kept_of_mem_outline (depth + 1)
    simp only [outline, List.forall_mem_cons, kept, Kept.mem_positions_append]
    exact ⟨.inl List.mem_cons_self, fun r hr => .inr (hoperand r hr)⟩
  | index array i, depth => by
    have harray := array.position_mem_kept_of_mem_outline (depth + 1)
    have hi := i.position_mem_kept_of_mem_outline (depth + 1)
    simp only [outline, List.cons_append, List.forall_mem_cons, List.forall_mem_append, kept,
      Kept.mem_positions_append]
    exact ⟨.inl array.position_mem_kept, fun r hr => .inl (harray r hr),
      fun r hr => .inr (hi r hr)⟩
  | arrayLength array, depth =>
    List.forall_mem_cons.mpr
      ⟨array.position_mem_kept, array.position_mem_kept_of_mem_outline (depth + 1)⟩
  | newObject className p, depth =>
    List.forall_mem_singleton.mpr (Kept.mem_positions_append.mpr (.inl List.mem_cons_self))
  | newArray elementType length p, depth => by
    have hlength := length.position_mem_kept_of_mem_outline (depth + 1)
    simp only [outline, List.forall_mem_cons, kept, Kept.mem_positions_append]
    exact ⟨.inl List.mem_cons_self, fun r hr => .inr (.inr (hlength r hr))⟩
  | call receiver method args, depth => by
    have hreceiver := receiver.position_mem_kept_of_mem_outline (depth + 1)
    have hargs := position_mem_kept_of_mem_outlineEach args (depth + 1)
    simp only [outline, List.cons_append, List.forall_mem_cons, List.forall_mem_append, kept,
      Kept.mem_positions_append]
    exact ⟨.inr (.inl List.mem_cons_self), fun r hr => .inl (hreceiver r hr),
      fun r hr => .inr (.inr (.inr (hargs r hr)))⟩
  | intLiteral t, _ | boolLiteral t, _ | identifier t, _ | this t, _ =>
    List.forall_mem_singleton.mpr List.mem_cons_self

theorem position_mem_kept_of_mem_outlineEach : ∀ (es : List Expr) (depth : Nat),
    ∀ r ∈ outlineEach depth es, r.position ∈ (keptAll es).positions
  | [], _ => List.forall_mem_nil _
  | e :: es, depth => by
    have he := e.position_mem_kept_of_mem_outline depth
    have hes := position_mem_kept_of_mem_outlineEach es depth
    simp only [outlineEach, List.forall_mem_append, keptAll, Kept.mem_positions_append]
    exact ⟨fun r hr => .inl (he r hr), fun r hr => .inr (hes r hr)⟩

end

end Expr

theorem ExprPhrase.anchored (x : ExprPhrase) (depth : Nat) :
    Anchored x.tokens (x.tree.outline depth) := by
  intro r hr
  have hkept := x.tree.position_mem_kept_of_mem_outline depth r hr
  obtain ⟨t, ht, -, hposition⟩ := (x.faithful 0).exists_of_mem_positions hkept
  exact ⟨t, ht, hposition⟩

theorem ParensPhrase.anchored (x : ParensPhrase) (depth : Nat) :
    Anchored x.tokens (x.inner.tree.outline depth) :=
  (x.inner.anchored depth).mono
    (List.subset_cons_of_subset _ (List.subset_append_left _ [x.closing.token]))

/-! ## Statements -/

mutual

theorem StatementPhrase.anchored : ∀ (x : StatementPhrase) (depth : Nat),
    Anchored x.tokens (x.tree.outline depth)
  | .block opening statements closing, depth => by
    have hstatements := statements.anchored (depth + 1)
    refine .row (StatementPhrase.places _) (hstatements.mono ?_)
    simp +contextual [List.subset_def, StatementPhrase.tokens]
  | .varDecl decl bare, depth => .row decl.places .nil
  | .assignment target sign value ending, depth => by
    have htarget := target.anchored (depth + 1)
    have hvalue := value.anchored (depth + 1)
    refine .append (.row (StatementPhrase.places _) (htarget.mono ?_)) (hvalue.mono ?_)
    all_goals simp +contextual [List.subset_def, StatementPhrase.tokens]
  | .print word dot out dot' println value ending, depth => by
    have hvalue := value.anchored (depth + 1)
    refine .row (StatementPhrase.places _) (hvalue.mono ?_)
    simp +contextual [List.subset_def, StatementPhrase.tokens]
  | .assert word condition ending, depth => by
    have hcondition := condition.anchored (depth + 1)
    refine .row (StatementPhrase.places _) (hcondition.mono ?_)
    simp +contextual [List.subset_def, StatementPhrase.tokens]
  | .returnValue word value ending, depth => by
    have hvalue := value.anchored (depth + 1)
    refine .row (StatementPhrase.places _) (hvalue.mono ?_)
    simp +contextual [List.subset_def, StatementPhrase.tokens]
  | .call call ending, depth => by
    have hcall := call.expr.anchored (depth + 1)
    rw [call.tree_expr] at hcall
    exact .row (StatementPhrase.places (.call call ending))
      (hcall.mono (List.subset_append_left _ _))
  | .ifThen word condition thenBranch, depth => by
    have hcondition := condition.anchored (depth + 1)
    have hthen := thenBranch.anchored (depth + 1)
    refine .append (.row (StatementPhrase.places _) (hcondition.mono ?_)) (hthen.mono ?_)
    all_goals simp +contextual [List.subset_def, StatementPhrase.tokens]
  | .ifElse word condition thenBranch elseWord elseBranch, depth => by
    have hcondition := condition.anchored (depth + 1)
    have hthen := thenBranch.anchored (depth + 1)
    -- The row of the `else` stands at the statement behind the word.
    have helse : Anchored elseBranch.tokens
        (⟨depth, "else", elseBranch.tree.position⟩ :: elseBranch.tree.outline (depth + 1)) :=
      .row elseBranch.places (elseBranch.anchored (depth + 1))
    refine .append (.append (.row (StatementPhrase.places _) (hcondition.mono ?_))
      (hthen.mono ?_)) (helse.mono ?_)
    all_goals simp +contextual [List.subset_def, StatementPhrase.tokens]
  | .loop word condition body, depth => by
    have hcondition := condition.anchored (depth + 1)
    have hbody := body.anchored (depth + 1)
    refine .append (.row (StatementPhrase.places _) (hcondition.mono ?_)) (hbody.mono ?_)
    all_goals simp +contextual [List.subset_def, StatementPhrase.tokens]

theorem StatementsPhrase.anchored : ∀ (x : StatementsPhrase) (depth : Nat),
    Anchored x.tokens (Statement.outlineEach depth x.trees)
  | .nil, _ => .nil
  | .cons first rest, depth =>
    .append ((first.anchored depth).mono (List.subset_append_left _ _))
      ((rest.anchored depth).mono (List.subset_append_right _ _))

end

/-! ## Programs -/

-- The row of a method stands at its name, whatever sort of method it is.
theorem BodyPhrase.anchored_outlineMethod (x : BodyPhrase) (word : String) {m : Method}
    {tokens : List Token} (hname : m.name ∈ tokens) (hbody : m.body = x.statements.trees)
    (hsubset : x.tokens ⊆ tokens) : Anchored tokens (Program.outlineMethod word m) := by
  have hstatements := x.statements.anchored 2
  have hinside : x.statements.tokens ⊆ x.tokens := by simp [BodyPhrase.tokens]
  rw [Program.outlineMethod, hbody]
  exact .row (.singleton hname) (hstatements.mono (List.Subset.trans hinside hsubset))

theorem MethodPhrase.anchored (x : MethodPhrase) :
    Anchored x.tokens (Program.outlineMethod "method" x.tree) :=
  x.body.anchored_outlineMethod "method" (by simp [MethodPhrase.tokens, MethodPhrase.tree]) rfl
    (by simp +contextual [List.subset_def, MethodPhrase.tokens])

theorem MainClassPhrase.anchored (x : MainClassPhrase) :
    Anchored x.tokens (Program.outlineMethod "static method" x.tree.mainMethod) :=
  x.method.body.anchored_outlineMethod "static method"
    (by simp [MainClassPhrase.tokens, MainMethodPhrase.tokens, MainClassPhrase.tree,
      MainMethodPhrase.tree]) rfl
    (by simp +contextual [List.subset_def, MainClassPhrase.tokens, MainMethodPhrase.tokens])

theorem ClassPhrase.anchored (x : ClassPhrase) :
    Anchored x.tokens (Program.outlineClass x.tree) := by
  have hname : x.name.token ∈ x.tokens := by simp [ClassPhrase.tokens]
  have hmember {m : MemberPhrase} (hm : m ∈ x.members) : m.tokens ⊆ x.tokens := by
    intro t ht
    have hall : t ∈ x.members.flatMap (·.tokens) := List.mem_flatMap.mpr ⟨m, hm, ht⟩
    simp [ClassPhrase.tokens, hall]
  refine .append (.row (.singleton hname) fun r hr => ?_) fun r hr => ?_
  · obtain ⟨d, hd, rfl⟩ := List.mem_map.mp hr
    obtain ⟨m, hm, hfield⟩ := List.mem_filterMap.mp hd
    cases m with
    | field decl =>
      cases hfield
      obtain ⟨t, ht, hposition⟩ := decl.places.mem _ List.mem_cons_self
      exact ⟨t, hmember hm ht, hposition⟩
    | method m => cases hfield
  · obtain ⟨a, ha, hr⟩ := List.mem_flatMap.mp hr
    obtain ⟨m, hm, hmethod⟩ := List.mem_filterMap.mp ha
    cases m with
    | field decl => cases hmethod
    | method m =>
      cases hmethod
      exact m.anchored.mono (hmember hm) r hr

/-- The rows of a program stand at tokens of it. -/
theorem ProgramPhrase.anchored (x : ProgramPhrase) : Anchored x.tokens x.tree.outline := by
  have hname : x.mainClass.name.token ∈ x.tokens := by
    simp [ProgramPhrase.tokens, MainClassPhrase.tokens]
  have hmain := x.mainClass.anchored
  refine .append (.row (.singleton hname) (hmain.mono (List.subset_append_left _ _))) ?_
  intro r hr
  obtain ⟨c, hc, hr⟩ := List.mem_flatMap.mp hr
  obtain ⟨c, hmem, rfl⟩ := List.mem_map.mp hc
  obtain ⟨t, ht, hposition⟩ := c.anchored r hr
  exact ⟨t, List.mem_append_right _ (List.mem_flatMap.mpr ⟨c, hmem, ht⟩), hposition⟩

end MiniJava
