import MiniJava.Proofs.Expecting.Rounds

/-!
# What expressions expect

Every parser of expressions is truthful, whatever may follow: where a value was given, a tail or an
operator that could have come is read on with, and anything else leaves the value as it is.
-/

namespace MiniJava

namespace Parse

variable {expression negand : Parse Expr}

/-! ## Heads -/

theorem truthful_creation (hexpression : Truthful expression) (word : Token) :
    Truthful (Expr.parseCreation expression word) := by
  have harray (base : Token) : Truthful (Expr.parseCreationOfArray expression word base) :=
    .bind hexpression fun _ => .expect_bind (by decide) fun _ => truthful_pure _
  refine .expect_bind (by decide) fun base => .ite ?_ ?_
  · refine .expect_bind (by decide) fun opening => .ite ?_ (harray base)
    exact .expect_bind (by decide) fun _ => truthful_pure _
  · exact .expect_bind (by decide) fun _ => harray base

theorem begins_truthful_head (hexpression : Truthful expression) (hnegand : Truthful negand) :
    Begins @Truthful TokenKind.expressionStart (Expr.parseHead expression negand) := by
  refine ⟨_, rfl, fun t => ?_⟩
  split
  · exact .bind hnegand fun _ => truthful_pure _
  · exact .bind hexpression fun _ => .expect_bind (by decide) fun _ => truthful_pure _
  · exact truthful_pure _
  · exact truthful_pure _
  · exact truthful_pure _
  · exact truthful_creation hexpression t
  · exact truthful_pure _

/-! ## Tails -/

theorem truthful_args (hexpression : Truthful expression) :
    Truthful (bound >>= fun n => Expr.parseMoreArgs expression n) := by
  have hforward : (bound >>= fun n => Expr.parseMoreArgs expression n).Forward :=
    lifts_forward.bind lifts_forward.bound (lifts_forward.parseMoreArgs hexpression.forward)
  have hround (args : List Expr) : Truthful (Expr.argsRound expression args) :=
    .bind hexpression fun _ => .accept_or (by decide) (fun _ => truthful_pure _) (truthful_pure _)
  exact truthful_of_repeats hforward hround fun c s hending =>
    Expr.repeats_args hexpression.forward hending (Nat.lt_succ_self _)

-- Behind an argument a comma is expected too, although the loop over them has stopped.
theorem truthful_parseArgs (hexpression : Truthful expression) :
    Truthful (Expr.parseArgs expression) := by
  refine .expect_bind (by decide) fun _ => .accept_or (by decide) (fun _ => truthful_pure _) ?_
  rw [← bind_assoc]
  refine .bind (truthful_args hexpression) fun _ => ?_
  exact .expect_bind (by decide) fun _ => truthful_pure _

theorem truthful_tails (hexpression : Truthful expression) (e : Expr) :
    Truthful (bound >>= fun n => Expr.parseTails expression n e) := by
  have hforward : (bound >>= fun n => Expr.parseTails expression n e).Forward :=
    lifts_forward.bind lifts_forward.bound fun n =>
      lifts_forward.parseTails hexpression.forward n e
  have hround (e : Expr) : Truthful (Expr.tailsRound expression e) := by
    refine .accept_or (by decide) (fun _ => ?_) (.accept_or (by decide) (fun _ => ?_) ?_)
    · exact .bind hexpression fun _ => .expect_bind (by decide) fun _ => truthful_pure _
    · refine .expect_bind (by decide) fun member => .ite (truthful_pure _) ?_
      exact .bind (truthful_parseArgs hexpression) fun _ => truthful_pure _
    · exact truthful_pure _
  exact truthful_of_repeats hforward hround fun c s hending =>
    Expr.repeats_tails hexpression.forward hending e (Nat.lt_succ_self _)

theorem begins_truthful_operand (hexpression : Truthful expression) (hnegand : Truthful negand) :
    Begins @Truthful TokenKind.expressionStart (Expr.parseOperand expression negand) :=
  begins_truthful_bind (begins_truthful_head hexpression hnegand) (truthful_tails hexpression)

/-! ## Operators -/

/-- The operators that bind tighter than `low`. -/
def tighterOperators (low : Nat) : List TokenKind :=
  TokenKind.binaryOperators.filter fun kind => low < kind.precedence

theorem mem_tighterOperators {low : Nat} {kind : TokenKind} :
    kind ∈ tighterOperators low ↔ low < kind.precedence := by
  refine ⟨fun h => by simpa using (List.mem_filter.mp h).2, fun hlow => ?_⟩
  have hoperator := TokenKind.isBinaryOperator_iff_precedence_pos kind
  refine List.mem_filter.mpr ⟨List.contains_iff_mem.mp (hoperator.mpr ?_), by simpa using hlow⟩
  exact Nat.zero_lt_of_lt hlow

-- A round of the operators takes one of those that bind tighter, if one comes.
theorem infixRound_eq (right : Nat → Parse Expr) (low : Nat) (left : Expr) (c : ParseContext)
    (s : ParseState) :
    Expr.infixRound right low left c s = (accept (tighterOperators low) >>= fun t? =>
      match t? with
      | some op => do
        let operand ← right op.kind.precedence
        pure (.goOn (.binary left op operand))
      | none => pure (.stop left)) c s := by
  have hpeek : peek c s = (.ok (s.ahead.headD c.ending), s) := rfl
  rw [Expr.infixRound, bind_of_ok hpeek]
  by_cases hlow : low < (s.ahead.headD c.ending).kind.precedence
  · have hnext : c.nextKind s ∈ [(s.ahead.headD c.ending).kind] := List.mem_singleton.mpr rfl
    have htighter : c.nextKind s ∈ tighterOperators low := mem_tighterOperators.mpr hlow
    rw [if_pos hlow, bind_of_ok (accept_of_mem hnext), bind_of_ok (accept_of_mem htighter)]
  · have htighter : c.nextKind s ∉ tighterOperators low := fun h => hlow (mem_tighterOperators.mp h)
    rw [if_neg hlow, bind_of_ok (accept_of_notMem htighter)]

theorem truthful_operators {right : Nat → Parse Expr} (hright : ∀ p, Truthful (right p)) (low : Nat)
    (left : Expr) : Truthful (bound >>= fun n => Expr.parseInfix right low n left) := by
  have hrightForward (p : Nat) : (right p).Forward := (hright p).forward
  have hforward : (bound >>= fun n => Expr.parseInfix right low n left).Forward :=
    lifts_forward.bind lifts_forward.bound fun n =>
      lifts_forward.parseInfix hrightForward low n left
  have heof : TokenKind.eof ∉ tighterOperators low := fun h =>
    absurd (mem_tighterOperators.mp h) (Nat.not_lt_zero _)
  have hround (left : Expr) : Truthful (Expr.infixRound right low left) := by
    refine TruthfulBefore.congr ?_ ?_ fun c s _ => infixRound_eq right low left c s
    · exact .accept_or heof (fun op => .bind (hright _) fun _ => truthful_pure _) (truthful_pure _)
    · refine lifts_forward.bind lifts_forward.peek fun op => Lifts.ite ?_ (lifts_forward.pure _)
      exact lifts_forward.bind (lifts_forward.accept _) fun _ =>
        lifts_forward.bind (hrightForward _) fun _ => lifts_forward.pure _
  exact truthful_of_repeats hforward hround fun c s hending =>
    Expr.repeats_infix hrightForward low hending left (Nat.lt_succ_self _)

theorem begins_truthful_chain {operand : Parse Expr}
    (hoperand : Begins @Truthful TokenKind.expressionStart operand) (n : Nat) :
    ∀ low : Nat, Begins @Truthful TokenKind.expressionStart (Expr.parseChain operand n low) := by
  induction n with
  | zero => exact fun _ => hoperand
  | succ n ih =>
    intro low
    have hright (p : Nat) := truthful_of_begins (ih p) (by decide)
    exact begins_truthful_bind hoperand (truthful_operators hright low)

/-! ## Levels -/

/-- Expressions and heads are truthful with any number of levels left. -/
theorem truthful_expression (n : Nat) :
    Truthful (Expr.parse n) ∧ Truthful (Expr.parseNegand n) := by
  induction n with
  | zero => exact ⟨truthful_tooDeep, truthful_tooDeep⟩
  | succ n ih =>
    rw [Expr.parse_succ, Expr.parseNegand_succ]
    have hoperand := begins_truthful_operand ih.1 ih.2
    exact ⟨truthful_of_begins (begins_truthful_chain hoperand _ 0) (by decide),
      truthful_of_begins (begins_truthful_head ih.1 ih.2) (by decide)⟩

theorem opens_expression (n : Nat) : Opens TokenKind.expressionStart (Expr.parse n) := by
  cases n with
  | zero => exact opens_tooDeep
  | succ n =>
    obtain ⟨hexpression, hnegand⟩ := truthful_expression n
    rw [Expr.parse_succ]
    exact opens_of_begins
      (begins_truthful_chain (begins_truthful_operand hexpression hnegand) _ 0) (by decide)

end Parse

end MiniJava
