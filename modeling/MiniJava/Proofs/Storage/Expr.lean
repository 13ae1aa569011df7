import MiniJava.Proofs.Storage.Kept

/-!
# What expressions keep

Every expression that a phrase stands for is faithful to the tokens of the phrase, however many
braces are open before it, and the position of the expression is that of one of these tokens.
-/

namespace MiniJava

/-! ## Positions -/

-- Tails do not change where an expression begins.
theorem TailsPhrase.position_extend (x : TailsPhrase) (e : Expr) :
    (x.extend e).position = e.position := by
  induction x using TailsPhrase.chain generalizing e with
  | nil => rfl
  | index opening i closing rest ih => exact ih (.index e i.tree)
  | length dot word rest ih => exact ih (.arrayLength e)
  | call dot method args rest ih => exact ih (.call e method.token args.trees)

mutual

theorem ExprPhrase.places : ∀ x : ExprPhrase, Places x.tokens [x.tree.position]
  | .operand head tails => by
    rw [ExprPhrase.tree, tails.position_extend]
    exact head.places.append_right tails.tokens
  | .binary left _ _ => left.places.append_right _

theorem HeadPhrase.places : ∀ x : HeadPhrase, Places x.tokens [x.tree.position]
  | .parens opening inner closing => (inner.places.append_right [closing.token]).cons opening.token
  | .not .. | .this _ | .boolLiteral _ | .intLiteral _ | .name _ | .newObject .. | .newArray .. =>
    .singleton List.mem_cons_self

end

/-! ## Expressions -/

mutual

theorem ExprPhrase.faithful (depth : Nat) : ∀ x : ExprPhrase, Faithful depth x.tokens x.tree.kept
  | .operand head tails => tails.faithful depth head.tokens head.tree (head.faithful depth)
  | .binary left op right =>
    (left.faithful depth).append ((right.faithful depth).token op (by decide))

theorem HeadPhrase.faithful (depth : Nat) : ∀ x : HeadPhrase, Faithful depth x.tokens x.tree.kept
  | .not bang negand => (negand.faithful depth).token bang (by decide)
  | .parens opening inner closing =>
    ((inner.faithful depth).silent_end closing (by decide)).silent opening (by decide)
  | .this word => Faithful.nil.token word (by decide)
  | .boolLiteral literal => Faithful.nil.token literal (by decide)
  | .intLiteral literal => Faithful.nil.token literal (by decide)
  | .name name => Faithful.nil.token name (by decide)
  | .newObject word className opening closing =>
    (((Faithful.nil.silent closing (by decide)).silent opening (by decide)).token className
      (by decide)).node word (by decide)
  | .newArray word base opening length closing =>
    ((((length.faithful depth).silent_end closing (by decide)).silent opening (by decide)).token
      base (by decide)).node word (by decide)

-- Tails behind an expression that was read from the tokens in front of them.
theorem TailsPhrase.faithful (depth : Nat) : ∀ (x : TailsPhrase) (front : List Token) (e : Expr),
    Faithful depth front e.kept → Faithful depth (front ++ x.tokens) (x.extend e).kept
  | .nil, front, e, h => by
    rw [TailsPhrase.tokens, List.append_nil]
    exact h
  | .index opening i closing rest, front, e, h => by
    have hindex := h.append (((i.faithful depth).silent_end closing (by decide)).silent opening
      (by decide))
    have hrest := rest.faithful depth _ (.index e i.tree) hindex
    simpa only [TailsPhrase.tokens, TailsPhrase.extend, List.append_assoc, List.cons_append,
      List.nil_append] using hrest
  | .length dot word rest, front, e, h => by
    have hlength := h.append ((Faithful.nil.silent word (by decide)).silent dot (by decide))
    rw [Kept.append_none] at hlength
    have hrest := rest.faithful depth _ (.arrayLength e) hlength
    simpa only [TailsPhrase.tokens, TailsPhrase.extend, List.append_assoc, List.cons_append,
      List.nil_append] using hrest
  | .call dot method args rest, front, e, h => by
    obtain ⟨hargs, hplaces⟩ := args.faithful depth
    have hcall := h.append (((hargs.list hplaces).token method (by decide)).silent dot (by decide))
    have hrest := rest.faithful depth _ (.call e method.token args.trees) hcall
    simpa only [TailsPhrase.tokens, TailsPhrase.extend, List.append_assoc, List.cons_append,
      List.nil_append] using hrest

theorem ArgsPhrase.faithful (depth : Nat) : ∀ x : ArgsPhrase,
    Faithful depth x.tokens (Expr.keptAll x.trees) ∧ Places x.tokens (x.trees.map Expr.position)
  | .none opening closing =>
    ⟨(Faithful.nil.silent closing (by decide)).silent opening (by decide), .nil⟩
  | .some opening first more closing => by
    obtain ⟨hmore, hplaces⟩ := more.faithful depth
    constructor
    · exact ((first.faithful depth).append (hmore.silent_end closing (by decide))).silent opening
        (by decide)
    · exact (first.places.append (hplaces.append_right [closing.token])).cons opening.token

theorem MoreArgsPhrase.faithful (depth : Nat) : ∀ x : MoreArgsPhrase,
    Faithful depth x.tokens (Expr.keptAll x.trees) ∧ Places x.tokens (x.trees.map Expr.position)
  | .nil => ⟨.nil, .nil⟩
  | .cons comma arg rest => by
    obtain ⟨hrest, hplaces⟩ := rest.faithful depth
    constructor
    · exact ((arg.faithful depth).append hrest).silent comma (by decide)
    · exact (arg.places.append hplaces).cons comma.token

end

end MiniJava
