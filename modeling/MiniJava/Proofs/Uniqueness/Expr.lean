import Mathlib.Data.List.Basic
import MiniJava.Proofs.Reading.Expr

/-!
# One derivation — expressions

Two grouped phrases that derive the same tokens are the same phrase (`ExprPhrase.unique`). This is
stated for beginnings of token lists: if what stands behind the phrases continues neither of them,
then the phrases are equal and so is what is left.

An expression is determined by its chain of operands and the operators between them, because the
root is the last of the operators that bind least. The induction is on the levels of one of the two
phrases.
-/

namespace MiniJava

/-- The first of the tokens, if there is one, is of such a kind. -/
def NextKind (p : TokenKind → Prop) (ts : List Token) : Prop := ∀ t ∈ ts.head?, p t.kind

@[simp] theorem nextKind_nil (p : TokenKind → Prop) : NextKind p [] := nofun

@[simp] theorem nextKind_cons (p : TokenKind → Prop) (t : Token) (ts : List Token) :
    NextKind p (t :: ts) ↔ p t.kind := by
  simp [NextKind]

/-! ## Leaves -/

-- Equal tokens at leaves make equal leaves.
theorem Terminal.cons_inj {kinds : List TokenKind} {a b : Terminal kinds} {ts us : List Token}
    (h : a.token :: ts = b.token :: us) : a = b ∧ ts = us := by
  obtain ⟨htoken, hrest⟩ := List.cons.inj h
  exact ⟨Terminal.ext htoken, hrest⟩

-- Equal tokens at leaves are of the same kind.
theorem Terminal.kind_eq_of_cons {kind kind' : TokenKind} (a : Terminal [kind])
    (b : Terminal [kind']) {ts us : List Token} (h : a.token :: ts = b.token :: us) :
    kind = kind' := by
  rw [← a.kind_eq, ← b.kind_eq, (List.cons.inj h).1]

-- A leaf of a kind that must not come next does not.
theorem NextKind.ne_cons {p : TokenKind → Prop} {kind : TokenKind} {r : List Token}
    (hr : NextKind p r) (leaf : Terminal [kind]) {ts : List Token} (hkind : ¬ p kind) :
    r ≠ leaf.token :: ts := by
  rintro rfl
  rw [nextKind_cons, leaf.kind_eq] at hr
  exact hkind hr

/-! ## The chain of an expression -/

-- Where two lists with a marked entry are equal, and no entry behind a mark is as small as the
-- mark while none before it is smaller, the marks are at the same place.
theorem append_cons_inj_of_lt {α : Type} {f : α → Nat} {as bs as' bs' : List α} {a a' : α}
    (h : as ++ a :: bs = as' ++ a' :: bs') (has : ∀ x ∈ as, f a ≤ f x) (hbs : ∀ x ∈ bs, f a < f x)
    (has' : ∀ x ∈ as', f a' ≤ f x) (hbs' : ∀ x ∈ bs', f a' < f x) :
    as = as' ∧ a = a' ∧ bs = bs' := by
  rcases List.append_eq_append_iff.mp h with ⟨cs, hcs, hcons⟩ | ⟨cs, hcs, hcons⟩
  · cases cs with
    | nil =>
      obtain ⟨rfl, rfl⟩ := List.cons.inj hcons
      exact ⟨by rw [hcs, List.append_nil], rfl, rfl⟩
    | cons d ds =>
      obtain ⟨rfl, rfl⟩ := List.cons.inj hcons
      -- One mark stands before the other: it would be both smaller and not smaller.
      have hle := has' a (by simp [hcs])
      have hlt := hbs a' (by simp)
      omega
  · cases cs with
    | nil =>
      obtain ⟨rfl, rfl⟩ := List.cons.inj hcons
      exact ⟨by rw [hcs, List.append_nil], rfl, rfl⟩
    | cons d ds =>
      obtain ⟨rfl, rfl⟩ := List.cons.inj hcons
      have hle := has a' (by simp [hcs])
      have hlt := hbs' a (by simp)
      omega

namespace ExprPhrase

/-- A head and its tails. -/
structure Operand where
  head : HeadPhrase
  tails : TailsPhrase

namespace Operand

def tokens (x : Operand) : List Token := x.head.tokens ++ x.tails.tokens

/-- Everything inside is grouped, and no more than `n` levels are open at once. -/
def Within (n : Nat) (x : Operand) : Prop :=
  x.head.Grouped ∧ x.tails.Grouped ∧ x.head.levels ≤ n ∧ x.tails.levels ≤ n

end Operand

/-- An operator and the operand behind it. -/
structure Link where
  op : Terminal TokenKind.binaryOperators
  operand : Operand

def Link.tokens (x : Link) : List Token := x.op.token :: x.operand.tokens

-- The first operand of an expression.
def firstOperand : ExprPhrase → Operand
  | operand head tails => ⟨head, tails⟩
  | binary left _ _ => left.firstOperand

-- The operators of an expression, each with the operand behind it.
def links : ExprPhrase → List Link
  | operand _ _ => []
  | binary left op right => left.links ++ ⟨op, right.firstOperand⟩ :: right.links

-- The tokens of an expression are those of its operands and operators.
theorem tokens_eq_links (x : ExprPhrase) :
    x.tokens = x.firstOperand.tokens ++ x.links.flatMap (·.tokens) := by
  induction x using ExprPhrase.sides with
  | operand head tails => simp [tokens, firstOperand, links, Operand.tokens]
  | binary left op right ihleft ihright =>
    simp [tokens, firstOperand, links, ihleft, ihright, Link.tokens]

-- A grouped expression has grouped operands, and their levels are its own.
theorem within_of_levels {n : Nat} (x : ExprPhrase) :
    x.Grouped → x.levels ≤ n →
      x.firstOperand.Within n ∧ ∀ l ∈ x.links, l.operand.Within n := by
  induction x using ExprPhrase.sides with
  | operand head tails =>
    rintro ⟨hhead, htails⟩ hlevels
    obtain ⟨hheadLevels, htailLevels⟩ := Nat.max_le.mp hlevels
    exact ⟨⟨hhead, htails, hheadLevels, htailLevels⟩, fun _ hl => absurd hl List.not_mem_nil⟩
  | binary left op right ihleft ihright =>
    rintro ⟨-, -, hleft, hright⟩ hlevels
    obtain ⟨hleftLevels, hrightLevels⟩ := Nat.max_le.mp hlevels
    obtain ⟨hfirst, hlinks⟩ := ihleft hleft hleftLevels
    obtain ⟨hfirst', hlinks'⟩ := ihright hright hrightLevels
    refine ⟨hfirst, fun l hl => ?_⟩
    rw [links, List.mem_append, List.mem_cons] at hl
    rcases hl with hl | rfl | hl
    · exact hlinks l hl
    · exact hfirst'
    · exact hlinks' l hl

-- The operators inside a grouped expression bind at least as tightly as the one at its root.
theorem tightness_le_of_mem_links (x : ExprPhrase) :
    x.Grouped → ∀ l ∈ x.links, x.tightness ≤ l.op.token.kind.precedence := by
  induction x using ExprPhrase.sides with
  | operand head tails => exact fun _ _ hl => absurd hl List.not_mem_nil
  | binary left op right ihleft ihright =>
    rintro ⟨hopLeft, hopRight, hleft, hright⟩ l hl
    show op.token.kind.precedence ≤ l.op.token.kind.precedence
    rw [links, List.mem_append, List.mem_cons] at hl
    rcases hl with hl | rfl | hl
    · exact Nat.le_trans hopLeft (ihleft hleft l hl)
    · exact Nat.le_refl _
    · exact Nat.le_trans (Nat.le_of_lt hopRight) (ihright hright l hl)

-- A grouped expression is determined by its first operand and its links.
theorem eq_of_links (x : ExprPhrase) :
    ∀ y : ExprPhrase, x.Grouped → y.Grouped → x.firstOperand = y.firstOperand →
      x.links = y.links → x = y := by
  induction x using ExprPhrase.sides with
  | operand head tails =>
    intro y _ _ hfirst hlinks
    cases y with
    | operand head' tails' =>
      obtain ⟨rfl, rfl⟩ := Operand.mk.inj hfirst
      rfl
    | binary left' op' right' => simp [links] at hlinks
  | binary left op right ihleft ihright =>
    intro y hx hy hfirst hlinks
    cases y with
    | operand head' tails' => simp [links] at hlinks
    | binary left' op' right' =>
      obtain ⟨hopLeft, hopRight, hleft, hright⟩ := hx
      obtain ⟨hopLeft', hopRight', hleft', hright'⟩ := hy
      -- both roots are the last operator of those that bind least, so they are the same one
      obtain ⟨heqLeft, hroot, heqRight⟩ :=
        append_cons_inj_of_lt (f := fun l => l.op.token.kind.precedence) hlinks
          (fun l hl => Nat.le_trans hopLeft (left.tightness_le_of_mem_links hleft l hl))
          (fun l hl => Nat.lt_of_lt_of_le hopRight (right.tightness_le_of_mem_links hright l hl))
          (fun l hl => Nat.le_trans hopLeft' (left'.tightness_le_of_mem_links hleft' l hl))
          (fun l hl => Nat.lt_of_lt_of_le hopRight' (right'.tightness_le_of_mem_links hright' l hl))
      obtain ⟨rfl, hfirstRight⟩ := Link.mk.inj hroot
      rw [ihleft left' hleft hleft' hfirst heqLeft,
        ihright right' hright hright' hfirstRight heqRight]

end ExprPhrase

/-! ## Parts of expressions -/

/-- Expressions with fewer than `n` levels inside are determined by their tokens. -/
def UniqueExprs (n : Nat) : Prop :=
  ∀ {x y : ExprPhrase} {r r' : List Token}, x.levels < n → x.Grouped → y.Grouped →
    NextKind TokenKind.EndsExpr r → NextKind TokenKind.EndsExpr r' →
    x.tokens ++ r = y.tokens ++ r' → x = y ∧ r = r'

-- Heads with fewer than `n` levels inside are determined by their tokens.
def UniqueHeads (n : Nat) : Prop :=
  ∀ {x y : HeadPhrase} {r r' : List Token}, x.levels < n → x.Grouped → y.Grouped →
    x.tokens ++ r = y.tokens ++ r' → x = y ∧ r = r'

section

variable {n : Nat} {r r' : List Token}

-- An expression and the token that closes it.
theorem UniqueExprs.enclosed (hexprs : UniqueExprs n) {x y : ExprPhrase} (hlevels : x.levels < n)
    (hx : x.Grouped) (hy : y.Grouped) {kind : TokenKind} {a b : Terminal [kind]}
    (hkind : kind.EndsExpr) (h : x.tokens ++ a.token :: r = y.tokens ++ b.token :: r') :
    x = y ∧ a = b ∧ r = r' := by
  have ha : NextKind TokenKind.EndsExpr (a.token :: r) := by simpa [a.kind_eq] using hkind
  have hb : NextKind TokenKind.EndsExpr (b.token :: r') := by simpa [b.kind_eq] using hkind
  obtain ⟨rfl, hrest⟩ := hexprs hlevels hx hy ha hb h
  obtain ⟨rfl, rfl⟩ := Terminal.cons_inj hrest
  exact ⟨rfl, rfl, rfl⟩

-- A `new` form is determined by its tokens; the first bracket tells the two of them apart.
theorem newObject_ne_newArray {word word' : Terminal [.newWord]}
    {className : Terminal [.identifier]} {opening : Terminal [.lparen]}
    {base : Terminal [.intWord, .booleanWord, .identifier]} {opening' : Terminal [.lbracket]}
    {ts us : List Token} :
    word.token :: className.token :: opening.token :: ts ≠
      word'.token :: base.token :: opening'.token :: us := by
  intro h
  have hbehind := (List.cons.inj (List.cons.inj h).2).2
  exact absurd (Terminal.kind_eq_of_cons opening opening' hbehind) (by decide)

-- The head of an operand.
theorem HeadPhrase.unique_of_levels (hexprs : UniqueExprs n) (hheads : UniqueHeads n)
    {x y : HeadPhrase} (hlevels : x.levels ≤ n) (hx : x.Grouped) (hy : y.Grouped)
    (h : x.tokens ++ r = y.tokens ++ r') : x = y ∧ r = r' := by
  cases x with
  | not a inner =>
    cases y with
    | not b inner' =>
      simp only [tokens, List.cons_append] at h
      replace h := Terminal.cons_inj h
      obtain ⟨rfl, h⟩ := h
      replace h := hheads (x := inner) (y := inner') hlevels hx hy h
      obtain ⟨rfl, rfl⟩ := h
      exact ⟨rfl, rfl⟩
    | parens b | this b | boolLiteral b | intLiteral b | name b | newObject b | newArray b =>
      exact absurd (Terminal.kind_eq_of_cons a b h) (by decide)
  | parens a inner closing =>
    cases y with
    | parens b inner' closing' =>
      simp only [tokens, List.cons_append, List.append_assoc, List.nil_append] at h
      replace h := Terminal.cons_inj h
      obtain ⟨rfl, h⟩ := h
      replace h := hexprs.enclosed hlevels hx hy (by decide) h
      obtain ⟨rfl, rfl, rfl⟩ := h
      exact ⟨rfl, rfl⟩
    | not b | this b | boolLiteral b | intLiteral b | name b | newObject b | newArray b =>
      exact absurd (Terminal.kind_eq_of_cons a b h) (by decide)
  | this a =>
    cases y with
    | this b =>
      replace h := Terminal.cons_inj h
      obtain ⟨rfl, rfl⟩ := h
      exact ⟨rfl, rfl⟩
    | not b | parens b | boolLiteral b | intLiteral b | name b | newObject b | newArray b =>
      exact absurd (Terminal.kind_eq_of_cons a b h) (by decide)
  | boolLiteral a =>
    cases y with
    | boolLiteral b =>
      replace h := Terminal.cons_inj h
      obtain ⟨rfl, rfl⟩ := h
      exact ⟨rfl, rfl⟩
    | not b | parens b | this b | intLiteral b | name b | newObject b | newArray b =>
      exact absurd (Terminal.kind_eq_of_cons a b h) (by decide)
  | intLiteral a =>
    cases y with
    | intLiteral b =>
      replace h := Terminal.cons_inj h
      obtain ⟨rfl, rfl⟩ := h
      exact ⟨rfl, rfl⟩
    | not b | parens b | this b | boolLiteral b | name b | newObject b | newArray b =>
      exact absurd (Terminal.kind_eq_of_cons a b h) (by decide)
  | name a =>
    cases y with
    | name b =>
      replace h := Terminal.cons_inj h
      obtain ⟨rfl, rfl⟩ := h
      exact ⟨rfl, rfl⟩
    | not b | parens b | this b | boolLiteral b | intLiteral b | newObject b | newArray b =>
      exact absurd (Terminal.kind_eq_of_cons a b h) (by decide)
  | newObject a className opening closing =>
    cases y with
    | newObject b className' opening' closing' =>
      replace h := Terminal.cons_inj h
      obtain ⟨rfl, h⟩ := h
      replace h := Terminal.cons_inj h
      obtain ⟨rfl, h⟩ := h
      replace h := Terminal.cons_inj h
      obtain ⟨rfl, h⟩ := h
      replace h := Terminal.cons_inj h
      obtain ⟨rfl, rfl⟩ := h
      exact ⟨rfl, rfl⟩
    | newArray => exact absurd h newObject_ne_newArray
    | not b | parens b | this b | boolLiteral b | intLiteral b | name b =>
      exact absurd (Terminal.kind_eq_of_cons a b h) (by decide)
  | newArray a base opening length closing =>
    cases y with
    | newArray b base' opening' length' closing' =>
      simp only [tokens, List.cons_append, List.append_assoc, List.nil_append] at h
      replace h := Terminal.cons_inj h
      obtain ⟨rfl, h⟩ := h
      replace h := Terminal.cons_inj h
      obtain ⟨rfl, h⟩ := h
      replace h := Terminal.cons_inj h
      obtain ⟨rfl, h⟩ := h
      replace h := hexprs.enclosed hlevels hx hy (by decide) h
      obtain ⟨rfl, rfl, rfl⟩ := h
      exact ⟨rfl, rfl⟩
    | newObject => exact absurd h.symm newObject_ne_newArray
    | not b | parens b | this b | boolLiteral b | intLiteral b | name b =>
      exact absurd (Terminal.kind_eq_of_cons a b h) (by decide)

-- An argument ends before further ones and before the parenthesis that closes them all.
theorem MoreArgsPhrase.nextKind_tokens (x : MoreArgsPhrase) (closing : Terminal [.rparen]) :
    NextKind TokenKind.EndsExpr (x.tokens ++ closing.token :: r) := by
  cases x with
  | nil =>
    rw [tokens, List.nil_append, nextKind_cons, closing.kind_eq]
    decide
  | cons comma =>
    rw [tokens, List.cons_append, nextKind_cons, comma.kind_eq]
    decide

-- Further arguments, with the parenthesis that closes them all.
theorem MoreArgsPhrase.unique_of_levels (hexprs : UniqueExprs n) (x : MoreArgsPhrase)
    {a b : Terminal [.rparen]} :
    ∀ {y : MoreArgsPhrase}, x.levels ≤ n → x.Grouped → y.Grouped →
      x.tokens ++ a.token :: r = y.tokens ++ b.token :: r' → x = y ∧ a = b ∧ r = r' := by
  induction x using MoreArgsPhrase.chain with
  | nil =>
    intro y _ _ _ h
    cases y with
    | nil =>
      replace h := Terminal.cons_inj h
      obtain ⟨rfl, rfl⟩ := h
      exact ⟨rfl, rfl, rfl⟩
    | cons comma _ _ => exact absurd (Terminal.kind_eq_of_cons a comma h) (by decide)
  | cons comma arg rest ih =>
    intro y hlevels hx hy h
    cases y with
    | nil => exact absurd (Terminal.kind_eq_of_cons comma b h) (by decide)
    | cons comma' arg' rest' =>
      obtain ⟨hargLevels, hrestLevels⟩ := Nat.max_le.mp hlevels
      simp only [tokens, List.cons_append, List.append_assoc] at h
      replace h := Terminal.cons_inj h
      obtain ⟨rfl, h⟩ := h
      replace h := hexprs hargLevels hx.1 hy.1 (nextKind_tokens _ _) (nextKind_tokens _ _) h
      obtain ⟨rfl, h⟩ := h
      replace h := ih hrestLevels hx.2 hy.2 h
      obtain ⟨rfl, rfl, rfl⟩ := h
      exact ⟨rfl, rfl, rfl⟩

-- No expression begins with a token of another kind.
theorem ExprPhrase.tokens_append_ne_cons {x : ExprPhrase} {t : Token} {ts us : List Token}
    (ht : t.kind ∉ TokenKind.expressionStart) : x.tokens ++ ts ≠ t :: us := by
  intro h
  obtain ⟨first, behind, heq, hkind⟩ := x.exists_tokens_eq_cons
  rw [heq, List.cons_append, List.cons.injEq] at h
  exact ht (h.1 ▸ hkind)

-- The arguments of a call.
theorem ArgsPhrase.unique_of_levels (hexprs : UniqueExprs n) {x y : ArgsPhrase}
    (hlevels : x.levels ≤ n) (hx : x.Grouped) (hy : y.Grouped)
    (h : x.tokens ++ r = y.tokens ++ r') : x = y ∧ r = r' := by
  cases x with
  | none a closing =>
    -- No arguments against some: a parenthesis would begin an expression.
    have hclosing : closing.token.kind ∉ TokenKind.expressionStart := by
      rw [closing.kind_eq]
      decide
    cases y with
    | none b closing' =>
      replace h := Terminal.cons_inj h
      obtain ⟨rfl, h⟩ := h
      replace h := Terminal.cons_inj h
      obtain ⟨rfl, rfl⟩ := h
      exact ⟨rfl, rfl⟩
    | some b first more closing' =>
      simp only [tokens, List.cons_append, List.append_assoc, List.nil_append] at h
      exact absurd (List.cons.inj h).2.symm (ExprPhrase.tokens_append_ne_cons hclosing)
  | some a first more closing =>
    cases y with
    | none b closing' =>
      have hclosing : closing'.token.kind ∉ TokenKind.expressionStart := by
        rw [closing'.kind_eq]
        decide
      simp only [tokens, List.cons_append, List.append_assoc, List.nil_append] at h
      exact absurd (List.cons.inj h).2 (ExprPhrase.tokens_append_ne_cons hclosing)
    | some b first' more' closing' =>
      obtain ⟨hfirstLevels, hmoreLevels⟩ := Nat.max_le.mp hlevels
      simp only [tokens, List.cons_append, List.append_assoc, List.nil_append] at h
      replace h := Terminal.cons_inj h
      obtain ⟨rfl, h⟩ := h
      replace h := hexprs hfirstLevels hx.1 hy.1 (more.nextKind_tokens _)
        (more'.nextKind_tokens _) h
      obtain ⟨rfl, h⟩ := h
      replace h := more.unique_of_levels hexprs hmoreLevels hx.2 hy.2 h
      obtain ⟨rfl, rfl, rfl⟩ := h
      exact ⟨rfl, rfl⟩

-- Tails, where no other tail follows.
theorem TailsPhrase.unique_of_levels (hexprs : UniqueExprs n) (x : TailsPhrase)
    (hr : NextKind (¬ ·.opensTail) r) (hr' : NextKind (¬ ·.opensTail) r') :
    ∀ {y : TailsPhrase}, x.levels ≤ n → x.Grouped → y.Grouped →
      x.tokens ++ r = y.tokens ++ r' → x = y ∧ r = r' := by
  induction x using TailsPhrase.chain with
  | nil =>
    intro y _ _ _ h
    cases y with
    | nil => exact ⟨rfl, h⟩
    | index leaf | length leaf | call leaf => exact absurd h (hr.ne_cons leaf (by decide))
  | index a i closing rest ih =>
    intro y hlevels hx hy h
    cases y with
    | nil => exact absurd h.symm (hr'.ne_cons a (by decide))
    | index b i' closing' rest' =>
      obtain ⟨hiLevels, hrestLevels⟩ := Nat.max_le.mp hlevels
      simp only [tokens, List.cons_append, List.append_assoc] at h
      replace h := Terminal.cons_inj h
      obtain ⟨rfl, h⟩ := h
      replace h := hexprs.enclosed hiLevels hx.1 hy.1 (by decide) h
      obtain ⟨rfl, rfl, h⟩ := h
      obtain ⟨rfl, rfl⟩ := ih hrestLevels hx.2 hy.2 h
      exact ⟨rfl, rfl⟩
    | length b | call b => exact absurd (Terminal.kind_eq_of_cons a b h) (by decide)
  | length a word rest ih =>
    intro y hlevels hx hy h
    cases y with
    | nil => exact absurd h.symm (hr'.ne_cons a (by decide))
    | index b => exact absurd (Terminal.kind_eq_of_cons a b h) (by decide)
    | length b word' rest' =>
      simp only [tokens, List.cons_append] at h
      replace h := Terminal.cons_inj h
      obtain ⟨rfl, h⟩ := h
      replace h := Terminal.cons_inj h
      obtain ⟨rfl, h⟩ := h
      obtain ⟨rfl, rfl⟩ := ih (y := rest') hlevels hx hy h
      exact ⟨rfl, rfl⟩
    | call b method =>
      exact absurd (Terminal.kind_eq_of_cons word method (List.cons.inj h).2) (by decide)
  | call a method args rest ih =>
    intro y hlevels hx hy h
    cases y with
    | nil => exact absurd h.symm (hr'.ne_cons a (by decide))
    | index b => exact absurd (Terminal.kind_eq_of_cons a b h) (by decide)
    | length b word =>
      exact absurd (Terminal.kind_eq_of_cons method word (List.cons.inj h).2) (by decide)
    | call b method' args' rest' =>
      obtain ⟨hargsLevels, hrestLevels⟩ := Nat.max_le.mp hlevels
      simp only [tokens, List.cons_append, List.append_assoc] at h
      replace h := Terminal.cons_inj h
      obtain ⟨rfl, h⟩ := h
      replace h := Terminal.cons_inj h
      obtain ⟨rfl, h⟩ := h
      replace h := args.unique_of_levels hexprs hargsLevels hx.1 hy.1 h
      obtain ⟨rfl, h⟩ := h
      obtain ⟨rfl, rfl⟩ := ih hrestLevels hx.2 hy.2 h
      exact ⟨rfl, rfl⟩

/-! ## Expressions -/

namespace ExprPhrase

variable {m : Nat}

theorem Operand.unique_of_within (hexprs : UniqueExprs n) (hheads : UniqueHeads n) {x y : Operand}
    (hx : x.Within n) (hy : y.Within m) (hr : NextKind (¬ ·.opensTail) r)
    (hr' : NextKind (¬ ·.opensTail) r') (h : x.tokens ++ r = y.tokens ++ r') : x = y ∧ r = r' := by
  obtain ⟨head, tails⟩ := x
  obtain ⟨head', tails'⟩ := y
  obtain ⟨hhead, htails, hheadLevels, htailLevels⟩ := hx
  simp only [Operand.tokens, List.append_assoc] at h
  replace h := head.unique_of_levels hexprs hheads hheadLevels hhead hy.1 h
  obtain ⟨rfl, h⟩ := h
  obtain ⟨rfl, rfl⟩ := tails.unique_of_levels hexprs hr hr' htailLevels htails hy.2.1 h
  exact ⟨rfl, rfl⟩

-- No tail follows an operand where operators do or what ends the expression.
theorem nextKind_links {ls : List Link} (hr : NextKind TokenKind.EndsExpr r) :
    NextKind (¬ ·.opensTail) (ls.flatMap (·.tokens) ++ r) := by
  cases ls with
  | nil => exact fun t ht => (hr t ht).1
  | cons l ls =>
    rw [List.flatMap_cons, Link.tokens, List.cons_append, List.cons_append, nextKind_cons]
    have hmem := l.op.kind_mem
    intro htail
    rcases List.mem_cons.mp htail with h | h
    · exact absurd (h ▸ hmem) (by decide)
    · exact absurd (List.mem_singleton.mp h ▸ hmem) (by decide)

-- Operators and the operands behind them, up to what ends the expression.
theorem links_unique (hexprs : UniqueExprs n) (hheads : UniqueHeads n)
    (hr : NextKind TokenKind.EndsExpr r) (hr' : NextKind TokenKind.EndsExpr r') (ls : List Link) :
    ∀ {ks : List Link}, (∀ l ∈ ls, l.operand.Within n) → (∀ k ∈ ks, k.operand.Within m) →
      ls.flatMap (·.tokens) ++ r = ks.flatMap (·.tokens) ++ r' → ls = ks ∧ r = r' := by
  have hop (l : Link) {ts : List Token} (hts : NextKind TokenKind.EndsExpr ts) {us : List Token} :
      ts ≠ l.op.token :: us := by
    rintro rfl
    -- Operators have a precedence above 0 and what ends an expression has none.
    have hmem : l.op.token.kind.isBinaryOperator = true :=
      List.contains_iff_mem.mpr l.op.kind_mem
    rw [nextKind_cons] at hts
    have hpos := (TokenKind.isBinaryOperator_iff_precedence_pos _).mp hmem
    exact absurd hts.2 (Nat.pos_iff_ne_zero.mp hpos)
  induction ls with
  | nil =>
    intro ks _ _ h
    cases ks with
    | nil => exact ⟨rfl, h⟩
    | cons k ks => exact absurd h (hop k hr)
  | cons l ls ih =>
    intro ks hls hks h
    cases ks with
    | nil => exact absurd h.symm (hop l hr')
    | cons k ks =>
      obtain ⟨op, operand⟩ := l
      obtain ⟨op', operand'⟩ := k
      replace hls := List.forall_mem_cons.mp hls
      replace hks := List.forall_mem_cons.mp hks
      simp only [List.flatMap_cons, Link.tokens, List.cons_append, List.append_assoc] at h
      replace h := Terminal.cons_inj h
      obtain ⟨rfl, h⟩ := h
      replace h := Operand.unique_of_within hexprs hheads hls.1 hks.1 (nextKind_links hr)
        (nextKind_links hr') h
      obtain ⟨rfl, h⟩ := h
      obtain ⟨rfl, rfl⟩ := ih hls.2 hks.2 h
      exact ⟨rfl, rfl⟩

theorem unique_of_levels (hexprs : UniqueExprs n) (hheads : UniqueHeads n) {x y : ExprPhrase}
    (hlevels : x.levels ≤ n) (hx : x.Grouped) (hy : y.Grouped) (hr : NextKind TokenKind.EndsExpr r)
    (hr' : NextKind TokenKind.EndsExpr r') (h : x.tokens ++ r = y.tokens ++ r') :
    x = y ∧ r = r' := by
  obtain ⟨hfirst, hlinks⟩ := x.within_of_levels hx hlevels
  -- Nothing is known of the levels of the other phrase, and nothing has to be.
  obtain ⟨hfirst', hlinks'⟩ := y.within_of_levels hy (Nat.le_refl _)
  rw [tokens_eq_links x, tokens_eq_links y, List.append_assoc, List.append_assoc] at h
  obtain ⟨heqFirst, hbehind⟩ := Operand.unique_of_within hexprs hheads hfirst hfirst'
    (nextKind_links hr) (nextKind_links hr') h
  obtain ⟨heqLinks, hrest⟩ := links_unique hexprs hheads hr hr' x.links hlinks hlinks' hbehind
  exact ⟨x.eq_of_links y hx hy heqFirst heqLinks, hrest⟩

end ExprPhrase

end

/-! ## Levels -/

theorem uniqueExprs_and_uniqueHeads (n : Nat) : UniqueExprs n ∧ UniqueHeads n := by
  induction n with
  | zero => exact ⟨fun h => absurd h (Nat.not_lt_zero _), fun h => absurd h (Nat.not_lt_zero _)⟩
  | succ n ih =>
    obtain ⟨hexprs, hheads⟩ := ih
    refine ⟨fun hlevels hx hy hr hr' h => ?_, fun hlevels hx hy h => ?_⟩
    · exact ExprPhrase.unique_of_levels hexprs hheads (Nat.le_of_lt_succ hlevels) hx hy hr hr' h
    · exact HeadPhrase.unique_of_levels hexprs hheads (Nat.le_of_lt_succ hlevels) hx hy h

namespace ExprPhrase

variable {x y : ExprPhrase} {r r' : List Token}

/-- Grouped expressions are determined by their tokens, where nothing behind continues them. -/
theorem unique (hx : x.Grouped) (hy : y.Grouped) (hr : NextKind TokenKind.EndsExpr r)
    (hr' : NextKind TokenKind.EndsExpr r') (h : x.tokens ++ r = y.tokens ++ r') :
    x = y ∧ r = r' :=
  (uniqueExprs_and_uniqueHeads _).1 (Nat.lt_succ_self x.levels) hx hy hr hr' h

theorem enclosed_unique (hx : x.Grouped) (hy : y.Grouped) {kind : TokenKind}
    {a b : Terminal [kind]} (hkind : kind.EndsExpr)
    (h : x.tokens ++ a.token :: r = y.tokens ++ b.token :: r') : x = y ∧ a = b ∧ r = r' :=
  UniqueExprs.enclosed (uniqueExprs_and_uniqueHeads _).1 (Nat.lt_succ_self x.levels) hx hy hkind h

end ExprPhrase

end MiniJava
