import MiniJava.Position
import Mathlib.Data.List.Induction

/-!
# Places — positions as counts of characters

`Position.endOf text` is the position behind a text, given by two counts: one line more than there
are newlines, and one column more than there are characters behind the last of them. It is where
passing the text from the start leads (`Position.past_start`), and a longer text ends later
(`Position.before_endOf_append`).
-/

namespace MiniJava

namespace Position

/-- The first position comes before the second one in reading order. -/
def Before (p q : Position) : Prop := p.line < q.line ∨ (p.line = q.line ∧ p.column < q.column)

/-- Where a text ends that begins at the start. -/
def endOf (text : List Char) : Position :=
  ⟨1 + text.count '\n', 1 + (text.reverse.takeWhile (· != '\n')).length⟩

/-! ## Reading order -/

theorem Before.trans {p q r : Position} (hpq : p.Before q) (hqr : q.Before r) : p.Before r := by
  unfold Before at *
  omega

-- What is not before a later position is later itself.
theorem Before.trans_not {p q r : Position} (hpq : p.Before q) (hrq : ¬ r.Before q) :
    p.Before r := by
  unfold Before at *
  omega

theorem not_before_self (p : Position) : ¬ p.Before p := by
  unfold Before
  omega

theorem Before.ne {p q : Position} (h : p.Before q) : p ≠ q := by
  rintro rfl
  exact not_before_self p h

/-- A character leads to a later position. -/
theorem before_next (p : Position) (c : Char) : p.Before (p.next c) := by
  unfold Before next
  split
  · exact .inl (Nat.lt_succ_self _)
  · exact .inr ⟨rfl, Nat.lt_succ_self _⟩

-- Some characters lead to a later position.
theorem before_past (p : Position) {text : List Char} (h : text ≠ []) : p.Before (p.past text) := by
  induction text generalizing p with
  | nil => exact absurd rfl h
  | cons c rest ih =>
    rw [past_cons]
    by_cases hrest : rest = []
    · rw [hrest, past_nil]
      exact before_next p c
    · exact (before_next p c).trans (ih (p.next c) hrest)

/-! ## Counts -/

-- One more character is counted as it is passed.
theorem endOf_append_singleton (text : List Char) (c : Char) :
    endOf (text ++ [c]) = (endOf text).next c := by
  unfold endOf next
  rw [List.count_append, List.reverse_append, List.reverse_singleton, List.singleton_append]
  by_cases hc : c = '\n'
  · subst hc
    simp
    omega
  · rw [if_neg hc, List.takeWhile_cons_of_pos (by simpa using hc)]
    simp [hc]
    omega

/-- Passing a text from the start leads to where the counts say. -/
theorem past_start (text : List Char) : start.past text = endOf text := by
  induction text using List.reverseRecOn with
  | nil => rfl
  | append_singleton text c ih =>
    rw [past_append, ih, endOf_append_singleton]
    rfl

theorem past_endOf (front text : List Char) : (endOf front).past text = endOf (front ++ text) := by
  rw [← past_start, ← past_append, past_start]

/-- A longer text ends later. -/
theorem before_endOf_append (front : List Char) {text : List Char} (h : text ≠ []) :
    (endOf front).Before (endOf (front ++ text)) := by
  rw [← past_endOf]
  exact before_past _ h

theorem not_endOf_append_before (front text : List Char) :
    ¬ (endOf (front ++ text)).Before (endOf front) := by
  by_cases htext : text = []
  · rw [htext, List.append_nil]
    exact not_before_self _
  · intro hbefore
    exact not_before_self _ ((before_endOf_append front htext).trans hbefore)

end Position

/-- What stands in order with one more behind it. -/
theorem pairwise_append_singleton {α : Type} {R : α → α → Prop} {as : List α} {b : α} :
    (as ++ [b]).Pairwise R ↔ as.Pairwise R ∧ ∀ a ∈ as, R a b := by
  rw [List.pairwise_append]
  simp only [List.pairwise_singleton, true_and, List.forall_mem_singleton]

end MiniJava
