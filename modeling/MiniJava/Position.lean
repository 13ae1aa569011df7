/-!
# Positions in a text

A position is a line and a column, both counted from one; a column counts characters. A newline
begins the next line, and every other character is one column.
-/

namespace MiniJava

/-- A line and a column, both counted from one. -/
structure Position where
  line : Nat
  column : Nat
deriving DecidableEq, Repr, Inhabited

namespace Position

/-- Where every text begins. -/
def start : Position := ⟨1, 1⟩

/-- The position behind a character that stands here. -/
def next (p : Position) (c : Char) : Position :=
  if c = '\n' then ⟨p.line + 1, 1⟩ else ⟨p.line, p.column + 1⟩

/-- The position behind a text that begins here. -/
def past (p : Position) (text : List Char) : Position := text.foldl next p

@[simp] theorem past_nil (p : Position) : p.past [] = p := rfl

@[simp] theorem past_cons (p : Position) (c : Char) (text : List Char) :
    p.past (c :: text) = (p.next c).past text := rfl

theorem past_append (p : Position) (s t : List Char) : p.past (s ++ t) = (p.past s).past t :=
  List.foldl_append

/-- Reading order: by line, then by column. -/
def notAfter (p q : Position) : Bool :=
  p.line < q.line || (p.line == q.line && p.column ≤ q.column)

theorem notAfter_refl (p : Position) : p.notAfter p := by simp [notAfter]

theorem notAfter_total (p q : Position) : p.notAfter q || q.notAfter p := by
  simp only [notAfter, Bool.or_eq_true, Bool.and_eq_true, decide_eq_true_eq, beq_iff_eq]
  omega

theorem notAfter_trans {p q r : Position} (hpq : p.notAfter q) (hqr : q.notAfter r) :
    p.notAfter r := by
  simp only [notAfter, Bool.or_eq_true, Bool.and_eq_true, decide_eq_true_eq, beq_iff_eq] at *
  omega

/-- A character leads to a later position. -/
theorem next_later (p : Position) (c : Char) : ¬ (p.next c).notAfter p := by
  unfold next
  split <;> simp [notAfter]

/-- The position with its fields named. -/
def fields (p : Position) : String :=
  "SourceLocation \x7b line: " ++ toString p.line ++ ", column: " ++ toString p.column ++ " \x7d"

end Position

end MiniJava
