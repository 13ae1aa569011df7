/-!
# Ranges — sets of characters as lists of intervals

A property of characters is a list of closed intervals of code points. `inRanges` asks whether one
of them holds a character; `inRanges_of_lt` says that a table whose intervals all begin at some
code point holds nothing below it.
-/

namespace MiniJava.Text

/-- One of the closed intervals holds the character's code point. -/
def inRanges (ranges : List (Nat × Nat)) (c : Char) : Bool :=
  ranges.any fun (first, last) => first ≤ c.toNat && c.toNat ≤ last

/-- A table that begins at `low` holds no character below it. -/
theorem inRanges_of_lt (ranges : List (Nat × Nat)) (low : Nat) {c : Char}
    (hlow : ranges.all (fun r => low ≤ r.1) = true) (hc : c.toNat < low) :
    inRanges ranges c = false := by
  simp only [inRanges, List.any_eq_false, List.all_eq_true, decide_eq_true_eq] at *
  intro r hr
  have := hlow r hr
  simp
  omega

end MiniJava.Text
