import MiniJava.Text.Ranges

/-!
# White space

The Unicode property `White_Space`. The lexer skips only four of these characters
(`Segment.isGapChar`); the viewer asks for the whole property when it decides whether a stretch of
a line shows anything.
-/

namespace MiniJava.Text

/-- The ranges of `White_Space`. -/
def whiteSpaceRanges : List (Nat × Nat) := [
    (0x9, 0xd), (0x20, 0x20), (0x85, 0x85), (0xa0, 0xa0), (0x1680, 0x1680), (0x2000, 0x200a),
    (0x2028, 0x2029), (0x202f, 0x202f), (0x205f, 0x205f), (0x3000, 0x3000)]

/-- A character with the property `White_Space`. -/
def isWhiteSpace (c : Char) : Bool := inRanges whiteSpaceRanges c

/-- The white space of the core library is white space here. -/
theorem isWhiteSpace_of_isWhitespace {c : Char} (h : c.isWhitespace) : isWhiteSpace c := by
  simp only [Char.isWhitespace, Bool.or_eq_true, decide_eq_true_eq] at h
  rcases h with (((rfl | rfl) | rfl) | rfl) <;> decide

end MiniJava.Text
