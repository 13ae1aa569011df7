import MiniJava.Text.ZeroWidth

/-!
# Joining of Arabic letters

An alef behind a lam is written as one letter with it, also across marks that letters join through.
The alefs are the Unicode property `Joining_Group` with the value `Alef`. The marks are the
characters without a width whose `Joining_Type` is `Transparent`; the table holds the others.
-/

namespace MiniJava.Text

/-- The ranges of alefs. -/
def alefRanges : List (Nat × Nat) := [
    (0x622, 0x623), (0x625, 0x625), (0x627, 0x627), (0x671, 0x673), (0x675, 0x675), (0x773, 0x774),
    (0x870, 0x882)]

/-- The ranges of characters without a width that letters do not join through. -/
def partingRanges : List (Nat × Nat) := [
    (0x605, 0x605), (0x890, 0x891), (0x8e2, 0x8e2), (0x9be, 0x9be), (0x9d7, 0x9d7), (0xb3e, 0xb3e),
    (0xb57, 0xb57), (0xbbe, 0xbbe), (0xbd7, 0xbd7), (0xcc0, 0xcc0), (0xcc2, 0xcc2), (0xcc7, 0xcc8),
    (0xcca, 0xccb), (0xcd5, 0xcd6), (0xd3e, 0xd3e), (0xd4e, 0xd4e), (0xd57, 0xd57), (0xdcf, 0xdcf),
    (0xddf, 0xddf), (0x1160, 0x11ff), (0x180e, 0x180e), (0x1b35, 0x1b35), (0x1b3b, 0x1b3b),
    (0x1b3d, 0x1b3d), (0x1b43, 0x1b43), (0x200c, 0x200d), (0x2065, 0x2069), (0x302e, 0x302f),
    (0x3164, 0x3164), (0xa8fa, 0xa8fa), (0xd7b0, 0xd7c6), (0xd7cb, 0xd7fb), (0xff9e, 0xffa0),
    (0xfff0, 0xfff8), (0x111c2, 0x111c3), (0x1133e, 0x1133e), (0x11357, 0x11357),
    (0x114b0, 0x114b0), (0x114bd, 0x114bd), (0x115af, 0x115af), (0x11930, 0x11930),
    (0x1193f, 0x1193f), (0x11941, 0x11941), (0x11a3a, 0x11a3a), (0x11a84, 0x11a89),
    (0x11d46, 0x11d46), (0x11f02, 0x11f02), (0x1d165, 0x1d165), (0x1d16e, 0x1d172),
    (0xe0000, 0xe0000), (0xe0002, 0xe001f), (0xe0080, 0xe00ff), (0xe01f0, 0xe0fff)]

/-- An alef, plain or with marks. -/
def isAlef (c : Char) : Bool := inRanges alefRanges c

/-- A lam, plain or with marks. -/
def isLam (c : Char) : Bool :=
  inRanges [(0x644, 0x644), (0x6b5, 0x6b8), (0x76a, 0x76a), (0x8a6, 0x8a6), (0x8c7, 0x8c7)] c

/-- A character without a width that letters join through. -/
def isJoinedThrough (c : Char) : Bool := isZeroWidth c && !inRanges partingRanges c

/-- What letters join through has no width. -/
theorem isZeroWidth_of_isJoinedThrough {c : Char} (h : isJoinedThrough c = true) :
    isZeroWidth c = true := by
  simp only [isJoinedThrough, Bool.and_eq_true] at h
  exact h.1

end MiniJava.Text
