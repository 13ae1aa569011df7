/-!
# Parts of syllables

A Hangul syllable is one character, or is spelled by a first consonant, vowels and last consonants
that stand side by side. Which parts go on with a syllable depends on the part before them. The
vowel signs of Kirat Rai join each other like Hangul vowels.
-/

namespace MiniJava.Text

/-- A part of a syllable, or a whole one. -/
inductive SyllablePart
  | firstConsonant
  | vowel
  | lastConsonant
  /-- A syllable without a last consonant. -/
  | openSyllable
  /-- A syllable with one. -/
  | closedSyllable
deriving DecidableEq, Repr, Inhabited

namespace SyllablePart

/-- What a character is in a syllable. Of the syllables in one character, every 28th is open. -/
def ofChar? (c : Char) : Option SyllablePart :=
  let n := c.toNat
  if 0x1100 ≤ n ∧ n ≤ 0x115f ∨ 0xa960 ≤ n ∧ n ≤ 0xa97c then some .firstConsonant
  else if 0x1160 ≤ n ∧ n ≤ 0x11a7 ∨ 0xd7b0 ≤ n ∧ n ≤ 0xd7c6 ∨ n = 0x16d63 ∨
      0x16d67 ≤ n ∧ n ≤ 0x16d6a then some .vowel
  else if 0x11a8 ≤ n ∧ n ≤ 0x11ff ∨ 0xd7cb ≤ n ∧ n ≤ 0xd7fb then some .lastConsonant
  else if 0xac00 ≤ n ∧ n ≤ 0xd7a3 then
    if (n - 0xac00) % 28 = 0 then some .openSyllable else some .closedSyllable
  else none

/-- The second part goes on with the syllable that the first one is in. -/
def joins : SyllablePart → SyllablePart → Bool
  | .firstConsonant, next => next != .lastConsonant
  | .vowel, next | .openSyllable, next => next == .vowel || next == .lastConsonant
  | .lastConsonant, next | .closedSyllable, next => next == .lastConsonant

/-- No ASCII character is a part of a syllable. -/
theorem ofChar?_of_ascii {c : Char} (h : c.toNat < 0x80) : ofChar? c = none := by
  simp only [ofChar?]
  repeat' (split; omega)
  rfl

/-- Only a last consonant goes on with a closed syllable. -/
theorem joins_closedSyllable {next : SyllablePart} :
    closedSyllable.joins next = true ↔ next = .lastConsonant := by
  cases next <;> decide

end SyllablePart

end MiniJava.Text
