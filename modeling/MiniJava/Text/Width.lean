import MiniJava.Text.Emoji
import MiniJava.Text.Joining
import MiniJava.Text.Wide
import MiniJava.Text.ZeroWidth

/-!
# Width — how many cells a text takes

A character takes one cell, two if it is wide, and none if it joins another or is not shown
(`characterWidth`). In a text some characters take fewer or more cells, because they form one sign
with those behind them: two letters that are written as one, the members of a family of emoji, a
digit in a keycap, a character that a selector asks to be shown in colour. The width of a text is
therefore added up from its end, with `Ahead` for what the text behind a character begins with. A
text of printable ASCII is as wide as it is long (`width_of_printable`).
-/

namespace MiniJava.Text

/-- How many cells a character takes by itself. The line feed takes none; all other control
characters take one. -/
def characterWidth (c : Char) : Nat :=
  if c.toNat ≤ 0xa0 then if c = '\n' then 0 else 1
  else if isZeroWidth c then 0
  else if c = '\u17d8' then 3
  else if isWide c || c == '\u17a4' then 2
  else 1

/-- What a text begins with, as far as it changes the width of a character before it. -/
inductive Onset
  | plain
  | lineFeed
  /-- A picture, or a sequence that makes one. -/
  | emoji
  | skinTone
  /-- One regional letter. -/
  | regional
  /-- Several regional letters. -/
  | regionals
  /-- A joiner and a picture. -/
  | joinedEmoji
  /-- A keycap that is joined to a picture. -/
  | joinedKeycap
  /-- One regional letter that is joined to a picture. -/
  | joinedRegional
  /-- An even number of regional letters, joined to a picture. -/
  | evenRegionals
  /-- An odd number of regional letters, at least three, joined to a picture. -/
  | oddRegionals
  /-- The end of the tags of a flag that is joined to a picture. -/
  | tagEnd
  /-- So many letters among such tags. -/
  | tagLetters (count : Nat)
  /-- So many digits among such tags. -/
  | tagDigits (count : Nat)
  | alef
  /-- A Hebrew lamed, perhaps behind a joiner. -/
  | lamed (joined : Bool)
  | khmerLetter
  /-- A Buginese ya, perhaps behind a joiner. -/
  | ya (joined : Bool)
  /-- The vowel sign of a Buginese ya. -/
  | yaVowel
  /-- A Tifinagh consonant, perhaps behind a joiner. -/
  | tifinagh (joined : Bool)
  /-- A Tifinagh consonant behind the Tifinagh joiner. -/
  | tifinaghJoiner
  | lisuTone
  /-- An Old Turkic i, perhaps behind a joiner. -/
  | turkicI (joined : Bool)
deriving DecidableEq, Repr, Inhabited

/-- A letter of Tifinagh that is written as one with another. -/
def isTifinaghConsonant (c : Char) : Bool := inRanges [(0x2d31, 0x2d65), (0x2d6f, 0x2d6f)] c

/-- A letter of Khmer that can stand below another. -/
def isKhmerLetter (c : Char) : Bool :=
  inRanges [(0x1780, 0x1782), (0x1784, 0x1787), (0x1789, 0x178c), (0x178e, 0x1793),
    (0x1795, 0x1798), (0x179b, 0x179d), (0x17a0, 0x17a0), (0x17a2, 0x17a2), (0x17a7, 0x17a7),
    (0x17ab, 0x17ac), (0x17af, 0x17af)] c

/-- A character that does not keep letters from being written as one. -/
def isOverlooked (c : Char) : Bool :=
  inRanges [(0x34f, 0x34f), (0x17b4, 0x17b5), (0x180b, 0x180d), (0x180f, 0x180f),
    (0x200d, 0x200d), (0xfe00, 0xfe0f), (0xe0100, 0xe01ef)] c

namespace Onset

/-- What a text begins with whose first character forms no sign with those behind it. -/
def ofChar (c : Char) : Onset :=
  let n := c.toNat
  if isRegional c then .regional
  else if isSkinTone c then .skinTone
  else if isEmoji c then .emoji
  else if isAlef c then .alef
  else if n = 0x5dc then .lamed false
  else if isKhmerLetter c then .khmerLetter
  else if n = 0x1a10 then .ya false
  else if isTifinaghConsonant c then .tifinagh false
  else if 0xa4fc ≤ n ∧ n ≤ 0xa4fd then .lisuTone
  else if n = 0x10c03 then .turkicI false
  else .plain

/-- A letter or sign that another may be written as one with. -/
def isLetter : Onset → Bool
  | .alef | .lamed _ | .khmerLetter | .ya _ | .yaVowel | .tifinagh _ | .tifinaghJoiner
  | .lisuTone | .turkicI _ => true
  | _ => false

/-- A picture that is joined to another, and shown in colour only if a selector asks for it. -/
def isJoinedPicture : Onset → Bool
  | .joinedEmoji | .joinedKeycap => true
  | _ => false

/-- The same behind a joiner. -/
def joined : Onset → Onset
  | .lamed _ => .lamed true
  | .ya _ => .ya true
  | .tifinagh _ => .tifinagh true
  | .turkicI _ => .turkicI true
  | o => o

/-- The cells and the onset of a character that is overlooked before letters. An alef is joined to
a lam only. -/
def overlooked? (o : Onset) (c : Char) : Option (Int × Onset) :=
  if o.isLetter && o != .alef && isOverlooked c then
    some (0, if c = '\u200d' then o.joined else o)
  else none

/-- The cells and the onset of a character that is written as one with the letters behind it. -/
def ligature? (o : Onset) (c : Char) : Option (Int × Onset) :=
  let n := c.toNat
  match o with
  | .alef =>
    if isLam c then some (0, .plain) else if isJoinedThrough c then some (0, .alef) else none
  | .lamed true => if n = 0x5d0 then some (0, .plain) else none
  | .khmerLetter => if n = 0x17d2 then some (-1, .plain) else none
  | .ya true => if n = 0x1a17 then some (0, .yaVowel) else none
  | .yaVowel => if n = 0x1a15 then some (0, .plain) else none
  | .tifinagh joined =>
    if n = 0x2d7f then some (1, .tifinaghJoiner)
    else if joined && isTifinaghConsonant c then some (0, .plain) else none
  | .tifinaghJoiner => if isTifinaghConsonant c then some (-1, .plain) else none
  | .lisuTone => if 0xa4f8 ≤ n ∧ n ≤ 0xa4fb then some (0, .plain) else none
  | .turkicI true => if n = 0x10c32 then some (0, .plain) else none
  | _ => none

/-- The cells and the onset of a tag of a flag, or of the flag before the tags. There are three to
six letters, or three digits behind at most four letters. -/
def tag? (o : Onset) (c : Char) : Option (Int × Onset) :=
  let letter := 0xe0061 ≤ c.toNat && c.toNat ≤ 0xe007a
  let digit := 0xe0030 ≤ c.toNat && c.toNat ≤ 0xe0039
  let flag := c.toNat == 0x1f3f4
  match o with
  | .tagEnd =>
    if letter then some (0, .tagLetters 1) else if digit then some (0, .tagDigits 1) else none
  | .tagLetters count =>
    if letter && count < 6 then some (0, .tagLetters (count + 1))
    else if digit && count < 5 then some (0, .tagDigits 1)
    else if flag && 2 < count then some (0, .emoji)
    else none
  | .tagDigits count =>
    if digit && count < 3 then some (0, .tagDigits (count + 1))
    else if flag && count == 3 then some (0, .emoji)
    else none
  | _ => none

/-- The cells and the onset of a character before regional letters. A joined pair of them takes the
cells of one picture. -/
def regional? (o : Onset) (c : Char) : Option (Int × Onset) :=
  if isRegional c then
    match o with
    | .regional | .regionals => some (1, .regionals)
    | .joinedEmoji => some (1, .joinedRegional)
    | .joinedRegional | .oddRegionals => some (-1, .evenRegionals)
    | .evenRegionals => some (3, .oddRegionals)
    | _ => none
  else none

/-- The cells and the onset of a character that makes a picture with those behind it. -/
def picture? (o : Onset) (c : Char) : Option (Int × Onset) :=
  match o with
  | .emoji | .regionals | .evenRegionals | .oddRegionals =>
    if c = '\u200d' then some (0, .joinedEmoji) else none
  | .skinTone =>
    if c = '\u200d' then some (0, .joinedEmoji)
    else if hasSkinTone c then some (0, .emoji) else none
  | .joinedEmoji =>
    if c = '\u20e3' then some (0, .joinedKeycap)
    else if isSkinTone c then some (0, .skinTone)
    else if c.toNat = 0xe007f then some (0, .tagEnd)
    else if isEmoji c then some (0, .emoji) else none
  | _ => none

/-- The cells of a character before a text, and what the text begins with then. -/
def before (o : Onset) (c : Char) : Int × Onset :=
  (o.overlooked? c <|> o.ligature? c <|> o.tag? c <|> o.regional? c <|> o.picture? c).getD
    (characterWidth c, ofChar c)

end Onset

/-- The look that a variation selector asks for. -/
inductive Look
  | unasked
  | colour
  | text
deriving DecidableEq, Repr, Inhabited

/-- What is behind a character: how the text begins, behind the selector of a look. -/
structure Ahead where
  onset : Onset
  look : Look
deriving DecidableEq, Repr, Inhabited

namespace Ahead

/-- The end of a text. -/
def nothing : Ahead := ⟨.plain, .unasked⟩

/-- A selector before a text. Letters stay joined through it, and a joined picture may be one that
it asks for. -/
def ask (a : Ahead) (look : Look) : Ahead :=
  if a.onset.isLetter || look == .colour && a.onset.isJoinedPicture then ⟨a.onset, look⟩
  else ⟨.plain, look⟩

/-- A text without a selector that asked for colour in vain. -/
def dropColour (a : Ahead) : Ahead :=
  if a.look = .colour then ⟨if a.onset.isLetter then a.onset else .plain, .unasked⟩ else a

/-- The cells of a character that no selector turns into a picture, and what is ahead then. -/
def beforePlain (a : Ahead) (c : Char) : Int × Ahead :=
  if c.toNat ≤ 0xa0 then
    if c = '\n' then (0, ⟨.lineFeed, .unasked⟩)
    -- a line ends once
    else if c = '\r' ∧ a.onset = .lineFeed then (0, nothing)
    else (1, nothing)
  else if c = '\ufe0f' then (0, a.ask .colour)
  else if c = '\ufe0e' then (0, a.ask .text)
  -- ideographs in a square are wide as text, too
  else if a.look = .text ∧ hasTwoLooks c ∧ ¬ (0x1f200 ≤ c.toNat ∧ c.toNat ≤ 0x1f2ff) then
    (1, nothing)
  else
    let (cells, onset) := a.onset.before c
    (cells, ⟨onset, .unasked⟩)

/-- The cells of a character before a text, and what is ahead then. -/
def before (a : Ahead) (c : Char) : Int × Ahead :=
  if a.look = .colour ∧ hasTwoLooks c then
    (if a.onset.isJoinedPicture then 0 else 2, ⟨.emoji, .unasked⟩)
  else a.dropColour.beforePlain c

end Ahead

/-- The cells of a text, and what it begins with. -/
def measure : List Char → Int × Ahead
  | [] => (0, Ahead.nothing)
  | c :: rest =>
    let (behind, ahead) := measure rest
    let (cells, ahead) := ahead.before c
    (cells + behind, ahead)

/-- How many cells a text takes. -/
def width (text : List Char) : Nat := (measure text).1.toNat

theorem measure_of_printable {text : List Char}
    (h : ∀ c ∈ text, 0x20 ≤ c.toNat ∧ c.toNat ≤ 0x7e) :
    measure text = ((text.length : Int), Ahead.nothing) := by
  induction text with
  | nil => rfl
  | cons c rest ih =>
    have hc := h c (by simp)
    have hn : c ≠ '\n' := by rintro rfl; revert hc; decide
    have hr : c ≠ '\r' := by rintro rfl; revert hc; decide
    have hle : c.toNat ≤ 0xa0 := by omega
    rw [measure, ih fun x hx => h x (List.mem_cons_of_mem c hx)]
    simp [Ahead.before, Ahead.nothing, Ahead.dropColour, Ahead.beforePlain, hn, hr, hle]
    omega

/-- A text of printable ASCII is as wide as it is long. -/
theorem width_of_printable {text : List Char}
    (h : ∀ c ∈ text, 0x20 ≤ c.toNat ∧ c.toNat ≤ 0x7e) : width text = text.length := by
  simp [width, measure_of_printable h]

end MiniJava.Text
