import MiniJava.Text.Numeric
import MiniJava.Token.Kind

/-!
# Segments — a text cut into pieces

A text is a sequence of segments: blank characters, comments, words, runs of digits, marks and stray
characters. Nothing is lost: the texts of the segments, one behind the other, are the text
(`flatMap_segments`). A word or a run of digits is as long as it can be, a line comment ends before
the newline, and a block comment at its first `*/`; one that is never closed reaches the end.
-/

namespace MiniJava

/-- What a piece of text is. -/
inductive SegmentKind where
  | blank | lineComment | blockComment | openComment
  | word | digits
  | mark (kind : TokenKind)
  | stray
deriving DecidableEq, Repr, Inhabited

/-- A piece of text. -/
structure Segment where
  kind : SegmentKind
  text : List Char
deriving DecidableEq, Repr, Inhabited

namespace Segment

/-- A character that separates tokens and is none itself. -/
def isGapChar (c : Char) : Bool := c == ' ' || c == '\t' || c == '\n' || c == '\r'

/-- A character that continues a word. -/
def isWordChar (c : Char) : Bool := Text.isAlphanumeric c || c == '_'

/-- A character and the run of characters behind it for which `p` holds. -/
def run (kind : SegmentKind) (p : Char → Bool) (c : Char) (rest : List Char) :
    Segment × List Char :=
  (⟨kind, c :: rest.takeWhile p⟩, rest.dropWhile p)

/-- Cuts a text behind its first `*/`. -/
def cutComment? : List Char → Option (List Char × List Char)
  | [] => none
  | '*' :: '/' :: rest => some (['*', '/'], rest)
  | c :: rest => (cutComment? rest).map fun (body, behind) => (c :: body, behind)

/-- The segment that begins with a slash. -/
def slash : List Char → Segment × List Char
  | '/' :: rest => run .lineComment (· != '\n') '/' ('/' :: rest)
  | '*' :: rest =>
    match cutComment? rest with
    | some (body, behind) => (⟨.blockComment, '/' :: '*' :: body⟩, behind)
    | none => (⟨.openComment, '/' :: '*' :: rest⟩, [])
  | rest => (⟨.mark .div, ['/']⟩, rest)

/-- A character that means one thing alone and another when it stands twice. -/
def single (twice once : SegmentKind) (c : Char) : List Char → Segment × List Char
  | d :: rest => if d = c then (⟨twice, [c, c]⟩, rest) else (⟨once, [c]⟩, d :: rest)
  | [] => (⟨once, [c]⟩, [])

/-- The first segment of a text, given by its first character and the rest, and what is behind. -/
def first (c : Char) (rest : List Char) : Segment × List Char :=
  if isGapChar c then (⟨.blank, [c]⟩, rest)
  else match TokenKind.ofMark? c with
    | some kind => (⟨.mark kind, [c]⟩, rest)
    | none =>
      if Text.isAlphabetic c then run .word isWordChar c rest
      else if c.isDigit then run .digits Char.isDigit c rest
      else if c = '/' then slash rest
      else if c = '=' then single (.mark .eq) (.mark .assign) c rest
      else if c = '|' then single (.mark .or) .stray c rest
      else if c = '&' then single (.mark .and) .stray c rest
      else (⟨.stray, [c]⟩, rest)

/-! ## Nothing is lost -/

theorem run_text (kind : SegmentKind) (p : Char → Bool) (c : Char) (rest : List Char) :
    (run kind p c rest).1.text ++ (run kind p c rest).2 = c :: rest := by
  simp [run]

theorem cutComment?_text {s body behind : List Char} (h : cutComment? s = some (body, behind)) :
    body ++ behind = s := by
  fun_induction cutComment? s generalizing body behind with
  | case1 => simp at h
  | case2 rest => simp at h; obtain ⟨rfl, rfl⟩ := h; rfl
  | case3 c rest _ ih =>
    simp only [Option.map_eq_some_iff, Prod.exists, Prod.mk.injEq] at h
    obtain ⟨b, r, hcut, rfl, rfl⟩ := h
    simp [ih hcut]

theorem slash_text (rest : List Char) : (slash rest).1.text ++ (slash rest).2 = '/' :: rest := by
  unfold slash
  split
  · exact run_text _ _ _ _
  · split
    · rename_i hcut
      simp [cutComment?_text hcut]
    · simp
  · rfl

theorem single_text (twice once : SegmentKind) (c : Char) (rest : List Char) :
    (single twice once c rest).1.text ++ (single twice once c rest).2 = c :: rest := by
  unfold single
  split
  · split <;> simp_all
  · rfl

/-- The first segment and what is behind it make up the text. -/
theorem first_text (c : Char) (rest : List Char) :
    (first c rest).1.text ++ (first c rest).2 = c :: rest := by
  unfold first
  split
  · rfl
  · split
    · rfl
    · split
      · exact run_text _ _ _ _
      · split
        · exact run_text _ _ _ _
        · split
          · rename_i hc; subst hc; exact slash_text rest
          · split
            · exact single_text _ _ _ _
            · split
              · exact single_text _ _ _ _
              · split
                · exact single_text _ _ _ _
                · rfl

theorem run_text_ne_nil (kind : SegmentKind) (p : Char → Bool) (c : Char) (rest : List Char) :
    (run kind p c rest).1.text ≠ [] := by simp [run]

theorem slash_text_ne_nil (rest : List Char) : (slash rest).1.text ≠ [] := by
  unfold slash
  split
  · exact run_text_ne_nil _ _ _ _
  · split <;> simp
  · simp

theorem single_text_ne_nil (twice once : SegmentKind) (c : Char) (rest : List Char) :
    (single twice once c rest).1.text ≠ [] := by
  unfold single
  split
  · split <;> simp
  · simp

/-- A segment has at least one character. -/
theorem first_text_ne_nil (c : Char) (rest : List Char) : (first c rest).1.text ≠ [] := by
  unfold first
  split
  · simp
  · split
    · simp
    · split
      · exact run_text_ne_nil _ _ _ _
      · split
        · exact run_text_ne_nil _ _ _ _
        · split
          · exact slash_text_ne_nil _
          · split
            · exact single_text_ne_nil _ _ _ _
            · split
              · exact single_text_ne_nil _ _ _ _
              · split
                · exact single_text_ne_nil _ _ _ _
                · simp

/-- What is behind the first segment is shorter than the text. -/
theorem length_first_lt (c : Char) (rest : List Char) :
    (first c rest).2.length < (c :: rest).length := by
  have htext := congrArg List.length (first_text c rest)
  have hpos := List.length_pos_iff.mpr (first_text_ne_nil c rest)
  simp only [List.length_append] at htext
  omega

end Segment

/-- A text cut into its segments. -/
def segments : List Char → List Segment
  | [] => []
  | c :: rest => (Segment.first c rest).1 :: segments (Segment.first c rest).2
termination_by s => s.length
decreasing_by exact Segment.length_first_lt c rest

/-- The segments, one behind the other, are the text. -/
theorem flatMap_segments (s : List Char) : (segments s).flatMap (·.text) = s := by
  fun_induction segments s with
  | case1 => rfl
  | case2 c rest ih => simp only [List.flatMap_cons, ih, Segment.first_text]

end MiniJava
