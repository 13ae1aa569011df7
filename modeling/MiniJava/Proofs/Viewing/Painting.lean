import MiniJava.Proofs.Viewing.Bisection
import MiniJava.Proofs.Viewing.Lines

/-!
# Painting — every character of a line in its colour

The pieces of a text are its tokens and what is between them (`Pieced`). A line begins and ends
where no token is cut (`Fit.exists_parts`), so it has pieces of its own, and the tokens among them
are those whose position is on the line. The spans in which the line is shown are these pieces, with
nothing lost, added or torn (`Highlight.highlight_paints`).
-/

namespace MiniJava

/-! ## Pieces -/

/-- A piece of a text: a token, or what is between two tokens. -/
inductive Piece where
  | token (t : Token)
  | between (text : List Char)
deriving DecidableEq, Repr

namespace Piece

def text : Piece → List Char
  | token t => t.text.toList
  | between text => text

def token? : Piece → Option Token
  | token t => some t
  | between _ => none

@[simp] theorem text_token (t : Token) : (token t).text = t.text.toList := rfl

@[simp] theorem text_between (gap : List Char) : (between gap).text = gap := rfl

@[simp] theorem token?_token (t : Token) : (token t).token? = some t := rfl

@[simp] theorem token?_between (gap : List Char) : (between gap).token? = none := rfl

/-- The characters of a piece, each with the token that it belongs to. -/
def inks (p : Piece) : List (Char × Option Token) := p.text.map (·, p.token?)

theorem snd_of_mem_inks {p : Piece} {ink : Char × Option Token} (h : ink ∈ p.inks) :
    ink.2 = p.token? := by
  obtain ⟨c, -, rfl⟩ := List.mem_map.mp h
  rfl

/-- A token stands where the text in front of it ends, and consists of characters that are not
blank. -/
def Fits (front : List Char) : Piece → Prop
  | token t => t.position = Position.endOf front ∧ t.text.toList ≠ [] ∧
      ∀ c ∈ t.text.toList, Segment.isGapChar c = false
  | between _ => True

end Piece

/-- The pieces of a text that stands behind `front`. Blanks and comments are between the tokens, and
behind the last one there may be an open comment. -/
inductive Pieced : List Char → List Piece → Prop where
  | last {front gap : List Char} (hgap : LastGap gap) : Pieced front [.between gap]
  | token {front gap : List Char} {t : Token} {pieces : List Piece}
      (hgap : Gap gap (t.text.toList ++ pieces.flatMap Piece.text))
      (hlexeme : IsLexeme t.kind t.text.toList)
      (hplace : t.position = Position.endOf (front ++ gap))
      (h : Pieced (front ++ gap ++ t.text.toList) pieces) :
      Pieced front (.between gap :: .token t :: pieces)

theorem Tiled.exists_pieced {front text : List Char} {tokens : List Token}
    (h : Tiled front text tokens) : ∃ pieces, Pieced front pieces ∧
      pieces.flatMap Piece.text = text ∧ pieces.filterMap Piece.token? = tokens := by
  induction h with
  | last hgap => exact ⟨_, .last hgap, List.append_nil _, rfl⟩
  | @token front gap rest t tokens hgap hlongest hplace h ih =>
    obtain ⟨pieces, hpieced, rfl, rfl⟩ := ih
    exact ⟨_, .token hgap hlongest.isLexeme hplace hpieced, by simp, rfl⟩

-- What has nothing of the middle stands on one side of it.
theorem infix_of_apart {α : Type} {as front middle behind : List α} (hmiddle : middle ≠ [])
    (hapart : ∀ a ∈ as, a ∉ middle) (h : as <:+: front ++ (middle ++ behind)) :
    as <:+: front ∨ as <:+: behind := by
  rcases List.infix_append_iff_ne_nil.mp h with hfront | h | ⟨left, right, -, hne, rfl, -, hright⟩
  · exact .inl hfront
  · rcases List.infix_append_iff_ne_nil.mp h with
      hinside | hbehind | ⟨left, right, hne, -, rfl, hleft, -⟩
    · cases as with
      | nil => exact .inl List.nil_infix
      | cons a as => exact absurd (hinside.subset List.mem_cons_self) (hapart a List.mem_cons_self)
    · exact .inr hbehind
    · obtain ⟨a, ha⟩ := List.exists_mem_of_ne_nil left hne
      exact absurd (hleft.subset ha) (hapart a (List.mem_append_left _ ha))
  · obtain ⟨a, right, rfl⟩ := List.exists_cons_of_ne_nil hne
    obtain ⟨b, middle, rfl⟩ := List.exists_cons_of_ne_nil hmiddle
    obtain ⟨rfl, -⟩ := List.cons_prefix_cons.mp hright
    exact absurd List.mem_cons_self (hapart a (List.mem_append_right _ List.mem_cons_self))

-- Characters in a row that are between tokens stand in one gap.
theorem Pieced.exists_between {front gap : List Char} {pieces : List Piece}
    (h : Pieced front pieces) (hinks : (Piece.between gap).inks <:+: pieces.flatMap Piece.inks) :
    ∃ whole, .between whole ∈ pieces ∧ gap <:+: whole := by
  have hwithin {whole : List Char} (hinks : (Piece.between gap).inks <:+:
      (Piece.between whole).inks) : gap <:+: whole := by
    simpa [Piece.inks, Function.comp_def] using hinks.map Prod.fst
  induction h with
  | @last front whole =>
    rw [List.flatMap_singleton] at hinks
    exact ⟨whole, List.mem_cons_self, hwithin hinks⟩
  | @token front whole t pieces hgap hlexeme hplace h ih =>
    have hne : (Piece.token t).inks ≠ [] := by simpa [Piece.inks] using hlexeme.ne_nil
    have hapart : ∀ ink ∈ (Piece.between gap).inks, ink ∉ (Piece.token t).inks := by
      intro ink hink hink'
      cases (Piece.snd_of_mem_inks hink).symm.trans (Piece.snd_of_mem_inks hink')
    rw [List.flatMap_cons, List.flatMap_cons] at hinks
    rcases infix_of_apart hne hapart hinks with hfirst | hlater
    · exact ⟨whole, List.mem_cons_self, hwithin hfirst⟩
    · obtain ⟨whole', hmem, hpart⟩ := ih hlater
      exact ⟨whole', List.mem_cons_of_mem _ (List.mem_cons_of_mem _ hmem), hpart⟩

/-- All tokens among the pieces fit into the text, which stands behind `front`. -/
def Fit : List Char → List Piece → Prop
  | _, [] => True
  | front, p :: pieces => p.Fits front ∧ Fit (front ++ p.text) pieces

theorem Pieced.fit {front : List Char} {pieces : List Piece} (h : Pieced front pieces) :
    Fit front pieces := by
  induction h with
  | last => exact ⟨trivial, trivial⟩
  | token hgap hlexeme hplace h ih =>
    exact ⟨trivial, ⟨hplace, hlexeme.ne_nil, hlexeme.not_gap⟩, ih⟩

section

variable {front : List Char} {pieces : List Piece}

-- A token among the pieces, with the text on both sides of it.
theorem Fit.exists_place (h : Fit front pieces) {t : Token}
    (ht : t ∈ pieces.filterMap Piece.token?) : ∃ before behind,
      pieces.flatMap Piece.text = before ++ t.text.toList ++ behind ∧
        (Piece.token t).Fits (front ++ before) := by
  induction pieces generalizing front with
  | nil => cases ht
  | cons p pieces ih =>
    obtain ⟨hp, hrest⟩ := h
    have hlater (ht : t ∈ pieces.filterMap Piece.token?) : ∃ before behind,
        (p :: pieces).flatMap Piece.text = before ++ t.text.toList ++ behind ∧
          (Piece.token t).Fits (front ++ before) := by
      obtain ⟨before, behind, htext, hfits⟩ := ih hrest ht
      rw [List.append_assoc] at hfits
      refine ⟨p.text ++ before, behind, ?_, hfits⟩
      rw [List.flatMap_cons, htext]
      simp only [List.append_assoc]
    cases p with
    | between text => exact hlater ht
    | token u =>
      rcases List.mem_cons.mp ht with rfl | ht
      · exact ⟨[], _, rfl, (List.append_nil front).symm ▸ hp⟩
      · exact hlater ht

/-- Two lists of pieces, which belong to two parts of a text that stands behind `front`, have the
tokens and the inks of one list of pieces. -/
structure Parts (front before behind : List Char) (pieces left right : List Piece) : Prop where
  text_left : left.flatMap Piece.text = before
  text_right : right.flatMap Piece.text = behind
  fit_left : Fit front left
  fit_right : Fit (front ++ before) right
  tokens : left.filterMap Piece.token? ++ right.filterMap Piece.token? =
    pieces.filterMap Piece.token?
  inks : left.flatMap Piece.inks ++ right.flatMap Piece.inks = pieces.flatMap Piece.inks

-- A piece can be cut between tokens, or beside one of them.
theorem Piece.exists_parts {p : Piece} {before behind : List Char} (hp : p.Fits front)
    (hrest : Fit (front ++ p.text) pieces) (htext : p.text = before ++ behind)
    (hcut : before.getLast?.all Segment.isGapChar = true ∨
      (behind ++ pieces.flatMap Piece.text).head?.all Segment.isGapChar = true) :
    ∃ left right, Parts front before (behind ++ pieces.flatMap Piece.text) (p :: pieces) left
      right := by
  cases p with
  | between text =>
    obtain rfl : text = before ++ behind := htext
    refine ⟨[.between before], .between behind :: pieces, List.append_nil _, rfl,
      ⟨trivial, trivial⟩, ⟨trivial, ?_⟩, rfl, ?_⟩
    · rwa [List.append_assoc]
    · simp [inks]
  | token t =>
    obtain ⟨-, -, hgap⟩ := id hp
    replace htext : t.text.toList = before ++ behind := htext
    rw [htext] at hgap
    rcases List.eq_nil_or_concat before with rfl | ⟨before, c, rfl⟩
    · refine ⟨[], .token t :: pieces, rfl, ?_, trivial, ?_, rfl, rfl⟩
      · rw [List.flatMap_cons, Piece.text, htext, List.nil_append]
      · rw [List.append_nil]
        exact ⟨hp, hrest⟩
    · cases behind with
      | nil =>
        rw [List.append_nil] at htext
        refine ⟨[.token t], pieces, ?_, rfl, ⟨hp, trivial⟩, ?_, rfl, ?_⟩
        · rw [List.flatMap_singleton, Piece.text, htext]
        · rwa [← htext]
        · rw [List.flatMap_singleton, List.flatMap_cons]
      | cons d behind =>
        -- The characters on both sides of the cut are those of the token.
        exfalso
        have hc := hgap c (by simp)
        have hd := hgap d (by simp)
        simp [hc, hd] at hcut

/-- Pieces can be split where no token is cut: behind a blank, or before one. -/
theorem Fit.exists_parts (h : Fit front pieces) {before behind : List Char}
    (htext : pieces.flatMap Piece.text = before ++ behind)
    (hcut : before.getLast?.all Segment.isGapChar = true ∨
      behind.head?.all Segment.isGapChar = true) :
    ∃ left right, Parts front before behind pieces left right := by
  induction pieces generalizing front before with
  | nil =>
    obtain ⟨rfl, rfl⟩ := List.append_eq_nil_iff.mp htext.symm
    exact ⟨[], [], rfl, rfl, trivial, trivial, rfl, rfl⟩
  | cons p pieces ih =>
    obtain ⟨hp, hrest⟩ := h
    rw [List.flatMap_cons] at htext
    rcases List.append_eq_append_iff.mp htext with ⟨more, rfl, hmore⟩ | ⟨more, hmore, rfl⟩
    · -- The first piece is in front of the cut.
      have hcut : more.getLast?.all Segment.isGapChar = true ∨
          behind.head?.all Segment.isGapChar = true := by
        refine hcut.imp_left fun hlast => ?_
        cases hmore : more.getLast? with
        | none => rfl
        | some c => simpa [List.getLast?_append, hmore] using hlast
      obtain ⟨left, right, hparts⟩ := ih hrest hmore hcut
      refine ⟨p :: left, right, ?_, hparts.text_right, ⟨hp, hparts.fit_left⟩, ?_, ?_, ?_⟩
      · rw [List.flatMap_cons, hparts.text_left]
      · rw [← List.append_assoc]
        exact hparts.fit_right
      · cases p with
        | between text => exact hparts.tokens
        | token t => exact congrArg (t :: ·) hparts.tokens
      · rw [List.flatMap_cons, List.flatMap_cons, List.append_assoc, hparts.inks]
    · exact Piece.exists_parts hp hrest hmore hcut

end

/-! ## The spans of a line -/

namespace Position

-- Behind lines that are ended, a position is that of a line, and columns count its characters.
theorem endOf_append_of_ended {head line : List Char} (hhead : head.getLast?.all (· == '\n') = true)
    (hline : '\n' ∉ line) : endOf (head ++ line) = ⟨1 + head.count '\n', 1 + line.length⟩ := by
  have hlast : head.reverse.takeWhile (· != '\n') = [] := by
    rcases List.eq_nil_or_concat head with rfl | ⟨head, c, rfl⟩
    · rfl
    · obtain rfl : c = '\n' := by simpa using hhead
      simp
  have hall : ∀ c ∈ line.reverse, (c != '\n') = true := by
    intro c hc
    have hne : c ≠ '\n' := fun heq => hline (heq ▸ List.mem_reverse.mp hc)
    simpa using hne
  rw [endOf, List.count_append, List.count_eq_zero.mpr hline, List.reverse_append,
    List.takeWhile_append_of_pos hall, hlast, List.append_nil, List.length_reverse]
  rfl

end Position

namespace Highlight

-- What is shown of a gap.
theorem toList_betweenTokens (gap : List Char) : (betweenTokens gap).text.toList = gap :=
  String.toList_ofList

-- A token is shown whole, behind the gap in front of it.
theorem highlightFrom_token {line before gap behind : List Char} {t : Token} {tokens : List Token}
    (hline : before ++ gap ++ (t.text.toList ++ behind) = line)
    (hcolumn : t.position.column = 1 + (before ++ gap).length) :
    highlightFrom line before.length (t :: tokens) =
      (if gap = [] then [] else [betweenTokens gap]) ++ ⟨t.text, styleOf t tokens.head?⟩ ::
        highlightFrom line (before ++ gap ++ t.text.toList).length tokens := by
  have hlength : line.length = before.length + gap.length + (t.text.length + behind.length) := by
    rw [← hline, List.length_append, List.length_append, List.length_append, String.length_toList]
  have hbehind : (before ++ gap ++ t.text.toList).length =
      (before ++ gap).length + t.text.length := by
    rw [List.length_append, String.length_toList]
  have hstart : min (t.position.column - 1) line.length = (before ++ gap).length := by
    rw [hcolumn, List.length_append]
    omega
  have hstop : min ((before ++ gap).length + t.text.length) line.length =
      (before ++ gap ++ t.text.toList).length := by
    rw [hbehind, List.length_append]
    omega
  have hgap : (line.drop before.length).take ((before ++ gap).length - before.length) = gap := by
    rw [← hline, List.append_assoc, List.drop_left, List.length_append, Nat.add_sub_cancel_left,
      List.take_left]
  have htoken : (line.drop (before ++ gap).length).take ((before ++ gap ++ t.text.toList).length -
      (before ++ gap).length) = t.text.toList := by
    rw [← hline, List.drop_left, hbehind, Nat.add_sub_cancel_left, ← String.length_toList,
      List.take_left]
  have hfirst : ¬ (before ++ gap).length < before.length := by
    rw [List.length_append]
    omega
  rw [highlightFrom]
  simp only [hstart, hstop, if_neg hfirst, hgap, htoken, String.ofList_toList]
  cases gap <;> simp

/-- From where a gap begins on, the spans of a line are the gap and the pieces behind it. -/
theorem exists_shown {head line : List Char} (before gap : List Char) {pieces : List Piece}
    (hhead : head.getLast?.all (· == '\n') = true) (hnone : '\n' ∉ line)
    (hline : before ++ gap ++ pieces.flatMap Piece.text = line)
    (hfit : Fit (head ++ before ++ gap) pieces) : ∃ shown : List Piece,
      (highlightFrom line before.length (pieces.filterMap Piece.token?)).map (·.text.toList) =
        shown.map Piece.text ∧
      shown.filterMap Piece.token? = pieces.filterMap Piece.token? ∧
      shown.flatMap Piece.inks = (Piece.between gap).inks ++ pieces.flatMap Piece.inks := by
  induction pieces generalizing before gap with
  | nil =>
    rw [List.flatMap_nil, List.append_nil] at hline
    rw [List.filterMap_nil, highlightFrom, ← hline, List.drop_left]
    cases gap with
    | nil => exact ⟨[], by simp, rfl, rfl⟩
    | cons c gap => exact ⟨[.between (c :: gap)], by simp [toList_betweenTokens], rfl, rfl⟩
  | cons p pieces ih =>
    obtain ⟨hp, hrest⟩ := hfit
    rw [List.flatMap_cons] at hline
    cases p with
    | between text =>
      obtain ⟨shown, htexts, htokens, hinks⟩ := ih before (gap ++ text)
        (by simpa using hline) (by simpa using hrest)
      refine ⟨shown, htexts, htokens, ?_⟩
      rw [hinks, List.flatMap_cons, ← List.append_assoc]
      simp [Piece.inks]
    | token t =>
      have hcolumn : t.position.column = 1 + (before ++ gap).length := by
        have hended : '\n' ∉ before ++ gap := fun h => hnone (hline ▸ List.mem_append_left _ h)
        rw [hp.1, List.append_assoc, Position.endOf_append_of_ended hhead hended]
      obtain ⟨shown, htexts, htokens, hinks⟩ := ih (before ++ gap ++ t.text.toList) []
        (by simpa using hline) (by simpa using hrest)
      refine ⟨(if gap = [] then [] else [.between gap]) ++ .token t :: shown, ?_, ?_, ?_⟩
      · rw [List.filterMap_cons_some (Piece.token?_token t), highlightFrom_token hline hcolumn,
          List.map_append, List.map_cons, htexts]
        split <;> simp [toList_betweenTokens]
      · rw [List.filterMap_append, List.filterMap_cons_some (Piece.token?_token t), htokens]
        split <;> simp
      · rw [List.flatMap_append, List.flatMap_cons, hinks]
        split <;> simp_all [Piece.inks]

end Highlight

/-! ## The lines of a text -/

theorem length_flatMap_inks (pieces : List Piece) :
    (pieces.flatMap Piece.inks).length = (pieces.flatMap Piece.text).length := by
  simp [List.length_flatMap, Piece.inks]

namespace Fit

variable {front line behind : List Char} {pieces : List Piece} {t : Token}

-- A token in front of a line has the end of another line behind it.
theorem line_of_mem_front (h : Fit [] pieces) (htext : pieces.flatMap Piece.text = front)
    (hfront : front.getLast?.all (· == '\n') = true) (ht : t ∈ pieces.filterMap Piece.token?) :
    t.position.line ≤ front.count '\n' := by
  obtain ⟨before, after, hplace, hposition, hne, hgap⟩ := h.exists_place ht
  have hnewline : '\n' ∉ t.text.toList := fun hmem => absurd (hgap _ hmem) (by decide)
  have hafter : '\n' ∈ after := by
    rcases List.eq_nil_or_concat (t.text.toList ++ after) with hnil | ⟨init, c, hinit⟩
    · exact absurd (List.append_eq_nil_iff.mp hnil).1 hne
    · rw [← htext, hplace, List.append_assoc, hinit] at hfront
      obtain rfl : c = '\n' := by simpa using hfront
      have hmem : '\n' ∈ t.text.toList ++ after := by simp [hinit]
      exact (List.mem_append.mp hmem).resolve_left hnewline
  have hpos := List.count_pos_iff.mpr hafter
  rw [← htext, hplace, List.count_append, List.count_append, hposition, Position.endOf]
  simp only [List.nil_append]
  omega

-- A token on a line has no end of a line between it and the beginning.
theorem line_of_mem_line (h : Fit front pieces) (htext : pieces.flatMap Piece.text = line)
    (hline : '\n' ∉ line) (ht : t ∈ pieces.filterMap Piece.token?) :
    t.position.line = 1 + front.count '\n' := by
  obtain ⟨before, after, hplace, hposition, -⟩ := h.exists_place ht
  have hbefore : '\n' ∉ before := fun hmem => hline (by simp [← htext, hplace, hmem])
  rw [hposition, Position.endOf, List.count_append, List.count_eq_zero.mpr hbefore]
  rfl

-- A token behind a line has the end of the line in front of it.
theorem line_of_mem_behind (h : Fit front pieces) (htext : pieces.flatMap Piece.text = behind)
    (hbehind : behind = [] ∨ ∃ rest, behind = '\n' :: rest ∨ behind = '\r' :: '\n' :: rest)
    (ht : t ∈ pieces.filterMap Piece.token?) : 1 + front.count '\n' < t.position.line := by
  obtain ⟨before, after, hplace, hposition, hne, hgap⟩ := h.exists_place ht
  have hbefore : '\n' ∈ before := by
    obtain ⟨c, cs, hword⟩ := List.exists_cons_of_ne_nil hne
    have hc := hgap c (hword ▸ List.mem_cons_self)
    rw [← htext, hplace, hword] at hbehind
    rcases hbehind with hnil | ⟨rest, hrest | hrest⟩
    · simp at hnil
    · match before, hrest with
      | [], hrest =>
        obtain rfl := (List.cons.inj hrest).1
        exact absurd hc (by decide)
      | d :: _, hrest =>
        obtain rfl := (List.cons.inj hrest).1
        exact List.mem_cons_self
    · match before, hrest with
      | [], hrest =>
        obtain rfl := (List.cons.inj hrest).1
        exact absurd hc (by decide)
      | [_], hrest =>
        obtain rfl := (List.cons.inj (List.cons.inj hrest).2).1
        exact absurd hc (by decide)
      | _ :: d :: _, hrest =>
        obtain rfl := (List.cons.inj (List.cons.inj hrest).2).1
        exact List.mem_cons_of_mem _ List.mem_cons_self
  have hpos := List.count_pos_iff.mpr hbefore
  rw [hposition, Position.endOf, List.count_append]
  dsimp only
  omega

/-- The pieces of a line: its tokens are those whose position is on it, and its inks are those of
the whole text from where the line begins on. -/
theorem exists_line (h : Fit [] pieces) {i : Nat}
    (hline : (Text.splitLines (pieces.flatMap Piece.text))[i]? = some line) :
    ∃ front middle, front ++ line <+: pieces.flatMap Piece.text ∧
      front.getLast?.all (· == '\n') = true ∧ front.count '\n' = i ∧ '\n' ∉ line ∧
      middle.flatMap Piece.text = line ∧ Fit front middle ∧
      (pieces.filterMap Piece.token?).filter (·.position.line == i + 1) =
        middle.filterMap Piece.token? ∧
      middle.flatMap Piece.inks =
        ((pieces.flatMap Piece.inks).drop front.length).take line.length := by
  obtain ⟨front, behind, htext, hfront, rfl, hnone, hbehind⟩ := Text.exists_around hline
  have hcut : front.getLast?.all Segment.isGapChar = true := by
    cases hlast : front.getLast? with
    | none => rfl
    | some c =>
      obtain rfl : c = '\n' := by simpa [hlast] using hfront
      rfl
  have hcut' : behind.head?.all Segment.isGapChar = true := by
    rcases hbehind with rfl | ⟨rest, rfl | rfl⟩ <;> rfl
  obtain ⟨left, rest, hparts⟩ := h.exists_parts htext (.inl hcut)
  obtain ⟨middle, right, hparts'⟩ := hparts.fit_right.exists_parts hparts.text_right (.inr hcut')
  have hpieces := hparts'.fit_left
  have hpieces' := hparts'.fit_right
  rw [List.nil_append] at hpieces hpieces'
  refine ⟨front, middle, ?_, hfront, rfl, hnone, hparts'.text_left, hpieces, ?_, ?_⟩
  · rw [htext]
    exact (List.prefix_append_right_inj _).mpr (List.prefix_append _ _)
  · have hleft : (left.filterMap Piece.token?).filter (·.position.line == front.count '\n' + 1) =
        [] := by
      refine List.filter_eq_nil_iff.mpr fun t ht => ?_
      have hle := hparts.fit_left.line_of_mem_front hparts.text_left hfront ht
      simp only [beq_iff_eq]
      omega
    have hmiddle : (middle.filterMap Piece.token?).filter
        (·.position.line == front.count '\n' + 1) = middle.filterMap Piece.token? := by
      refine List.filter_eq_self.mpr fun t ht => ?_
      have heq := hpieces.line_of_mem_line hparts'.text_left hnone ht
      simp only [beq_iff_eq]
      omega
    have hright : (right.filterMap Piece.token?).filter
        (·.position.line == front.count '\n' + 1) = [] := by
      refine List.filter_eq_nil_iff.mpr fun t ht => ?_
      have hlt := hpieces'.line_of_mem_behind hparts'.text_right hbehind ht
      rw [List.count_append] at hlt
      simp only [beq_iff_eq]
      omega
    rw [← hparts.tokens, ← hparts'.tokens, List.filter_append, List.filter_append, hleft, hmiddle,
      hright, List.nil_append, List.append_nil]
  · have hleft : (left.flatMap Piece.inks).length = front.length := by
      rw [length_flatMap_inks, hparts.text_left]
    have hmiddle : (middle.flatMap Piece.inks).length = line.length := by
      rw [length_flatMap_inks, hparts'.text_left]
    rw [← hparts.inks, ← hparts'.inks, ← hleft, List.drop_left, ← hmiddle, List.take_left]

end Fit

namespace Highlight

-- No token of a text stands on a line before that of the token in front of it.
theorem lineTokens_tokenize (source : String) (line : Nat) :
    lineTokens (tokenize source).tokens.toArray line =
      (tokenize source).tokens.filter fun t => t.kind != .eof && t.position.line == line := by
  refine lineTokens_toArray ((pairwise_tokens_tokenize source).imp fun hbefore => ?_) line
  unfold Position.Before at hbefore
  omega

/-- Highlighting neither loses nor repeats a character, whatever the tokens claim. The tokens of a
line that bisection finds in a text are those that begin on it, the end of file apart, in order. And
the text has pieces, which are its tokens and the blanks and comments between them, such that each
of its lines is shown in spans that are pieces themselves: one for each of these tokens, with its
text, and parts of what is between tokens. Every character is in the span of the token that it
belongs to in the text, or of none. -/
theorem highlight_paints :
    (∀ (line : List Char) (tokens : List Token),
      (highlight line tokens).flatMap (·.text.toList) = line) ∧
    ∀ source : String,
      let tokens := (tokenize source).tokens
      (∀ n, lineTokens tokens.toArray n =
        tokens.filter fun t => t.kind != .eof && t.position.line == n) ∧
      ∃ pieces, Pieced [] pieces ∧ pieces.flatMap Piece.text = source.toList ∧
        pieces.filterMap Piece.token? = tokens.filter (·.kind != .eof) ∧
        ∀ i line, (Text.lines source)[i]? = some line →
          let onLine := lineTokens tokens.toArray (i + 1)
          ∃ (front : List Char) (shown : List Piece), front ++ line.toList <+: source.toList ∧
            Position.endOf front = ⟨i + 1, 1⟩ ∧
            (highlight line.toList onLine).map (·.text.toList) = shown.map Piece.text ∧
            shown.filterMap Piece.token? = onLine ∧
            (∀ gap, .between gap ∈ shown → ∃ whole, .between whole ∈ pieces ∧ gap <:+: whole) ∧
            shown.flatMap Piece.inks =
              ((pieces.flatMap Piece.inks).drop front.length).take line.toList.length := by
  refine ⟨flatMap_highlight, fun source => ?_⟩
  intro tokens
  refine ⟨lineTokens_tokenize source, ?_⟩
  obtain ⟨tiles, htokens, htiled⟩ := exists_tiled_tokenize source
  obtain ⟨pieces, hpieced, htext, rfl⟩ := htiled.exists_pieced
  have hreal : tokens.filter (·.kind != .eof) = pieces.filterMap Piece.token? := by
    have hkinds : (pieces.filterMap Piece.token?).filter (·.kind != .eof) =
        pieces.filterMap Piece.token? :=
      List.filter_eq_self.mpr fun t ht => by simpa using htiled.kind_ne_eof t ht
    show (tokenize source).tokens.filter _ = _
    rw [htokens, List.filter_append, hkinds]
    exact List.append_nil _
  refine ⟨pieces, hpieced, htext, hreal.symm, fun i line hline => ?_⟩
  intro onLine
  have hsplit : (Text.splitLines (pieces.flatMap Piece.text))[i]? = some line.toList := by
    rw [Text.lines, List.getElem?_map, Option.map_eq_some_iff] at hline
    obtain ⟨cs, hcs, rfl⟩ := hline
    rw [htext, hcs, String.toList_ofList]
  obtain ⟨front, middle, hprefix, hfront, hcount, hnone, hmiddle, hfit, hfilter, hinks⟩ :=
    hpieced.fit.exists_line hsplit
  have honLine : onLine = middle.filterMap Piece.token? := by
    show lineTokens _ _ = _
    rw [lineTokens_tokenize, ← hfilter, ← hreal, List.filter_filter]
    exact List.filter_congr fun t _ => Bool.and_comm _ _
  have hplace : Position.endOf front = ⟨i + 1, 1⟩ := by
    have hend := Position.endOf_append_of_ended hfront (List.not_mem_nil (a := '\n'))
    rw [List.append_nil, hcount, Nat.add_comm] at hend
    exact hend
  obtain ⟨shown, htexts, hshown, hpainted⟩ := exists_shown [] [] hfront hnone hmiddle
    (by simpa using hfit)
  have hwindow : shown.flatMap Piece.inks =
      ((pieces.flatMap Piece.inks).drop front.length).take line.toList.length := by
    rw [hpainted, ← hinks]
    rfl
  refine ⟨front, shown, htext ▸ hprefix, hplace, ?_, hshown.trans honLine.symm, ?_, hwindow⟩
  · rw [honLine]
    exact htexts
  · intro gap hgap
    have hpart : (Piece.between gap).inks <:+: shown.flatMap Piece.inks := by
      obtain ⟨left, right, hsplit⟩ := List.append_of_mem hgap
      exact ⟨left.flatMap Piece.inks, right.flatMap Piece.inks, by simp [hsplit]⟩
    rw [hwindow] at hpart
    exact hpieced.exists_between
      (hpart.trans ((List.take_prefix _ _).isInfix.trans (List.drop_suffix _ _).isInfix))

-- A comment from one line to the next, in a text with carriage returns.
def wrappedSource : String := "a/*b\r\n c*/ d;\r\n"

/-- On the second line, the end of the comment is shown in front of two tokens. -/
theorem highlight_paints_of_wrapped :
    let onLine := lineTokens (tokenize wrappedSource).tokens.toArray 2
    (Text.lines wrappedSource)[1]? = some " c*/ d;" ∧ onLine.map (·.text) = ["d", ";"] ∧
      (highlight " c*/ d;".toList onLine).map (·.text) = [" c*/ ", "d", ";"] ∧
      ∃ (pieces : List Piece) (front : List Char) (shown : List Piece), Pieced [] pieces ∧
        Position.endOf front = ⟨2, 1⟩ ∧
        (highlight " c*/ d;".toList onLine).map (·.text.toList) = shown.map Piece.text ∧
        shown.filterMap Piece.token? = onLine := by
  intro onLine
  have hline : (Text.lines wrappedSource)[1]? = some " c*/ d;" := by decide +kernel
  have htexts : onLine.map (·.text) = ["d", ";"] := by decide +kernel
  have hspans : (highlight " c*/ d;".toList onLine).map (·.text) = [" c*/ ", "d", ";"] := by
    decide +kernel
  obtain ⟨-, pieces, hpieced, -, -, hlines⟩ := highlight_paints.2 wrappedSource
  obtain ⟨front, shown, -, hplace, hshown, htokens, -, -⟩ := hlines 1 " c*/ d;" hline
  exact ⟨hline, htexts, hspans, pieces, front, shown, hpieced, hplace, hshown, htokens⟩

end Highlight

end MiniJava
