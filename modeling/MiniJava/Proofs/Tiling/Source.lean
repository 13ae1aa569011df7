import MiniJava.Parse
import MiniJava.Proofs.Tiling.Lexeme
import MiniJava.Proofs.Tiling.Place

/-!
# Tiling — gaps and tokens make up the text

`Tiled front text tokens` says that a text which stands behind `front` is a gap, a token, a gap, a
token and so on, up to a last gap, and that each token is a longest lexeme and stands where the
characters in front of it put it. The tokens of a source tile it in this sense (`tiled_segments`),
so that each of them stands behind the one before (`pairwise_tokens_tokenize`).
-/

namespace MiniJava

/-- The text, which stands behind `front`, consists of the tokens and of gaps between them. -/
inductive Tiled : List Char → List Char → List Token → Prop where
  | last {front gap : List Char} (hgap : LastGap gap) : Tiled front gap []
  | token {front gap rest : List Char} {t : Token} {tokens : List Token}
      (hgap : Gap gap (t.text.toList ++ rest)) (hlongest : Longest t.kind t.text.toList rest)
      (hplace : t.position = Position.endOf (front ++ gap))
      (h : Tiled (front ++ gap ++ t.text.toList) rest tokens) :
      Tiled front (gap ++ t.text.toList ++ rest) (t :: tokens)

namespace Tiled

variable {front text : List Char} {tokens : List Token}

-- A piece in front that belongs to the gap.
theorem gap {piece : List Char}
    (hpiece : ∀ gap behind, gap ++ behind = text → Gap gap behind → Gap (piece ++ gap) behind)
    (h : Tiled (front ++ piece) text tokens) : Tiled front (piece ++ text) tokens := by
  cases h with
  | last hlast =>
    apply Tiled.last
    rcases hlast with hgap | ⟨gap, body, heq, hgap, hbody⟩
    · exact .inl (hpiece text [] (List.append_nil text) hgap)
    · refine .inr ⟨piece ++ gap, body, ?_, hpiece gap _ heq.symm hgap, hbody⟩
      rw [heq, List.append_assoc]
  | @token _ gap rest t tokens hgap hlongest hplace h =>
    rw [List.append_assoc front] at hplace h
    have htext : gap ++ (t.text.toList ++ rest) = gap ++ t.text.toList ++ rest :=
      (List.append_assoc _ _ _).symm
    have htiled := Tiled.token (hpiece gap _ htext hgap) hlongest hplace h
    rw [List.append_assoc piece, List.append_assoc piece] at htiled
    exact htiled

-- A token in front, without a gap before it.
theorem lexeme {kind : TokenKind} {lexeme : List Char} (hlongest : Longest kind lexeme text)
    (h : Tiled (front ++ lexeme) text tokens) : Tiled front (lexeme ++ text)
      (⟨kind, String.ofList lexeme, Position.endOf front⟩ :: tokens) := by
  have htoken : (String.ofList lexeme).toList = lexeme := String.toList_ofList
  have hfront : front ++ [] = front := List.append_nil front
  have htiled : Tiled front ([] ++ (String.ofList lexeme).toList ++ text)
      (⟨kind, String.ofList lexeme, Position.endOf front⟩ :: tokens) := by
    apply Tiled.token (t := ⟨kind, String.ofList lexeme, Position.endOf front⟩) .nil
    · rwa [htoken]
    · rw [hfront]
    · rwa [hfront, htoken]
  rwa [htoken] at htiled

-- No token is an end of file.
theorem kind_ne_eof (h : Tiled front text tokens) : ∀ t ∈ tokens, t.kind ≠ .eof := by
  induction h with
  | last => exact List.forall_mem_nil _
  | token _ hlongest _ _ ih => exact List.forall_mem_cons.mpr ⟨hlongest.isLexeme.kind_ne_eof, ih⟩

-- The tokens stand in the text, one behind the other.
theorem before (h : Tiled front text tokens) :
    (∀ t ∈ tokens, ¬ t.position.Before (Position.endOf front) ∧
      t.position.Before (Position.endOf (front ++ text))) ∧
    tokens.Pairwise (·.position.Before ·.position) := by
  induction h with
  | last => exact ⟨List.forall_mem_nil _, .nil⟩
  | @token front gap rest t tokens hgap hlongest hplace h ih =>
    obtain ⟨hbounds, hpairwise⟩ := ih
    have hne := hlongest.isLexeme.ne_nil
    have hbehind : t.position.Before (Position.endOf (front ++ gap ++ t.text.toList)) := by
      rw [hplace]
      exact Position.before_endOf_append _ hne
    have hlater (u : Token) (hu : u ∈ tokens) : t.position.Before u.position :=
      hbehind.trans_not (hbounds u hu).1
    have hfront : ¬ t.position.Before (Position.endOf front) := by
      rw [hplace]
      exact Position.not_endOf_append_before _ _
    have hend : t.position.Before (Position.endOf (front ++ (gap ++ t.text.toList ++ rest))) := by
      rw [hplace, List.append_assoc gap, ← List.append_assoc front]
      exact Position.before_endOf_append _ (List.append_ne_nil_of_left_ne_nil hne rest)
    refine ⟨List.forall_mem_cons.mpr ⟨⟨hfront, hend⟩, fun u hu => ⟨?_, ?_⟩⟩,
      .cons hlater hpairwise⟩
    · exact fun hbefore => hfront ((hlater u hu).trans hbefore)
    · have hlast := (hbounds u hu).2
      rwa [List.append_assoc front, List.append_assoc front] at hlast

end Tiled

/-- The tokens of a text tile it. -/
theorem tiled_segments (front text : List Char) :
    Tiled front text ((Segment.placed (Position.endOf front) (segments text)).filterMap
      fun (s, p) => s.token? p) := by
  fun_induction segments text generalizing front with
  | case1 => exact .last (.inl .nil)
  | case2 c rest ih =>
    have hfirst := Segment.reading_first c rest
    have htext := Segment.first_text c rest
    generalize Segment.first c rest = piece at *
    obtain ⟨s, behind⟩ := piece
    dsimp only at *
    rw [Segment.placed, Position.past_endOf, List.filterMap_cons, ← htext]
    specialize ih (front ++ s.text)
    cases hfirst with
    | gap hkind hgap =>
      rw [Segment.token?, hkind]
      exact ih.gap hgap
    | @openComment body hkind hopen hbody =>
      rw [Segment.token?, hkind, hopen, segments, List.append_nil]
      exact .last (.inr ⟨[], body, rfl, .nil, hbody⟩)
    | @token _ kind hkind hlongest =>
      rw [Segment.token?, hkind]
      exact ih.lexeme hlongest

-- The tokens of a source tile it, and the end of file stands behind them.
theorem exists_tiled_tokenize (source : String) :
    ∃ tokens, (tokenize source).tokens =
        tokens ++ [Token.endOfFile (Position.endOf source.toList)] ∧
      Tiled [] source.toList tokens := by
  refine ⟨_, ?_, tiled_segments [] source.toList⟩
  rw [← Position.past_start source.toList]
  rfl

-- All tokens of a source are ahead of the parse that reads them, up to the end of file.
theorem ahead_append_ending_tokenize (source : String) :
    (TokenStream.ofTokens (tokenize source).tokens).ahead ++
      [(TokenStream.ofTokens (tokenize source).tokens).ending] = (tokenize source).tokens := by
  obtain ⟨tokens, heq, htiled⟩ := exists_tiled_tokenize source
  have hkinds : ∀ t ∈ tokens, (!(t.kind == .eof)) = true := by
    intro t ht
    simpa using htiled.kind_ne_eof t ht
  have hahead : (TokenStream.ofTokens (tokenize source).tokens).ahead = tokens := by
    show (tokenize source).tokens.takeWhile (fun t => !(t.kind == .eof)) = tokens
    rw [heq, List.takeWhile_append_of_pos hkinds]
    exact List.append_nil tokens
  have hending : (TokenStream.ofTokens (tokenize source).tokens).ending =
      Token.endOfFile (Position.endOf source.toList) := by
    have hnone : tokens.find? (fun t => t.kind == .eof) = none :=
      List.find?_eq_none.mpr fun t ht => by simpa using htiled.kind_ne_eof t ht
    unfold TokenStream.ofTokens
    rw [heq, List.find?_append, hnone]
    rfl
  rw [hahead, hending, heq]

/-- Every token of a source stands behind the one before, and so does the end of file. -/
theorem pairwise_tokens_tokenize (source : String) :
    (tokenize source).tokens.Pairwise (·.position.Before ·.position) := by
  obtain ⟨tokens, heq, htiled⟩ := exists_tiled_tokenize source
  obtain ⟨hbounds, hpairwise⟩ := htiled.before
  rw [heq]
  exact pairwise_append_singleton.mpr ⟨hpairwise, fun t ht => (hbounds t ht).2⟩

/-- The text of a source is a gap, a token, a gap and so on, up to a last gap that may end in an
open comment. The tokens are the longest lexemes at their places and stand where the newlines and
the characters in front of them say, each behind the one before; the one end of file has no text
and stands at the end. -/
theorem tokenize_tiles (source : String) :
    ∃ tokens, (tokenize source).tokens = tokens ++ [⟨.eof, "", Position.endOf source.toList⟩] ∧
      (∀ t ∈ tokens, t.kind ≠ .eof) ∧ Tiled [] source.toList tokens ∧
      (tokenize source).tokens.Pairwise (·.position.Before ·.position) := by
  obtain ⟨tokens, heq, htiled⟩ := exists_tiled_tokenize source
  exact ⟨tokens, heq, htiled.kind_ne_eof, htiled, pairwise_tokens_tokenize source⟩

-- Two comments, the second of which is not closed.
def commentedSource : String := "a/*b*/==c\n/*d"

/-- The tokens between two comments tile a source together with them. -/
theorem tokenize_tiles_of_comments :
    ∃ tokens, tokens.map (·.text) = ["a", "==", "c"] ∧ (∀ t ∈ tokens, t.kind ≠ .eof) ∧
      Tiled [] commentedSource.toList tokens := by
  obtain ⟨tokens, heq, hkinds, htiled, -⟩ := tokenize_tiles commentedSource
  have htexts : (tokenize commentedSource).tokens.map (·.text) = ["a", "==", "c"] ++ [""] := by
    decide +kernel
  rw [heq, List.map_append] at htexts
  exact ⟨tokens, List.append_cancel_right htexts, hkinds, htiled⟩

end MiniJava
