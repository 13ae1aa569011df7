import MiniJava.Proofs.Relabeling.Session
import MiniJava.Proofs.Tiling.Faults

/-!
# Layout — what stands between tokens does not matter

A separator is made of blanks, of comments that are closed and of comments that end with their line.
`Layout words text` says that a text consists of the words, each but the last one with a separator
behind it that begins with a blank. If the words are those of the tokens of a source, such a text has
the same tokens and the same faults as the source, and it is read like the source, up to positions
(`parse_layout`).
-/

namespace MiniJava

/-! ## Layouts -/

/-- Blanks, block comments that are closed, and line comments with the newline that ends them. -/
inductive Separator : List Char → Prop where
  | nil : Separator []
  | blank {c : Char} {gap : List Char} (hc : c ∈ [' ', '\t', '\n', '\r']) (h : Separator gap) :
      Separator (c :: gap)
  | lineComment {body gap : List Char} (hbody : '\n' ∉ body) (h : Separator gap) :
      Separator ('/' :: '/' :: (body ++ '\n' :: gap))
  | blockComment {body gap : List Char} (hbody : ¬ ['*', '/'] <:+: body ++ ['*'])
      (h : Separator gap) : Separator ('/' :: '*' :: (body ++ '*' :: '/' :: gap))

/-- The text consists of the words with separators behind them. A separator that is not empty begins
with a blank, and only the last one may be empty. -/
inductive Spaced : List (List Char) → List Char → Prop where
  | nil : Spaced [] []
  | word {w gap text : List Char} {ws : List (List Char)} (hgap : Separator gap)
      (hblank : ∀ c ∈ gap.head?, Segment.isGapChar c = true) (hsplit : ws ≠ [] → gap ≠ [])
      (h : Spaced ws text) : Spaced (w :: ws) (w ++ gap ++ text)

/-- The text consists of the words with separators around them. -/
def Layout (ws : List (List Char)) (text : List Char) : Prop :=
  ∃ lead body, text = lead ++ body ∧ Separator lead ∧ Spaced ws body

/-- The words of some tokens. The end of file has none. -/
def words (tokens : List Token) : List (List Char) :=
  (tokens.filter (·.kind != .eof)).map (·.text.toList)

-- A separator is a gap, whatever is behind it.
theorem Separator.gap {gap : List Char} (h : Separator gap) (behind : List Char) :
    Gap gap behind := by
  induction h with
  | nil => exact .nil
  | blank hc _ ih => exact .blank hc ih
  | lineComment hbody _ ih =>
    refine .lineComment hbody (fun c hc => ?_) (.blank (by decide) ih)
    exact (Option.some.inj hc).symm
  | blockComment hbody _ ih => exact .blockComment hbody ih

-- A separator that begins with a blank.
theorem isGapChar_head {c : Char} (hc : Segment.isGapChar c = true) (gap : List Char) :
    ∀ d ∈ (c :: gap).head?, Segment.isGapChar d = true := by
  intro d hd
  rw [List.head?_cons, Option.mem_some_iff] at hd
  exact hd ▸ hc

/-! ## Tokens -/

-- What is wrong with the tokens of a list.
def tokenFaults (tokens : List Token) : List LexicalFault :=
  tokens.filterMap fun t => lexicalFault? t.kind t.text.toList

-- Lexemes with separators behind them are tokens again, and nothing else is.
theorem Spaced.lexes {tokens : List Token} {text : List Char}
    (h : Spaced (tokens.map (·.text.toList)) text)
    (htokens : ∀ t ∈ tokens, IsLexeme t.kind t.text.toList) (p : Position) :
    (Lexed.ofChars p text).tokens.map (·.lexeme) = tokens.map (·.lexeme) ++ [⟨.eof, ""⟩] ∧
      (Lexed.ofChars p text).errors.map (·.fault) = tokenFaults tokens := by
  induction tokens generalizing text p with
  | nil =>
    cases h
    rw [Lexed.ofChars_nil]
    exact ⟨rfl, rfl⟩
  | cons t tokens ih =>
    obtain ⟨ht, htokens⟩ := List.forall_mem_cons.mp htokens
    rw [List.map_cons] at h
    cases h with
    | @word _ gap text _ hgap hblank hsplit h =>
      have hrest : ∀ c ∈ (gap ++ text).head?, Segment.isGapChar c = true := by
        cases gap with
        | cons c gap => exact hblank
        | nil =>
          -- Nothing is behind the last word.
          have hnil : tokens.map (·.text.toList) = [] := by
            by_contra hne
            exact hsplit hne rfl
          rw [hnil] at h
          cases h
          exact hblank
      obtain ⟨hlexemes, hfaults⟩ := ih h htokens ((p.past t.text.toList).past gap)
      rw [List.append_assoc, Lexed.ofChars_lexeme (ht.longest hrest), Lexed.ofChars_gap (hgap.gap text)]
      constructor
      · rw [List.map_cons, hlexemes, List.map_cons, List.cons_append, Token.lexeme,
          String.ofList_toList]
        rfl
      · rw [List.map_append, hfaults]
        unfold tokenFaults
        rw [List.filterMap_cons]
        cases lexicalFault? t.kind t.text.toList <;> rfl

-- Where no comment is left open, all that is wrong with a text is wrong with its tokens.
theorem Tiled.faults {front text : List Char} {tokens : List Token} (h : Tiled front text tokens)
    (hclosed : ∀ e ∈ (Lexed.ofChars (Position.endOf front) text).errors,
      e.fault ≠ .unterminatedComment) :
    (Lexed.ofChars (Position.endOf front) text).errors.map (·.fault) = tokenFaults tokens := by
  obtain ⟨read, tail, -, -, hlast, herrors⟩ := h.errors
  have hnone : (Lexed.ofChars (Position.endOf (front ++ read)) tail).errors = [] := by
    rcases hlast with hgap | ⟨gap, body, rfl, hgap, hbody⟩
    · have htail := Lexed.ofChars_gap hgap (Position.endOf (front ++ read))
      rw [List.append_nil] at htail
      rw [htail, Lexed.ofChars_nil]
    · rw [Lexed.ofChars_gap hgap, Lexed.ofChars_openComment hbody] at herrors
      refine absurd rfl
        (hclosed ⟨.unterminatedComment, (Position.endOf (front ++ read)).past gap⟩ ?_)
      rw [herrors]
      exact List.mem_append_right _ List.mem_cons_self
  rw [herrors, hnone, List.append_nil, List.map_filterMap]
  unfold tokenFaults Token.lexicalError?
  refine List.filterMap_congr fun t _ => ?_
  rw [Option.map_map]
  exact Option.map_id'

/-! ## Results up to positions -/

def LexicalError.erase (e : LexicalError) : LexicalError := ⟨e.fault, .start⟩

def SyntaxError.erase (e : SyntaxError) : SyntaxError := ⟨e.fault, e.found.erase⟩

/-- What is read from tokens, without positions. -/
def eraseRead : Except (List SyntaxError) Program → Except (List SyntaxError) Program
  | .ok p => .ok p.erase
  | .error es => .error (es.map (·.erase))

/-- What is read from a text, without positions. -/
def eraseResult : Except Diagnostics Program → Except Diagnostics Program
  | .ok p => .ok p.erase
  | .error d => .error ⟨d.lexical.map (·.erase), d.syntactic.map (·.erase)⟩

-- Positions have no part in how the errors of a text are put together.
theorem eraseResult_withLexical (lexical : List LexicalError)
    (result : Except (List SyntaxError) Program) :
    eraseResult (withLexical lexical result) =
      withLexical (lexical.map (·.erase)) (eraseRead result) := by
  cases result with
  | error es => rfl
  | ok p =>
    cases lexical with
    | nil => rfl
    | cons e es => rfl

-- Where the texts are the same, filling in one list or the other makes no difference but positions.
theorem Relabeling.erasing_comp_filling {tokens tokens' : List Token}
    (htexts : tokens.map (·.text) = tokens'.map (·.text)) :
    Relabeling.erasing.comp (.filling tokens) = Relabeling.erasing.comp (.filling tokens') := by
  have htext (ts : List Token) (i : Nat) :
      (ts.getD i default).text = ((ts.map (·.text))[i]?).getD "" := by
    rw [List.getD_eq_getElem?_getD, List.getElem?_map]
    cases ts[i]? <;> rfl
  have hfilled : (fun t : Token => (tokens.getD t.position.line default).text) =
      fun t : Token => (tokens'.getD t.position.line default).text := by
    funext t
    rw [htext, htext, htexts]
  exact congrArg (Relabeling.mk · fun _ => .start) hfilled

/-- Tokens with the same kinds and texts are read alike, up to positions. -/
theorem Outcome.eraseRead_eq {tokens tokens' : List Token}
    (hlexemes : tokens.map (·.lexeme) = tokens'.map (·.lexeme)) (heof : ∃ t ∈ tokens, t.kind = .eof)
    (hplaces : SamePlaces tokens tokens') (policy : ErrorPolicy) :
    eraseRead (ofStream policy (.ofTokens tokens)).result =
      eraseRead (ofStream policy (.ofTokens tokens')).result := by
  have hkinds : tokens.map (·.kind) = tokens'.map (·.kind) := by
    have hmap := congrArg (List.map Lexeme.kind) hlexemes
    rwa [List.map_map, List.map_map] at hmap
  have htexts : tokens.map (·.text) = tokens'.map (·.text) := by
    have hmap := congrArg (List.map Lexeme.text) hlexemes
    rwa [List.map_map, List.map_map] at hmap
  have hfilling := Relabeling.erasing_comp_filling htexts
  rcases reads_alike hkinds heof policy fun _ => hplaces with
    ⟨q, -, hq, hq'⟩ | ⟨es, -, hes, hes'⟩
  · rw [hq, hq', eraseRead, eraseRead, Program.erase_eq_relabel, Program.erase_eq_relabel,
      Program.relabel_relabel, Program.relabel_relabel, hfilling]
  · have herase (r : Relabeling) : (es.map (·.relabel r)).map (·.erase) =
        es.map (·.relabel (.comp .erasing r)) := by
      rw [List.map_map]
      rfl
    rw [hes, hes', eraseRead, eraseRead, herase, herase, hfilling]

/-! ## Sources -/

-- The words of a source are the texts of the tokens that tile it.
theorem words_append_end {tokens : List Token} (h : ∀ t ∈ tokens, t.kind ≠ .eof) (p : Position) :
    words (tokens ++ [Token.endOfFile p]) = tokens.map (·.text.toList) := by
  have hfilter : tokens.filter (·.kind != .eof) = tokens :=
    List.filter_eq_self.mpr fun t ht => by simpa using h t ht
  rw [words, List.filter_append, hfilter]
  exact congrArg _ (List.append_nil tokens)

-- A text in which the words of a source stand is cut as the source is.
theorem Layout.lexes {source source' : String}
    (hclosed : ∀ e ∈ (tokenize source).errors, e.fault ≠ .unterminatedComment)
    (h : Layout (words (tokenize source).tokens) source'.toList) :
    (tokenize source').tokens.map (·.lexeme) = (tokenize source).tokens.map (·.lexeme) ∧
      (tokenize source').errors.map (·.fault) = (tokenize source).errors.map (·.fault) := by
  obtain ⟨tokens, htokens, htiled⟩ := exists_tiled_tokenize source
  rw [htokens, words_append_end htiled.kind_ne_eof] at h
  obtain ⟨lead, body, htext, hlead, hspaced⟩ := h
  have hlexed : tokenize source' = Lexed.ofChars (Position.start.past lead) body := by
    rw [tokenize, htext, Lexed.ofChars_gap (hlead.gap body)]
  obtain ⟨hlexemes, hfaults⟩ := hspaced.lexes htiled.isLexeme (Position.start.past lead)
  constructor
  · rw [hlexed, hlexemes, htokens, List.map_append]
    rfl
  · rw [hlexed, hfaults]
    exact (htiled.faults hclosed).symm

-- The tokens of a source end with an end of file, so that none is added.
theorem Session.closed_tokenize (source : String) :
    closed (tokenize source).tokens = (tokenize source).tokens := by
  obtain ⟨front, hfront, -⟩ := exists_tiled_tokenize source
  rw [hfront]
  exact closed_append_singleton rfl

-- Sources that are cut alike are read alike: no two tokens of a source stand at one position.
theorem eraseRead_tokenize {source source' : String}
    (h : (tokenize source').tokens.map (·.lexeme) = (tokenize source).tokens.map (·.lexeme))
    (policy : ErrorPolicy) :
    eraseRead (Session.readUnder policy (tokenize source').tokens) =
      eraseRead (Session.readUnder policy (tokenize source).tokens) := by
  have heof : ∃ t ∈ (tokenize source').tokens, t.kind = .eof := by
    obtain ⟨front, hfront, -⟩ := exists_tiled_tokenize source'
    rw [hfront]
    exact ⟨_, List.mem_append_right _ List.mem_cons_self, rfl⟩
  have hplaces := samePlaces_of_pairwise (pairwise_tokens_tokenize source')
    (pairwise_tokens_tokenize source)
  rw [Session.readUnder_eq, Session.readUnder_eq, Session.closed_tokenize, Session.closed_tokenize]
  exact Outcome.eraseRead_eq h heof hplaces policy

-- Reading a text is reading its tokens, which end the text already.
theorem parse_eq_readUnder (source : String) (policy : ErrorPolicy) : parse source policy =
    withLexical (tokenize source).errors (Session.readUnder policy (tokenize source).tokens) := by
  rw [Session.readUnder_eq, Session.closed_tokenize]
  rfl

/-- A text that consists of the words of a source, with separators of any kind around them, has the
tokens of the source but for their positions, and the same is wrong with its characters. Under either
policy it is read like the source, up to positions: the same tree, or the same errors. -/
theorem parse_layout (source source' : String)
    (hclosed : ∀ e ∈ (tokenize source).errors, e.fault ≠ .unterminatedComment)
    (hlayout : Layout (words (tokenize source).tokens) source'.toList) :
    (tokenize source').tokens.map (·.lexeme) = (tokenize source).tokens.map (·.lexeme) ∧
      (tokenize source').errors.map (·.fault) = (tokenize source).errors.map (·.fault) ∧
      ∀ policy,
        eraseRead (Session.readUnder policy (tokenize source').tokens) =
          eraseRead (Session.readUnder policy (tokenize source).tokens) ∧
        eraseResult (parse source' policy) = eraseResult (parse source policy) := by
  obtain ⟨hlexemes, hfaults⟩ := hlayout.lexes hclosed
  have herrors : (tokenize source').errors.map (·.erase) = (tokenize source).errors.map (·.erase) := by
    have hmap := congrArg (List.map (LexicalError.mk · .start)) hfaults
    rwa [List.map_map, List.map_map] at hmap
  refine ⟨hlexemes, hfaults, fun policy => ⟨eraseRead_tokenize hlexemes policy, ?_⟩⟩
  rw [parse_eq_readUnder, parse_eq_readUnder, eraseResult_withLexical, eraseResult_withLexical,
    eraseRead_tokenize hlexemes policy, herrors]

-- A lone bar, a misspelled name and a slash.
def crowdedSource : String := "|b²/"

-- The same words with comments between them, which hold words, stars, slashes and a newline.
def spreadSource : String := "// |\n|\t/* b²\n* / */b² //*\n/"

/-- Comments and blanks change neither the tokens of a text nor what is wrong with it. -/
theorem parse_layout_of_spread :
    (∀ e ∈ (tokenize crowdedSource).errors, e.fault ≠ .unterminatedComment) ∧
      Layout (words (tokenize crowdedSource).tokens) spreadSource.toList ∧
      (tokenize spreadSource).tokens.map (·.lexeme) =
        (tokenize crowdedSource).tokens.map (·.lexeme) ∧
      (tokenize spreadSource).errors.map (·.fault) = (tokenize crowdedSource).errors.map (·.fault) ∧
      eraseResult (parse spreadSource .recover) = eraseResult (parse crowdedSource .recover) := by
  have hclosed : ∀ e ∈ (tokenize crowdedSource).errors, e.fault ≠ .unterminatedComment := by
    decide +kernel
  have hlayout : Layout (words (tokenize crowdedSource).tokens) spreadSource.toList := by
    have hwords : words (tokenize crowdedSource).tokens = [['|'], ['b', '²'], ['/']] := by
      decide +kernel
    have hlead : Separator ('/' :: '/' :: ([' ', '|'] ++ '\n' :: [])) := .lineComment (by decide) .nil
    have hblock : Separator ('\t' :: '/' :: '*' ::
        ([' ', 'b', '²', '\n', '*', ' ', '/', ' '] ++ '*' :: '/' :: [])) :=
      .blank (by decide) (.blockComment (by decide) .nil)
    have hline : Separator (' ' :: '/' :: '/' :: (['*'] ++ '\n' :: [])) :=
      .blank (by decide) (.lineComment (by decide) .nil)
    have hslash : Spaced [['/']] (['/'] ++ [] ++ []) := .word .nil nofun nofun .nil
    rw [hwords]
    exact ⟨_, _, rfl, hlead, .word hblock (isGapChar_head rfl _) (fun _ => List.cons_ne_nil _ _)
      (.word hline (isGapChar_head rfl _) (fun _ => List.cons_ne_nil _ _) hslash)⟩
  obtain ⟨hlexemes, hfaults, hparse⟩ := parse_layout crowdedSource spreadSource hclosed hlayout
  exact ⟨hclosed, hlayout, hlexemes, hfaults, (hparse .recover).2⟩

end MiniJava
