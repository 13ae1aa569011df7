import MiniJava.Proofs.Progress.Loops
import MiniJava.Session

/-!
# The cursor of a session — forward, and never behind the end of file

A parse that reads a session from some place moves through its tokens up to the first end of file
there, which it does not pass (`Session.getElem?_cursor`, `Session.cursor_le_stop`). No parser moves
back, and every loop ends after rounds each of which passes a token (`Progress`). So wherever a
session stands in its list, reading from there ends at a place of the list that is not behind that
end of file.
-/

namespace MiniJava

open Parse

/-- Under `c` no parser moves back, and each loop, run with the bound that the parsers give it, ends
with what its rounds give when they are repeated without a bound. -/
structure Progress (c : ParseContext) : Prop where
  expression (levels : Nat) : (Expr.parse levels).Forward
  statement (levels : Nat) : (Statement.parse levels).Forward
  classDecl : ClassDecl.parse.Forward
  program : Program.parse.Forward
  args (levels : Nat) (s : ParseState) :
    Repeats (Expr.argsRound (Expr.parse levels)) c [] s
      ((do Expr.parseMoreArgs (Expr.parse levels) (← bound)) c s)
  tails (levels : Nat) (e : Expr) (s : ParseState) :
    Repeats (Expr.tailsRound (Expr.parse levels)) c e s
      ((do Expr.parseTails (Expr.parse levels) (← bound) e) c s)
  operators (levels precedences low : Nat) (left : Expr) (s : ParseState) :
    let right := Expr.parseChain
      (Expr.parseOperand (Expr.parse levels) (Expr.parseNegand levels)) precedences
    Repeats (Expr.infixRound right low) c left s
      ((do Expr.parseInfix right low (← bound) left) c s)
  statements (levels : Nat) (s : ParseState) :
    Repeats (Statement.manyRound (Statement.parse levels)) c [] s
      ((do Statement.parseMany (Statement.parse levels) (← bound)) c s)
  params (s : ParseState) :
    Repeats Method.paramsRound c [] s ((do Method.parseMoreParams (← bound)) c s)
  members (s : ParseState) :
    Repeats ClassDecl.membersRound c ([], []) s ((do ClassDecl.parseMembers (← bound)) c s)
  classes (s : ParseState) :
    Repeats ClassDecl.manyRound c [] s ((do ClassDecl.parseMany (← bound)) c s)

-- The bound of a loop is higher than the number of tokens ahead.
theorem progress {c : ParseContext} (hending : c.ending.kind = .eof) : Progress c where
  expression := forward_expression
  statement := forward_statement
  classDecl := forward_class
  program := forward_program
  args levels s := Expr.repeats_args (forward_expression levels) hending (Nat.lt_succ_self _)
  tails levels e s := Expr.repeats_tails (forward_expression levels) hending e (Nat.lt_succ_self _)
  operators levels precedences low left s := by
    have hhead := lifts_forward.begins_operand (lifts_forward.expr_parse levels).1
      (lifts_forward.expr_parse levels).2
    have hright (p : Nat) := lifts_forward.of_begins (lifts_forward.begins_chain hhead precedences p)
    exact Expr.repeats_infix hright low hending left (Nat.lt_succ_self _)
  statements levels s :=
    Statement.repeats_many (passes_statement levels) (forward_statement levels) hending
      (Nat.lt_succ_self _)
  params s := Method.repeats_params hending (Nat.lt_succ_self _)
  members s := ClassDecl.repeats_members hending (Nat.lt_succ_self _)
  classes s := ClassDecl.repeats_many hending (Nat.lt_succ_self _)

/-! ## Places -/

-- A list with an end of file is what is in front of the first one, that one and what is behind.
theorem TokenStream.exists_eq_append {tokens : List Token} (h : ∃ t ∈ tokens, t.kind = .eof) :
    ∃ behind, tokens = (ofTokens tokens).ahead ++ (ofTokens tokens).ending :: behind := by
  obtain ⟨t, ht, hkind⟩ := h
  cases hfind : tokens.find? (·.kind == .eof) with
  | none => exact absurd (beq_iff_eq.mpr hkind) (List.find?_eq_none.mp hfind t ht)
  | some ending =>
    obtain ⟨heof, front, behind, heq, hfront⟩ := List.find?_eq_some_iff_append.mp hfind
    have hahead : (ofTokens tokens).ahead = front := by
      show tokens.takeWhile (fun t => !(t.kind == .eof)) = front
      rw [heq, List.takeWhile_append_of_pos hfront, List.takeWhile_cons_of_neg (by simpa using heof),
        List.append_nil]
    have hending : (ofTokens tokens).ending = ending := by
      unfold ofTokens
      rw [hfind, Option.getD_some]
    rw [hahead, hending]
    exact ⟨behind, heq⟩

namespace Session

/-- Where a parse stands in the list of tokens that has `ahead` ahead of it. -/
def cursor (s : Session) (ahead : List Token) : Nat :=
  s.position + (s.stream.ahead.length - ahead.length)

/-- Where the end of file stands that the next parse does not pass. -/
def stop (s : Session) : Nat := s.cursor []

-- A list that was closed has an end of file at its end.
theorem exists_closed_eq (tokens : List Token) :
    ∃ front last, closed tokens = front ++ [last] ∧ last.kind = .eof := by
  unfold closed
  cases hlast : tokens.getLast? with
  | none => exact ⟨[], _, rfl, rfl⟩
  | some last =>
    by_cases hkind : last.kind = .eof
    · obtain ⟨front, heq⟩ := List.getLast?_eq_some_iff.mp hlast
      exact ⟨front, last, by simp only [if_pos hkind, heq], hkind⟩
    · exact ⟨tokens, Token.endOfFile last.position, by simp only [if_neg hkind], rfl⟩

variable {s : Session}

-- The tokens are those that were read, those ahead, the end of file and what is behind it.
theorem exists_tokens_eq {front : List Token} {last : Token} (htokens : s.tokens = front ++ [last])
    (hlast : last.kind = .eof) (hposition : s.position < s.tokens.length) :
    ∃ read behind, read.length = s.position ∧
      s.tokens = read ++ (s.stream.ahead ++ s.stream.ending :: behind) := by
  have hmem : last ∈ s.tokens.drop s.position := by
    rw [htokens] at hposition ⊢
    rw [List.length_append, List.length_singleton] at hposition
    rw [List.drop_append_of_le_length (by omega)]
    exact List.mem_append_right _ List.mem_cons_self
  obtain ⟨behind, heq⟩ := TokenStream.exists_eq_append ⟨last, hmem, hlast⟩
  refine ⟨s.tokens.take s.position, behind, List.length_take_of_le (Nat.le_of_lt hposition), ?_⟩
  have hstream : s.stream = TokenStream.ofTokens (s.tokens.drop s.position) := rfl
  rw [hstream, ← heq]
  exact (List.take_append_drop _ _).symm

-- Wherever a parse stands, the token it looks at is the one that the list has at this place.
theorem getElem?_cursor {read behind ahead : List Token} (hread : read.length = s.position)
    (htokens : s.tokens = read ++ (s.stream.ahead ++ s.stream.ending :: behind))
    (hahead : ahead <:+ s.stream.ahead) :
    s.tokens[s.cursor ahead]? = some (ahead.headD s.stream.ending) := by
  obtain ⟨passed, hpassed⟩ := hahead
  have hcursor : s.cursor ahead = (read ++ passed).length := by
    unfold cursor
    rw [← hpassed, List.length_append, List.length_append, hread]
    omega
  have hsplit : s.tokens = (read ++ passed) ++ (ahead ++ s.stream.ending :: behind) := by
    rw [htokens, ← hpassed]
    simp only [List.append_assoc]
  rw [hcursor, hsplit, List.getElem?_append_right (Nat.le_refl _), Nat.sub_self]
  cases ahead with
  | nil => rfl
  | cons t ahead => rfl

-- A parse stands between its beginning and the end of file.
theorem cursor_le_stop (s : Session) (ahead : List Token) :
    s.position ≤ s.cursor ahead ∧ s.cursor ahead ≤ s.stop := by
  unfold stop cursor
  rw [List.length_nil]
  omega

/-- Reading from any place of a list of tokens, under either policy: every loop of the parser ends,
after rounds that each pass a token, and no parser moves back. The end of file that stops the parse
is the first one at or behind the beginning. Wherever the parse stands, it is not behind that end of
file, and the token it looks at is the one at this place of the list; so it is where it ends. -/
theorem read_progresses (tokens : List Token) (position : Fin (closed tokens).length)
    (policy : ErrorPolicy) (lexical : List LexicalError) :
    let s : Session := ⟨closed tokens, position, policy, lexical⟩
    Progress ⟨policy, s.stream.ending⟩ ∧
      (∀ i, s.position ≤ i → i < s.stop → ∃ t, s.tokens[i]? = some t ∧ t.kind ≠ .eof) ∧
      (∃ t, s.tokens[s.stop]? = some t ∧ t.kind = .eof) ∧
      (∀ ahead, ahead <:+ s.stream.ahead →
        s.position ≤ s.cursor ahead ∧ s.cursor ahead ≤ s.stop ∧
        s.tokens[s.cursor ahead]? = some (ahead.headD s.stream.ending)) ∧
      ∃ ahead, ahead <:+ s.stream.ahead ∧ s.read.2.position = s.cursor ahead ∧
        s.read.2.tokens = s.tokens := by
  intro s
  obtain ⟨front, last, hclosed, hlast⟩ := exists_closed_eq tokens
  obtain ⟨read, behind, hread, htokens⟩ := exists_tokens_eq (s := s) hclosed hlast position.isLt
  have hending := TokenStream.kind_ending_ofTokens (s.tokens.drop s.position)
  refine ⟨progress hending, fun i hle hlt => ?_, ?_, fun ahead hahead => ?_, ?_⟩
  · -- A place in front of the end of file is where a parse stands that has some tokens ahead.
    have hlength : s.stop = s.position + s.stream.ahead.length := rfl
    have hdrop := List.drop_suffix (i - s.position) s.stream.ahead
    have hcursor : s.cursor (s.stream.ahead.drop (i - s.position)) = i := by
      unfold cursor
      rw [List.length_drop]
      omega
    have hget := getElem?_cursor hread htokens hdrop
    rw [hcursor] at hget
    refine ⟨_, hget, ?_⟩
    cases hrest : s.stream.ahead.drop (i - s.position) with
    | nil =>
      have hshort := List.drop_eq_nil_iff.mp hrest
      omega
    | cons t rest =>
      rw [hrest] at hdrop
      exact TokenStream.kind_ne_eof_of_mem_ahead (hdrop.subset List.mem_cons_self)
  · exact ⟨_, getElem?_cursor hread htokens (List.nil_suffix), hending⟩
  · obtain ⟨hle, hstop⟩ := s.cursor_le_stop ahead
    exact ⟨hle, hstop, getElem?_cursor hread htokens hahead⟩
  · exact ⟨_, forward_program ⟨policy, s.stream.ending⟩ ⟨s.stream.ahead, []⟩, rfl, rfl⟩

-- A list with an end of file inside and none at its end.
def interruptedTokens : List Token :=
  [⟨.identifier, "a", ⟨1, 1⟩⟩, ⟨.eof, "", ⟨1, 2⟩⟩, ⟨.identifier, "b", ⟨1, 3⟩⟩]

/-- A parse stops at the end of file inside the list, and one that begins behind it at the end of
file that was added. -/
theorem read_progresses_of_interrupted :
    let s : Session := ⟨closed interruptedTokens, 0, .recover, []⟩
    let s' : Session := ⟨closed interruptedTokens, 2, .recover, []⟩
    (s.stop = 1 ∧ ∃ t, s.tokens[0]? = some t ∧ t.kind ≠ .eof) ∧
    (s'.stop = 3 ∧ s'.tokens[s'.cursor []]? = some ⟨.eof, "", ⟨1, 3⟩⟩) ∧
    ∃ ahead, ahead <:+ s.stream.ahead ∧ s.read.2.position = s.cursor ahead := by
  intro s s'
  have hstop : s.stop = 1 := by decide +kernel
  have hstop' : s'.stop = 3 := by decide +kernel
  obtain ⟨-, hbefore, -, -, ahead, hahead, hread, -⟩ :=
    read_progresses interruptedTokens ⟨0, by decide⟩ .recover []
  obtain ⟨-, -, -, hplaces, -⟩ := read_progresses interruptedTokens ⟨2, by decide⟩ .recover []
  refine ⟨⟨hstop, hbefore 0 (Nat.le_refl 0) ?_⟩, ⟨hstop', ?_⟩, ahead, hahead, hread⟩
  · show 0 < s.stop
    omega
  · exact (hplaces [] List.nil_suffix).2.2

end Session

end MiniJava
