import MiniJava.Proofs.Acceptance
import MiniJava.Proofs.Expecting.Program
import MiniJava.Proofs.Progress.Cursor

/-!
# Sessions — the kinds that an error names

A session that fails names the kinds it expected at the place where it stopped. Put a token of any
of these kinds there and read again: the parse succeeds, or fails further on, or fails at the same
place because the token would open too many levels (`Session.expected_kinds_are_honoured`). The list
of tokens is closed again before, so that the last end of file may be the token that is replaced.
-/

namespace MiniJava

open Parse

namespace Session

variable {tokens : List Token} {final : ParseState}

/-- What stays the same while a session reads up to the first error. -/
def context (s : Session) : ParseContext := ⟨.failFast, s.stream.ending⟩

/-- The state before the tokens of a session. -/
def start (s : Session) : ParseState := ⟨s.stream.ahead, []⟩

theorem strict_context (tokens : List Token) : (ofTokens tokens).context.Strict where
  policy := rfl
  ending := TokenStream.kind_ending_ofTokens (closed tokens)

/-! ## Results -/

theorem recoveries_of_parse {value : Except SyntaxError (Option Program)}
    (h : Program.parse (ofTokens tokens).context (ofTokens tokens).start = (value, final)) :
    final.recoveries = [] := by
  have hkept := (Program.agrees_parse (ofTokens tokens).stream.ending (ofTokens tokens).start)
  have hrecoveries := hkept.recoveries_early
  rwa [show Program.parse ⟨.failFast, _⟩ _ = _ from h] at hrecoveries

theorem readToFirstError_of_ok {p? : Option Program}
    (h : Program.parse (ofTokens tokens).context (ofTokens tokens).start = (.ok p?, final)) :
    ∃ p, (ofTokens tokens).readToFirstError.1 = .ok p := by
  cases p? with
  | none => exact absurd h (Program.parse_ne_none rfl)
  | some p =>
    refine ⟨p, ?_⟩
    show (Outcome.ofStream .failFast (ofTokens tokens).stream).result.mapError _ = _
    rw [Outcome.result_ofStream h, recoveries_of_parse h]
    rfl

theorem readToFirstError_of_error {e : SyntaxError}
    (h : Program.parse (ofTokens tokens).context (ofTokens tokens).start = (.error e, final)) :
    (ofTokens tokens).readToFirstError.1 = .error [e] := by
  show (Outcome.ofStream .failFast (ofTokens tokens).stream).result.mapError _ = _
  rw [Outcome.result_ofStream h, recoveries_of_parse h]
  rfl

theorem position_readToFirstError {value : Except SyntaxError (Option Program)}
    (h : Program.parse (ofTokens tokens).context (ofTokens tokens).start = (value, final)) :
    (ofTokens tokens).readToFirstError.2.position = (ofTokens tokens).cursor final.ahead := by
  have hahead : (Outcome.ofStream .failFast (ofTokens tokens).stream).ahead = final.ahead :=
    congrArg (fun r => r.2.ahead) h
  show (ofTokens tokens).cursor (Outcome.ofStream .failFast (ofTokens tokens).stream).ahead = _
  rw [hahead]

/-! ## Tokens in place of others -/

section Places

variable {front : List Token}

-- What was passed, the token at which the parse stopped, and those behind it.
theorem exists_closed_eq_passed (h : (ofTokens tokens).start = final.before front) :
    (∃ behind, closed tokens =
      front ++ final.ahead.headD (ofTokens tokens).stream.ending :: behind) ∧
      (∀ t ∈ front, t.kind ≠ .eof) ∧ (ofTokens tokens).cursor final.ahead = front.length := by
  have hahead : (ofTokens tokens).stream.ahead = front ++ final.ahead :=
    congrArg ParseState.ahead h
  obtain ⟨first, last, hclosed, hlast⟩ := exists_closed_eq tokens
  have hmem : ∃ t ∈ closed tokens, t.kind = .eof :=
    ⟨last, hclosed ▸ List.mem_append_right _ (List.mem_singleton_self last), hlast⟩
  obtain ⟨behind, hbehind⟩ := TokenStream.exists_eq_append hmem
  rw [show (TokenStream.ofTokens (closed tokens)).ahead = front ++ final.ahead from hahead,
    List.append_assoc] at hbehind
  refine ⟨?_, fun t ht => ?_, ?_⟩
  · cases hfinal : final.ahead with
    | nil => exact ⟨behind, by rw [hbehind, hfinal]; rfl⟩
    | cons t rest => exact ⟨_, by rw [hbehind, hfinal]; rfl⟩
  · have hmem : t ∈ (ofTokens tokens).stream.ahead := by
      rw [hahead]
      exact List.mem_append_left _ ht
    exact TokenStream.kind_ne_eof_of_mem_ahead hmem
  · show 0 + ((ofTokens tokens).stream.ahead.length - final.ahead.length) = front.length
    rw [hahead, List.length_append]
    omega

-- A parse of tokens without an end of file, one more token and others.
theorem exists_start_eq_before (hfront : ∀ t ∈ front, t.kind ≠ .eof) (t : Token)
    (behind : List Token) :
    ∃ v : ParseState, (ofTokens (front ++ t :: behind)).start = v.before front ∧
      (ofTokens (front ++ t :: behind)).context.nextKind v = t.kind := by
  refine ⟨⟨(t :: behind).takeWhile (·.kind != .eof), []⟩, ?_, ?_⟩
  · unfold start
    rw [ahead_ofTokens, List.takeWhile_append_of_pos fun u hu => by simpa using hfront u hu]
    rfl
  · by_cases heof : t.kind = .eof
    · have hnil : (t :: behind).takeWhile (·.kind != .eof) = [] :=
        List.takeWhile_cons_of_neg (by simp [heof])
      rw [hnil, heof]
      exact (strict_context _).ending
    · rw [List.takeWhile_cons_of_pos (by simp [heof])]
      rfl

/-- What a session does with another token in the place where a parse stopped, if that parse would
read on there. -/
theorem again_of_replaced (hfront : ∀ u ∈ front, u.kind ≠ .eof) {t : Token} {behind : List Token}
    (hagain : ∀ v, (ofTokens (front ++ t :: behind)).context.nextKind v = t.kind →
      (∃ p u, Program.parse (ofTokens (front ++ t :: behind)).context (v.before front) =
        (.ok p, u)) ∨
      Beyond v (Program.parse (ofTokens (front ++ t :: behind)).context (v.before front))) :
    let again := (ofTokens (front ++ t :: behind)).readToFirstError
    (∃ p, again.1 = .ok p) ∨
      ∃ e, again.1 = .error [e] ∧
        (front.length < again.2.position ∨
          (again.2.position = front.length ∧ e.fault = .tooDeep)) := by
  obtain ⟨v, hstart, hnext⟩ := exists_start_eq_before hfront t behind
  have hread := hagain v hnext
  rw [← hstart] at hread
  cases hrun : Program.parse (ofTokens (front ++ t :: behind)).context
      (ofTokens (front ++ t :: behind)).start with
  | mk value final =>
  cases value with
  | ok p? => exact .inl (readToFirstError_of_ok hrun)
  | error e =>
    have hlength : (ofTokens (front ++ t :: behind)).stream.ahead.length =
        front.length + v.ahead.length := by
      rw [← List.length_append]
      exact congrArg (·.ahead.length) hstart
    refine .inr ⟨e, readToFirstError_of_error hrun, ?_⟩
    rw [position_readToFirstError hrun]
    show front.length < 0 + (_ - _) ∨ (0 + (_ - _) = front.length ∧ _)
    rw [hlength, Nat.zero_add]
    rw [hrun] at hread
    rcases hread with ⟨p, u, hok⟩ | hlt | ⟨found, hdeep⟩
    · cases hok
    · have hshorter : final.ahead.length < v.ahead.length := hlt
      omega
    · cases hdeep
      exact .inr ⟨Nat.add_sub_cancel .., rfl⟩

end Places

/-- The kinds that an error names are honoured. A session that fails stops at the token that its one
error names, which is of none of the kinds it expected. With a token of any of these kinds in its
place, the session reads a program, or fails further on, or fails at the same place because of the
levels. -/
theorem expected_kinds_are_honoured (tokens : List Token) {es : List SyntaxError} {s : Session}
    (h : (ofTokens tokens).readToFirstError = (.error es, s)) :
    ∃ e, es = [e] ∧ (closed tokens)[s.position]? = some e.found ∧ e.found.kind ∉ e.expected ∧
      ∀ t : Token, t.kind ∈ e.expected →
        let again := (ofTokens ((closed tokens).set s.position t)).readToFirstError
        (∃ p, again.1 = .ok p) ∨
          ∃ e', again.1 = .error [e'] ∧
            (s.position < again.2.position ∨
              (again.2.position = s.position ∧ e'.fault = .tooDeep)) := by
  cases hrun : Program.parse (ofTokens tokens).context (ofTokens tokens).start with
  | mk value final =>
  cases value with
  | ok p? =>
    obtain ⟨p, hp⟩ := readToFirstError_of_ok hrun
    rw [h] at hp
    cases hp
  | error e =>
    have hes := readToFirstError_of_error hrun
    have hposition := position_readToFirstError hrun
    rw [h] at hes hposition
    obtain ⟨⟨hfound, hkind⟩, front, hstart, hagain⟩ :=
      replays_of_error (strict_context tokens) hrun
    obtain ⟨⟨behind, hclosed⟩, hfront, hcursor⟩ := exists_closed_eq_passed hstart
    have hplace : s.position = front.length := hposition.trans hcursor
    refine ⟨e, by cases hes; rfl, ?_, hkind, fun t ht => ?_⟩
    · rw [hplace, hclosed, List.getElem?_append_right (Nat.le_refl _), Nat.sub_self, hfound]
      rfl
    · have hset : (closed tokens).set s.position t = front ++ t :: behind := by
        rw [hplace, hclosed, List.set_append_right _ _ (Nat.le_refl _), Nat.sub_self]
        rfl
      rw [hset, hplace]
      exact again_of_replaced hfront fun v hnext =>
        hagain _ v (strict_context _) (by rw [hnext]; exact ht)

/-- The tokens of `class a { public static void a() { a.a(a a; } }`. -/
def openCall : List Token :=
  [.classWord, .identifier, .lbrace, .publicWord, .staticWord, .voidWord, .identifier, .lparen,
    .rparen, .lbrace, .identifier, .dot, .identifier, .lparen, .identifier, .identifier, .semicolon,
    .rbrace, .rbrace].map fun kind => (Terminal.plain kind).token

/-- A comma or a parenthesis is expected in place of the second argument. With a parenthesis there
the program is read, and with a comma the parse goes on to the semicolon. -/
theorem kinds_expected_in_open_call :
    let replaced (t : Token) := (ofTokens ((closed openCall).set 15 t)).readToFirstError
    (∃ e s, (ofTokens openCall).readToFirstError = (.error [e], s) ∧
      e.expected = [.comma, .rparen] ∧ s.position = 15 ∧
      ∀ t : Token, t.kind ∈ [TokenKind.comma, .rparen] →
        (∃ p, (replaced t).1 = .ok p) ∨
          ∃ e', (replaced t).1 = .error [e'] ∧
            (15 < (replaced t).2.position ∨
              ((replaced t).2.position = 15 ∧ e'.fault = .tooDeep))) ∧
      (replaced (Terminal.plain .rparen).token).1.isOk ∧
      (replaced (Terminal.plain .comma).token).2.position = 16 := by
  intro replaced
  obtain ⟨s, hs⟩ : ∃ s, (ofTokens openCall).readToFirstError.2 = s := ⟨_, rfl⟩
  have hresult : (ofTokens openCall).readToFirstError.1 =
      .error [⟨.unexpected [.comma, .rparen], (Terminal.plain .identifier).token⟩] := by
    decide +kernel
  have hposition : s.position = 15 := by
    rw [← hs]
    decide +kernel
  have hrun := Prod.ext (y := (_, s)) hresult hs
  obtain ⟨e, hes, -, -, hagain⟩ := expected_kinds_are_honoured openCall hrun
  cases hes
  rw [hposition] at hagain
  exact ⟨⟨_, s, hrun, rfl, hposition, hagain⟩, by decide +kernel, by decide +kernel⟩

end Session

end MiniJava
