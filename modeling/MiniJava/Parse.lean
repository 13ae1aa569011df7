import MiniJava.Diagnostic.Syntactic
import MiniJava.Grammar

/-!
# Parsing — reading tokens one by one

A parser stands before the tokens that are still ahead, up to the next end of file, and either gives
a value or fails with a syntax error; in both cases it may have moved forward, and it never moves
back. `accept` and `expect` are the only steps that pass a token.

A step under `recovering` may fail without failing the whole parse: when errors are to be recovered
from, the error goes on record and tokens are skipped up to a boundary where reading can go on.
Skipping passes at least one token since the step began, unless the end of file is next.
-/

namespace MiniJava

/-- What to do after a syntax error. -/
inductive ErrorPolicy where
  /-- Give up at the first error. -/
  | failFast
  /-- Put the error on record, skip to a boundary and go on. -/
  | recover
deriving DecidableEq, Repr, Inhabited

/-- The policy as messages name it. -/
def ErrorPolicy.name : ErrorPolicy → String
  | failFast => "FailFast"
  | recover => "Recover"

/-- Where reading can go on after an error. -/
inductive Boundary where
  | statement | classDecl
deriving DecidableEq, Repr, Inhabited

/-- An error that was recovered from, and where the skipping began. -/
structure Recovery where
  error : SyntaxError
  boundary : Boundary
  skippedFrom : Position
deriving DecidableEq, Repr, Inhabited

/-! ## Token streams -/

/-- The tokens up to the next end of file, and the end of file. -/
structure TokenStream where
  ahead : List Token
  ending : Token
deriving DecidableEq, Repr, Inhabited

namespace TokenStream

/-- Cuts a list of tokens at its first end of file. A list that has none ends where its last token
stands, or at the start of the text if it is empty. -/
def ofTokens (tokens : List Token) : TokenStream :=
  { ahead := tokens.takeWhile (·.kind != .eof)
    ending := (tokens.find? (·.kind == .eof)).getD
      (Token.endOfFile ((tokens.getLast?.map (·.position)).getD .start)) }

/-- The token that comes next. -/
def current (s : TokenStream) : Token := s.ahead.headD s.ending

/-- The stream cut from a list holds no end of file ahead. -/
theorem kind_ne_eof_of_mem_ahead {tokens : List Token} {t : Token}
    (h : t ∈ (ofTokens tokens).ahead) : t.kind ≠ .eof := by
  have hall : (ofTokens tokens).ahead.all (·.kind != .eof) = true := List.all_takeWhile
  simpa using List.all_eq_true.mp hall t h

/-- The end of a stream is an end of file. -/
theorem kind_ending_ofTokens (tokens : List Token) : (ofTokens tokens).ending.kind = .eof := by
  unfold ofTokens
  cases hfind : tokens.find? (·.kind == .eof) with
  | none => simp [Token.endOfFile]
  | some t => simpa using List.find?_some hfind

end TokenStream

/-! ## Skipping -/

/-- Skips a broken statement: behind the next semicolon, or up to the next statement boundary once a
token was passed. -/
def skipStatement : Bool → List Token → List Token
  | _, [] => []
  | moved, t :: rest =>
    if t.kind = .semicolon then rest
    else if moved && t.kind.resumesStatement then t :: rest
    else skipStatement true rest

/-- Skips a broken class: up to the next class boundary once a token was passed. -/
def skipClass : Bool → List Token → List Token
  | _, [] => []
  | moved, t :: rest =>
    if moved && t.kind.resumesClass then t :: rest else skipClass true rest

/-- Skips up to a boundary; `moved` says that a token was passed before. -/
def Boundary.skip : Boundary → Bool → List Token → List Token
  | .statement => skipStatement
  | .classDecl => skipClass

theorem skipStatement_suffix (moved : Bool) (ts : List Token) : skipStatement moved ts <:+ ts := by
  fun_induction skipStatement moved ts with
  | case1 => exact List.suffix_refl _
  | case2 => exact List.suffix_cons _ _
  | case3 => exact List.suffix_refl _
  | case4 _ t rest _ _ ih => exact ih.trans (List.suffix_cons _ _)

theorem skipClass_suffix (moved : Bool) (ts : List Token) : skipClass moved ts <:+ ts := by
  fun_induction skipClass moved ts with
  | case1 => exact List.suffix_refl _
  | case2 => exact List.suffix_refl _
  | case3 _ t rest _ ih => exact ih.trans (List.suffix_cons _ _)

/-- Skipping only moves forward. -/
theorem Boundary.skip_suffix (b : Boundary) (moved : Bool) (ts : List Token) :
    b.skip moved ts <:+ ts := by
  cases b
  · exact skipStatement_suffix moved ts
  · exact skipClass_suffix moved ts

/-- Skipping from where a step began passes a token, if there is one. -/
theorem Boundary.length_skip_lt (b : Boundary) {ts : List Token} (h : ts ≠ []) :
    (b.skip false ts).length < ts.length := by
  cases ts with
  | nil => exact absurd rfl h
  | cons t rest =>
    cases b
    · simp only [Boundary.skip, skipStatement, Bool.false_and, Bool.false_eq_true, ite_false]
      split
      · simp
      · exact Nat.lt_succ_of_le (skipStatement_suffix true rest).length_le
    · simp only [Boundary.skip, skipClass, Bool.false_and, Bool.false_eq_true, ite_false]
      exact Nat.lt_succ_of_le (skipClass_suffix true rest).length_le

/-! ## Parsers -/

/-- What stays the same during a parse. -/
structure ParseContext where
  policy : ErrorPolicy
  ending : Token

/-- What a parse changes: the tokens ahead and the errors recovered from. -/
structure ParseState where
  ahead : List Token
  recoveries : List Recovery
deriving DecidableEq, Repr, Inhabited

/-- A parser of `α`. It keeps its state when it fails. -/
def Parse (α : Type) : Type := ParseContext → ParseState → Except SyntaxError α × ParseState

namespace Parse

instance : Monad Parse where
  pure a := fun _ s => (.ok a, s)
  bind p f := fun c s =>
    match p c s with
    | (.ok a, s') => f a c s'
    | (.error e, s') => (.error e, s')

/-- A value alone reads nothing. -/
theorem pure_run {α : Type} (a : α) (c : ParseContext) (s : ParseState) :
    (pure a : Parse α) c s = (.ok a, s) := rfl

/-- What follows a step that succeeded goes on where the step stopped. -/
theorem bind_of_ok {α β : Type} {p : Parse α} {f : α → Parse β} {c : ParseContext}
    {s s' : ParseState} {a : α} (h : p c s = (.ok a, s')) : (p >>= f) c s = f a c s' := by
  show (match p c s with
    | (.ok a, s') => f a c s'
    | (.error e, s') => (.error e, s')) = f a c s'
  rw [h]

/-- What follows a step that failed is not tried. -/
theorem bind_of_error {α β : Type} {p : Parse α} {f : α → Parse β} {c : ParseContext}
    {s s' : ParseState} {e : SyntaxError} (h : p c s = (.error e, s')) :
    (p >>= f) c s = (.error e, s') := by
  show (match p c s with
    | (.ok a, s') => f a c s'
    | (.error e, s') => (.error e, s')) = (.error e, s')
  rw [h]

/-- Two steps succeed if the first does and then the second does. -/
theorem bind_eq_ok {α β : Type} {p : Parse α} {f : α → Parse β} {c : ParseContext}
    {s s' : ParseState} {b : β} :
    (p >>= f) c s = (.ok b, s') ↔ ∃ a t, p c s = (.ok a, t) ∧ f a c t = (.ok b, s') := by
  cases hp : p c s with
  | mk result t =>
    cases result with
    | ok a =>
      rw [bind_of_ok hp]
      constructor
      · intro h
        exact ⟨a, t, rfl, h⟩
      · rintro ⟨a', t', h, h'⟩
        cases h
        exact h'
    | error e =>
      rw [bind_of_error hp]
      constructor
      · intro h
        cases h
      · rintro ⟨a', t', h, -⟩
        cases h

/-- Two steps fail if the first does, or if it succeeds and then the second does. -/
theorem bind_eq_error {α β : Type} {p : Parse α} {f : α → Parse β} {c : ParseContext}
    {s s' : ParseState} {e : SyntaxError} (h : (p >>= f) c s = (.error e, s')) :
    p c s = (.error e, s') ∨ ∃ a t, p c s = (.ok a, t) ∧ f a c t = (.error e, s') := by
  cases hp : p c s with
  | mk result t =>
    cases result with
    | ok a =>
      rw [bind_of_ok hp] at h
      exact .inr ⟨a, t, rfl, h⟩
    | error e' =>
      rw [bind_of_error hp] at h
      cases h
      exact .inl rfl

instance : LawfulMonad Parse := by
  refine LawfulMonad.mk' Parse (fun p => ?_) (fun _ _ => rfl) (fun p f g => ?_)
  · funext c s
    cases hp : p c s with
    | mk result t =>
      cases result with
      | ok a => exact bind_of_ok hp
      | error e => exact bind_of_error hp
  · funext c s
    cases hp : p c s with
    | mk result t =>
      cases result with
      | ok a =>
        rw [bind_of_ok hp]
        show (match (p >>= f) c s with
          | (.ok b, s') => g b c s'
          | (.error e, s') => (.error e, s')) = _
        rw [bind_of_ok hp]
        rfl
      | error e => rw [bind_of_error (bind_of_error hp), bind_of_error hp]

/-- The token that comes next. -/
def peek : Parse Token := fun c s => (.ok (s.ahead.headD c.ending), s)

/-- The kind of the token behind the next one. -/
def peekBehind : Parse TokenKind := fun c s => (.ok (s.ahead.tail.headD c.ending).kind, s)

/-- Fails at the next token. -/
def fail {α : Type} (fault : SyntaxFault) : Parse α :=
  fun c s => (.error ⟨fault, s.ahead.headD c.ending⟩, s)

/-- Passes the next token if it is of one of these kinds. The end of file is never passed. -/
def accept (kinds : List TokenKind) : Parse (Option Token) := fun c s =>
  let t := s.ahead.headD c.ending
  if kinds.contains t.kind then (.ok (some t), { s with ahead := s.ahead.tail }) else (.ok none, s)

/-- Passes the next token, which has to be of one of these kinds. -/
def expect (kinds : List TokenKind) : Parse Token := do
  match ← accept kinds with
  | some t => pure t
  | none => fail (.unexpected kinds)

/-- `expect` looks at the next token alone. -/
theorem expect_run (kinds : List TokenKind) (c : ParseContext) (s : ParseState) :
    expect kinds c s =
      if kinds.contains (s.ahead.headD c.ending).kind then
        (.ok (s.ahead.headD c.ending), { s with ahead := s.ahead.tail })
      else (.error ⟨.unexpected kinds, s.ahead.headD c.ending⟩, s) := by
  by_cases h : kinds.contains (s.ahead.headD c.ending).kind = true
  · have haccept : accept kinds c s =
        (.ok (some (s.ahead.headD c.ending)), { s with ahead := s.ahead.tail }) := if_pos h
    rw [if_pos h]
    exact bind_of_ok haccept
  · have haccept : accept kinds c s = (.ok none, s) := if_neg h
    rw [if_neg h]
    exact bind_of_ok haccept

/-- A bound on how often a step that passes a token can be repeated from here. -/
def bound : Parse Nat := fun _ s => (.ok (s.ahead.length + 1), s)

/-- Runs a step that may fail. Where the policy allows it, its error goes on record, tokens are
skipped up to the boundary, and there is no value. -/
def recovering {α : Type} (boundary : Boundary) (step : Parse α) : Parse (Option α) := fun c s =>
  match step c s with
  | (.ok a, s') => (.ok (some a), s')
  | (.error e, s') =>
    match c.policy with
    | .failFast => (.error e, s')
    | .recover =>
      let moved := decide (s'.ahead.length < s.ahead.length)
      (.ok none,
        { ahead := boundary.skip moved s'.ahead
          recoveries := s'.recoveries ++ [⟨e, boundary, (s'.ahead.headD c.ending).position⟩] })

section Recovering

variable {α : Type} {step : Parse α} {c : ParseContext} {s s' : ParseState} {a : α}
  {e : SyntaxError} (boundary : Boundary)

/-- A step that succeeds gives its value. -/
theorem recovering_of_ok (h : step c s = (.ok a, s')) :
    recovering boundary step c s = (.ok (some a), s') := by
  rw [recovering, h]

/-- Where the first error ends the parse, a step that fails does. -/
theorem recovering_of_failFast (hc : c.policy = .failFast) (h : step c s = (.error e, s')) :
    recovering boundary step c s = (.error e, s') := by
  simp only [recovering, h, hc]

/-- Where errors are recovered from, a step that fails is put on record and skipped. -/
theorem recovering_of_recover (hc : c.policy = .recover) (h : step c s = (.error e, s')) :
    recovering boundary step c s =
      (.ok none,
        { ahead := boundary.skip (decide (s'.ahead.length < s.ahead.length)) s'.ahead
          recoveries := s'.recoveries ++ [⟨e, boundary, (s'.ahead.headD c.ending).position⟩] }) := by
  simp only [recovering, h, hc]

end Recovering

end Parse

end MiniJava
