import MiniJava.Proofs.Depth.Bounded
import MiniJava.Proofs.Progress.Cursor
import MiniJava.Proofs.Recovery.Diagnostics
import MiniJava.Proofs.Tiling.Source

/-!
# Sessions stay usable

A session may be asked for programs, its lexical errors and another policy in any order. A `Reader`
is a session with what a parse changes besides the place: the errors on record and the depth, with
which the next parse begins. It has no result where a parse would run out of fuel or the first of no
errors were asked for.

It always has one. Whatever was asked for before, a reader does what its session does, and is left
with nothing on record and no level open (`Reader.run_ofSession`). The session keeps its tokens,
does not pass their first end of file, and hands out its lexical errors once
(`Reader.run_stays_usable`).
-/

namespace MiniJava

namespace Session

/-! ## Calls -/

/-- What a session can be asked for. -/
inductive Call where
  | setPolicy (policy : ErrorPolicy)
  | readToFirstError
  | read
  | readWithLexical
  /-- Looks at the lexical errors. -/
  | lexical
  | flushLexical
deriving DecidableEq, Repr, Inhabited

/-- The call hands out the lexical errors. -/
def Call.flushes : Call → Bool
  | readWithLexical | flushLexical => true
  | _ => false

/-- What a session answers. -/
inductive Answer where
  | done
  /-- A program or the first error, alone in its list. -/
  | first (result : Except (List SyntaxError) Program)
  | every (result : Except (List SyntaxError) Program)
  | full (result : Except Diagnostics Program)
  | lexical (errors : List LexicalError)
  | flushed (errors : List LexicalError)

/-- The lexical errors that an answer hands out. -/
def Answer.handedOut : Answer → List LexicalError
  | full (.error d) => d.lexical
  | flushed errors => errors
  | _ => []

/-- Where there is no program, there are errors: exactly one if the first was asked for, and of one
kind or the other if all were. Then there is a program only if no lexical errors were left. The
lexical errors that are looked at are those that were left. -/
def Answer.Sound (left : List LexicalError) : Answer → Prop
  | every (.error es) => es ≠ []
  | first (.error es) => ∃ e, es = [e]
  | full (.error d) => d.lexical ≠ [] ∨ d.syntactic ≠ []
  | full (.ok _) => left = []
  | lexical errors => errors = left
  | _ => True

/-- The answer to a call, and the session behind it. -/
def answer (s : Session) : Call → Answer × Session
  | .setPolicy policy => (.done, s.withPolicy policy)
  | .readToFirstError => (.first s.readToFirstError.1, s.readToFirstError.2)
  | .read => (.every s.read.1, s.read.2)
  | .readWithLexical => (.full s.readWithLexical.1, s.readWithLexical.2)
  | .lexical => (.lexical s.lexical, s)
  | .flushLexical => (.flushed s.flushLexical.1, s.flushLexical.2)

/-- The answers to calls, one after the other, and the session behind them. -/
def run (s : Session) : List Call → List Answer × Session
  | [] => ([], s)
  | call :: calls =>
    let (a, s) := s.answer call
    let (as, s) := s.run calls
    (a :: as, s)

theorem run_append (s : Session) (calls more : List Call) :
    s.run (calls ++ more) =
      ((s.run calls).1 ++ ((s.run calls).2.run more).1, ((s.run calls).2.run more).2) := by
  induction calls generalizing s with
  | nil => rfl
  | cons call calls ih => simp only [List.cons_append, run, ih]

/-! ## Origins -/

/-- What a session is made from. -/
inductive Origin where
  | text (source : String)
  | tokens (tokens : List Token)

namespace Origin

/-- The session before anything was asked for. -/
def session : Origin → Session
  | text source => ofText source
  | tokens ts => ofTokens ts

/-- The tokens of the session. -/
def allTokens : Origin → List Token
  | text source => (tokenize source).tokens
  | tokens ts => closed ts

/-- The lexical errors of the text. -/
def lexical : Origin → List LexicalError
  | text source => (tokenize source).errors
  | tokens _ => []

end Origin

end Session

/-! ## Readers -/

/-- A session with the errors on record and the levels that are open. -/
structure Reader extends Session where
  errors : List SyntaxError
  depth : Nat

namespace Reader

open Session

/-- A session between two parses. -/
def ofSession (s : Session) : Reader := { s with errors := [], depth := 0 }

/-- The result of a parse that ended with these errors on record, and what is left on record: with
a result that has errors, they are taken from it. -/
def resultOf (errors : List SyntaxError) : Except SyntaxError (Option Program) →
    Except (List SyntaxError) Program × List SyntaxError
  | .ok (some program) => if errors = [] then (.ok program, errors) else (.error errors, [])
  | .ok none => (.error errors, [])
  | .error e => (.error (errors ++ [e]), [])

/-- Reads a program under the policy of the session, from the depth and the errors that earlier
parses left, and gives every error. -/
def read (r : Reader) : Option (Except (List SyntaxError) Program × Reader) :=
  let stream := r.stream
  (Production.program.withFuel (11 * maxNesting) ⟨r.policy, stream.ending⟩
    (.before stream.ahead r.errors r.depth)).map fun (value, s) =>
      let (result, errors) := resultOf s.errors value
      (result, { r with position := r.cursor s.ahead, errors := errors, depth := s.depth })

/-- Reads a program up to the first error, which is taken from the list of all. -/
def readToFirstError (r : Reader) : Option (Except (List SyntaxError) Program × Reader) :=
  match { r with policy := .failFast : Reader }.read with
  | some (.ok program, r) => some (.ok program, r)
  | some (.error (e :: _), r) => some (.error [e], r)
  | some (.error [], _) | none => none

/-- The answer to a call, and the reader behind it. -/
def answer (r : Reader) : Call → Option (Answer × Reader)
  | .setPolicy policy => some (.done, { r with policy := policy })
  | .readToFirstError => r.readToFirstError.map fun (result, r) => (.first result, r)
  | .read => r.read.map fun (result, r) => (.every result, r)
  | .readWithLexical =>
    r.read.map fun (result, r) =>
      (.full (withLexical r.lexical result), { r with lexical := [] })
  | .lexical => some (.lexical r.lexical, r)
  | .flushLexical => some (.flushed r.lexical, { r with lexical := [] })

/-- The answers to calls, one after the other, and the reader behind them. -/
def run (r : Reader) : List Call → Option (List Answer × Reader)
  | [] => some ([], r)
  | call :: calls => do
    let (a, r) ← r.answer call
    let (as, r) ← r.run calls
    some (a :: as, r)

/-! ## Readers do what sessions do -/

-- The errors on record are all that a result needs to know of the recoveries, and none are left.
theorem resultOf_recordedErrors (recoveries : List Recovery)
    (value : Except SyntaxError (Option Program)) :
    resultOf (recordedErrors recoveries) value = (Outcome.resultOf recoveries value, []) := by
  cases value with
  | error e => rfl
  | ok program? =>
    cases program? with
    | none => rfl
    | some program =>
      rw [resultOf, Outcome.resultOf]
      by_cases hnone : recoveries = []
      · subst hnone
        rfl
      · rw [if_neg hnone, if_neg (recordedErrors_ne_nil hnone)]

/-- From no errors and no open levels, a reader reads what its session does, and is left with
neither. -/
theorem read_ofSession (s : Session) :
    (ofSession s).read = some (s.read.1, ofSession s.read.2) := by
  let context : ParseContext := ⟨s.policy, s.stream.ending⟩
  obtain ⟨t, hrun, hmatches, hbalanced⟩ := Production.follows_program 0 context
    (.before s.stream.ahead [] 0) ⟨s.stream.ahead, []⟩ (Nat.zero_add _) ⟨rfl, rfl⟩
  have hread : (ofSession s).read = some ((resultOf t.errors _).1,
      ⟨{ s with position := s.cursor t.ahead }, (resultOf t.errors _).2, t.depth⟩) :=
    congrArg (Option.map _) hrun
  have hdepth : t.depth = 0 := hbalanced.depth
  rw [hread, hmatches.ahead, hmatches.errors, resultOf_recordedErrors, hdepth]
  rfl

end Reader

/-! ## What sessions keep -/

namespace Session

-- A parse that gives no program gives an error.
theorem exists_of_read_eq_error {s : Session} {es : List SyntaxError} (h : s.read.1 = .error es) :
    ∃ e more, es = e :: more := by
  replace h : (Outcome.ofStream s.policy s.stream).result = .error es := h
  generalize s.policy = policy at h
  rcases Outcome.ofStream_agrees s.stream with ⟨p, hearly, hfull⟩ | ⟨e, more, hearly, hfull⟩
  · cases policy with
    | failFast => rw [hearly] at h; cases h
    | recover => rw [hfull] at h; cases h
  · cases policy with
    | failFast => exact ⟨e, [], Except.error.inj (h.symm.trans hearly)⟩
    | recover => exact ⟨e, more, Except.error.inj (h.symm.trans hfull)⟩

theorem sound_answer (s : Session) (call : Call) : (s.answer call).1.Sound s.lexical := by
  cases call with
  | readToFirstError =>
    show (Answer.first ((s.withPolicy .failFast).read.1.mapError (·.take 1))).Sound _
    cases hresult : (s.withPolicy .failFast).read.1 with
    | ok p => trivial
    | error all =>
      obtain ⟨e, more, rfl⟩ := exists_of_read_eq_error hresult
      exact ⟨e, rfl⟩
  | read =>
    show (Answer.every s.read.1).Sound _
    cases hresult : s.read.1 with
    | ok p => trivial
    | error es =>
      obtain ⟨e, more, rfl⟩ := exists_of_read_eq_error hresult
      exact List.cons_ne_nil e more
  | readWithLexical =>
    show (Answer.full (withLexical s.lexical s.read.1)).Sound _
    cases hresult : s.read.1 with
    | ok p =>
      rw [withLexical]
      by_cases hlexical : s.lexical = []
      · rw [if_pos hlexical]
        exact hlexical
      · rw [if_neg hlexical]
        exact .inl hlexical
    | error es =>
      obtain ⟨e, more, rfl⟩ := exists_of_read_eq_error hresult
      exact .inr (List.cons_ne_nil e more)
  | lexical => rfl
  | setPolicy | flushLexical => trivial

/-- The session is at a place of these tokens that has no end of file before it. -/
structure StandsIn (tokens : List Token) (s : Session) : Prop where
  tokens : s.tokens = tokens
  position : s.position < s.tokens.length
  before_end : ∀ t ∈ s.tokens.take s.position, t.kind ≠ .eof

/-- The tokens end with an end of file. -/
def IsClosed (tokens : List Token) : Prop :=
  ∃ front last, tokens = front ++ [last] ∧ last.kind = .eof

variable {tokens : List Token} {s : Session}

-- Wherever a parse stands, the tokens it has passed are no ends of file.
theorem StandsIn.move (htokens : IsClosed tokens) (h : StandsIn tokens s) {ahead : List Token}
    (hahead : ahead <:+ s.stream.ahead) :
    StandsIn tokens { s with position := s.cursor ahead } := by
  obtain ⟨front, last, hfront, hlast⟩ := htokens
  obtain ⟨read, behind, hread, hsplit⟩ :=
    exists_tokens_eq (h.tokens.trans hfront) hlast h.position
  have hplace := getElem?_cursor hread hsplit hahead
  obtain ⟨passed, hpassed⟩ := hahead
  have hcursor : s.cursor ahead = (read ++ passed).length := by
    unfold cursor
    rw [← hpassed, List.length_append, List.length_append, hread]
    omega
  have htake : s.tokens.take (s.cursor ahead) = read ++ passed := by
    rw [hcursor, hsplit, ← hpassed, List.append_assoc, ← List.append_assoc read]
    exact List.take_left
  have hreadTake : s.tokens.take s.position = read := by
    rw [hsplit, ← hread]
    exact List.take_left
  refine ⟨h.tokens, (List.getElem?_eq_some_iff.mp hplace).1, fun t ht => ?_⟩
  replace ht : t ∈ read ++ passed := htake ▸ ht
  rcases List.mem_append.mp ht with ht | ht
  · exact h.before_end t (hreadTake.symm ▸ ht)
  · -- What was passed stood in front of the end of file.
    exact TokenStream.kind_ne_eof_of_mem_ahead (hpassed ▸ List.mem_append_left _ ht)

-- A parse ends at such a place, and not further back.
theorem StandsIn.read (htokens : IsClosed tokens) (h : StandsIn tokens s) :
    StandsIn tokens s.read.2 ∧ s.position ≤ s.read.2.position := by
  have hforward := Parse.forward_program ⟨s.policy, s.stream.ending⟩ ⟨s.stream.ahead, []⟩
  exact ⟨h.move htokens hforward, (s.cursor_le_stop _).1⟩

-- Every call leaves the session at such a place, and not further back.
theorem StandsIn.answer (htokens : IsClosed tokens) (h : StandsIn tokens s) (call : Call) :
    StandsIn tokens (s.answer call).2 ∧ s.position ≤ (s.answer call).2.position := by
  cases call with
  | setPolicy policy => exact ⟨⟨h.tokens, h.position, h.before_end⟩, Nat.le_refl _⟩
  | readToFirstError =>
    have hearly : StandsIn tokens (s.withPolicy .failFast) := ⟨h.tokens, h.position, h.before_end⟩
    exact hearly.read htokens
  | read => exact h.read htokens
  | readWithLexical =>
    obtain ⟨hread, hle⟩ := h.read htokens
    exact ⟨⟨hread.tokens, hread.position, hread.before_end⟩, hle⟩
  | lexical => exact ⟨h, Nat.le_refl _⟩
  | flushLexical => exact ⟨⟨h.tokens, h.position, h.before_end⟩, Nat.le_refl _⟩

theorem StandsIn.run (htokens : IsClosed tokens) (calls : List Call) :
    ∀ {s : Session}, StandsIn tokens s → StandsIn tokens (s.run calls).2 := by
  induction calls with
  | nil => exact id
  | cons call calls ih => exact fun h => ih (h.answer htokens call).1

/-! ### Lexical errors -/

theorem lexical_answer (s : Session) (call : Call) :
    (s.answer call).2.lexical = if call.flushes then [] else s.lexical := by
  cases call <;> rfl

-- A call that hands out lexical errors hands out those that the session has.
theorem handedOut_answer (s : Session) (call : Call) :
    (s.answer call).1.handedOut = if call.flushes then s.lexical else [] := by
  cases call with
  | readWithLexical =>
    show (Answer.full (withLexical s.lexical s.read.1)).handedOut = s.lexical
    cases s.read.1 with
    | error es => rfl
    | ok p =>
      rw [withLexical]
      split
      · next hnone => exact hnone.symm
      · rfl
  | _ => rfl

theorem lexical_run (calls : List Call) : ∀ s : Session,
    (s.run calls).2.lexical = if calls.any (·.flushes) then [] else s.lexical := by
  induction calls with
  | nil => exact fun _ => rfl
  | cons call calls ih =>
    intro s
    rw [run, List.any_cons]
    show ((s.answer call).2.run calls).2.lexical = _
    rw [ih, lexical_answer]
    cases call.flushes <;> simp

/-! ### Origins -/

-- Nothing is added to tokens that end with an end of file.
theorem closed_eq (h : IsClosed tokens) : closed tokens = tokens := by
  obtain ⟨front, last, rfl, hlast⟩ := h
  simp [closed, hlast]

namespace Origin

theorem closed_allTokens (origin : Origin) : IsClosed origin.allTokens := by
  cases origin with
  | tokens ts => exact exists_closed_eq ts
  | text source =>
    exact ⟨_, _, (ahead_append_ending_tokenize source).symm, TokenStream.kind_ending_ofTokens _⟩

theorem tokens_session (origin : Origin) : origin.session.tokens = origin.allTokens := by
  cases origin with
  | tokens ts => rfl
  | text source => exact closed_eq (closed_allTokens (.text source))

theorem standsIn_session (origin : Origin) : StandsIn origin.allTokens origin.session := by
  have htokens := origin.tokens_session
  have hposition : origin.session.position = 0 := by cases origin <;> rfl
  refine ⟨htokens, ?_, ?_⟩
  · obtain ⟨front, last, hfront, -⟩ := origin.closed_allTokens
    rw [hposition, htokens, hfront, List.length_append]
    exact Nat.succ_pos _
  · rw [hposition, List.take_zero]
    exact List.forall_mem_nil _

theorem lexical_session (origin : Origin) : origin.session.lexical = origin.lexical := by
  cases origin <;> rfl

end Origin

end Session

/-! ## Every run -/

namespace Reader

open Session

-- The list from which the first error is taken is not empty.
theorem readToFirstError_ofSession (s : Session) :
    (ofSession s).readToFirstError =
      some (s.readToFirstError.1, ofSession s.readToFirstError.2) := by
  let early := s.withPolicy .failFast
  have hearly : s.readToFirstError = (early.read.1.mapError (·.take 1), early.read.2) := rfl
  have hread : { ofSession s with policy := .failFast : Reader }.read =
      some (early.read.1, ofSession early.read.2) := read_ofSession early
  rw [readToFirstError, hread, hearly]
  cases hresult : early.read.1 with
  | ok program => rfl
  | error es =>
    obtain ⟨e, more, rfl⟩ := exists_of_read_eq_error hresult
    rfl

/-- A reader that is left with no errors and no open levels does what its session does, and is left
with none again. -/
theorem answer_ofSession (s : Session) (call : Call) :
    (ofSession s).answer call = some ((s.answer call).1, ofSession (s.answer call).2) := by
  cases call with
  | readToFirstError => exact congrArg (Option.map _) (readToFirstError_ofSession s)
  | read => exact congrArg (Option.map _) (read_ofSession s)
  | readWithLexical => exact congrArg (Option.map _) (read_ofSession s)
  | setPolicy | lexical | flushLexical => rfl

theorem run_ofSession (calls : List Call) : ∀ s : Session,
    (ofSession s).run calls = some ((s.run calls).1, ofSession (s.run calls).2) := by
  induction calls with
  | nil => exact fun _ => rfl
  | cons call calls ih =>
    intro s
    rw [run, answer_ofSession]
    show ((ofSession (s.answer call).2).run calls).bind _ = _
    rw [ih]
    rfl

/-- After any calls a reader answers one more, as its session does, and is left with no errors on
record and no level open. The session has the same tokens, and has moved forward, if at all, to a
place that has no end of file before it. What it answers is sound. The lexical errors are left until
the first call that hands them out, which hands out all of them. -/
theorem run_stays_usable (origin : Origin) (calls : List Call) (call : Call) :
    let s := (origin.session.run calls).2
    let a := (s.answer call).1
    let s' := (s.answer call).2
    (ofSession origin.session).run (calls ++ [call]) =
        some ((origin.session.run calls).1 ++ [a], ⟨s', [], 0⟩) ∧
      s'.tokens = origin.allTokens ∧
      s.position ≤ s'.position ∧ s'.position < s'.tokens.length ∧
      (∀ t ∈ s'.tokens.take s'.position, t.kind ≠ .eof) ∧
      a.Sound s.lexical ∧
      s.lexical = (if calls.any (·.flushes) then [] else origin.lexical) ∧
      a.handedOut = (if call.flushes then s.lexical else []) ∧
      s'.lexical = (if call.flushes then [] else s.lexical) := by
  intro s a s'
  have hrun : (ofSession origin.session).run (calls ++ [call]) =
      some ((origin.session.run calls).1 ++ [a], ⟨s', [], 0⟩) := by
    rw [run_ofSession, run_append]
    rfl
  have hstands : StandsIn origin.allTokens s :=
    origin.standsIn_session.run origin.closed_allTokens calls
  obtain ⟨hstands', hforward⟩ := hstands.answer origin.closed_allTokens call
  have hleft : s.lexical = if calls.any (·.flushes) then [] else origin.lexical := by
    rw [lexical_run, origin.lexical_session]
  exact ⟨hrun, hstands'.tokens, hforward, hstands'.position, hstands'.before_end,
    sound_answer s call, hleft, handedOut_answer s call, lexical_answer s call⟩

-- The lexical error of a stray character is handed out once, after it was looked at.
example :
    let s := ofText "class #"
    (s.run [.lexical, .readWithLexical, .flushLexical]).1.map (·.handedOut.length) = [0, 1, 0] := by
  decide +kernel

end Reader

end MiniJava
