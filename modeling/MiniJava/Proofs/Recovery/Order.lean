import MiniJava.Proofs.Recovery.Diagnostics
import MiniJava.Proofs.Recovery.Settled
import MiniJava.Proofs.Tiling.Source

/-!
# The order of recovered errors

The errors that recovering reports stand one behind the other, each at a token of the text that is
of none of the kinds expected there. Dropping an error because the last one stands at the same
position never drops anything but another error at the end of file: two errors at any other token
are never met, and the last error of all, where neither a class nor the end of file comes, stands
behind everything on record.
-/

namespace MiniJava

open Parse

/-! ## Errors that are kept -/

namespace SyntaxError

-- An error is met before another one, or both are met at the same position.
theorem Precedes.before_or_eq {a b : SyntaxError} (h : a.Precedes b) :
    a.position.Before b.position ∨ a.position = b.position := by
  rcases h with h | ⟨-, h⟩
  · exact .inl h
  · exact .inr (congrArg Token.position h.symm)

end SyntaxError

-- Where the last error that was kept stands elsewhere, an error behind it is behind all of them.
theorem before_of_getLast {kept : List SyntaxError} {e : SyntaxError}
    (hkept : kept.Pairwise (·.position.Before ·.position))
    (hlater : ∀ a ∈ kept, a.position.Before e.position ∨ a.position = e.position)
    (hlast : kept.getLast?.any (·.position == e.position) ≠ true) :
    ∀ a ∈ kept, a.position.Before e.position := by
  cases hkeptLast : kept.getLast? with
  | none =>
    rw [List.getLast?_eq_none_iff.mp hkeptLast]
    exact List.forall_mem_nil _
  | some last =>
    obtain ⟨front, rfl⟩ := List.getLast?_eq_some_iff.mp hkeptLast
    rw [hkeptLast, Option.any_some] at hlast
    have hbefore : last.position.Before e.position :=
      (hlater last (List.mem_append_right _ List.mem_cons_self)).resolve_right
        fun heq => hlast (beq_iff_eq.mpr heq)
    obtain ⟨-, hfront⟩ := pairwise_append_singleton.mp hkept
    refine List.forall_mem_append.mpr ⟨fun a ha => ?_, List.forall_mem_singleton.mpr hbefore⟩
    exact (hfront a ha).trans hbefore

-- Errors that are met in order and kept without repeats stand one behind the other.
theorem pairwise_foldl_keepError (es : List SyntaxError) :
    ∀ kept : List SyntaxError, kept.Pairwise (·.position.Before ·.position) →
      (∀ a ∈ kept, ∀ e ∈ es, a.position.Before e.position ∨ a.position = e.position) →
      es.Pairwise SyntaxError.Precedes →
      (es.foldl keepError kept).Pairwise (·.position.Before ·.position) := by
  induction es with
  | nil => exact fun _ hkept _ _ => hkept
  | cons e es ih =>
    intro kept hkept hlater hes
    obtain ⟨he, hes⟩ := List.pairwise_cons.mp hes
    have hrest : ∀ a ∈ kept, ∀ e' ∈ es, a.position.Before e'.position ∨ a.position = e'.position :=
      fun a ha e' he' => hlater a ha e' (List.mem_cons_of_mem e he')
    rw [List.foldl_cons, keepError]
    by_cases hrepeat : kept.getLast?.any (·.position == e.position) = true
    · rw [if_pos hrepeat]
      exact ih kept hkept hrest hes
    · rw [if_neg hrepeat]
      have hbefore := before_of_getLast hkept (fun a ha => hlater a ha e List.mem_cons_self) hrepeat
      apply ih
      · exact pairwise_append_singleton.mpr ⟨hkept, hbefore⟩
      · refine List.forall_mem_append.mpr ⟨hrest, List.forall_mem_singleton.mpr fun e' he' => ?_⟩
        exact (he e' he').before_or_eq
      · exact hes

-- What is kept is some of what was met.
theorem mem_of_mem_foldl_keepError (es : List SyntaxError) :
    ∀ kept : List SyntaxError, ∀ e ∈ es.foldl keepError kept, e ∈ kept ∨ e ∈ es := by
  induction es with
  | nil => exact fun _ _ => .inl
  | cons e es ih =>
    intro kept e' he'
    rcases ih (keepError kept e) e' he' with hkept | hes
    · unfold keepError at hkept
      split at hkept
      · exact .inl hkept
      · rcases List.mem_append.mp hkept with hkept | hnew
        · exact .inl hkept
        · rw [List.mem_singleton.mp hnew]
          exact .inr List.mem_cons_self
    · exact .inr (List.mem_cons_of_mem e hes)

theorem exists_of_mem_recordedErrors {recoveries : List Recovery} {e : SyntaxError}
    (h : e ∈ recordedErrors recoveries) : ∃ r ∈ recoveries, r.error = e := by
  rcases mem_of_mem_foldl_keepError _ _ e h with hnil | hmem
  · cases hnil
  · exact List.mem_map.mp hmem

theorem pairwise_recordedErrors {recoveries : List Recovery}
    (h : recoveries.Pairwise (·.error.Precedes ·.error)) :
    (recordedErrors recoveries).Pairwise (·.position.Before ·.position) :=
  pairwise_foldl_keepError _ [] .nil (List.forall_mem_nil _) (List.pairwise_map.mpr h)

-- An error that would be dropped as a repeat was found at the end of file.
theorem kind_eq_eof_of_repeat {front back : List Recovery} {r : Recovery}
    (h : (front ++ r :: back).Pairwise (·.error.Precedes ·.error))
    (hrepeat : (recordedErrors front).getLast?.any (·.position == r.error.position) = true) :
    r.error.found.kind = .eof := by
  cases hlast : (recordedErrors front).getLast? with
  | none =>
    rw [hlast] at hrepeat
    cases hrepeat
  | some last =>
    rw [hlast, Option.any_some, beq_iff_eq] at hrepeat
    obtain ⟨q, hq, rfl⟩ := exists_of_mem_recordedErrors (List.mem_of_getLast? hlast)
    rcases (List.pairwise_append.mp h).2.2 q hq r List.mem_cons_self with hbefore | ⟨hkind, hfound⟩
    · exact absurd hrepeat hbefore.ne
    · rwa [hfound]

/-! ## Programs -/

-- Where errors are recovered from, no step fails that may be recovered from.
theorem recovering_ne_error {α : Type} {boundary : Boundary} {step : Parse α} {c : ParseContext}
    {s s' : ParseState} {e : SyntaxError} (hc : c.policy = .recover) :
    recovering boundary step c s ≠ (.error e, s') := by
  intro h
  cases hrun : step c s with
  | mk result u =>
    cases result with
    | ok a =>
      rw [recovering_of_ok boundary hrun] at h
      cases h
    | error e' =>
      rw [recovering_of_recover boundary hc hrun] at h
      cases h

theorem ClassDecl.parseMany_ne_error {c : ParseContext} (hc : c.policy = .recover) {n : Nat} :
    ∀ {s s' : ParseState} {e : SyntaxError}, ClassDecl.parseMany n c s ≠ (.error e, s') := by
  induction n with
  | zero => exact nofun
  | succ n ih =>
    intro s s' e h
    obtain hpeek | ⟨t, u, -, h⟩ := bind_eq_error h
    · cases hpeek
    by_cases hclass : t.kind = .classWord
    · rw [if_pos hclass] at h
      obtain hfirst | ⟨first?, v, -, h⟩ := bind_eq_error h
      · exact recovering_ne_error hc hfirst
      · obtain hrest | ⟨rest, w, -, h⟩ := bind_eq_error h
        · exact ih hrest
        · cases h
    · rw [if_neg hclass] at h
      cases h

-- A program that is recovered in fails only where neither a class nor the end of file comes.
theorem Program.fault_of_parse_eq_error {c : ParseContext} {s s' : ParseState} {e : SyntaxError}
    (hc : c.policy = .recover) (h : Program.parse c s = (.error e, s')) :
    e.fault = .unexpected (NodeKind.followSet .classDecl) := by
  obtain hmain | ⟨main?, u, -, h⟩ := bind_eq_error h
  · exact absurd hmain (recovering_ne_error hc)
  obtain hbound | ⟨n, v, -, h⟩ := bind_eq_error h
  · cases hbound
  obtain hclasses | ⟨classes, w, -, h⟩ := bind_eq_error h
  · exact absurd hclasses (ClassDecl.parseMany_ne_error hc)
  obtain hexpect | ⟨t, x, -, h⟩ := bind_eq_error h
  · rw [expect_run] at hexpect
    split at hexpect
    · cases hexpect
    · cases hexpect
      rfl
  · cases h

-- Reading a source ends in a settled state, and with an error of the next token if with any.
theorem sound_source (source : String) (policy : ErrorPolicy) :
    let tokens := (tokenize source).tokens
    let stream := TokenStream.ofTokens tokens
    let c : ParseContext := ⟨policy, stream.ending⟩
    Sound tokens c (Program.parse c ⟨stream.ahead, []⟩) := by
  intro tokens stream c
  have hsuffix : stream.ahead ++ [c.ending] <:+ tokens :=
    ⟨[], ahead_append_ending_tokenize source⟩
  refine safe_program (pairwise_tokens_tokenize source) c _
    (TokenStream.kind_ending_ofTokens _) ⟨hsuffix, ?_, ?_, ?_, ?_⟩
  · exact fun t => TokenStream.kind_ne_eof_of_mem_ahead
  · exact List.forall_mem_nil _
  · exact .nil
  · exact List.forall_mem_nil _

-- The syntax errors of a result are those on record, and the one with which the parse ended.
theorem errors_of_withLexical_eq_error {lexical : List LexicalError} {recoveries : List Recovery}
    {value : Except SyntaxError (Option Program)} {d : Diagnostics}
    (h : withLexical lexical (Outcome.resultOf recoveries value) = .error d) :
    d.syntactic = [] ∨ d.syntactic = recordedErrors recoveries ∨
      ∃ e, value = .error e ∧ d.syntactic = recordedErrors recoveries ++ [e] := by
  cases value with
  | ok program? =>
    cases program? with
    | some program =>
      rw [Outcome.resultOf] at h
      split at h
      · rw [withLexical] at h
        split at h
        · cases h
        · cases h
          exact .inl rfl
      · cases h
        exact .inr (.inl rfl)
    | none =>
      cases h
      exact .inr (.inl rfl)
  | error e =>
    cases h
    exact .inr (.inr ⟨e, rfl, rfl⟩)

section Ends

variable {tokens : List Token} {c : ParseContext} {s final : ParseState}

-- The error with which a parse ends stands behind everything on record.
theorem before_of_parse_eq_error {e : SyntaxError} (hc : c.policy = .recover)
    (hending : c.ending.kind = .eof) (h : Program.parse c s = (.error e, final))
    (hsound : Sound (α := Option Program) tokens c (.error e, final)) :
    ∀ a ∈ recordedErrors final.recoveries, a.position.Before e.position := by
  intro a ha
  obtain ⟨r, hr, rfl⟩ := exists_of_mem_recordedErrors ha
  obtain ⟨hfound, hkind⟩ := hsound.found e rfl
  rw [SyntaxError.expected, Program.fault_of_parse_eq_error hc h] at hkind
  rcases hsound.settled.behind r hr with hbefore | ⟨hnil, -⟩
  · rwa [SyntaxError.position, SyntaxError.position, hfound]
  · -- At the end of file the parse would not have failed.
    have heof : e.found.kind = .eof := by
      rw [hfound, hnil]
      exact hending
    rw [heof] at hkind
    exact absurd (by decide) hkind

-- What is reported in the end is real, and it is in order.
theorem pairwise_and_real_of_error {value : Except SyntaxError (Option Program)}
    (hc : c.policy = .recover) (hending : c.ending.kind = .eof)
    (h : Program.parse c s = (value, final)) (hsound : Sound tokens c (value, final))
    {lexical : List LexicalError} {d : Diagnostics}
    (hd : withLexical lexical (Outcome.resultOf final.recoveries value) = .error d) :
    d.syntactic.Pairwise (·.position.Before ·.position) ∧ ∀ e ∈ d.syntactic, e.Real tokens := by
  have hordered := pairwise_recordedErrors hsound.settled.ordered
  have hreal : ∀ e ∈ recordedErrors final.recoveries, e.Real tokens := by
    intro e he
    obtain ⟨r, hr, rfl⟩ := exists_of_mem_recordedErrors he
    exact hsound.settled.real r hr
  rcases errors_of_withLexical_eq_error hd with hnil | hrecord | ⟨e, rfl, hrecord⟩
  · rw [hnil]
    exact ⟨.nil, List.forall_mem_nil _⟩
  · rw [hrecord]
    exact ⟨hordered, hreal⟩
  · obtain ⟨hfound, hkind⟩ := hsound.found e rfl
    have hend : e.Real tokens := ⟨hfound ▸ hsound.settled.next_mem, hkind⟩
    rw [hrecord]
    constructor
    · exact pairwise_append_singleton.mpr
        ⟨hordered, before_of_parse_eq_error hc hending h hsound⟩
    · exact List.forall_mem_append.mpr ⟨hreal, List.forall_mem_singleton.mpr hend⟩

end Ends

/-- The errors that recovering from the errors of a source reports stand one behind the other, each
at a token of the source that is of none of the kinds expected there. Of the errors that are met and
recovered from, two stand at the same token only if it is the end of file; so only errors there are
dropped as repeats. If in the end neither a class nor the end of file comes, this error stands
behind all the others. -/
theorem parse_recover_diagnostics (source : String) :
    let tokens := (tokenize source).tokens
    let stream := TokenStream.ofTokens tokens
    let recoveries := (Outcome.ofStream .recover stream).recoveries
    (∀ d, parse source .recover = .error d →
      d.syntactic.Pairwise (·.position.Before ·.position) ∧
      ∀ e ∈ d.syntactic, e.found ∈ tokens ∧ e.found.kind ∉ e.expected) ∧
    (recoveries.Pairwise fun r r' => r.error.position.Before r'.error.position ∨
      (r.error.found.kind = .eof ∧ r'.error.found = r.error.found)) ∧
    (∀ front r back, recoveries = front ++ r :: back →
      (recordedErrors front).getLast?.any (·.position == r.error.position) = true →
      r.error.found.kind = .eof) ∧
    ∀ e, (Program.parse ⟨.recover, stream.ending⟩ ⟨stream.ahead, []⟩).1 = .error e →
      e.fault = .unexpected (NodeKind.followSet .classDecl) ∧
      ∀ last ∈ recordedErrors recoveries, last.position.Before e.position := by
  intro tokens stream recoveries
  have hsound : Sound tokens ⟨.recover, stream.ending⟩
      (Program.parse ⟨.recover, stream.ending⟩ ⟨stream.ahead, []⟩) := sound_source source .recover
  have hending : stream.ending.kind = .eof := TokenStream.kind_ending_ofTokens _
  cases hrun : Program.parse ⟨.recover, stream.ending⟩ ⟨stream.ahead, []⟩ with
  | mk value final =>
    rw [hrun] at hsound
    have hrecoveries : recoveries = final.recoveries := congrArg (·.2.recoveries) hrun
    rw [hrecoveries]
    refine ⟨fun d hd => ?_, hsound.settled.ordered, fun front r back heq hrepeat => ?_,
      fun e he => ?_⟩
    · rw [parse_eq, Outcome.result_ofStream hrun] at hd
      exact pairwise_and_real_of_error rfl hending hrun hsound hd
    · have hordered := hsound.settled.ordered
      rw [heq] at hordered
      exact kind_eq_eof_of_repeat hordered hrepeat
    · subst he
      exact ⟨Program.fault_of_parse_eq_error rfl hrun,
        before_of_parse_eq_error rfl hending hrun hsound⟩

/-- The stream that the parse of a source reads. -/
def sourceStream (source : String) : TokenStream := TokenStream.ofTokens (tokenize source).tokens

-- A missing value, and braces that are not closed.
def unclosedSource : String := "class M \x7b public static void main() \x7b x = ; \x7b"

-- The error at the end of this source.
def unclosedError : SyntaxError := ⟨.unexpected [.rbrace], ⟨.eof, "", ⟨1, 46⟩⟩⟩

-- What is met in this source before the class that is not closed.
def unclosedRecoveries : List Recovery :=
  [⟨missingValue 43, .statement, ⟨1, 43⟩⟩, ⟨unclosedError, .statement, ⟨1, 46⟩⟩]

-- A word behind the last class.
def trailingSource : String := "class M \x7b public static void main() \x7b \x7d \x7d int"

/-- Of the three errors that are met in a source that ends too early, the last one repeats the
second one at the end of file. A word behind the last class ends a parse with nothing on record. -/
theorem parse_recover_of_unclosed :
    (parse unclosedSource .recover = .error ⟨[], [missingValue 43, unclosedError]⟩ ∧
      (missingValue 43).position.Before unclosedError.position) ∧
    ((Outcome.ofStream .recover (sourceStream unclosedSource)).recoveries =
        unclosedRecoveries ++ ⟨unclosedError, .classDecl, ⟨1, 46⟩⟩ :: [] ∧
      (recordedErrors unclosedRecoveries).getLast?.any (·.position == unclosedError.position) =
        true ∧
      unclosedError.found.kind = .eof) ∧
    ∃ e, (Program.parse ⟨.recover, (sourceStream trailingSource).ending⟩
        ⟨(sourceStream trailingSource).ahead, []⟩).1 = .error e ∧
      e.fault = .unexpected (NodeKind.followSet .classDecl) := by
  have hparse : parse unclosedSource .recover =
      .error ⟨[], [missingValue 43, unclosedError]⟩ := by decide +kernel
  have hrecoveries : (Outcome.ofStream .recover (sourceStream unclosedSource)).recoveries =
      unclosedRecoveries ++ ⟨unclosedError, .classDecl, ⟨1, 46⟩⟩ :: [] := by decide +kernel
  have hrepeat : (recordedErrors unclosedRecoveries).getLast?.any
      (·.position == unclosedError.position) = true := by decide +kernel
  have htrailing : (Program.parse ⟨.recover, (sourceStream trailingSource).ending⟩
      ⟨(sourceStream trailingSource).ahead, []⟩).1 =
      .error ⟨.unexpected (NodeKind.followSet .classDecl), ⟨.intWord, "int", ⟨1, 43⟩⟩⟩ := by
    decide +kernel
  obtain ⟨herrors, -, hrepeats, -⟩ := parse_recover_diagnostics unclosedSource
  obtain ⟨-, -, -, hlast⟩ := parse_recover_diagnostics trailingSource
  have hordered := (herrors _ hparse).1
  refine ⟨⟨hparse, (List.pairwise_cons.mp hordered).1 _ List.mem_cons_self⟩, ?_, ?_⟩
  · exact ⟨hrecoveries, hrepeat, hrepeats _ _ _ hrecoveries hrepeat⟩
  · exact ⟨_, htrailing, (hlast _ htrailing).1⟩

end MiniJava
