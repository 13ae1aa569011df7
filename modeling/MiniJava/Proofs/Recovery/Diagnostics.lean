import MiniJava.Outcome
import MiniJava.Proofs.Derivation.Statement
import MiniJava.Proofs.Recovery.Agreement

/-!
# Diagnostics under the two policies

Both policies accept the same texts and give the same tree. Where a text is rejected, giving up
early reports the lexical errors and the first of the syntax errors that recovering reports, and
sorting the reports by position keeps the shorter one inside the longer one.
-/

namespace MiniJava

open Parse

-- Whether two results are the same can be decided.
instance decidableEqResult {ε α : Type} [DecidableEq ε] [DecidableEq α] :
    DecidableEq (Except ε α)
  | .ok a, .ok b => decidable_of_iff (a = b) ⟨congrArg _, Except.ok.inj⟩
  | .error e, .error e' => decidable_of_iff (e = e') ⟨congrArg _, Except.error.inj⟩
  | .ok _, .error _ => isFalse nofun
  | .error _, .ok _ => isFalse nofun

/-! ## Errors on record -/

-- Keeping errors adds them behind those that were kept.
theorem prefix_foldl_keepError (es : List SyntaxError) :
    ∀ kept : List SyntaxError, kept <+: es.foldl keepError kept := by
  induction es with
  | nil => exact List.prefix_refl
  | cons e es ih =>
    intro kept
    refine List.IsPrefix.trans ?_ (ih (keepError kept e))
    unfold keepError
    split
    · exact List.prefix_refl kept
    · exact List.prefix_append kept [e]

-- The first error on record is reported first.
theorem exists_recordedErrors_cons (r : Recovery) (rs : List Recovery) :
    ∃ more, recordedErrors (r :: rs) = r.error :: more := by
  have hfirst : recordedErrors (r :: rs) = (rs.map (·.error)).foldl keepError [r.error] := by
    simp [recordedErrors, keepError]
  obtain ⟨more, hmore⟩ := prefix_foldl_keepError (rs.map (·.error)) [r.error]
  exact ⟨more, by rw [hfirst, ← hmore, List.singleton_append]⟩

namespace Outcome

theorem result_ofStream {policy : ErrorPolicy} {stream : TokenStream}
    {value : Except SyntaxError (Option Program)} {final : ParseState}
    (h : Program.parse ⟨policy, stream.ending⟩ ⟨stream.ahead, []⟩ = (value, final)) :
    (ofStream policy stream).result = resultOf final.recoveries value := by
  unfold ofStream
  rw [h]

-- An error on record is the first one of the result, however the parse ended.
theorem resultOf_of_recorded (r : Recovery) (rs : List Recovery)
    (value : Except SyntaxError (Option Program)) :
    ∃ more, resultOf (r :: rs) value = .error (r.error :: more) := by
  obtain ⟨more, hmore⟩ := exists_recordedErrors_cons r rs
  cases value with
  | ok program? =>
    cases program? with
    | some program => exact ⟨more, by rw [resultOf, if_neg (List.cons_ne_nil r rs), hmore]⟩
    | none => exact ⟨more, by rw [resultOf, hmore]⟩
  | error e => exact ⟨more ++ [e], by rw [resultOf, hmore, List.cons_append]⟩

end Outcome

-- A parse that gives up at the first error does not skip the main class.
theorem Program.parse_ne_none {c : ParseContext} {s s' : ParseState} (hc : c.policy = .failFast) :
    Program.parse c s ≠ (.ok none, s') := by
  intro h
  replace h := Parse.bind_eq_ok.mp h
  obtain ⟨_, u, hmain, h⟩ := h
  obtain ⟨mainClass, rfl, -⟩ := Statement.recovering_eq_ok hc hmain
  replace h := (bind_of_ok bound_run).symm.trans h
  replace h := Parse.bind_eq_ok.mp h
  obtain ⟨classes, v, -, h⟩ := h
  replace h := Parse.bind_eq_ok.mp h
  obtain ⟨t, w, -, h⟩ := h
  cases h

/-! ## Results -/

/-- Both policies give the same program, or both fail and the first error is the same. -/
theorem Outcome.ofStream_agrees (stream : TokenStream) :
    (∃ p, (ofStream .failFast stream).result = .ok p ∧ (ofStream .recover stream).result = .ok p) ∨
      ∃ e more, (ofStream .failFast stream).result = .error [e] ∧
        (ofStream .recover stream).result = .error (e :: more) := by
  have hagree := Program.agrees_parse stream.ending ⟨stream.ahead, []⟩
  cases hearly : Program.parse ⟨.failFast, stream.ending⟩ ⟨stream.ahead, []⟩ with
  | mk early u =>
    cases hfull : Program.parse ⟨.recover, stream.ending⟩ ⟨stream.ahead, []⟩ with
    | mk full v =>
      rw [result_ofStream hearly, result_ofStream hfull]
      rw [hearly, hfull] at hagree
      cases hagree with
      | same heq hkept =>
        obtain ⟨rfl, rfl⟩ := Prod.mk.inj heq
        rw [show u.recoveries = [] from hkept]
        cases early with
        | ok program? =>
          cases program? with
          | some program => exact .inl ⟨program, rfl, rfl⟩
          -- A parse without recoveries has a main class.
          | none => exact absurd hearly (Program.parse_ne_none rfl)
        | error e => exact .inr ⟨e, [], rfl, rfl⟩
      | parted e boundary skippedFrom more herror hkept hrecord =>
        obtain rfl : early = .error e := herror
        -- The error of one run is on the record of the other, before everything else.
        obtain ⟨more', hmore⟩ := resultOf_of_recorded ⟨e, boundary, skippedFrom⟩ more full
        refine .inr ⟨e, more', ?_, ?_⟩
        · rw [show u.recoveries = [] from hkept]
          rfl
        · rw [show v.recoveries = _ :: more from hrecord, hmore]

-- Reading a text is reading its tokens, with the lexical errors counted in.
theorem parse_eq (source : String) (policy : ErrorPolicy) :
    parse source policy = withLexical (tokenize source).errors
      (Outcome.ofStream policy (TokenStream.ofTokens (tokenize source).tokens)).result := rfl

/-- Both policies give the same tree, or the same lexical errors and, if there are syntax errors,
the same first one. -/
theorem parse_agrees (source : String) :
    (∃ p, parse source .failFast = .ok p ∧ parse source .recover = .ok p) ∨
      ∃ lexical es, (lexical ≠ [] ∨ es ≠ []) ∧
        parse source .failFast = .error ⟨lexical, es.take 1⟩ ∧
        parse source .recover = .error ⟨lexical, es⟩ := by
  rw [parse_eq, parse_eq]
  rcases Outcome.ofStream_agrees (TokenStream.ofTokens (tokenize source).tokens) with
    ⟨p, hearly, hfull⟩ | ⟨e, more, hearly, hfull⟩
  · by_cases hlexical : (tokenize source).errors = []
    · refine .inl ⟨p, ?_, ?_⟩
      · rw [hearly, withLexical, if_pos hlexical]
      · rw [hfull, withLexical, if_pos hlexical]
    · refine .inr ⟨(tokenize source).errors, [], .inl hlexical, ?_, ?_⟩
      · rw [hearly, withLexical, if_neg hlexical, List.take_nil]
      · rw [hfull, withLexical, if_neg hlexical]
  · refine .inr ⟨(tokenize source).errors, e :: more, .inr (List.cons_ne_nil _ _), ?_, ?_⟩
    · rw [hearly]
      rfl
    · rw [hfull]
      rfl

/-! ## Entries -/

-- Sorting keeps what is left out of a list left out, and all else in place.
theorem sublist_mergeSort_of_sublist {α : Type} {le : α → α → Bool}
    (trans : ∀ a b c, le a b → le b c → le a c) (total : ∀ a b, le a b || le b a)
    {l l' : List α} (h : l.Sublist l') : (l.mergeSort le).Sublist (l'.mergeSort le) := by
  induction h with
  | slnil => exact List.Sublist.refl _
  | cons a h ih =>
    rename_i k k'
    obtain ⟨as, bs, hcons, htail, -⟩ := List.mergeSort_cons trans total a k'
    rw [htail] at ih
    rw [hcons]
    exact ih.trans ((List.sublist_cons_self a bs).append_left as)
  | cons_cons a h ih =>
    rename_i k k'
    obtain ⟨as, bs, hcons, htail, has⟩ := List.mergeSort_cons trans total a k
    obtain ⟨as', bs', hcons', htail', has'⟩ := List.mergeSort_cons trans total a k'
    -- What stands behind `a` in a sorted list is not below it.
    have hbs {cs ds js : List α} (hsort : (a :: js).mergeSort le = cs ++ a :: ds) :
        ∀ b ∈ ds, le a b = true := by
      intro b hb
      have hsorted := List.pairwise_mergeSort trans total (a :: js)
      rw [hsort] at hsorted
      exact (List.pairwise_cons.mp (List.pairwise_append.mp hsorted).2.1).1 b hb
    -- `a` cuts each sorted list into what goes before it and what does not
    have hbefore {cs ds : List α} (hcs : ∀ b ∈ cs, !le a b) (hds : ∀ b ∈ ds, le a b = true) :
        (cs ++ ds).filter (fun b => !le a b) = cs ∧ (cs ++ ds).filter (le a) = ds := by
      have hcs' : ∀ b ∈ cs, le a b = false := fun b hb => by simpa using hcs b hb
      constructor
      · rw [List.filter_append, List.filter_eq_self.mpr hcs,
          List.filter_eq_nil_iff.mpr (fun b hb => by simp [hds b hb]), List.append_nil]
      · rw [List.filter_append, List.filter_eq_self.mpr hds,
          List.filter_eq_nil_iff.mpr (fun b hb => by simp [hcs' b hb]), List.nil_append]
    obtain ⟨hfilterAs, hfilterBs⟩ := hbefore has (hbs hcons)
    obtain ⟨hfilterAs', hfilterBs'⟩ := hbefore has' (hbs hcons')
    rw [htail, htail'] at ih
    -- Filtering keeps sublists, so that the parts before and behind `a` are sublists too.
    have hsubAs := ih.filter (fun b => !le a b)
    have hsubBs := ih.filter (le a)
    rw [hfilterAs, hfilterAs'] at hsubAs
    rw [hfilterBs, hfilterBs'] at hsubBs
    rw [hcons, hcons']
    exact hsubAs.append (hsubBs.cons_cons a)

-- Fewer syntax errors make fewer entries, in the same order.
theorem Diagnostics.entries_sublist (lexical : List LexicalError) {es es' : List SyntaxError}
    (h : es.Sublist es') :
    (Diagnostics.entries ⟨lexical, es⟩).Sublist (Diagnostics.entries ⟨lexical, es'⟩) := by
  -- The lexical errors come first in both, unsorted.
  have hfound : (Diagnostics.report ⟨lexical, es⟩).found.Sublist
      (Diagnostics.report ⟨lexical, es'⟩).found :=
    ((h.map SyntaxError.notice).map _).append_left _
  refine sublist_mergeSort_of_sublist (fun _ _ _ hab hbc => ?_) (fun _ _ => ?_) hfound
  · exact Position.notAfter_trans hab hbc
  · exact Position.notAfter_total _ _

/-- The two policies accept the same texts with the same trees. Where they reject one, both report
something, giving up reports what recovering reports up to the first syntax error, and its entries
are some of those of recovering, in the same order. -/
theorem parse_policies_agree (source : String) :
    (∀ p, parse source .recover = .ok p ↔ parse source .failFast = .ok p) ∧
      ∀ d d', parse source .failFast = .error d → parse source .recover = .error d' →
        d.report.isEmpty = false ∧ d'.report.isEmpty = false ∧ d.lexical = d'.lexical ∧
        d.syntactic.length ≤ 1 ∧ (d.syntactic = [] ↔ d'.syntactic = []) ∧
        (∀ e ∈ d.syntactic, d'.syntactic.head? = some e) ∧ d.entries.Sublist d'.entries := by
  rcases parse_agrees source with ⟨p, hearly, hfull⟩ | ⟨lexical, es, hne, hearly, hfull⟩
  · rw [hearly, hfull]
    exact ⟨fun _ => Iff.rfl, nofun⟩
  · rw [hearly, hfull]
    refine ⟨fun p => ⟨nofun, nofun⟩, fun d d' hd hd' => ?_⟩
    cases hd
    cases hd'
    have hempty {es' : List SyntaxError} (h : lexical ≠ [] ∨ es' ≠ []) :
        (Diagnostics.report ⟨lexical, es'⟩).isEmpty = false := by
      rcases h with h | h <;> simp [Diagnostics.report, Report.isEmpty, h]
    have htake : es.take 1 = [] ↔ es = [] := by
      cases es with
      | nil => simp
      | cons e es => simp
    refine ⟨hempty (hne.imp_right (fun h => mt htake.mp h)), hempty hne, rfl, ?_, htake, ?_, ?_⟩
    · exact List.length_take_le 1 es
    · cases es with
      | nil => simp
      | cons e es => simp
    · exact Diagnostics.entries_sublist lexical (List.take_sublist 1 es)

-- The error at a semicolon, in the first line, where a value was expected.
def missingValue (column : Nat) : SyntaxError :=
  ⟨.unexpected TokenKind.expressionStart, ⟨.semicolon, ";", ⟨1, column⟩⟩⟩

/-- Two broken statements: giving up reports the first of them, recovering reports both. -/
theorem parse_policies_of_two_errors :
    parse "class M { public static void main() { x = ; y = ; } }" .failFast =
        .error ⟨[], [missingValue 43]⟩ ∧
      parse "class M { public static void main() { x = ; y = ; } }" .recover =
        .error ⟨[], [missingValue 43, missingValue 49]⟩ ∧
      (Diagnostics.entries ⟨[], [missingValue 43]⟩).Sublist
        (Diagnostics.entries ⟨[], [missingValue 43, missingValue 49]⟩) := by
  have hearly : parse "class M { public static void main() { x = ; y = ; } }" .failFast =
      .error ⟨[], [missingValue 43]⟩ := by decide +kernel
  have hfull : parse "class M { public static void main() { x = ; y = ; } }" .recover =
      .error ⟨[], [missingValue 43, missingValue 49]⟩ := by decide +kernel
  obtain ⟨-, -, -, -, -, -, hentries⟩ :=
    (parse_policies_agree "class M { public static void main() { x = ; y = ; } }").2 _ _ hearly
      hfull
  exact ⟨hearly, hfull, hentries⟩

end MiniJava
