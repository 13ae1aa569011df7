import MiniJava.Proofs.Progress.Cursor
import MiniJava.Proofs.Recovery.Order
import MiniJava.Proofs.Relabeling.Parse
import Mathlib.Data.List.Forall2

/-!
# Reading tokens of the same kinds

Two lists of tokens of the same kinds are both relabellings of one list, in which every token stands
at its number (`numbered`). What is read from that list, relabelled in two ways, is what is read from
the two (`Outcome.reads_alike`). Only the errors that are dropped as repeats depend on more than
kinds: on which of the tokens stand at one position (`SamePlaces`).
-/

namespace MiniJava

/-! ## Numbers -/

/-- Tokens of these kinds, each at its number. -/
def numbered (kinds : List TokenKind) : List Token :=
  kinds.mapIdx fun i kind => ⟨kind, "", ⟨i, 0⟩⟩

/-- Every number becomes the token that the list has at this place. -/
def Relabeling.filling (tokens : List Token) : Relabeling where
  text t := (tokens.getD t.position.line default).text
  position p := (tokens.getD p.line default).position

-- A numbered token becomes the token with its number.
theorem getElem?_of_mem_numbered {tokens : List Token} {t : Token}
    (h : t ∈ numbered (tokens.map (·.kind))) :
    tokens[t.position.line]? = some (t.relabel (.filling tokens)) := by
  obtain ⟨i, hi, rfl⟩ := List.mem_mapIdx.mp h
  rw [List.length_map] at hi
  rw [List.getElem?_eq_getElem hi]
  simp [Token.relabel, Relabeling.filling, hi]

-- Every list is its kinds with numbers, filled.
theorem map_relabel_numbered (tokens : List Token) :
    (numbered (tokens.map (·.kind))).map (·.relabel (.filling tokens)) = tokens := by
  apply List.ext_getElem
  · simp [numbered]
  · intro i hi hi'
    simp [numbered, Token.relabel, Relabeling.filling, hi']

-- The numbers are in order.
theorem pairwise_numbered (kinds : List TokenKind) :
    (numbered kinds).Pairwise (·.position.Before ·.position) := by
  rw [List.pairwise_iff_getElem]
  intro i j hi hj hij
  simp only [numbered, List.getElem_mapIdx]
  exact .inl hij

-- What is cut from relabelled tokens is relabelled, where an end of file is among them.
theorem TokenStream.ofTokens_map_relabel (r : Relabeling) {tokens : List Token}
    (h : ∃ t ∈ tokens, t.kind = .eof) :
    ofTokens (tokens.map (·.relabel r)) = (ofTokens tokens).relabel r := by
  -- The kinds are the same, so that both are cut at the same place.
  have hkind (p : TokenKind → Bool) :
      (fun t : Token => p t.kind) ∘ Token.relabel r = fun t => p t.kind := rfl
  unfold ofTokens relabel
  rw [List.takeWhile_map, List.find?_map, hkind (· != .eof), hkind (· == .eof)]
  cases hfind : tokens.find? (·.kind == .eof) with
  | some ending => rfl
  | none =>
    obtain ⟨t, ht, heof⟩ := h
    exact absurd (beq_iff_eq.mpr heof) (List.find?_eq_none.mp hfind t ht)

/-! ## Places -/

/-- Two tokens stand at one position in the first list exactly if they do so in the second one. -/
def SamePlaces (tokens tokens' : List Token) : Prop :=
  ∀ x ∈ tokens.zip tokens', ∀ y ∈ tokens.zip tokens',
    (x.1.position = y.1.position ↔ x.2.position = y.2.position)

instance (tokens tokens' : List Token) : Decidable (SamePlaces tokens tokens') :=
  inferInstanceAs (Decidable (∀ x ∈ _, ∀ y ∈ _, _))

-- Numbers stand at one position in both lists or in neither when the lists are filled in.
theorem SamePlaces.filling {tokens tokens' : List Token} (h : SamePlaces tokens tokens')
    (hkinds : tokens.map (·.kind) = tokens'.map (·.kind)) {t u : Token}
    (ht : t ∈ numbered (tokens.map (·.kind))) (hu : u ∈ numbered (tokens.map (·.kind))) :
    ((t.relabel (.filling tokens)).position = (u.relabel (.filling tokens)).position ↔
      (t.relabel (.filling tokens')).position = (u.relabel (.filling tokens')).position) := by
  have hmem {t : Token} (ht : t ∈ numbered (tokens.map (·.kind))) :
      (t.relabel (.filling tokens), t.relabel (.filling tokens')) ∈ tokens.zip tokens' := by
    have hleft := getElem?_of_mem_numbered ht
    rw [hkinds] at ht
    have hright := getElem?_of_mem_numbered ht
    exact List.mem_of_getElem? (List.getElem?_zip_eq_some.mpr ⟨hleft, hright⟩)
  exact h _ (hmem ht) _ (hmem hu)

-- Where every token stands behind the one before, no two of them stand at one position.
theorem samePlaces_of_pairwise {tokens tokens' : List Token}
    (h : tokens.Pairwise (·.position.Before ·.position))
    (h' : tokens'.Pairwise (·.position.Before ·.position)) : SamePlaces tokens tokens' := by
  rw [List.pairwise_iff_getElem] at h h'
  intro x hx y hy
  obtain ⟨i, hi, rfl⟩ := List.mem_iff_getElem.mp hx
  obtain ⟨j, hj, rfl⟩ := List.mem_iff_getElem.mp hy
  have hi' := List.length_zip ▸ hi
  have hj' := List.length_zip ▸ hj
  simp only [List.getElem_zip]
  rcases Nat.lt_trichotomy i j with hij | rfl | hji
  · exact iff_of_false (h i j (by omega) (by omega) hij).ne (h' i j (by omega) (by omega) hij).ne
  · exact iff_of_true rfl rfl
  · exact iff_of_false (h j i (by omega) (by omega) hji).ne.symm
      (h' j i (by omega) (by omega) hji).ne.symm

section Keeping

variable {f f' : SyntaxError → SyntaxError}

-- Where two ways to relabel errors make the same of them repeats, the same of them are kept.
theorem exists_foldl_keepError_map {R : SyntaxError → Prop}
    (h : ∀ a b, R a → R b → ((f a).position = (f b).position ↔ (f' a).position = (f' b).position))
    (es : List SyntaxError) (hes : ∀ e ∈ es, R e) :
    ∀ kept : List SyntaxError, (∀ e ∈ kept, R e) → ∃ left : List SyntaxError, (∀ e ∈ left, R e) ∧
      (es.map f).foldl keepError (kept.map f) = left.map f ∧
      (es.map f').foldl keepError (kept.map f') = left.map f' := by
  induction es with
  | nil => exact fun kept hkept => ⟨kept, hkept, rfl, rfl⟩
  | cons e es ih =>
    obtain ⟨he, hes⟩ := List.forall_mem_cons.mp hes
    intro kept hkept
    -- The last error that was kept decides, and it decides the same both times.
    have hrepeat : ((kept.map f).getLast?.any (·.position == (f e).position)) =
        ((kept.map f').getLast?.any (·.position == (f' e).position)) := by
      rw [List.getLast?_map, List.getLast?_map]
      cases hlast : kept.getLast? with
      | none => rfl
      | some last =>
        have hiff := h last e (hkept last (List.mem_of_getLast? hlast)) he
        rw [Option.map_some, Option.map_some, Option.any_some, Option.any_some, Bool.eq_iff_iff,
          beq_iff_eq, beq_iff_eq, hiff]
    simp only [List.map_cons, List.foldl_cons, keepError, hrepeat]
    by_cases hdrop : (kept.map f').getLast?.any (·.position == (f' e).position) = true
    · simp only [if_pos hdrop]
      exact ih hes kept hkept
    · simp only [if_neg hdrop]
      have hmore := ih hes (kept ++ [e])
        (List.forall_mem_append.mpr ⟨hkept, List.forall_mem_singleton.mpr he⟩)
      rwa [List.map_append, List.map_append] at hmore

end Keeping

/-! ## Results -/

/-- A fault, and the kind and the place in a list of the token at which it was found. -/
structure Mark where
  fault : SyntaxFault
  kind : TokenKind
  index : Nat
deriving DecidableEq, Repr

/-- The error is said of the token that the list has at this place. -/
def Mark.IsOf (tokens : List Token) (m : Mark) (e : SyntaxError) : Prop :=
  e.fault = m.fault ∧ e.found.kind = m.kind ∧ tokens[m.index]? = some e.found

namespace Outcome

variable {r r' : Relabeling} {policy : ErrorPolicy} {stream : TokenStream}

-- Reading a relabelled stream gives the relabelled result, before repeats are dropped.
theorem result_ofStream_relabel (r : Relabeling) {value : Except SyntaxError (Option Program)}
    {final : ParseState}
    (h : Program.parse ⟨policy, stream.ending⟩ ⟨stream.ahead, []⟩ = (value, final)) :
    (ofStream policy (stream.relabel r)).result =
      resultOf (final.recoveries.map (·.relabel r))
        ((value.map (Option.map (·.relabel r))).mapError (·.relabel r)) := by
  have hrun := Program.commutes_parse (r := r) ⟨policy, stream.ending⟩ ⟨stream.ahead, []⟩
  rw [h] at hrun
  have hparse : Program.parse ⟨policy, (stream.relabel r).ending⟩ ⟨(stream.relabel r).ahead, []⟩ =
      ((value.map (Option.map (·.relabel r))).mapError (·.relabel r), final.relabel r) := by
    cases value <;> exact hrun
  rw [result_ofStream hparse]
  rfl

-- Two results that come of one: the same program or the same errors, relabelled in two ways.
theorem resultOf_alike {R : SyntaxError → Prop}
    (hR : ∀ a b, R a → R b → ((a.relabel r).position = (b.relabel r).position ↔
      (a.relabel r').position = (b.relabel r').position))
    {recoveries : List Recovery} (hrecoveries : ∀ x ∈ recoveries, R x.error)
    {value : Except SyntaxError (Option Program)} (hvalue : ∀ e, value = .error e → R e) :
    let result (r : Relabeling) := resultOf (recoveries.map (·.relabel r))
      ((value.map (Option.map (·.relabel r))).mapError (·.relabel r))
    (∃ q, value = .ok (some q) ∧ recoveries = [] ∧ result r = .ok (q.relabel r) ∧
        result r' = .ok (q.relabel r')) ∨
      ∃ es : List SyntaxError, (∀ e ∈ es, R e) ∧ result r = .error (es.map (·.relabel r)) ∧
        result r' = .error (es.map (·.relabel r')) := by
  intro result
  have herrors (r : Relabeling) : (recoveries.map (·.relabel r)).map (·.error) =
      (recoveries.map (·.error)).map (·.relabel r) := by
    rw [List.map_map, List.map_map]
    rfl
  obtain ⟨kept, hkept, hleft, hleft'⟩ := exists_foldl_keepError_map hR (recoveries.map (·.error))
    (List.forall_mem_map.mpr hrecoveries) [] (List.forall_mem_nil _)
  have hrecord : recordedErrors (recoveries.map (·.relabel r)) = kept.map (·.relabel r) := by
    rw [recordedErrors, herrors]
    exact hleft
  have hrecord' : recordedErrors (recoveries.map (·.relabel r')) = kept.map (·.relabel r') := by
    rw [recordedErrors, herrors]
    exact hleft'
  cases value with
  | error e =>
    have hfound : ∀ e' ∈ kept ++ [e], R e' :=
      List.forall_mem_append.mpr ⟨hkept, List.forall_mem_singleton.mpr (hvalue e rfl)⟩
    refine .inr ⟨kept ++ [e], hfound, ?_, ?_⟩
    · show Except.error (recordedErrors _ ++ [e.relabel r]) = _
      rw [hrecord, List.map_append, List.map_singleton]
    · show Except.error (recordedErrors _ ++ [e.relabel r']) = _
      rw [hrecord', List.map_append, List.map_singleton]
  | ok program? =>
    cases program? with
    | none =>
      refine .inr ⟨kept, hkept, ?_, ?_⟩
      · exact congrArg Except.error hrecord
      · exact congrArg Except.error hrecord'
    | some q =>
      by_cases hnil : recoveries = []
      · subst hnil
        exact .inl ⟨q, rfl, rfl, rfl, rfl⟩
      · refine .inr ⟨kept, hkept, ?_, ?_⟩
        · exact (if_neg (mt List.map_eq_nil_iff.mp hnil)).trans (congrArg Except.error hrecord)
        · exact (if_neg (mt List.map_eq_nil_iff.mp hnil)).trans (congrArg Except.error hrecord')

-- Reading a list that has an end of file leaves errors at its tokens.
theorem found_mem_of_parse {tokens : List Token}
    (hordered : tokens.Pairwise (·.position.Before ·.position)) (heof : ∃ t ∈ tokens, t.kind = .eof)
    {value : Except SyntaxError (Option Program)} {final : ParseState}
    (h : Program.parse ⟨policy, (TokenStream.ofTokens tokens).ending⟩
      ⟨(TokenStream.ofTokens tokens).ahead, []⟩ = (value, final)) :
    (∀ x ∈ final.recoveries, x.error.found ∈ tokens) ∧
      ∀ e, value = .error e → e.found ∈ tokens := by
  obtain ⟨behind, heq⟩ := TokenStream.exists_eq_append heof
  -- What is read ends with the end of file, and nothing behind it is looked at.
  have hprefix : (TokenStream.ofTokens tokens).ahead ++ [(TokenStream.ofTokens tokens).ending] <+:
      tokens := ⟨behind, by rw [List.append_assoc, List.singleton_append, ← heq]⟩
  have hsound := safe_program (hordered.sublist hprefix.sublist)
    ⟨policy, (TokenStream.ofTokens tokens).ending⟩ ⟨(TokenStream.ofTokens tokens).ahead, []⟩
    (TokenStream.kind_ending_ofTokens tokens) ⟨List.suffix_refl _,
      fun t => TokenStream.kind_ne_eof_of_mem_ahead, List.forall_mem_nil _, .nil,
      List.forall_mem_nil _⟩
  rw [h] at hsound
  refine ⟨fun x hx => hprefix.subset (hsound.settled.real x hx).1, fun e he => ?_⟩
  rw [(hsound.found e he).1]
  exact hprefix.subset hsound.settled.next_mem

/-- What is read from tokens of the same kinds is what is read from their numbers, with the one list
or the other filled in; where errors are recovered from, the lists have to have the same places. -/
theorem reads_alike {tokens tokens' : List Token}
    (hkinds : tokens.map (·.kind) = tokens'.map (·.kind)) (heof : ∃ t ∈ tokens, t.kind = .eof)
    (policy : ErrorPolicy) (hplaces : policy = .recover → SamePlaces tokens tokens') :
    let numbers := numbered (tokens.map (·.kind))
    (∃ q, (ofStream policy (.ofTokens numbers)).result = .ok q ∧
        (ofStream policy (.ofTokens tokens)).result = .ok (q.relabel (.filling tokens)) ∧
        (ofStream policy (.ofTokens tokens')).result = .ok (q.relabel (.filling tokens'))) ∨
      ∃ es : List SyntaxError, (∀ e ∈ es, e.found ∈ numbers) ∧
        (ofStream policy (.ofTokens tokens)).result =
          .error (es.map (·.relabel (.filling tokens))) ∧
        (ofStream policy (.ofTokens tokens')).result =
          .error (es.map (·.relabel (.filling tokens'))) := by
  intro numbers
  have heofNumbers : ∃ t ∈ numbers, t.kind = .eof := by
    obtain ⟨t, ht, hkind⟩ := heof
    rw [← map_relabel_numbered tokens] at ht
    obtain ⟨u, hu, rfl⟩ := List.mem_map.mp ht
    exact ⟨u, hu, hkind⟩
  have hstream (ts : List Token) (hts : tokens.map (·.kind) = ts.map (·.kind)) :
      TokenStream.ofTokens ts = (TokenStream.ofTokens numbers).relabel (.filling ts) := by
    rw [← TokenStream.ofTokens_map_relabel _ heofNumbers]
    show _ = TokenStream.ofTokens ((numbered (tokens.map (·.kind))).map _)
    rw [hts, map_relabel_numbered]
  cases hrun : Program.parse ⟨policy, (TokenStream.ofTokens numbers).ending⟩
      ⟨(TokenStream.ofTokens numbers).ahead, []⟩ with
  | mk value final =>
    obtain ⟨hrecord, hlast⟩ := found_mem_of_parse (pairwise_numbered _) heofNumbers hrun
    -- The errors that are compared stand at the same places in both lists, or there is only one.
    let Compared (e : SyntaxError) : Prop :=
      e.found ∈ numbers ∧ (policy = .failFast → value = .error e)
    have hcompared (a b : SyntaxError) (ha : Compared a) (hb : Compared b) :
        ((a.relabel (.filling tokens)).position = (b.relabel (.filling tokens)).position ↔
          (a.relabel (.filling tokens')).position = (b.relabel (.filling tokens')).position) := by
      cases policy with
      | failFast =>
        obtain rfl := Except.error.inj ((ha.2 rfl).symm.trans (hb.2 rfl))
        exact iff_of_true rfl rfl
      | recover => exact (hplaces rfl).filling hkinds ha.1 hb.1
    have hrecoveries : ∀ x ∈ final.recoveries, Compared x.error := by
      intro x hx
      refine ⟨hrecord x hx, fun hpolicy => ?_⟩
      -- Giving up at the first error puts nothing on record.
      subst hpolicy
      have hnil := (Program.agrees_parse _ _).recoveries_early.symm.trans
        (congrArg (·.2.recoveries) hrun)
      rw [← hnil] at hx
      cases hx
    have hresult (ts : List Token) (hts : tokens.map (·.kind) = ts.map (·.kind)) :=
      (congrArg (fun stream => (ofStream policy stream).result) (hstream ts hts)).trans
        (result_ofStream_relabel (.filling ts) hrun)
    have hvalue (e : SyntaxError) (he : value = .error e) : Compared e := ⟨hlast e he, fun _ => he⟩
    rcases resultOf_alike hcompared hrecoveries hvalue with
      ⟨q, hvalue, hnil, hq, hq'⟩ | ⟨es, hes, hq, hq'⟩
    · refine .inl ⟨q, ?_, (hresult tokens rfl).trans hq, (hresult tokens' hkinds).trans hq'⟩
      refine (result_ofStream hrun).trans ?_
      rw [hvalue, hnil]
      rfl
    · exact .inr ⟨es, fun e he => (hes e he).1, (hresult tokens rfl).trans hq,
        (hresult tokens' hkinds).trans hq'⟩

end Outcome

/-! ## Lists of tokens -/

namespace Session

variable {tokens tokens' : List Token}

-- A list that ends with an end of file is closed.
theorem closed_append_singleton {front : List Token} {ending : Token} (h : ending.kind = .eof) :
    closed (front ++ [ending]) = front ++ [ending] := by
  unfold closed
  rw [List.getLast?_concat]
  exact if_pos h

/-- What reading a list of tokens from its beginning gives. -/
def readUnder (policy : ErrorPolicy) (tokens : List Token) : Except (List SyntaxError) Program :=
  ((ofTokens tokens).withPolicy policy).read.1

theorem readUnder_eq (policy : ErrorPolicy) (tokens : List Token) : readUnder policy tokens =
    (Outcome.ofStream policy (TokenStream.ofTokens (closed tokens))).result := rfl

end Session

end MiniJava
