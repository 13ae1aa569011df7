import MiniJava.Proofs.Progress.Loops
import MiniJava.Proofs.Reading.Step
import MiniJava.Proofs.Tiling.Place

/-!
# Settled states — errors on record lie behind the next token

A state is settled if every error on record was found at a token that has been passed, or at the end
of file where nothing else is ahead (`Settled`). Steps keep states settled, and where a parser fails,
its error is one of the next token (`Parse.Safe`).

Recovering may leave a state that is not settled: skipping stops before a boundary, and the error may
have been found at just this token. What is read next then begins by passing it (`Resumes`), which is
why lists of statements and of classes are settled again when they end.
-/

namespace MiniJava

open Parse

namespace SyntaxError

/-- One of two errors was found at an earlier token than the other, or both at the end of file. -/
def Precedes (a b : SyntaxError) : Prop :=
  a.position.Before b.position ∨ (a.found.kind = .eof ∧ b.found = a.found)

/-- The error was found at one of the tokens, which is of none of the kinds that would have
fitted. -/
def Real (tokens : List Token) (e : SyntaxError) : Prop :=
  e.found ∈ tokens ∧ e.found.kind ∉ e.expected

end SyntaxError

/-- The tokens ahead are the last ones of the list, and the errors on record are real, in order, and
behind the token that comes next. -/
structure Settled (tokens : List Token) (c : ParseContext) (s : ParseState) : Prop where
  suffix : s.ahead ++ [c.ending] <:+ tokens
  kind_ne_eof : ∀ t ∈ s.ahead, t.kind ≠ .eof
  real : ∀ r ∈ s.recoveries, r.error.Real tokens
  ordered : s.recoveries.Pairwise (·.error.Precedes ·.error)
  behind : ∀ r ∈ s.recoveries, r.error.position.Before (s.ahead.headD c.ending).position ∨
    (s.ahead = [] ∧ r.error.found = c.ending)

/-- The kinds of token before which reading can go on. -/
def Boundary.resumes : Boundary → TokenKind → Bool
  | .statement => TokenKind.resumesStatement
  | .classDecl => TokenKind.resumesClass

/-- The state is settled as soon as the next token is passed, and reading can go on before it. -/
def Resumes (tokens : List Token) (boundary : Boundary) (c : ParseContext) (s : ParseState) :
    Prop :=
  ∃ t rest, s.ahead = t :: rest ∧ t.kind ≠ .eof ∧ boundary.resumes t.kind = true ∧
    Settled tokens c { s with ahead := rest }

/-- A result whose state is settled; an error is one of the next token. -/
structure Sound {α : Type} (tokens : List Token) (c : ParseContext)
    (r : Except SyntaxError α × ParseState) : Prop where
  settled : Settled tokens c r.2
  found : ∀ e, r.1 = .error e → e.found = r.2.ahead.headD c.ending ∧ e.found.kind ∉ e.expected

/-- From a settled state the parser gives a sound result. -/
def Parse.Safe {α : Type} (tokens : List Token) (p : Parse α) : Prop :=
  ∀ c s, c.ending.kind = .eof → Settled tokens c s → Sound tokens c (p c s)

section

variable {tokens : List Token} {c : ParseContext} {s : ParseState} {α β : Type}

/-! ## Passing tokens -/

namespace Settled

-- The next token is one of the list.
theorem next_mem (h : Settled tokens c s) : s.ahead.headD c.ending ∈ tokens := by
  apply h.suffix.subset
  cases s.ahead with
  | nil => exact List.mem_cons_self
  | cons t rest => exact List.mem_cons_self

-- Of two tokens ahead, the first one stands before the second one.
theorem before_next {t : Token} {rest ahead : List Token}
    (hordered : tokens.Pairwise (·.position.Before ·.position))
    (hsuffix : t :: rest ++ [c.ending] <:+ tokens) (hahead : ahead <:+ rest) :
    t.position.Before (ahead.headD c.ending).position := by
  have hpairwise := hordered.sublist hsuffix.sublist
  rw [List.cons_append] at hpairwise
  apply (List.pairwise_cons.mp hpairwise).1
  cases ahead with
  | nil => exact List.mem_append_right _ List.mem_cons_self
  | cons u ahead => exact List.mem_append_left _ (hahead.subset List.mem_cons_self)

-- Passing tokens keeps a state settled.
theorem pass (hordered : tokens.Pairwise (·.position.Before ·.position)) {t : Token}
    {rest ahead : List Token} (h : Settled tokens c s) (hs : s.ahead = t :: rest)
    (hahead : ahead <:+ rest) : Settled tokens c { s with ahead := ahead } := by
  have hall := hahead.trans (List.suffix_cons t rest)
  have hsuffix := h.suffix
  rw [hs] at hsuffix
  refine ⟨?_, ?_, h.real, h.ordered, fun r hr => .inl ?_⟩
  · obtain ⟨front, hfront⟩ := hall
    refine List.IsSuffix.trans ⟨front, ?_⟩ hsuffix
    rw [← hfront, List.append_assoc]
  · intro u hu
    apply h.kind_ne_eof
    rw [hs]
    exact hall.subset hu
  · have hnext := before_next hordered hsuffix hahead
    rcases h.behind r hr with hbefore | ⟨hnil, -⟩
    · rw [hs] at hbefore
      exact hbefore.trans hnext
    · rw [hs] at hnil
      cases hnil

-- The errors on record come before an error at the next token.
theorem precedes (hending : c.ending.kind = .eof) (h : Settled tokens c s) {e : SyntaxError}
    (hfound : e.found = s.ahead.headD c.ending) : ∀ r ∈ s.recoveries, r.error.Precedes e := by
  intro r hr
  unfold SyntaxError.Precedes
  rcases h.behind r hr with hbefore | ⟨hnil, hend⟩
  · rw [← hfound] at hbefore
    exact .inl hbefore
  · rw [hfound, hnil, hend]
    exact .inr ⟨hending, rfl⟩

-- An error at the next token goes on record, where this token is passed or is the end of file.
theorem record (hending : c.ending.kind = .eof) (h : Settled tokens c s) {r : Recovery}
    (hreal : r.error.Real tokens) (hfound : r.error.found = s.ahead.headD c.ending)
    (ahead : List Token) (hahead : Settled tokens c { s with ahead := ahead })
    (hbehind : r.error.position.Before (ahead.headD c.ending).position ∨
      (ahead = [] ∧ r.error.found = c.ending)) :
    Settled tokens c ⟨ahead, s.recoveries ++ [r]⟩ where
  suffix := hahead.suffix
  kind_ne_eof := hahead.kind_ne_eof
  real := List.forall_mem_append.mpr ⟨h.real, List.forall_mem_singleton.mpr hreal⟩
  ordered := pairwise_append_singleton.mpr ⟨h.ordered, h.precedes hending hfound⟩
  behind := List.forall_mem_append.mpr ⟨hahead.behind, List.forall_mem_singleton.mpr hbehind⟩

end Settled

/-! ## Steps -/

namespace Sound

-- A result without an error.
theorem ok {a : α} (h : Settled tokens c s) : Sound tokens c (.ok a, s) := ⟨h, nofun⟩

-- An error at the next token, where none of the kinds that would fit comes.
theorem error {fault : SyntaxFault} (h : Settled tokens c s)
    (hkind : (s.ahead.headD c.ending).kind ∉ fault.expected) :
    Sound tokens c ((.error ⟨fault, s.ahead.headD c.ending⟩, s) : Except SyntaxError α × _) := by
  refine ⟨h, fun e he => ?_⟩
  cases he
  exact ⟨rfl, hkind⟩

-- An error is an error whatever would have been read.
theorem of_error {e : SyntaxError} (h : Sound (α := α) tokens c (.error e, s)) :
    Sound (α := β) tokens c (.error e, s) := by
  refine ⟨h.settled, fun e' he => ?_⟩
  cases he
  exact h.found e rfl

-- What follows a sound result is sound if it is so from a settled state.
theorem bind {p : Parse α} {f : α → Parse β} (hp : Sound tokens c (p c s))
    (hf : ∀ a u, Settled tokens c u → Sound tokens c (f a c u)) :
    Sound tokens c ((p >>= f) c s) := by
  cases hrun : p c s with
  | mk result u =>
    rw [hrun] at hp
    cases result with
    | ok a =>
      rw [bind_of_ok hrun]
      exact hf a u hp.settled
    | error e =>
      rw [bind_of_error hrun]
      exact hp.of_error

theorem bind_safe {p : Parse α} {f : α → Parse β} (hending : c.ending.kind = .eof)
    (hp : Sound tokens c (p c s)) (hf : ∀ a, (f a).Safe tokens) :
    Sound tokens c ((p >>= f) c s) :=
  hp.bind fun a u hu => hf a c u hending hu

end Sound

-- A token may be passed.
theorem safe_accept (hordered : tokens.Pairwise (·.position.Before ·.position))
    (kinds : List TokenKind) : (accept kinds).Safe tokens := by
  intro c s _ h
  unfold accept
  dsimp only
  split
  · cases hs : s.ahead with
    | nil =>
      refine .ok ?_
      have hstay : ({ s with ahead := ([] : List Token).tail } : ParseState) = s := by
        rw [List.tail_nil, ← hs]
      rwa [hstay]
    | cons t rest => exact .ok (h.pass hordered hs (List.suffix_refl rest))
  · exact .ok h

theorem lifts_safe (hordered : tokens.Pairwise (·.position.Before ·.position)) :
    Lifts (fun p => Safe tokens p) where
  pure _ := fun _ _ _ h => .ok h
  peek := fun _ _ _ h => .ok h
  peekBehind := fun _ _ _ h => .ok h
  bound := fun _ _ _ h => .ok h
  accept := safe_accept hordered
  tooDeep := fun _ _ _ h => .error h List.not_mem_nil
  accept_or_fail {_ kinds} fault p hfault hp := by
    intro c s hending h
    by_cases hkind : kinds.contains (s.ahead.headD c.ending).kind = true
    · have haccept : accept kinds c s =
          (.ok (some (s.ahead.headD c.ending)), { s with ahead := s.ahead.tail }) := if_pos hkind
      have hsettled := (safe_accept hordered kinds c s hending h).settled
      rw [haccept] at hsettled
      rw [bind_of_ok haccept]
      exact hp _ c _ hending hsettled
    · have haccept : accept kinds c s = (.ok none, s) := if_neg hkind
      rw [bind_of_ok haccept]
      refine .error h fun hmem => hkind ?_
      exact List.contains_iff_mem.mpr (hfault hmem)
  peek_or_fail fault f hf := by
    intro c s hending h
    have hpeek : peek c s = (.ok (s.ahead.headD c.ending), s) := rfl
    rw [bind_of_ok hpeek]
    rcases hf (s.ahead.headD c.ending) with hsafe | ⟨hkind, heq⟩
    · exact hsafe c s hending h
    · rw [heq]
      exact .error h hkind
  bind hp hf := fun c s hending h => (hp c s hending h).bind_safe hending hf

/-! ## Recovering -/

-- Skipping passes the next token, unless a token was passed before and reading can go on here.
theorem Boundary.skip_cons (boundary : Boundary) (moved : Bool) (t : Token) (rest : List Token) :
    boundary.skip moved (t :: rest) <:+ rest ∨
      (boundary.skip moved (t :: rest) = t :: rest ∧ moved = true ∧
        boundary.resumes t.kind = true) := by
  cases boundary with
  | statement =>
    simp only [skip, skipStatement, resumes]
    by_cases hsemicolon : t.kind = .semicolon
    · rw [if_pos hsemicolon]
      exact .inl (List.suffix_refl rest)
    rw [if_neg hsemicolon]
    by_cases hstop : (moved && t.kind.resumesStatement) = true
    · rw [if_pos hstop]
      exact .inr ⟨rfl, Bool.and_eq_true_iff.mp hstop⟩
    · rw [if_neg hstop]
      exact .inl (skipStatement_suffix true rest)
  | classDecl =>
    simp only [skip, skipClass, resumes]
    by_cases hstop : (moved && t.kind.resumesClass) = true
    · rw [if_pos hstop]
      exact .inr ⟨rfl, Bool.and_eq_true_iff.mp hstop⟩
    · rw [if_neg hstop]
      exact .inl (skipClass_suffix true rest)

-- An error at the next token goes on record, and what is skipped leaves a settled state or a
-- boundary.
theorem Settled.skip (hordered : tokens.Pairwise (·.position.Before ·.position))
    (hending : c.ending.kind = .eof) (boundary : Boundary) (moved : Bool) (h : Settled tokens c s)
    {r : Recovery} (hreal : r.error.Real tokens)
    (hfound : r.error.found = s.ahead.headD c.ending) :
    Settled tokens c ⟨boundary.skip moved s.ahead, s.recoveries ++ [r]⟩ ∨
      (Resumes tokens boundary c ⟨boundary.skip moved s.ahead, s.recoveries ++ [r]⟩ ∧
        moved = true) := by
  have hrecord := h.record hending hreal hfound
  cases hs : s.ahead with
  | nil =>
    have hnil : boundary.skip moved [] = [] := by cases boundary <;> rfl
    rw [hs] at hfound
    rw [hnil]
    apply Or.inl
    apply hrecord
    · rw [← hs]
      exact h
    · exact .inr ⟨rfl, hfound⟩
  | cons t rest =>
    have hpassed (ahead : List Token) (hahead : ahead <:+ rest) :
        Settled tokens c ⟨ahead, s.recoveries ++ [r]⟩ := by
      apply hrecord
      · exact h.pass hordered hs hahead
      · have hsuffix := h.suffix
        rw [hs] at hfound hsuffix
        rw [SyntaxError.position, hfound]
        exact .inl (before_next hordered hsuffix hahead)
    rcases boundary.skip_cons moved t rest with hskip | ⟨hstay, hmoved, hresumes⟩
    · exact .inl (hpassed _ hskip)
    · have hkind : t.kind ≠ .eof := by
        apply h.kind_ne_eof
        rw [hs]
        exact List.mem_cons_self
      rw [hstay]
      exact .inr ⟨⟨t, rest, rfl, hkind, hresumes, hpassed rest (List.suffix_refl rest)⟩, hmoved⟩

-- A sound step that is recovered from leaves a settled state, or it has moved to a boundary.
theorem Sound.recovering (hordered : tokens.Pairwise (·.position.Before ·.position))
    (hending : c.ending.kind = .eof) {step : Parse α} (boundary : Boundary)
    (h : Sound tokens c (step c s)) :
    Sound tokens c (recovering boundary step c s) ∨
      ∃ u, recovering boundary step c s = (.ok none, u) ∧ Resumes tokens boundary c u ∧
        (step c s).2.ahead.length < s.ahead.length := by
  cases hrun : step c s with
  | mk result u =>
    rw [hrun] at h
    cases result with
    | ok a =>
      rw [recovering_of_ok boundary hrun]
      exact .inl (.ok h.settled)
    | error e =>
      obtain ⟨hfound, hkind⟩ := h.found e rfl
      cases hpolicy : c.policy with
      | failFast =>
        rw [recovering_of_failFast boundary hpolicy hrun]
        exact .inl h.of_error
      | recover =>
        rw [recovering_of_recover boundary hpolicy hrun]
        have hreal : e.Real tokens := ⟨hfound ▸ h.settled.next_mem, hkind⟩
        rcases h.settled.skip hordered hending boundary
          (decide (u.ahead.length < s.ahead.length)) (r := ⟨e, boundary, _⟩) hreal hfound with
          hsettled | ⟨hresumes, hmoved⟩
        · exact .inl (.ok hsettled)
        · exact .inr ⟨_, rfl, hresumes, of_decide_eq_true hmoved⟩

-- Where reading goes on, a parser that begins with the next token settles the state.
theorem Resumes.sound {boundary : Boundary} {kinds : List TokenKind} {p : Parse α}
    (hending : c.ending.kind = .eof) (h : Resumes tokens boundary c s)
    (hp : Begins (fun p => Safe tokens p) kinds p) (hkind : (s.ahead.headD c.ending).kind ∈ kinds) :
    Sound tokens c (p c s) := by
  obtain ⟨f, rfl, hf⟩ := hp
  obtain ⟨t, rest, hs, -, -, hsettled⟩ := h
  have hexpect : expect kinds c s = (.ok t, { s with ahead := rest }) := by
    rw [expect_run, if_pos (List.contains_iff_mem.mpr hkind), hs]
    rfl
  rw [bind_of_ok hexpect]
  exact hf t c _ hending hsettled

/-! ## Lists that are recovered in -/

section Lists

variable (hordered : tokens.Pairwise (·.position.Before ·.position)) (hending : c.ending.kind = .eof)
include hordered hending

/-- Rounds of a list in which steps are recovered from: they end settled, or at a boundary before
which the list stops. A step that moves at all (`moves`) also reads on from a boundary. -/
theorem sound_of_rounds (stops : TokenKind → Prop) [DecidablePred stops] {boundary : Boundary}
    {step : Parse α} {moves : Prop} {round : List α → Parse (Round (List α) (List α))}
    (hround : ∀ as s, round as c s =
      if stops (s.ahead.headD c.ending).kind then (.ok (.stop as), s)
      else (do
        let first? ← recovering boundary step
        pure (Round.goOn (as ++ first?.toList))) c s)
    (hstep : step.Safe tokens) (hmoves : ∀ s, (step c s).2.ahead.length < s.ahead.length → moves)
    (hresumes : moves → ∀ s, Resumes tokens boundary c s → ¬ stops (s.ahead.headD c.ending).kind →
      Sound tokens c (step c s))
    {as : List α} {r : Except SyntaxError (List α) × ParseState}
    (hrounds : Repeats round c as s r)
    (hs : Settled tokens c s ∨ (moves ∧ Resumes tokens boundary c s)) :
    Sound tokens c r ∨ ∃ bs u, r = (.ok bs, u) ∧ Resumes tokens boundary c u ∧
      stops (u.ahead.headD c.ending).kind := by
  have hrecovering {s : ParseState}
      (hs : Settled tokens c s ∨ (moves ∧ Resumes tokens boundary c s))
      (hstop : ¬ stops (s.ahead.headD c.ending).kind) :=
    Sound.recovering hordered hending boundary (s := s)
      (hs.elim (hstep c s hending) fun h => hresumes h.1 s h.2 hstop)
  induction hrounds with
  | @stop as s s' bs h =>
    rw [hround] at h
    by_cases hstop : stops (s.ahead.headD c.ending).kind
    · rw [if_pos hstop] at h
      cases h
      rcases hs with hs | ⟨-, hs⟩
      · exact .inl (.ok hs)
      · exact .inr ⟨_, _, rfl, hs, hstop⟩
    · rw [if_neg hstop] at h
      obtain ⟨_, _, _, h⟩ := bind_eq_ok.mp h
      cases h
  | @fail as s s' e h =>
    rw [hround] at h
    by_cases hstop : stops (s.ahead.headD c.ending).kind
    · rw [if_pos hstop] at h
      cases h
    · rw [if_neg hstop] at h
      -- The error is the one that could not be recovered from.
      rcases hrecovering hs hstop with hsound | ⟨u, hrun, -⟩
      · have hbind := hsound.bind (f := fun first? =>
          pure (Round.goOn (σ := List α) (α := List α) (as ++ first?.toList))) fun _ _ hu => .ok hu
        rw [h] at hbind
        exact .inl hbind.of_error
      · rw [bind_of_ok hrun] at h
        cases h
  | @goOn as bs s s' r h _ _ ih =>
    rw [hround] at h
    by_cases hstop : stops (s.ahead.headD c.ending).kind
    · rw [if_pos hstop] at h
      cases h
    · rw [if_neg hstop] at h
      apply ih
      obtain ⟨first?, u, hrun, h⟩ := bind_eq_ok.mp h
      cases h
      rcases hrecovering hs hstop with hsound | ⟨u, hrun', hresumes, hmoved⟩
      · rw [hrun] at hsound
        exact .inl hsound.settled
      · rw [hrun] at hrun'
        cases hrun'
        exact .inr ⟨hmoves s hmoved, hresumes⟩

end Lists

/-! ## Statements -/

section Statements

variable (hordered : tokens.Pairwise (·.position.Before ·.position)) {n : Nat}
include hordered

-- Before a boundary that is no closing brace, a statement begins by passing it.
theorem Resumes.sound_statement (hending : c.ending.kind = .eof)
    (hstatement : (Statement.parse n).Safe tokens)
    (hlist : (Statement.parseList (Statement.parse n)).Safe tokens)
    (h : Resumes tokens .statement c s) (hbrace : (s.ahead.headD c.ending).kind ≠ .rbrace) :
    Sound tokens c (Statement.parse (n + 1) c s) := by
  have hlifts := lifts_safe hordered
  have hstart : (s.ahead.headD c.ending).kind.resumesStatement = true := by
    obtain ⟨t, rest, hahead, -, hresumes, -⟩ := h
    rw [hahead]
    exact hresumes
  obtain ⟨kinds, p, hkind, hp, heq⟩ :=
    hlifts.exists_form (hlifts.expr_parse n).1 hstatement hlist hstart hbrace
  rw [Statement.parse_succ, heq c s rfl]
  exact h.sound hending hp hkind

-- A list of statements leaves a settled state if its statements do, also from boundaries.
theorem safe_list (hstatement : (Statement.parse n).Safe tokens)
    (hresumes : n ≠ 0 → ∀ c s, c.ending.kind = .eof → Resumes tokens .statement c s →
      (s.ahead.headD c.ending).kind ≠ .rbrace → Sound tokens c (Statement.parse n c s)) :
    (Statement.parseList (Statement.parse n)).Safe tokens := by
  intro c s hending h
  have hlifts := lifts_safe hordered
  have hrounds := Statement.repeats_many (passes_statement n) (forward_statement n) hending
    (Nat.lt_succ_self s.ahead.length)
  have hmoves (s : ParseState) (hmoved : (Statement.parse n c s).2.ahead.length < s.ahead.length) :
      n ≠ 0 := by
    rintro rfl
    exact absurd hmoved (Nat.lt_irrefl _)
  have hround (as : List Statement) (s : ParseState) :
      Statement.manyRound (Statement.parse n) as c s =
        if (s.ahead.headD c.ending).kind = .rbrace ∨ (s.ahead.headD c.ending).kind = .eof then
          (.ok (.stop as), s)
        else (do
          let first? ← recovering .statement (Statement.parse n)
          pure (Round.goOn (as ++ first?.toList))) c s := by
    show (if _ then _ else _ : Parse _) c s = _
    split <;> rfl
  rcases sound_of_rounds hordered hending (fun kind => kind = .rbrace ∨ kind = .eof) hround
    hstatement hmoves (fun hn s hs hstop => hresumes hn c s hending hs fun h => hstop (.inl h))
    hrounds (.inl h) with hsound | ⟨as, u, hrun, hs, hstop⟩
  · rw [Statement.parseList, bind_of_ok bound_run]
    exact hsound.bind_safe hending fun _ => hlifts.expect_bind fun _ => hlifts.pure _
  · -- The list stopped before a closing brace, which is passed now.
    have hbrace : (u.ahead.headD c.ending).kind ∈ [TokenKind.rbrace] := by
      obtain ⟨t, rest, hahead, hkind, -⟩ := hs
      rw [hahead] at hstop ⊢
      exact List.mem_singleton.mpr (hstop.resolve_right hkind)
    rw [Statement.parseList, bind_of_ok bound_run, bind_of_ok hrun]
    exact hs.sound hending ⟨_, rfl, fun _ => hlifts.pure _⟩ hbrace

theorem safe_statement (n : Nat) : (Statement.parse n).Safe tokens ∧
    (Statement.parseList (Statement.parse n)).Safe tokens := by
  have hlifts := lifts_safe hordered
  induction n with
  | zero =>
    have hstatement : (Statement.parse 0).Safe tokens := hlifts.tooDeep
    exact ⟨hstatement, safe_list hordered hstatement fun hn => absurd rfl hn⟩
  | succ n ih =>
    obtain ⟨hinner, hlist⟩ := ih
    have hstatement : (Statement.parse (n + 1)).Safe tokens := by
      rw [Statement.parse_succ]
      exact hlifts.parseForm (hlifts.expr_parse n).1 hinner hlist
    exact ⟨hstatement, safe_list hordered hstatement fun _ _ _ hending hs =>
      hs.sound_statement hordered hending hinner hlist⟩

end Statements

/-! ## Classes and programs -/

section Programs

variable (hordered : tokens.Pairwise (·.position.Before ·.position))
include hordered

theorem begins_class_safe : Begins (fun p => Safe tokens p) [.classWord] ClassDecl.parse :=
  (lifts_safe hordered).begins_class fun n _ => (safe_statement hordered n).2

-- The classes are read from a settled state or from a boundary.
theorem sound_classes (hending : c.ending.kind = .eof)
    (hs : Settled tokens c s ∨ Resumes tokens .classDecl c s) :
    Sound tokens c (ClassDecl.parseMany (s.ahead.length + 1) c s) := by
  have hclass := begins_class_safe hordered
  have hrounds := ClassDecl.repeats_many hending (Nat.lt_succ_self s.ahead.length)
  have hround (as : List ClassDecl) (s : ParseState) : ClassDecl.manyRound as c s =
      if (s.ahead.headD c.ending).kind ≠ .classWord then (.ok (.stop as), s)
      else (do
        let first? ← recovering .classDecl ClassDecl.parse
        pure (Round.goOn (as ++ first?.toList))) c s := by
    show (if _ then _ else _ : Parse _) c s = _
    rw [ite_not]
    split <;> rfl
  rcases sound_of_rounds hordered hending (fun kind => kind ≠ .classWord) hround
    ((lifts_safe hordered).of_begins hclass) (fun _ _ => trivial) (fun _ s hs hstop =>
      hs.sound hending hclass (List.mem_singleton.mpr (not_not.mp hstop)))
    hrounds (hs.imp_right fun hs => ⟨trivial, hs⟩) with hsound | ⟨as, u, hrun, hs, hstop⟩
  · exact hsound
  · -- The word for a class is the only boundary of classes that can be ahead.
    obtain ⟨t, rest, hahead, hkind, hresumes, -⟩ := hs
    rw [hahead] at hstop
    rcases List.mem_cons.mp (List.contains_iff_mem.mp hresumes) with hclass | heof
    · exact absurd hclass hstop
    · exact absurd (List.mem_singleton.mp heof) hkind

/-- A whole program leaves a settled state. -/
theorem safe_program : Program.parse.Safe tokens := by
  intro c s hending h
  have hlifts := lifts_safe hordered
  have hmain : MainClass.parse.Safe tokens :=
    hlifts.of_begins (hlifts.begins_mainClass fun n _ => (safe_statement hordered n).2)
  have hrest (main? : Option MainClass) {s : ParseState}
      (hs : Settled tokens c s ∨ Resumes tokens .classDecl c s) :
      Sound tokens c ((do
        let classes ← ClassDecl.parseMany (← bound)
        let _ ← expect (NodeKind.followSet .classDecl)
        pure (main?.map fun mainClass => Program.mk mainClass classes)) c s) := by
    rw [bind_of_ok bound_run]
    exact (sound_classes hordered hending hs).bind_safe hending fun _ =>
      hlifts.expect_bind fun _ => hlifts.pure _
  rcases Sound.recovering hordered hending .classDecl (hmain c s hending h) with
    hsound | ⟨u, hrun, hresumes, -⟩
  · exact hsound.bind fun main? u hu => hrest main? (.inl hu)
  · rw [Program.parse, bind_of_ok hrun]
    exact hrest none (.inr hresumes)

end Programs

end

end MiniJava
