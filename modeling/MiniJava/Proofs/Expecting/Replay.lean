import MiniJava.Proofs.Progress.Loops
import MiniJava.Proofs.Reading.Step

/-!
# Replays — reading again what was read, before other tokens

A parser that was run passed some tokens and looked at the one behind them. It is run again with
the same tokens in front of others, where the first of those is of another kind. `Parse.Truthful`
says what then happens, where the first error ends the parse. If the parser gave a value, it gives
the same value if that kind is the same; and otherwise it gives this value or reads on, beyond the
tokens it had passed (`Beyond`). If the parser failed, the kinds it expected do not include the one
it found, and before each of the kinds it expected it reads on.

Some loops cannot stop before every kind: a list of statements stops before a closing brace alone.
So `TruthfulBefore` asks for the above before certain kinds only, which may depend on the value.
Sequences of steps and repeated rounds are truthful because their steps are, which is shown once for
both (`Replays.follow`).
-/

namespace MiniJava

/-- The first error ends the parse, and the tokens end with an end of file. -/
structure ParseContext.Strict (c : ParseContext) : Prop where
  policy : c.policy = .failFast
  ending : c.ending.kind = .eof

-- Behind the same tokens, the same kind comes next if it does behind these.
theorem ParseContext.nextKind_before_eq {c c' : ParseContext} {s v : ParseState}
    (h : c'.nextKind v = c.nextKind s) (front : List Token) :
    c'.nextKind (v.before front) = c.nextKind (s.before front) := by
  cases front with
  | nil => exact h
  | cons t ts => rfl

namespace Parse

variable {α β : Type} {c : ParseContext} {s s' u v : ParseState} {kinds : List TokenKind}

/-! ## The next token -/

theorem accept_of_mem (h : c.nextKind s ∈ kinds) :
    accept kinds c s = (.ok (some (s.ahead.headD c.ending)), { s with ahead := s.ahead.tail }) :=
  if_pos (List.contains_iff_mem.mpr h)

theorem expect_of_mem (h : c.nextKind s ∈ kinds) :
    expect kinds c s = (.ok (s.ahead.headD c.ending), { s with ahead := s.ahead.tail }) :=
  bind_of_ok (accept_of_mem h)

theorem expect_of_notMem (h : c.nextKind s ∉ kinds) :
    expect kinds c s = (.error ⟨.unexpected kinds, s.ahead.headD c.ending⟩, s) :=
  bind_of_ok (accept_of_notMem h)

-- What comes next is ahead, unless it is the end of file.
theorem exists_eq_before (hc : c.Strict) (heof : c.nextKind s ≠ .eof) :
    ∃ t u, s = ParseState.before u [t] ∧ t.kind = c.nextKind s := by
  obtain ⟨ahead, recoveries⟩ := s
  cases ahead with
  | nil => exact absurd hc.ending heof
  | cons t ts => exact ⟨t, ⟨ts, recoveries⟩, rfl, rfl⟩

/-! ## Reading on -/

/-- Reading stopped behind the first token of the state, or before it because of the levels. -/
def Beyond (v : ParseState) (r : Except SyntaxError α × ParseState) : Prop :=
  r.2.ahead.length < v.ahead.length ∨ ∃ t, r = (.error ⟨.tooDeep, t⟩, v)

-- What follows a parser that read on does so too.
theorem Beyond.bind {p : Parse α} {f : α → Parse β} (h : Beyond v (p c s))
    (hf : ∀ a, (f a).Forward) : Beyond v ((p >>= f) c s) := by
  rcases h with hlt | ⟨t, ht⟩
  · cases hp : p c s with
    | mk x u =>
      rw [hp] at hlt
      cases x with
      | ok a =>
        rw [bind_of_ok hp]
        exact .inl (Nat.lt_of_le_of_lt (hf a c u).length_le hlt)
      | error e =>
        rw [bind_of_error hp]
        exact .inl hlt
  · rw [bind_of_error ht]
    exact .inr ⟨t, rfl⟩

-- A token of a kind that fits is passed.
theorem beyond_accept (hc : c.Strict) (heof : .eof ∉ kinds) (hnext : c.nextKind s ∈ kinds) :
    Beyond s (accept kinds c s) := by
  rw [accept_of_mem hnext]
  exact .inl (length_tail_lt hc.ending fun heq => heof (heq ▸ hnext))

theorem beyond_expect (hc : c.Strict) (heof : .eof ∉ kinds) (hnext : c.nextKind s ∈ kinds) :
    Beyond s (expect kinds c s) := by
  rw [expect_of_mem hnext]
  exact .inl (length_tail_lt hc.ending fun heq => heof (heq ▸ hnext))

/-! ## Running again -/

/-- The results that a parser, or a loop, has before a state. -/
abbrev Rerun (α : Type) : Type :=
  ParseContext → ParseState → Except SyntaxError α × ParseState → Prop

-- A parser has one result.
def runs (p : Parse α) : Rerun α := fun c s r => p c s = r

/-- The kinds before which a run is of interest that gave this: those that may follow the value, and
those that an error names. -/
def Admits (K : α → TokenKind → Prop) : Except SyntaxError α → TokenKind → Prop
  | .ok a, kind => K a kind
  | .error e, kind => kind ∈ e.expected

/-- A run gave `x` and stopped in `s'`; run again, before the tokens it passed and others behind
them, it gives the same value or reads on. -/
structure Replays (K : α → TokenKind → Prop) (again : Rerun α) (c : ParseContext) (s : ParseState)
    (x : Except SyntaxError α) (s' : ParseState) : Prop where
  -- an error names the token at which the run stopped
  found : ∀ e, x = .error e → e.found = s'.ahead.headD c.ending ∧ e.found.kind ∉ e.expected
  front : ∃ front, s = s'.before front ∧ ∀ (c' : ParseContext) (v : ParseState) r, c'.Strict →
    again c' (v.before front) r →
      (∀ a, x = .ok a → c'.nextKind v = c.nextKind s' → r = (.ok a, v)) ∧
      (Admits K x (c'.nextKind v) → (∃ a, x = .ok a ∧ r = (.ok a, v)) ∨ Beyond v r)

section Mono

variable {K K' : α → TokenKind → Prop} {x : Except SyntaxError α}

theorem Admits.mono (hK : ∀ a kind, K' a kind → K a kind) {kind : TokenKind}
    (h : Admits K' x kind) : Admits K x kind := by
  cases x with
  | ok a => exact hK a kind h
  | error e => exact h

-- Other runs that are among those that were replayed, before fewer kinds.
theorem Replays.mono {again again' : Rerun α} (h : Replays K again c s x s')
    (hagain : ∀ c s r, c.Strict → again' c s r → again c s r)
    (hK : ∀ a kind, K' a kind → K a kind) : Replays K' again' c s x s' := by
  obtain ⟨hfound, front, hs, hruns⟩ := h
  refine ⟨hfound, front, hs, fun c' v r hc' hrun => ?_⟩
  obtain ⟨hsame, hadmits⟩ := hruns c' v r hc' (hagain c' _ r hc' hrun)
  exact ⟨hsame, fun hadmitted => hadmits (hadmitted.mono hK)⟩

end Mono

/-- The runs of the parser from this state. -/
def ReplaysAt (K : α → TokenKind → Prop) (p : Parse α) (c : ParseContext) (s : ParseState) : Prop :=
  Replays K (runs p) c s (p c s).1 (p c s).2

/-- Whatever the parser expects, it can go on with, and its values may be followed by the kinds
given. -/
structure TruthfulBefore (K : α → TokenKind → Prop) (p : Parse α) : Prop where
  forward : p.Forward
  replays : ∀ c s, c.Strict → p.ReplaysAt K c s

/-- Whatever the parser expects, it can go on with, and its values may be followed by anything. -/
abbrev Truthful (p : Parse α) : Prop := TruthfulBefore (fun _ _ => True) p

/-- What follows a first run: it goes on from the value of that run, or fails with its error. -/
def Then (p : Parse α) (rest : α → Rerun β) : Rerun β := fun c s r =>
  match p c s with
  | (.ok a, u) => rest a c u r
  | (.error e, u) => r = (.error e, u)

-- A run that goes on behind one that read on has read on too.
theorem Beyond.then {p : Parse α} {rest : α → Rerun β} {r : Except SyntaxError β × ParseState}
    (h : Beyond v (p c s)) (hrun : Then p rest c s r)
    (hrest : ∀ a c u r, rest a c u r → r.2.ahead.length ≤ u.ahead.length) : Beyond v r := by
  unfold Then at hrun
  rcases h with hlt | ⟨t, ht⟩
  · split at hrun
    next a u hp =>
      rw [hp] at hlt
      exact .inl (Nat.lt_of_le_of_lt (hrest a c u r hrun) hlt)
    next e u hp =>
      rw [hp] at hlt
      rw [hrun]
      exact .inl hlt
  · rw [ht] at hrun
    exact .inr ⟨t, hrun⟩

section Then

variable {K₁ : α → TokenKind → Prop} {K₂ : β → TokenKind → Prop} {p : Parse α}
  {rest : α → Rerun β} {again : Rerun β}
  (hagain : ∀ c s r, again c s r → Then p rest c s r)
  (hrest : ∀ a c u r, rest a c u r → r.2.ahead.length ≤ u.ahead.length)
include hagain hrest

/-- A run that goes on behind a value. Where it passes nothing, the first run has to admit what the
second one does. -/
theorem Replays.follow {a : α} {x : Except SyntaxError β}
    (hp : Replays K₁ (runs p) c s (.ok a) u) (hx : Replays K₂ (rest a) c u x s')
    (hK : u = s' → ∀ kind, Admits K₂ x kind → K₁ a kind) : Replays K₂ again c s x s' := by
  obtain ⟨-, front₁, rfl, hfirst⟩ := hp
  obtain ⟨hfound, front₂, rfl, hsecond⟩ := hx
  refine ⟨hfound, front₁ ++ front₂, (ParseState.before_append ..).symm,
    fun c' v r hc' hrun => ?_⟩
  rw [ParseState.before_append] at hrun
  have hthen := hagain c' _ r hrun
  obtain ⟨hsame, hadmits⟩ := hfirst c' (v.before front₂) _ hc' rfl
  -- Where the first run gives the same value, the second one starts where it did.
  have hgoOn (h : p c' ((v.before front₂).before front₁) = (.ok a, v.before front₂)) :
      rest a c' (v.before front₂) r := by
    rw [Then, h] at hthen
    exact hthen
  refine ⟨fun b hb hnext => ?_, fun hadmitted => ?_⟩
  · have hfirstSame := hsame a rfl (ParseContext.nextKind_before_eq hnext front₂)
    exact (hsecond c' v r hc' (hgoOn hfirstSame)).1 b hb hnext
  · cases front₂ with
    | nil =>
      rcases hadmits (hK rfl _ hadmitted) with ⟨a', ha', hsame⟩ | hbeyond
      · cases ha'
        exact (hsecond c' v r hc' (hgoOn hsame)).2 hadmitted
      · exact .inr (hbeyond.then hthen hrest)
    | cons t ts => exact (hsecond c' v r hc' (hgoOn (hsame a rfl rfl))).2 hadmitted

-- An error of the first run is that of both.
theorem Replays.stop {e : SyntaxError} (hp : Replays K₁ (runs p) c s (.error e) u) :
    Replays K₂ again c s (.error e) u := by
  obtain ⟨hfound, front, hs, hfirst⟩ := hp
  refine ⟨fun e' he' => hfound e' (by cases he'; rfl), front, hs, fun c' v r hc' hrun => ?_⟩
  have hthen := hagain c' _ r hrun
  refine ⟨fun _ hb => (by cases hb), fun hadmitted => ?_⟩
  rcases (hfirst c' v _ hc' rfl).2 hadmitted with ⟨a, ha, -⟩ | hbeyond
  · cases ha
  · exact .inr (hbeyond.then hthen hrest)

end Then

/-! ## Sequences -/

theorem runs_bind (p : Parse α) (f : α → Parse β) (c : ParseContext) (s : ParseState)
    (r : Except SyntaxError β × ParseState) (h : runs (p >>= f) c s r) :
    Then p (fun a => runs (f a)) c s r := by
  unfold Then
  split
  next a u hp => exact (bind_of_ok hp).symm.trans h
  next e u hp => exact h.symm.trans (bind_of_error hp)

theorem ReplaysAt.bind {K₁ : α → TokenKind → Prop} {K₂ : β → TokenKind → Prop} {p : Parse α}
    {f : α → Parse β} (hforward : ∀ a, (f a).Forward) (hp : p.ReplaysAt K₁ c s)
    (hf : ∀ a u, p c s = (.ok a, u) → (f a).ReplaysAt K₂ c u)
    (hK : ∀ a u x, p c s = (.ok a, u) → f a c u = (x, u) →
      ∀ kind, Admits K₂ x kind → K₁ a kind) : (p >>= f).ReplaysAt K₂ c s := by
  have hrest (a : α) (c : ParseContext) (u : ParseState) (r : Except SyntaxError β × ParseState)
      (h : runs (f a) c u r) : r.2.ahead.length ≤ u.ahead.length := by
    rw [← h]
    exact (hforward a c u).length_le
  unfold ReplaysAt at hp ⊢
  cases hrun : p c s with
  | mk x u =>
    rw [hrun] at hp
    cases x with
    | error e =>
      rw [bind_of_error hrun]
      exact hp.stop (runs_bind p f) hrest
    | ok a =>
      rw [bind_of_ok hrun]
      refine hp.follow (runs_bind p f) hrest (hf a u hrun) fun hstay => hK a u _ hrun ?_
      exact Prod.ext rfl hstay.symm

section Same

variable {K : α → TokenKind → Prop} {p q : Parse α}

-- What does behind certain tokens what the other parser does.
theorem ReplaysAt.behind {ts : List Token} (hq : q.ReplaysAt K c u)
    (hsame : ∀ c w, p c (ParseState.before w ts) = q c w) : p.ReplaysAt K c (u.before ts) := by
  unfold ReplaysAt at hq ⊢
  rw [hsame]
  obtain ⟨hfound, front, hs, hruns⟩ := hq
  refine ⟨hfound, ts ++ front, ?_, fun c' v r hc' hrun => hruns c' v r hc' ?_⟩
  · rw [ParseState.before_append, ← hs]
  · rw [ParseState.before_append] at hrun
    exact (hsame c' _).symm.trans hrun

/-- A parser that does what another one does and reads on. It is run again behind at least the first
token, and there it does the same again, or reads on because it finds another kind. -/
theorem ReplaysAt.of_beyond (hq : q.ReplaysAt K c s) (hsame : p c s = q c s)
    (hread : Beyond s (p c s))
    (hagain : ∀ t ts s', s = ParseState.before s' (t :: ts) → ∀ c' v, c'.Strict →
      p c' (v.before (t :: ts)) = q c' (v.before (t :: ts)) ∨
      (c'.nextKind v ≠ c.nextKind s' ∧ Beyond v (p c' (v.before (t :: ts))))) :
    p.ReplaysAt K c s := by
  unfold ReplaysAt at hq ⊢
  rw [hsame] at hread ⊢
  obtain ⟨hfound, front, hs, hruns⟩ := hq
  refine ⟨hfound, front, hs, fun c' v r hc' hrun => ?_⟩
  cases front with
  | nil =>
    -- Nothing was passed, because of the levels: the error expects nothing.
    rcases hread with hlt | ⟨t, ht⟩
    · exact absurd (congrArg (·.ahead.length) hs) (Nat.ne_of_gt hlt)
    · rw [ht]
      exact ⟨nofun, fun hadmitted => absurd hadmitted List.not_mem_nil⟩
  | cons t ts =>
    rcases hagain t ts _ hs c' v hc' with heq | ⟨hnext, hbeyond⟩
    · exact hruns c' v r hc' (heq.symm.trans hrun)
    · exact ⟨fun _ _ h => absurd h hnext, fun _ => .inr (hrun ▸ hbeyond)⟩

end Same

namespace TruthfulBefore

variable {K K' : α → TokenKind → Prop} {p q : Parse α}

theorem mono (h : TruthfulBefore K p) (hK : ∀ a kind, K' a kind → K a kind) :
    TruthfulBefore K' p :=
  ⟨h.forward, fun c s hc => (h.replays c s hc).mono (fun _ _ _ _ hrun => hrun) hK⟩

-- Parsers that do the same where the first error ends the parse.
theorem congr (h : TruthfulBefore K q) (hforward : p.Forward)
    (heq : ∀ c s, c.Strict → p c s = q c s) : TruthfulBefore K p := by
  refine ⟨hforward, fun c s hc => ?_⟩
  unfold ReplaysAt
  rw [heq c s hc]
  exact (h.replays c s hc).mono (fun c' s' r hc' hrun => (heq c' s' hc').symm.trans hrun)
    fun _ _ hadmitted => hadmitted

theorem bind {L : β → TokenKind → Prop} {f : α → Parse β} (hp : Truthful p)
    (hf : ∀ a, TruthfulBefore L (f a)) : TruthfulBefore L (p >>= f) :=
  ⟨hp.forward.bind fun a => (hf a).forward, fun c s hc =>
    ReplaysAt.bind (fun a => (hf a).forward) (hp.replays c s hc)
      (fun a u _ => (hf a).replays c u hc) fun _ _ _ _ _ _ _ => trivial⟩

end TruthfulBefore

/-! ## Single steps -/

theorem truthful_pure (a : α) : Truthful (pure a : Parse α) := by
  refine ⟨lifts_forward.pure a, fun c s _ => ⟨nofun, [], rfl, fun c' v r _ hrun => ?_⟩⟩
  cases hrun
  exact ⟨fun b hb _ => by cases hb; rfl, fun _ => .inl ⟨a, rfl, rfl⟩⟩

-- A parser that has no levels left expects nothing.
theorem truthful_tooDeep {K : α → TokenKind → Prop} :
    TruthfulBefore K (fail .tooDeep : Parse α) := by
  refine ⟨lifts_forward.tooDeep, fun c s _ => ⟨fun e he => ?_, [], rfl, fun _ _ _ _ _ => ?_⟩⟩
  · cases he
    exact ⟨rfl, List.not_mem_nil⟩
  · exact ⟨nofun, fun hadmitted => absurd hadmitted List.not_mem_nil⟩

theorem truthful_accept (heof : .eof ∉ kinds) : Truthful (accept kinds) := by
  refine ⟨forward_accept kinds, fun c s hc => ?_⟩
  unfold ReplaysAt
  by_cases hmem : c.nextKind s ∈ kinds
  · -- The token that was passed is passed again.
    obtain ⟨t, u, rfl, -⟩ := exists_eq_before hc fun heq => heof (heq ▸ hmem)
    have haccept : accept kinds c (u.before [t]) = (.ok (some t), u) := accept_before hmem
    rw [haccept]
    refine ⟨nofun, [t], rfl, fun c' v r _ hrun => ?_⟩
    have hr : r = (.ok (some t), v) := hrun.symm.trans (accept_before hmem)
    exact ⟨fun a ha _ => by cases ha; exact hr, fun _ => .inl ⟨_, rfl, hr⟩⟩
  · rw [accept_of_notMem hmem]
    refine ⟨nofun, [], rfl, fun c' v r hc' hrun => ?_⟩
    by_cases hmem' : c'.nextKind v ∈ kinds
    · exact ⟨fun _ _ hnext => absurd (hnext ▸ hmem') hmem, fun _ =>
        .inr (hrun ▸ beyond_accept hc' heof hmem')⟩
    · have hr : r = (.ok none, v) := hrun.symm.trans (accept_of_notMem hmem')
      exact ⟨fun a ha _ => by cases ha; exact hr, fun _ => .inl ⟨_, rfl, hr⟩⟩

section Steps

variable {K : α → TokenKind → Prop}

theorem TruthfulBefore.accept_or (heof : .eof ∉ kinds) {p : Token → Parse α} {q : Parse α}
    (hp : ∀ t, TruthfulBefore K (p t)) (hq : TruthfulBefore K q) :
    TruthfulBefore K
      (accept kinds >>= fun t? => match t? with | some t => p t | none => q) := by
  refine .bind (truthful_accept heof) fun t? => ?_
  cases t? with
  | some t => exact hp t
  | none => exact hq

/-- A step that fails only where none of the kinds comes that would have fitted. -/
theorem TruthfulBefore.accept_or_fail (heof : .eof ∉ kinds) (fault : SyntaxFault)
    (hfault : fault.expected ⊆ kinds) {p : Token → Parse α} (hp : ∀ t, TruthfulBefore K (p t)) :
    TruthfulBefore K
      (accept kinds >>= fun t? => match t? with | some t => p t | none => fail fault) := by
  have hforward (t? : Option Token) :
      (match t? with | some t => p t | none => fail fault : Parse α).Forward := by
    cases t? with
    | some t => exact (hp t).forward
    | none => exact fun _ _ => List.suffix_refl _
  refine ⟨(forward_accept kinds).bind hforward, fun c s hc => ?_⟩
  by_cases hmem : c.nextKind s ∈ kinds
  · refine ReplaysAt.bind hforward ((truthful_accept heof).replays c s hc)
      (fun t? u haccept => ?_) fun _ _ _ _ _ _ _ => trivial
    rw [accept_of_mem hmem] at haccept
    cases haccept
    exact (hp _).replays c _ hc
  · -- Before each of the kinds that would have fitted a token is passed.
    unfold ReplaysAt
    rw [bind_of_ok (accept_of_notMem hmem)]
    refine ⟨fun e he => ?_, [], rfl, fun c' v r hc' hrun => ⟨nofun, fun hadmitted => .inr ?_⟩⟩
    · cases he
      exact ⟨rfl, fun hfound => hmem (hfault hfound)⟩
    · exact hrun ▸ (beyond_accept hc' heof (hfault hadmitted)).bind hforward

theorem truthful_expect (heof : .eof ∉ kinds) : Truthful (expect kinds) :=
  .accept_or_fail heof (.unexpected kinds) (List.Subset.refl kinds) truthful_pure

theorem TruthfulBefore.expect_bind (heof : .eof ∉ kinds) {f : Token → Parse α}
    (hf : ∀ t, TruthfulBefore K (f t)) : TruthfulBefore K (expect kinds >>= f) :=
  .bind (truthful_expect heof) hf

theorem TruthfulBefore.ite {P : Prop} [Decidable P] {p q : Parse α} (hp : TruthfulBefore K p)
    (hq : TruthfulBefore K q) : TruthfulBefore K (if P then p else q) := by
  by_cases hP : P
  · rwa [if_pos hP]
  · rwa [if_neg hP]

/-- What gives a value before certain kinds alone, and then one of these kinds. -/
theorem TruthfulBefore.bind_expect {p : Parse β}
    (hp : TruthfulBefore (fun _ kind => kind ∈ kinds) p) (heof : .eof ∉ kinds)
    {f : β → Token → Parse α} (hf : ∀ b t, TruthfulBefore K (f b t)) :
    TruthfulBefore K (p >>= fun b => expect kinds >>= f b) := by
  have hrest (b : β) := TruthfulBefore.expect_bind heof (hf b)
  refine ⟨hp.forward.bind fun b => (hrest b).forward, fun c s hc => ?_⟩
  refine ReplaysAt.bind (fun b => (hrest b).forward) (hp.replays c s hc)
    (fun b u _ => (hrest b).replays c u hc) fun b u x _ hstay kind hadmitted => ?_
  -- Nothing was passed, so that the token was not expected.
  by_cases hmem : c.nextKind u ∈ kinds
  · rcases (beyond_expect hc heof hmem).bind fun t => (hf b t).forward with hlt | ⟨t, ht⟩
    · rw [hstay] at hlt
      exact absurd hlt (Nat.lt_irrefl _)
    · rw [hstay] at ht
      cases ht
      exact absurd hadmitted List.not_mem_nil
  · rw [bind_of_error (expect_of_notMem hmem)] at hstay
    cases hstay
    exact hadmitted

theorem TruthfulBefore.recovering {step : Parse α} (h : Truthful step) (boundary : Boundary) :
    Truthful (recovering boundary step) := by
  have hsome : Truthful (step >>= fun a => pure (some a)) := .bind h fun a => truthful_pure _
  refine hsome.congr (h.forward.recovering boundary) fun c s hc => ?_
  cases hstep : step c s with
  | mk x u =>
    cases x with
    | ok a => rw [recovering_of_ok boundary hstep, bind_of_ok hstep]; rfl
    | error e => rw [recovering_of_failFast boundary hc.policy hstep, bind_of_error hstep]

end Steps

end Parse

end MiniJava
