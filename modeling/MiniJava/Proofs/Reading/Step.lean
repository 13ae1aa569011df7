import MiniJava.Parse
import MiniJava.Proofs.Phrase.Expr

/-!
# Steps — parsers before tokens that are known

`ParseState.before` puts tokens back in front of those that are ahead, so that the state before a
phrase is written in terms of the state behind it. `Reaches` says what a parser does with levels
that may run out: it gives a certain result if there are enough of them, and otherwise fails because
some token would open too many. It passes through sequences of steps (`Reaches.bind`).
-/

namespace MiniJava

namespace ParseState

/-- The state with tokens put back in front of those ahead. -/
def before (s : ParseState) (ts : List Token) : ParseState := { s with ahead := ts ++ s.ahead }

@[simp] theorem before_nil (s : ParseState) : s.before [] = s := rfl

theorem before_append (s : ParseState) (ts us : List Token) :
    s.before (ts ++ us) = (s.before us).before ts := by
  simp [before, List.append_assoc]

-- Putting back a list with a token in front puts the token back last.
theorem before_cons (s : ParseState) (t : Token) (ts : List Token) :
    s.before (t :: ts) = (s.before ts).before [t] := rfl

@[simp] theorem ahead_before (s : ParseState) (ts : List Token) :
    (s.before ts).ahead = ts ++ s.ahead := rfl

@[simp] theorem recoveries_before (s : ParseState) (ts : List Token) :
    (s.before ts).recoveries = s.recoveries := rfl

end ParseState

/-- The kind of the token that comes next. -/
def ParseContext.nextKind (c : ParseContext) (s : ParseState) : TokenKind :=
  (s.ahead.headD c.ending).kind

@[simp] theorem ParseContext.nextKind_before_cons (c : ParseContext) (s : ParseState) (t : Token)
    (ts : List Token) : c.nextKind (s.before (t :: ts)) = t.kind := rfl

theorem ParseContext.nextKind_before_leaf (c : ParseContext) (s : ParseState) {kind : TokenKind}
    (x : Terminal [kind]) (ts : List Token) : c.nextKind (s.before (x.token :: ts)) = kind :=
  x.kind_eq

namespace Parse

variable {α β : Type} {c : ParseContext} {s s' : ParseState} {t : Token} {ts : List Token}
  {kinds : List TokenKind}

/-! ## Single steps -/

theorem peek_before : peek c (s.before (t :: ts)) = (.ok t, s.before (t :: ts)) := rfl

theorem peekBehind_before :
    peekBehind c (s.before (t :: ts)) = (.ok (c.nextKind (s.before ts)), s.before (t :: ts)) := rfl

theorem accept_before (h : t.kind ∈ kinds) :
    accept kinds c (s.before (t :: ts)) = (.ok (some t), s.before ts) :=
  if_pos (List.contains_iff_mem.mpr h)

theorem accept_cons {ts : List Token} {recoveries : List Recovery} (h : t.kind ∈ kinds) :
    accept kinds c ⟨t :: ts, recoveries⟩ = (.ok (some t), ⟨ts, recoveries⟩) :=
  if_pos (List.contains_iff_mem.mpr h)

theorem accept_of_notMem (h : c.nextKind s ∉ kinds) : accept kinds c s = (.ok none, s) :=
  if_neg (fun hc => h (List.contains_iff_mem.mp hc))

theorem expect_before (h : t.kind ∈ kinds) :
    expect kinds c (s.before (t :: ts)) = (.ok t, s.before ts) := by
  rw [expect_run]
  exact if_pos (List.contains_iff_mem.mpr h)

theorem bound_run : bound c s = (.ok (s.ahead.length + 1), s) := rfl

/-! ## Steps that succeeded -/

-- A token that was accepted was ahead; the end of file never is.
theorem accept_bind_eq_ok (hending : c.ending.kind = .eof) (heof : TokenKind.eof ∉ kinds)
    {f : Option Token → Parse β} {b : β} (h : (accept kinds >>= f) c s = (.ok b, s')) :
    (∃ (x : Terminal kinds) (u : ParseState),
        s = u.before [x.token] ∧ f (some x.token) c u = (.ok b, s')) ∨
      (c.nextKind s ∉ kinds ∧ f none c s = (.ok b, s')) := by
  by_cases hmem : c.nextKind s ∈ kinds
  · left
    obtain ⟨ahead, recoveries⟩ := s
    cases ahead with
    | nil =>
      -- Nothing is ahead: what comes next is the end of file, which no step accepts.
      have hnext : c.nextKind ⟨[], recoveries⟩ = .eof := hending
      exact absurd (hnext ▸ hmem) heof
    | cons t ts =>
      have hkind : t.kind ∈ kinds := hmem
      rw [bind_of_ok (accept_cons hkind)] at h
      exact ⟨⟨t, hmem⟩, ⟨ts, recoveries⟩, rfl, h⟩
  · right
    refine ⟨hmem, ?_⟩
    rw [← h]
    exact (bind_of_ok (accept_of_notMem hmem)).symm

-- A token that was expected and passed was ahead.
theorem expect_bind_eq_ok (hending : c.ending.kind = .eof) (heof : TokenKind.eof ∉ kinds)
    {f : Token → Parse β} {b : β} (h : (expect kinds >>= f) c s = (.ok b, s')) :
    ∃ (x : Terminal kinds) (u : ParseState),
      s = u.before [x.token] ∧ f x.token c u = (.ok b, s') := by
  rw [expect, bind_assoc] at h
  obtain ⟨x, u, hs, h⟩ | ⟨-, h⟩ := accept_bind_eq_ok hending heof h
  · exact ⟨x, u, hs, h⟩
  · cases h

/-! ## Levels that may run out -/

/-- The result is `r'` if the levels are enough, and otherwise the error that they are not. -/
def Reaches (r r' : Except SyntaxError α × ParseState) (enough : Prop) : Prop :=
  (enough → r = r') ∧ (¬ enough → ∃ t u, r = (.error ⟨.tooDeep, t⟩, u))

namespace Reaches

variable {r r' r'' : Except SyntaxError α × ParseState} {P Q : Prop}

theorem of_eq (h : r = r') : Reaches r r' True := ⟨fun _ => h, fun hn => absurd trivial hn⟩

theorem congr (h : Reaches r r' P) (hPQ : P ↔ Q) : Reaches r r' Q :=
  ⟨fun hq => h.1 (hPQ.mpr hq), fun hn => h.2 (fun hp => hn (hPQ.mp hp))⟩

-- The levels have to be enough for both of two stretches.
theorem trans (h : Reaches r r' P) (h' : P → Reaches r' r'' Q) : Reaches r r'' (P ∧ Q) := by
  -- The first stretch runs out of levels, or the second one starts where it ended.
  by_cases hp : P
  · have heq := h.1 hp
    refine ⟨fun hpq => ?_, fun hn => ?_⟩
    · rw [heq]
      exact (h' hp).1 hpq.2
    · rw [heq]
      exact (h' hp).2 (fun hq => hn ⟨hp, hq⟩)
  · exact ⟨fun hpq => absurd hpq.1 hp, fun _ => h.2 hp⟩

-- In a sequence the levels have to be enough for the first step and for what follows it.
theorem bind {p : Parse α} {f : α → Parse β} {a : α} {r : Except SyntaxError β × ParseState}
    (hp : Reaches (p c s) (.ok a, s') P) (hf : P → Reaches (f a c s') r Q) :
    Reaches ((p >>= f) c s) r (P ∧ Q) := by
  by_cases h : P
  · rw [bind_of_ok (hp.1 h)]
    exact (Reaches.of_eq rfl).trans (fun _ => hf h) |>.congr (by simp [h])
  · refine ⟨fun hpq => absurd hpq.1 h, fun _ => ?_⟩
    -- An error of the first step is the error of the whole sequence.
    obtain ⟨t, u, herror⟩ := hp.2 h
    exact ⟨t, u, bind_of_error herror⟩

-- What follows the first step opens nothing.
theorem bind_free {p : Parse α} {f : α → Parse β} {a : α} {r : Except SyntaxError β × ParseState}
    (hp : Reaches (p c s) (.ok a, s') P) (hf : Reaches (f a c s') r True) :
    Reaches ((p >>= f) c s) r P :=
  (hp.bind (fun _ => hf)).congr (and_iff_left trivial)

theorem step {p : Parse α} {f : α → Parse β} {a : α} {r : Except SyntaxError β × ParseState}
    (hp : p c s = (.ok a, s')) (hf : Reaches (f a c s') r Q) : Reaches ((p >>= f) c s) r Q := by
  rwa [bind_of_ok hp]

theorem map {p : Parse α} {f : α → β} {a : α} (hp : Reaches (p c s) (.ok a, s') P) :
    Reaches ((p >>= fun a => Pure.pure (f a)) c s) (.ok (f a), s') P :=
  hp.bind_free (of_eq rfl)

theorem pure (a : α) : Reaches ((Pure.pure a : Parse α) c s) (.ok a, s) True := of_eq rfl

-- Where no level is left, nothing more can be opened.
theorem tooDeep (h : ¬ P) : Reaches ((fail .tooDeep : Parse α) c s) r' P :=
  ⟨fun hp => absurd hp h, fun _ => ⟨_, _, rfl⟩⟩

end Reaches

end Parse

end MiniJava
