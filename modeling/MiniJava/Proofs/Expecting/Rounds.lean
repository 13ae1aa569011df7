import MiniJava.Proofs.Expecting.Replay

/-!
# Loops and choices, run again

A loop is truthful if its rounds are, and stops before the kinds before which its last round does
(`truthfulBefore_of_repeats`).

A parser that looks at the next token and does something else for each kind reads on before some
kinds and stays before the others, where it gives a value or fails (`truthful_of_choice`). What it
does before a kind before which it reads on is all that is run again, since the first token stays
the same. `Opens` says of a parser that it reads on before certain kinds, and that its error before
another one is that none of these came.
-/

namespace MiniJava

/-- The kinds that may follow a round: any if the loop goes on, and otherwise those that may follow
its value. -/
def Round.Follow {σ α : Type} (K : α → TokenKind → Prop) : Round σ α → TokenKind → Prop
  | .goOn _, _ => True
  | .stop a, kind => K a kind

namespace Parse

variable {α β σ : Type} {c : ParseContext} {s : ParseState}

/-! ## Loops -/

section Loops

variable {round : σ → Parse (Round σ α)} {x : σ} {r : Except SyntaxError α × ParseState}

theorem Repeats.length_le (hround : ∀ x, (round x).Forward) (h : Repeats round c x s r) :
    r.2.ahead.length ≤ s.ahead.length := by
  induction h with
  | @stop x s _ _ hrun =>
    have hle := (hround x c s).length_le
    rwa [hrun] at hle
  | @fail x s _ _ hrun =>
    have hle := (hround x c s).length_le
    rwa [hrun] at hle
  | goOn _ hlt _ ih => exact Nat.le_trans ih (Nat.le_of_lt hlt)

/-- What follows a round: the rounds behind it, or its value. -/
def afterRound (round : σ → Parse (Round σ α)) : Round σ α → Rerun α
  | .goOn y => fun c s r => Repeats round c y s r
  | .stop a => runs (pure a)

theorem Repeats.then_round (h : Repeats round c x s r) :
    Then (round x) (afterRound round) c s r := by
  unfold Then
  cases h with
  | stop hrun => rw [hrun]; rfl
  | fail hrun => rw [hrun]
  | goOn hrun _ hrest => rw [hrun]; exact hrest

theorem length_le_of_afterRound (hround : ∀ x, (round x).Forward) (o : Round σ α) (c : ParseContext)
    (s : ParseState) (r : Except SyntaxError α × ParseState) (h : afterRound round o c s r) :
    r.2.ahead.length ≤ s.ahead.length := by
  cases o with
  | goOn y => exact Repeats.length_le hround h
  | stop a => cases h; exact Nat.le_refl _

variable {K : α → TokenKind → Prop}

-- By induction on the rounds of the first run; each of them is followed by those behind it.
theorem Repeats.replays (hround : ∀ x, TruthfulBefore (Round.Follow K) (round x)) (hc : c.Strict)
    (h : Repeats round c x s r) :
    Replays K (fun c s r => Repeats round c x s r) c s r.1 r.2 := by
  have hrest := length_le_of_afterRound fun x => (hround x).forward
  induction h with
  | @stop x s s' a hrun =>
    have hfirst := (hround x).replays c s hc
    rw [ReplaysAt, hrun] at hfirst
    refine hfirst.follow (fun _ _ _ => Repeats.then_round) hrest ?_ fun _ _ hK => hK
    exact ((truthful_pure a).mono fun _ _ _ => trivial).replays c s' hc
  | @fail x s s' e hrun =>
    have hfirst := (hround x).replays c s hc
    rw [ReplaysAt, hrun] at hfirst
    exact hfirst.stop (fun _ _ _ => Repeats.then_round) hrest
  | @goOn x y s s' r hrun _ _ ih =>
    have hfirst := (hround x).replays c s hc
    rw [ReplaysAt, hrun] at hfirst
    exact hfirst.follow (fun _ _ _ => Repeats.then_round) hrest ih fun _ _ _ => trivial

/-- A loop is truthful before the kinds before which its rounds are. -/
theorem truthfulBefore_of_repeats {loop : Parse α} (hforward : loop.Forward)
    (hround : ∀ x, TruthfulBefore (Round.Follow K) (round x))
    (hloop : ∀ c s, c.ending.kind = .eof → Repeats round c x s (loop c s)) :
    TruthfulBefore K loop := by
  refine ⟨hforward, fun c s hc => ?_⟩
  exact ((hloop c s hc.ending).replays hround hc).mono
    (fun c' s' r hc' hrun => hrun ▸ hloop c' s' hc'.ending) fun _ _ hadmitted => hadmitted

theorem truthful_of_repeats {loop : Parse α} (hforward : loop.Forward)
    (hround : ∀ x, Truthful (round x))
    (hloop : ∀ c s, c.ending.kind = .eof → Repeats round c x s (loop c s)) : Truthful loop :=
  truthfulBefore_of_repeats hforward (fun x => (hround x).mono fun _ _ _ => trivial) hloop

end Loops

/-! ## Opening -/

/-- The parser reads on before these kinds, and before others it fails because none of them came, or
because of the levels. -/
structure Opens (kinds : List TokenKind) (p : Parse α) : Prop where
  beyond : ∀ c s, c.Strict → c.nextKind s ∈ kinds → Beyond s (p c s)
  fails : ∀ c s, c.Strict → c.nextKind s ∉ kinds →
    ∃ fault, p c s = (.error ⟨fault, s.ahead.headD c.ending⟩, s) ∧ fault.expected ⊆ kinds

variable {kinds : List TokenKind} {p : Parse α}

theorem opens_tooDeep : Opens kinds (fail .tooDeep : Parse α) where
  beyond _ _ _ _ := .inr ⟨_, rfl⟩
  fails _ _ _ _ := ⟨.tooDeep, rfl, List.nil_subset _⟩

theorem opens_expect (heof : .eof ∉ kinds) {f : Token → Parse α} (hf : ∀ t, (f t).Forward) :
    Opens kinds (expect kinds >>= f) where
  beyond _ _ hc hnext := (beyond_expect hc heof hnext).bind hf
  fails _ _ _ hnext :=
    ⟨.unexpected kinds, bind_of_error (expect_of_notMem hnext), List.Subset.refl kinds⟩

theorem Opens.bind (hp : Opens kinds p) {f : α → Parse β} (hf : ∀ a, (f a).Forward) :
    Opens kinds (p >>= f) where
  beyond c s hc hnext := (hp.beyond c s hc hnext).bind hf
  fails c s hc hnext := by
    obtain ⟨fault, hrun, hfault⟩ := hp.fails c s hc hnext
    exact ⟨fault, bind_of_error hrun, hfault⟩

theorem Opens.recovering (hp : Opens kinds p) (boundary : Boundary) :
    Opens kinds (recovering boundary p) where
  beyond c s hc hnext := by
    have hbeyond := hp.beyond c s hc hnext
    cases hrun : p c s with
    | mk x u =>
      rw [hrun] at hbeyond
      cases x with
      | ok a =>
        rcases hbeyond with hlt | ⟨t, ht⟩
        · rw [recovering_of_ok boundary hrun]
          exact .inl hlt
        · cases ht
      | error e =>
        rw [recovering_of_failFast boundary hc.policy hrun]
        rcases hbeyond with hlt | ⟨t, ht⟩
        · exact .inl hlt
        · cases ht
          exact .inr ⟨t, rfl⟩
  fails c s hc hnext := by
    obtain ⟨fault, hrun, hfault⟩ := hp.fails c s hc hnext
    exact ⟨fault, recovering_of_failFast boundary hc.policy hrun, hfault⟩

-- What begins with a token and is truthful from then on.
theorem truthful_of_begins (hp : Begins @Truthful kinds p) (heof : .eof ∉ kinds) : Truthful p := by
  obtain ⟨f, rfl, hf⟩ := hp
  exact .expect_bind heof hf

theorem opens_of_begins (hp : Begins @Truthful kinds p) (heof : .eof ∉ kinds) : Opens kinds p := by
  obtain ⟨f, rfl, hf⟩ := hp
  exact opens_expect heof fun t => (hf t).forward

theorem begins_truthful_bind (hp : Begins @Truthful kinds p) {f : α → Parse β}
    (hf : ∀ a, Truthful (f a)) : Begins @Truthful kinds (p >>= f) := by
  obtain ⟨g, rfl, hg⟩ := hp
  exact ⟨fun t => g t >>= f, bind_assoc _ _ _, fun t => (hg t).bind hf⟩

/-! ## Choices -/

variable {K : α → TokenKind → Prop}

/-- A parser that chooses by the kind that comes next reads on before the kinds given, and before
the others gives a value or fails. A value may be followed by a kind only if the parser reads on
before that one or gives the same value. -/
theorem truthful_of_choice (kinds : List TokenKind) (g : TokenKind → Parse α)
    (hforward : p.Forward)
    (hchoice : ∀ c s, p c s = g (c.nextKind s) c s)
    (hbeyond : ∀ c s, c.Strict → c.nextKind s ∈ kinds → Beyond s (p c s))
    (hreplays : ∀ c s, c.Strict → c.nextKind s ∈ kinds → (g (c.nextKind s)).ReplaysAt K c s)
    (hstay : ∀ c s, c.Strict → c.nextKind s ∉ kinds →
      (∃ a, g (c.nextKind s) = pure a ∧ ∀ kind, K a kind → kind ∈ kinds ∨ g kind = pure a) ∨
      ∃ fault, p c s = (.error ⟨fault, s.ahead.headD c.ending⟩, s) ∧ fault.expected ⊆ kinds) :
    TruthfulBefore K p := by
  refine ⟨hforward, fun c s hc => ?_⟩
  unfold ReplaysAt
  by_cases hmem : c.nextKind s ∈ kinds
  · refine (hreplays c s hc hmem).of_beyond (hchoice c s) (hbeyond c s hc hmem) ?_
    rintro t ts s' rfl c' v -
    exact .inl (hchoice c' _)
  · rcases hstay c s hc hmem with ⟨a, ha, hfollow⟩ | ⟨fault, hrun, hfault⟩
    · have hrun : p c s = (.ok a, s) := by
        rw [hchoice, ha]
        rfl
      rw [hrun]
      refine ⟨nofun, [], rfl, fun c' v r hc' hrerun => ?_⟩
      have hgives (h : g (c'.nextKind v) = pure a) : r = (.ok a, v) := by
        rw [← show p c' (v.before []) = r from hrerun, hchoice]
        show g (c'.nextKind v) c' v = _
        rw [h]
        rfl
      refine ⟨fun b hb hnext => ?_, fun hadmitted => ?_⟩
      · cases hb
        exact hgives (hnext ▸ ha)
      · rcases hfollow _ hadmitted with hread | hsame
        · exact .inr (hrerun ▸ hbeyond c' v hc' hread)
        · exact .inl ⟨a, rfl, hgives hsame⟩
    · rw [hrun]
      refine ⟨fun e he => ?_, [], rfl, fun c' v r hc' hrerun => ⟨nofun, fun hadmitted => ?_⟩⟩
      · cases he
        exact ⟨rfl, fun hfound => hmem (hfault hfound)⟩
      · exact .inr (hrerun ▸ hbeyond c' v hc' (hfault hadmitted))

/-- A choice of which every branch reads on before some of the kinds, that of the branch among them,
or gives a value. -/
theorem truthful_of_branches (kinds : List TokenKind) (g : TokenKind → Parse α)
    (hforward : p.Forward) (hchoice : ∀ c s, p c s = g (c.nextKind s) c s)
    (hbranch : ∀ kind,
      (∃ kinds' ⊆ kinds,
        Truthful (g kind) ∧ Opens kinds' (g kind) ∧ (kind ∈ kinds → kind ∈ kinds')) ∨
      (kind ∉ kinds ∧
        ∃ a, g kind = pure a ∧ ∀ kind', K a kind' → kind' ∈ kinds ∨ g kind' = pure a)) :
    TruthfulBefore K p := by
  refine truthful_of_choice kinds g hforward hchoice (fun c s hc hmem => ?_)
    (fun c s hc hmem => ?_) fun c s hc hmem => ?_
  · rw [hchoice]
    rcases hbranch (c.nextKind s) with ⟨kinds', -, -, hopens, hmem'⟩ | ⟨hnot, -⟩
    · exact hopens.beyond c s hc (hmem' hmem)
    · exact absurd hmem hnot
  · rcases hbranch (c.nextKind s) with ⟨kinds', -, htruthful, -, -⟩ | ⟨hnot, -⟩
    · exact (htruthful.mono fun _ _ _ => trivial).replays c s hc
    · exact absurd hmem hnot
  · rcases hbranch (c.nextKind s) with ⟨kinds', hsubset, -, hopens, -⟩ | ⟨-, hstop⟩
    · obtain ⟨fault, hrun, hfault⟩ := hopens.fails c s hc fun h => hmem (hsubset h)
      exact .inr ⟨fault, (hchoice c s).trans hrun, List.Subset.trans hfault hsubset⟩
    · exact .inl hstop

end Parse

end MiniJava
