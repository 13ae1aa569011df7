import MiniJava.Proofs.Depth.Counted
import MiniJava.Proofs.Reading.Lifting

/-!
# Counted parsers follow parsers

A counted parser `Follows` a parser with `levels` left to open and with `calls` if it has a result
wherever so many levels are left, the same one, and if no more than so many productions are active
in it. It leaves the depth and the productions that are active as they were, raises the depth to no
more than `maxNesting`, and every use of `nested` in it ends at the depth at which it began; that is
what makes its states `Balanced`.
-/

namespace MiniJava

namespace CountedState

/-- What a run leaves as it was, and how far it has raised the counts. -/
structure Balanced (calls : Nat) (s s' : CountedState) : Prop where
  depth : s'.depth = s.depth
  active : s'.active = s.active
  deepest : s'.deepest ≤ max s.deepest maxNesting
  busiest : s'.busiest ≤ max s.busiest (s.active + calls)
  openings : ∃ more, s'.openings = s.openings ++ more ∧ ∀ o ∈ more, o.exit = o.entry

namespace Balanced

variable {calls more : Nat} {s s' s'' : CountedState}

-- Moving forward and recording errors counts nothing.
theorem reading (calls : Nat) (s : CountedState) (ahead : List Token) (errors : List SyntaxError) :
    Balanced calls s { s with ahead := ahead, errors := errors } where
  depth := rfl
  active := rfl
  deepest := Nat.le_max_left _ _
  busiest := Nat.le_max_left _ _
  openings := ⟨[], (List.append_nil _).symm, List.forall_mem_nil _⟩

theorem refl (calls : Nat) (s : CountedState) : Balanced calls s s := reading calls s _ _

theorem trans (h : Balanced calls s s') (h' : Balanced calls s' s'') : Balanced calls s s'' where
  depth := h'.depth.trans h.depth
  active := h'.active.trans h.active
  deepest := by
    have hfirst := h.deepest
    have hsecond := h'.deepest
    omega
  busiest := by
    have hfirst := h.busiest
    have hsecond := h'.busiest
    rw [h.active] at hsecond
    omega
  openings := by
    obtain ⟨os, hos, hexits⟩ := h.openings
    obtain ⟨os', hos', hexits'⟩ := h'.openings
    refine ⟨os ++ os', by rw [hos', hos, List.append_assoc], fun o ho => ?_⟩
    rcases List.mem_append.mp ho with ho | ho
    · exact hexits o ho
    · exact hexits' o ho

theorem mono (hle : calls ≤ more) (h : Balanced calls s s') : Balanced more s s' where
  depth := h.depth
  active := h.active
  deepest := h.deepest
  busiest := by
    have hbusiest := h.busiest
    omega
  openings := h.openings

end Balanced

/-- The states are before the same tokens, with the same errors recorded. -/
structure Matches (s : CountedState) (t : ParseState) : Prop where
  ahead : s.ahead = t.ahead
  errors : s.errors = recordedErrors t.recoveries

end CountedState

/-! ## Steps -/

/-- The parser puts nothing on record and does not look at what is. -/
def Parse.Silent {α : Type} (p : Parse α) : Prop := ∀ c s,
  p c s = ((p c ⟨s.ahead, []⟩).1, ⟨(p c ⟨s.ahead, []⟩).2.ahead, s.recoveries⟩)

theorem Parse.Silent.bind {α β : Type} {p : Parse α} {f : α → Parse β} (hp : p.Silent)
    (hf : ∀ a, (f a).Silent) : (p >>= f).Silent := by
  intro c s
  have hs := hp c s
  have hfirst := hp c ⟨s.ahead, []⟩
  cases hresult : p c ⟨s.ahead, []⟩ with
  | mk result t =>
    rw [hresult] at hs hfirst
    have hempty : t = ⟨t.ahead, []⟩ := congrArg Prod.snd hfirst
    cases result with
    | ok a =>
      rw [bind_of_ok hs, bind_of_ok hresult, hf a c ⟨t.ahead, s.recoveries⟩, ← hempty]
    | error e => rw [bind_of_error hs, bind_of_error hresult]

theorem Parse.lifts_silent : Lifts fun p => p.Silent := by
  refine .of_fail (fun _ _ _ => rfl) (fun _ _ => rfl) (fun _ _ => rfl) (fun _ _ => rfl)
    (fun kinds c s => ?_) (fun _ _ _ => rfl) Parse.Silent.bind
  simp only [accept]
  split <;> rfl

/-- The counted parser does what the parser does wherever so many levels are left to open, with no
more than so many productions active in it. -/
def Follows {α : Type} (levels calls : Nat) (m : Counted α) (p : Parse α) : Prop :=
  ∀ c s t, s.depth + levels = maxNesting → s.Matches t →
    ∃ s', m c s = some ((p c t).1, s') ∧ s'.Matches (p c t).2 ∧ s.Balanced calls s'

namespace Follows

open Counted

variable {α β : Type} {levels calls more : Nat} {m : Counted α} {p : Parse α}

theorem mono (hle : calls ≤ more) (h : Follows levels calls m p) : Follows levels more m p := by
  intro c s t hdepth hmatches
  obtain ⟨s', hrun, hmatches', hbalanced⟩ := h c s t hdepth hmatches
  exact ⟨s', hrun, hmatches', hbalanced.mono hle⟩

-- A step that records nothing, taken as it is.
theorem step (hp : p.Silent) : Follows levels calls (Counted.step p) p := by
  intro c s t _ hmatches
  have hrun := hp c t
  rw [← hmatches.ahead] at hrun
  refine ⟨{ s with ahead := (p c ⟨s.ahead, []⟩).2.ahead }, ?_, ?_, .reading calls s _ _⟩
  · rw [hrun]
    rfl
  · rw [hrun]
    exact ⟨rfl, hmatches.errors⟩

theorem pure (a : α) : Follows levels calls (Pure.pure a : Counted α) (Pure.pure a) :=
  fun _ s _ _ hmatches => ⟨s, rfl, hmatches, .refl calls s⟩

theorem bind {f : α → Counted β} {g : α → Parse β} (hm : Follows levels calls m p)
    (hf : ∀ a, Follows levels calls (f a) (g a)) : Follows levels calls (m >>= f) (p >>= g) := by
  intro c s t hdepth hmatches
  obtain ⟨s', hrun, hmatches', hbalanced⟩ := hm c s t hdepth hmatches
  cases hresult : p c t with
  | mk result t' =>
    rw [hresult] at hrun hmatches'
    cases result with
    | ok a =>
      rw [Parse.bind_of_ok hresult, Counted.bind_of_ok hrun]
      -- The second step starts from the depth at which the first one did.
      have hdepth' : s'.depth + levels = maxNesting := hbalanced.depth ▸ hdepth
      obtain ⟨s'', hrun', hmatches'', hbalanced'⟩ := hf a c s' t' hdepth' hmatches'
      exact ⟨s'', hrun', hmatches'', hbalanced.trans hbalanced'⟩
    | error e =>
      rw [Parse.bind_of_error hresult, Counted.bind_of_error hrun]
      exact ⟨s', rfl, hmatches', hbalanced⟩

theorem ite {P : Prop} [Decidable P] {n : Counted α} {q : Parse α}
    (hthen : P → Follows levels calls m p) (helse : Follows levels calls n q) :
    Follows levels calls (if P then m else n) (if P then p else q) := by
  by_cases hP : P
  · rw [if_pos hP, if_pos hP]
    exact hthen hP
  · rwa [if_neg hP, if_neg hP]

section Steps

variable {f : Token → Counted α} {g : Token → Parse α}

theorem expect_bind {kinds : List TokenKind} (hf : ∀ t, Follows levels calls (f t) (g t)) :
    Follows levels calls (liftM (Parse.expect kinds) >>= f) (Parse.expect kinds >>= g) :=
  bind (step (Parse.lifts_silent.expect kinds)) hf

theorem peek_bind (hf : ∀ t, Follows levels calls (f t) (g t)) :
    Follows levels calls (liftM Parse.peek >>= f) (Parse.peek >>= g) :=
  bind (step Parse.lifts_silent.peek) hf

theorem bound_bind {f : Nat → Counted α} {g : Nat → Parse α}
    (hf : ∀ n, Follows levels calls (f n) (g n)) :
    Follows levels calls (liftM Parse.bound >>= f) (Parse.bound >>= g) :=
  bind (step Parse.lifts_silent.bound) hf

-- A step that depends on whether a token was passed.
theorem accept_or {kinds : List TokenKind} {n : Counted α} {q : Parse α}
    (hsome : ∀ t, Follows levels calls (f t) (g t)) (hnone : Follows levels calls n q) :
    Follows levels calls
      (liftM (Parse.accept kinds) >>= fun t? => match t? with | some t => f t | none => n)
      (Parse.accept kinds >>= fun t? => match t? with | some t => g t | none => q) := by
  refine bind (step (Parse.lifts_silent.accept kinds)) fun t? => ?_
  cases t? with
  | some t => exact hsome t
  | none => exact hnone

theorem fail (fault : SyntaxFault) :
    Follows levels calls (liftM (Parse.fail fault : Parse α)) (Parse.fail fault) :=
  step fun _ _ => rfl

end Steps

/-! ## Levels, calls and recovery -/

-- Where no level is left, opening one is refused.
theorem nested_zero : Follows 0 calls (nested m) (Parse.fail .tooDeep) := by
  intro c s t hdepth hmatches
  have hfull : maxNesting ≤ s.depth := Nat.le_of_eq hdepth.symm
  refine ⟨{ s with openings := s.openings ++ [⟨s.depth, s.depth⟩] }, ?_,
    ⟨hmatches.ahead, hmatches.errors⟩, ?_⟩
  · rw [nested, if_pos hfull, hmatches.ahead]
    rfl
  · exact ⟨rfl, rfl, Nat.le_max_left _ _, Nat.le_max_left _ _, _, rfl,
      List.forall_mem_singleton.mpr rfl⟩

-- Where a level is left, what is inside has one less.
theorem nested (h : Follows levels calls m p) :
    Follows (levels + 1) calls (Counted.nested m) p := by
  intro c s t hdepth hmatches
  have hfree : ¬ maxNesting ≤ s.depth := by omega
  let inside : CountedState :=
    { s with depth := s.depth + 1, deepest := max s.deepest (s.depth + 1) }
  have hinside : inside.depth + levels = maxNesting := by
    simp only [inside]
    omega
  obtain ⟨s', hrun, hmatches', hbalanced⟩ := h c inside t hinside ⟨hmatches.ahead, hmatches.errors⟩
  have hexit : s'.depth - 1 = s.depth := by
    rw [hbalanced.depth]
    rfl
  refine ⟨{ s' with
    depth := s'.depth - 1
    openings := s'.openings ++ [⟨s.depth, s'.depth - 1⟩] }, ?_,
    ⟨hmatches'.ahead, hmatches'.errors⟩, ?_⟩
  · rw [Counted.nested, if_neg hfree, hrun]
  · obtain ⟨os, hos, hexits⟩ := hbalanced.openings
    refine ⟨hexit, hbalanced.active, ?_, hbalanced.busiest, os ++ [⟨s.depth, s'.depth - 1⟩], ?_, ?_⟩
    · have hdeepest : s'.deepest ≤ max (max s.deepest (s.depth + 1)) maxNesting := hbalanced.deepest
      show s'.deepest ≤ max s.deepest maxNesting
      omega
    · show s'.openings ++ [⟨s.depth, s'.depth - 1⟩] = _
      rw [hos, List.append_assoc]
    · intro o ho
      rcases List.mem_append.mp ho with ho | ho
      · exact hexits o ho
      · rw [List.mem_singleton.mp ho]
        exact hexit

-- A production is one active call more than its body.
theorem during (h : Follows levels calls m p) :
    Follows levels (calls + 1) (Counted.during m) p := by
  intro c s t hdepth hmatches
  let called : CountedState :=
    { s with active := s.active + 1, busiest := max s.busiest (s.active + 1) }
  obtain ⟨s', hrun, hmatches', hbalanced⟩ :=
    h c called t hdepth ⟨hmatches.ahead, hmatches.errors⟩
  refine ⟨{ s' with active := s'.active - 1 }, ?_, ⟨hmatches'.ahead, hmatches'.errors⟩, ?_⟩
  · rw [Counted.during, hrun]
  · refine ⟨hbalanced.depth, ?_, hbalanced.deepest, ?_, hbalanced.openings⟩
    · show s'.active - 1 = s.active
      rw [hbalanced.active]
      rfl
    · have hbusiest : s'.busiest ≤ max (max s.busiest (s.active + 1)) (s.active + 1 + calls) :=
        hbalanced.busiest
      show s'.busiest ≤ max s.busiest (s.active + (calls + 1))
      omega

-- An error more that was recovered from.
theorem recordedErrors_append_singleton (rs : List Recovery) (r : Recovery) :
    recordedErrors (rs ++ [r]) = keepError (recordedErrors rs) r.error := by
  rw [recordedErrors, List.map_append, List.foldl_append]
  rfl

theorem recovering (boundary : Boundary) (h : Follows levels calls m p) :
    Follows levels calls (Counted.recovering boundary m) (Parse.recovering boundary p) := by
  intro c s t hdepth hmatches
  obtain ⟨s', hrun, hmatches', hbalanced⟩ := h c s t hdepth hmatches
  cases hresult : p c t with
  | mk result t' =>
    rw [hresult] at hrun hmatches'
    cases result with
    | ok a =>
      rw [Parse.recovering_of_ok boundary hresult]
      exact ⟨s', by rw [Counted.recovering, hrun], hmatches', hbalanced⟩
    | error e =>
      cases hpolicy : c.policy with
      | failFast =>
        rw [Parse.recovering_of_failFast boundary hpolicy hresult]
        exact ⟨s', by simp only [Counted.recovering, hrun, hpolicy], hmatches', hbalanced⟩
      | recover =>
        rw [Parse.recovering_of_recover boundary hpolicy hresult]
        refine ⟨_, by simp only [Counted.recovering, hrun, hpolicy]; rfl, ⟨?_, ?_⟩,
          hbalanced.trans (.reading calls s' _ _)⟩
        · rw [hmatches.ahead, hmatches'.ahead]
        · rw [recordedErrors_append_singleton, hmatches'.errors]

end Follows

end MiniJava
