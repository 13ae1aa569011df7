import MiniJava.Proofs.Reading.Lifting

/-!
# The two policies, run side by side

A parser is run twice from the same state, once giving up at the first error and once recovering.
Either both runs are the same and put nothing on record, or the one that gives up fails with the
very error that the other puts on record first (`Agree`). Steps keep this in sequences, and
`recovering` is where the two runs part; so it holds of every parser (`Program.agrees_parse`).
-/

namespace MiniJava

namespace Parse

variable {α β : Type}

/-- How a run that gives up at the first error and a run that recovers compare, where both began
with `recoveries` on record. -/
inductive Agree (recoveries : List Recovery) (early full : Except SyntaxError α × ParseState) :
    Prop where
  /-- No error was met that could be recovered from. -/
  | same (heq : early = full) (hkept : full.2.recoveries = recoveries)
  /-- The runs parted at an error. -/
  | parted (e : SyntaxError) (boundary : Boundary) (skippedFrom : Position) (more : List Recovery)
      (hearly : early.1 = .error e) (hkept : early.2.recoveries = recoveries)
      (hfull : full.2.recoveries = recoveries ++ ⟨e, boundary, skippedFrom⟩ :: more)

namespace Agree

variable {recoveries : List Recovery} {early full : Except SyntaxError α × ParseState}

-- What was on record stays there.
theorem exists_recoveries_eq (h : Agree recoveries early full) :
    ∃ more, full.2.recoveries = recoveries ++ more := by
  cases h with
  | same _ hkept => exact ⟨[], by rw [hkept, List.append_nil]⟩
  | parted _ _ _ _ _ _ hfull => exact ⟨_, hfull⟩

-- Giving up at the first error puts nothing on record.
theorem recoveries_early (h : Agree recoveries early full) : early.2.recoveries = recoveries := by
  cases h with
  | same heq hkept => rw [heq, hkept]
  | parted _ _ _ _ _ hkept _ => exact hkept

end Agree

/-- The two runs of the parser agree from every state. -/
def Agrees (p : Parse α) : Prop :=
  ∀ (ending : Token) (s : ParseState),
    Agree s.recoveries (p ⟨.failFast, ending⟩ s) (p ⟨.recover, ending⟩ s)

/-! ## Steps -/

theorem agrees_pure (a : α) : (pure a : Parse α).Agrees := fun _ _ => .same rfl rfl

theorem agrees_fail (fault : SyntaxFault) : (fail fault : Parse α).Agrees :=
  fun _ _ => .same rfl rfl

theorem agrees_peek : peek.Agrees := fun _ _ => .same rfl rfl

theorem agrees_peekBehind : peekBehind.Agrees := fun _ _ => .same rfl rfl

theorem agrees_bound : bound.Agrees := fun _ _ => .same rfl rfl

theorem agrees_accept (kinds : List TokenKind) : (accept kinds).Agrees := by
  intro ending s
  refine .same rfl ?_
  unfold accept
  dsimp only
  split <;> rfl

-- A sequence agrees if its steps do.
theorem Agrees.bind {p : Parse α} {f : α → Parse β} (hp : p.Agrees) (hf : ∀ a, (f a).Agrees) :
    (p >>= f).Agrees := by
  intro ending s
  cases hfull : p ⟨.recover, ending⟩ s with
  | mk result u =>
    have hagree := hp ending s
    rw [hfull] at hagree
    cases hagree with
    | same heq hkept =>
      cases result with
      | ok a =>
        rw [bind_of_ok heq, bind_of_ok hfull, ← show u.recoveries = s.recoveries from hkept]
        exact hf a ending u
      | error e =>
        rw [bind_of_error heq, bind_of_error hfull]
        exact .same rfl hkept
    | parted e boundary skippedFrom more hearly hkept hrecord =>
      -- The run that gives up is over, and whatever the other does adds to its record.
      rw [bind_of_error (Prod.ext hearly rfl)]
      cases result with
      | ok a =>
        rw [bind_of_ok hfull]
        obtain ⟨more', hmore⟩ := (hf a ending u).exists_recoveries_eq
        refine .parted e boundary skippedFrom (more ++ more') rfl hkept ?_
        rw [hmore, show u.recoveries = _ from hrecord, List.append_assoc, List.cons_append]
      | error e' =>
        rw [bind_of_error hfull]
        exact .parted e boundary skippedFrom more rfl hkept hrecord

-- The runs part where one of them recovers.
theorem Agrees.recovering {step : Parse α} (h : step.Agrees) (boundary : Boundary) :
    (recovering boundary step).Agrees := by
  intro ending s
  cases hfull : step ⟨.recover, ending⟩ s with
  | mk result u =>
    have hagree := h ending s
    rw [hfull] at hagree
    cases hagree with
    | same heq hkept =>
      cases result with
      | ok a =>
        rw [recovering_of_ok boundary heq, recovering_of_ok boundary hfull]
        exact .same rfl hkept
      | error e =>
        -- Here the runs part: the same error is raised in one and recovered from in the other.
        rw [recovering_of_failFast boundary rfl heq, recovering_of_recover boundary rfl hfull]
        refine .parted e boundary (u.ahead.headD ending).position [] rfl hkept ?_
        rw [← show u.recoveries = s.recoveries from hkept]
    | parted e boundary' skippedFrom more hearly hkept hrecord =>
      -- The runs had parted before: one has given up, and the other may recover once more.
      rw [recovering_of_failFast boundary rfl (Prod.ext hearly rfl)]
      cases result with
      | ok a =>
        rw [recovering_of_ok boundary hfull]
        exact .parted e boundary' skippedFrom more rfl hkept hrecord
      | error e' =>
        rw [recovering_of_recover boundary rfl hfull]
        refine .parted e boundary' skippedFrom
          (more ++ [⟨e', boundary, (u.ahead.headD ending).position⟩]) rfl hkept ?_
        show u.recoveries ++ _ = _
        rw [show u.recoveries = _ from hrecord, List.append_assoc, List.cons_append]

-- The runs of single steps are the same, and sequences keep them together.
theorem lifts_agrees : Lifts @Agrees :=
  .of_fail agrees_pure agrees_peek agrees_peekBehind agrees_bound agrees_accept agrees_fail
    Agrees.bind

end Parse

/-- The two runs over a whole program agree. -/
theorem Program.agrees_parse : Program.parse.Agrees :=
  Parse.lifts_agrees.program_parse fun boundary _ hstep => hstep.recovering boundary

end MiniJava
