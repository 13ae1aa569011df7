import MiniJava.Proofs.Reading.Lifting

/-!
# Moving forward

No parser moves back (`Parse.Forward`), whether it succeeds or fails and also where it recovers.
Statements, fields, methods and classes pass a token whenever they succeed (`Parse.Passes`), and
where a step under `recovering` fails, skipping passes one.
-/

namespace MiniJava

namespace Parse

variable {α β : Type}

/-- What is ahead behind the parser is an end of what was ahead before it. -/
def Forward (p : Parse α) : Prop := ∀ c s, (p c s).2.ahead <:+ s.ahead

/-- The parser passes a token, from a certain state, where it succeeds with a value of this sort. -/
def PassesIf (on : α → Prop) (p : Parse α) (c : ParseContext) (s : ParseState) : Prop :=
  ∀ a s', p c s = (.ok a, s') → on a → s'.ahead.length < s.ahead.length

/-- The parser passes a token where it succeeds. -/
def Passes (p : Parse α) : Prop :=
  ∀ c s, c.ending.kind = .eof → PassesIf (fun _ => True) p c s

/-! ## Nothing moves back -/

theorem Forward.bind {p : Parse α} {f : α → Parse β} (hp : p.Forward) (hf : ∀ a, (f a).Forward) :
    (p >>= f).Forward := by
  intro c s
  have hfirst := hp c s
  cases hrun : p c s with
  | mk result u =>
    rw [hrun] at hfirst
    cases result with
    | ok a =>
      rw [bind_of_ok hrun]
      exact (hf a c u).trans hfirst
    | error e =>
      rw [bind_of_error hrun]
      exact hfirst

theorem forward_accept (kinds : List TokenKind) : (accept kinds).Forward := by
  intro c s
  unfold accept
  dsimp only
  split
  · exact List.tail_suffix _
  · exact List.suffix_refl _

theorem lifts_forward : Lifts @Forward :=
  .of_fail (fun _ _ _ => List.suffix_refl _) (fun _ _ => List.suffix_refl _)
    (fun _ _ => List.suffix_refl _) (fun _ _ => List.suffix_refl _) forward_accept
    (fun _ _ _ => List.suffix_refl _) Forward.bind

theorem Forward.recovering {step : Parse α} (h : step.Forward) (boundary : Boundary) :
    (recovering boundary step).Forward := by
  intro c s
  have hstep := h c s
  cases hrun : step c s with
  | mk result u =>
    rw [hrun] at hstep
    cases result with
    | ok a =>
      rw [recovering_of_ok boundary hrun]
      exact hstep
    | error e =>
      cases hpolicy : c.policy with
      | failFast =>
        rw [recovering_of_failFast boundary hpolicy hrun]
        exact hstep
      | recover =>
        rw [recovering_of_recover boundary hpolicy hrun]
        exact (boundary.skip_suffix _ _).trans hstep

theorem forward_list {statement : Parse Statement} (h : statement.Forward) :
    (Statement.parseList statement).Forward :=
  lifts_forward.parseList (fun boundary _ hstep => hstep.recovering boundary) h

theorem forward_expression (n : Nat) : (Expr.parse n).Forward := (lifts_forward.expr_parse n).1

theorem forward_statement (n : Nat) : (Statement.parse n).Forward :=
  lifts_forward.statement_parse (fun _ => forward_list) n

theorem forward_class : ClassDecl.parse.Forward :=
  lifts_forward.of_begins (lifts_forward.begins_class fun _ => forward_list)

/-- Reading a program never moves back. -/
theorem forward_program : Program.parse.Forward :=
  lifts_forward.program_parse fun boundary _ hstep => hstep.recovering boundary

/-! ## What passes a token -/

section Passing

variable {c : ParseContext} {s : ParseState}

-- What is not an end of file is ahead.
theorem ahead_ne_nil (hending : c.ending.kind = .eof)
    (hnext : (s.ahead.headD c.ending).kind ≠ .eof) : s.ahead ≠ [] := by
  intro hnil
  rw [hnil] at hnext
  exact hnext hending

theorem length_tail_lt (hending : c.ending.kind = .eof)
    (hnext : (s.ahead.headD c.ending).kind ≠ .eof) : s.ahead.tail.length < s.ahead.length := by
  have hpos := List.length_pos_iff.mpr (ahead_ne_nil hending hnext)
  rw [List.length_tail]
  omega

-- A step that was passed by a token is followed by steps that do not move back.
theorem PassesIf.bind {on : β → Prop} {p : Parse α} {f : α → Parse β}
    (hp : PassesIf (fun _ => True) p c s) (hf : ∀ a, (f a).Forward) : PassesIf on (p >>= f) c s := by
  intro b s' hrun _
  obtain ⟨a, u, hfirst, hsecond⟩ := bind_eq_ok.mp hrun
  have hlt := hp a u hfirst trivial
  have hle := (hf a c u).length_le
  rw [hsecond] at hle
  exact Nat.lt_of_le_of_lt hle hlt

-- A step that does not move back is followed by one that passes a token.
theorem PassesIf.of_bind {on : β → Prop} {p : Parse α} {f : α → Parse β} (hp : p.Forward)
    (hf : ∀ a u, p c s = (.ok a, u) → PassesIf on (f a) c u) : PassesIf on (p >>= f) c s := by
  intro b s' hrun hon
  obtain ⟨a, u, hfirst, hsecond⟩ := bind_eq_ok.mp hrun
  have hle := (hp c s).length_le
  rw [hfirst] at hle
  exact Nat.lt_of_lt_of_le (hf a u hfirst b s' hsecond hon) hle

theorem passesIf_pure {on : α → Prop} {a : α} (h : ¬ on a) :
    PassesIf on (pure a : Parse α) c s := by
  intro b s' hrun hon
  cases hrun
  exact absurd hon h

theorem passesIf_accept (hending : c.ending.kind = .eof) {kinds : List TokenKind}
    (heof : .eof ∉ kinds) : PassesIf (fun t? => t?.isSome) (accept kinds) c s := by
  intro t? s' hrun hsome
  unfold accept at hrun
  dsimp only at hrun
  split at hrun
  next hkind =>
    cases hrun
    apply length_tail_lt hending
    intro hnext
    rw [hnext] at hkind
    exact heof (List.contains_iff_mem.mp hkind)
  next =>
    cases hrun
    cases hsome

-- A token that is looked at and then accepted is passed.
theorem passesIf_accept_next (hending : c.ending.kind = .eof)
    (hnext : (s.ahead.headD c.ending).kind ≠ .eof) :
    PassesIf (fun _ => True) (accept [(s.ahead.headD c.ending).kind]) c s := by
  intro t? s' hrun _
  unfold accept at hrun
  dsimp only at hrun
  rw [if_pos (List.contains_iff_mem.mpr List.mem_cons_self)] at hrun
  cases hrun
  exact length_tail_lt hending hnext

-- A token that is accepted was passed; otherwise the other step has to pass one.
theorem passesIf_accept_or (hending : c.ending.kind = .eof) {kinds : List TokenKind}
    (heof : .eof ∉ kinds) {on : β → Prop} {p : Token → Parse β} {q : Parse β}
    (hp : ∀ t, (p t).Forward) (hq : PassesIf on q c s) :
    PassesIf on (accept kinds >>= fun t? => match t? with | some t => p t | none => q) c s := by
  intro b s' hrun hon
  obtain ⟨t?, u, haccept, hrest⟩ := bind_eq_ok.mp hrun
  cases t? with
  | some t =>
    have hlt := passesIf_accept hending heof (some t) u haccept rfl
    have hle := (hp t c u).length_le
    dsimp only at hrest
    rw [hrest] at hle
    exact Nat.lt_of_le_of_lt hle hlt
  | none =>
    -- Nothing was passed, so the other step begins in the same state.
    have hstay : u = s := by
      unfold accept at haccept
      dsimp only at haccept
      split at haccept
      · cases haccept
      · cases haccept
        rfl
    subst hstay
    exact hq b s' hrest hon

end Passing

theorem passes_fail (fault : SyntaxFault) : (fail fault : Parse α).Passes := by
  intro c s _ a s' hrun
  cases hrun

theorem passes_expect {kinds : List TokenKind} (heof : .eof ∉ kinds) : (expect kinds).Passes := by
  intro c s hending
  exact passesIf_accept_or hending heof (fun t => lifts_forward.pure t) (passes_fail _ c s hending)

theorem Passes.bind {p : Parse α} {f : α → Parse β} (hp : p.Passes) (hf : ∀ a, (f a).Forward) :
    (p >>= f).Passes :=
  fun c s hending => (hp c s hending).bind hf

-- Looking at tokens passes none, so that what follows has to.
theorem Passes.of_bind {p : Parse α} {f : α → Parse β} (hp : p.Forward) (hf : ∀ a, (f a).Passes) :
    (p >>= f).Passes :=
  fun c _ hending => PassesIf.of_bind hp fun a u _ => hf a c u hending

theorem Passes.ite {P : Prop} [Decidable P] {p q : Parse α} (hp : p.Passes) (hq : q.Passes) :
    (if P then p else q).Passes := by
  split
  · exact hp
  · exact hq

-- A parser that begins with a token passes it.
theorem passes_of_begins {kinds : List TokenKind} {p : Parse α} (hp : Begins @Forward kinds p)
    (heof : .eof ∉ kinds) : p.Passes := by
  obtain ⟨f, rfl, hf⟩ := hp
  exact (passes_expect heof).bind hf

/-! ## Expressions, declarations and statements -/

theorem passes_expression (n : Nat) : (Expr.parse n).Passes := by
  cases n with
  | zero => exact passes_fail _
  | succ n => exact passes_of_begins (lifts_forward.begins_expression n) (by decide)

theorem passes_varDecl {bases : List TokenKind} (heof : .eof ∉ bases) :
    (VarDecl.parse bases).Passes :=
  passes_of_begins (lifts_forward.begins_varDecl bases) heof

theorem passes_statement (n : Nat) : (Statement.parse n).Passes := by
  cases n with
  | zero => exact passes_fail _
  | succ n =>
    have hexpression := forward_expression n
    have hstatement := forward_statement n
    have hlist := forward_list hstatement
    have hlocal := passes_of_begins lifts_forward.begins_local (by decide)
    rw [Statement.parse_succ]
    refine Passes.of_bind lifts_forward.peek fun t => ?_
    split
    · exact passes_of_begins (lifts_forward.begins_block hlist) (by decide)
    · exact passes_of_begins (lifts_forward.begins_return hexpression) (by decide)
    · exact passes_of_begins (lifts_forward.begins_assert hexpression) (by decide)
    · exact passes_of_begins (lifts_forward.begins_print hexpression) (by decide)
    · exact passes_of_begins (lifts_forward.begins_conditional hexpression hstatement) (by decide)
    · exact passes_of_begins (lifts_forward.begins_loop hexpression hstatement) (by decide)
    · exact hlocal
    · exact hlocal
    · refine Passes.of_bind lifts_forward.peekBehind fun _ => .ite hlocal ?_
      obtain ⟨f, heq, hf⟩ := lifts_forward.parseBehind hexpression
      rw [heq]
      exact (passes_expression n).bind hf
    · exact passes_fail _

theorem passes_method : Method.parse.Passes :=
  passes_of_begins (lifts_forward.begins_method fun _ => forward_list) (by decide)

theorem passes_class : ClassDecl.parse.Passes :=
  passes_of_begins (lifts_forward.begins_class fun _ => forward_list) (by decide)

/-! ## Recovering -/

-- A step that passes a token where it succeeds passes one where it is recovered from too.
theorem Passes.recovering {step : Parse α} (h : step.Passes) (hforward : step.Forward)
    (boundary : Boundary) {c : ParseContext} {s : ParseState} (hending : c.ending.kind = .eof)
    (hnext : (s.ahead.headD c.ending).kind ≠ .eof) :
    PassesIf (fun _ => True) (recovering boundary step) c s := by
  intro a? s' hrun _
  cases hstep : step c s with
  | mk result u =>
    cases result with
    | ok a =>
      rw [recovering_of_ok boundary hstep] at hrun
      cases hrun
      exact h c s hending a _ hstep trivial
    | error e =>
      cases hpolicy : c.policy with
      | failFast =>
        rw [recovering_of_failFast boundary hpolicy hstep] at hrun
        cases hrun
      | recover =>
        rw [recovering_of_recover boundary hpolicy hstep] at hrun
        cases hrun
        by_cases hmoved : u.ahead.length < s.ahead.length
        · exact Nat.lt_of_le_of_lt (boundary.skip_suffix _ _).length_le hmoved
        · -- The step passed nothing, so skipping does.
          have hsuffix := hforward c s
          rw [hstep] at hsuffix
          have hstay : u.ahead = s.ahead := hsuffix.eq_of_length_le (Nat.le_of_not_lt hmoved)
          dsimp only
          rw [decide_eq_false hmoved, hstay]
          exact boundary.length_skip_lt (ahead_ne_nil hending hnext)

end Parse

end MiniJava
