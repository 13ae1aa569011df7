import MiniJava.Proofs.Derivation.Statement
import MiniJava.Proofs.Phrase.Program
import MiniJava.Program.Parse

/-!
# Deriving what was read — programs

A program that is read without an error, up to the end of file, is the tree of a program phrase with
regular statements and within the levels that a method body may open (`Program.derives_parse`).
-/

namespace MiniJava

open Parse

variable {c : ParseContext} {s s' : ParseState}

namespace Method

/-! ## Parameters -/

theorem derives_parseParamBehind (hending : c.ending.kind = .eof)
    (base : Terminal NodeKind.typeStart) {a : VarDecl}
    (h : parseParamBehind base.token c s = (.ok a, s')) :
    ∃ x : ParamPhrase, s.before [base.token] = s'.before x.tokens ∧ x.tree = a := by
  replace h := Parse.bind_eq_ok.mp h
  obtain ⟨_, u, hsuffix, h⟩ := h
  obtain ⟨suffix?, rfl, rfl⟩ := TypeRef.derives_parseSuffix hending hsuffix
  replace h := expect_bind_eq_ok hending (by decide) h
  obtain ⟨name, v, rfl, h⟩ := h
  cases h
  refine ⟨⟨⟨base, suffix?⟩, name⟩, ?_, rfl⟩
  simp [ParamPhrase.tokens, TypePhrase.tokens, ParseState.before]

theorem derives_parseMoreParams (hending : c.ending.kind = .eof) (k : Nat) :
    ∀ {s : ParseState} {as : List VarDecl}, s.ahead.length < k →
      parseMoreParams k c s = (.ok as, s') →
      ∃ xs : List (Terminal [.comma] × ParamPhrase),
        s = s'.before (ParamPhrase.moreTokens xs) ∧ (xs.map fun x => x.2.tree) = as ∧
        c.nextKind s' ≠ .comma := by
  induction k with
  | zero => exact fun hk _ => absurd hk (Nat.not_lt_zero _)
  | succ k ih =>
    intro s as hk h
    replace h := accept_bind_eq_ok hending (by decide) h
    obtain ⟨comma, u, rfl, h⟩ | ⟨hstop, h⟩ := h
    · replace h := expect_bind_eq_ok hending (by decide) h
      obtain ⟨base, v, rfl, h⟩ := h
      replace h := Parse.bind_eq_ok.mp h
      obtain ⟨_, w, hparam, h⟩ := h
      obtain ⟨x, hx, rfl⟩ := derives_parseParamBehind hending base hparam
      rw [hx] at hk ⊢
      replace h := Parse.bind_eq_ok.mp h
      obtain ⟨_, z, hrest, h⟩ := h
      cases h
      -- Every parameter takes a token, so that the bound lasts to the parenthesis.
      obtain ⟨xs, rfl, rfl, hstop⟩ := ih (by
        simp only [ParseState.ahead_before, List.length_append, List.length_singleton] at hk
        omega) hrest
      refine ⟨(comma, x) :: xs, ?_, rfl, hstop⟩
      simp [ParamPhrase.moreTokens, ParseState.before]
    · cases h
      exact ⟨[], rfl, rfl, by simpa using hstop⟩

theorem derives_parseParams (hending : c.ending.kind = .eof) {as : List VarDecl}
    (h : parseParams c s = (.ok as, s')) :
    ∃ (x : ParamsPhrase) (closing : Terminal [.rparen]),
      s = s'.before (x.tokens ++ [closing.token]) ∧ x.trees = as := by
  replace h := expect_bind_eq_ok hending (by decide) h
  obtain ⟨opening, u, rfl, h⟩ := h
  by_cases hopening : opening.token.kind = .rparen
  · rw [if_pos hopening] at h
    cases h
    exact ⟨.none, ⟨opening.token, by simp [hopening]⟩, rfl, rfl⟩
  · rw [if_neg hopening] at h
    -- What was taken is the type of the first parameter, as it does not close the list.
    have hbase : opening.token.kind ∈ NodeKind.typeStart :=
      (List.mem_cons.mp opening.kind_mem).resolve_left hopening
    replace h := Parse.bind_eq_ok.mp h
    obtain ⟨_, v, hparam, h⟩ := h
    obtain ⟨first, hfirst, rfl⟩ :=
      derives_parseParamBehind hending ⟨opening.token, hbase⟩ hparam
    replace h := (bind_of_ok bound_run).symm.trans h
    replace h := Parse.bind_eq_ok.mp h
    obtain ⟨_, w, hmore, h⟩ := h
    obtain ⟨more, rfl, rfl, hstop⟩ :=
      derives_parseMoreParams hending _ (Nat.lt_succ_self _) hmore
    replace h := expect_bind_eq_ok hending (by decide) h
    obtain ⟨closing, z, rfl, h⟩ := h
    cases h
    -- A comma is expected too, but the loop has left none.
    have hparen : closing.token.kind ∈ [TokenKind.rparen] := by
      have hcomma : closing.token.kind ≠ .comma := hstop
      simpa [hcomma] using closing.kind_mem
    refine ⟨.some first more, ⟨closing.token, hparen⟩, ?_, rfl⟩
    rw [hfirst]
    simp [ParamsPhrase.tokens, ParseState.before]

/-! ## Methods -/

theorem derives_parseBody (hc : c.policy = .failFast) (hending : c.ending.kind = .eof)
    {as : List Statement} (h : parseBody c s = (.ok as, s')) :
    ∃ x : BodyPhrase, s = s'.before x.tokens ∧ x.statements.trees = as ∧
      x.statements.Every (·.Regular) ∧ x.statements.levels ≤ maxNesting := by
  replace h := expect_bind_eq_ok hending (by decide) h
  obtain ⟨opening, u, rfl, h⟩ := h
  obtain ⟨x, closing, rfl, htrees, hx, hlevels⟩ :=
    Statement.derives_parseList (Statement.derives_parse maxNesting) hc hending h
  exact ⟨⟨opening, x, closing⟩, rfl, htrees, hx, hlevels⟩

-- A type at the beginning of what was read.
theorem type_bind_eq_ok {β : Type} (hending : c.ending.kind = .eof) {f : TypeRef → Parse β} {b : β}
    (h : (TypeRef.parse (NodeKind.firstSet .type) >>= f) c s = (.ok b, s')) :
    ∃ (x : TypePhrase NodeKind.typeStart) (u : ParseState),
      s = u.before x.tokens ∧ f x.tree c u = (.ok b, s') := by
  replace h := Parse.bind_eq_ok.mp h
  obtain ⟨_, u, htype, h⟩ := h
  obtain ⟨x, hs, rfl⟩ := TypeRef.derives_parse hending (by decide) htype
  exact ⟨x, u, hs, h⟩

theorem derives_parse (hc : c.policy = .failFast) (hending : c.ending.kind = .eof) {a : Method}
    (h : parse c s = (.ok a, s')) :
    ∃ x : MethodPhrase, s = s'.before x.tokens ∧ x.tree = a ∧
      x.body.statements.Every (·.Regular) ∧ x.body.statements.levels ≤ maxNesting := by
  replace h := expect_bind_eq_ok hending (by decide) h
  obtain ⟨publicWord, u, rfl, h⟩ := h
  replace h := type_bind_eq_ok hending h
  obtain ⟨returnType, u, rfl, h⟩ := h
  replace h := expect_bind_eq_ok hending (by decide) h
  obtain ⟨name, u, rfl, h⟩ := h
  replace h := expect_bind_eq_ok hending (by decide) h
  obtain ⟨opening, u, rfl, h⟩ := h
  replace h := Parse.bind_eq_ok.mp h
  obtain ⟨_, v, hparams, h⟩ := h
  obtain ⟨params, closing, rfl, rfl⟩ := derives_parseParams hending hparams
  replace h := Parse.bind_eq_ok.mp h
  obtain ⟨_, w, hbody, h⟩ := h
  cases h
  obtain ⟨body, rfl, rfl, hregular, hlevels⟩ := derives_parseBody hc hending hbody
  refine ⟨⟨publicWord, returnType, name, opening, params, closing, body⟩, ?_, rfl, hregular,
    hlevels⟩
  simp [MethodPhrase.tokens, ParseState.before]

theorem derives_parseMain (hc : c.policy = .failFast) (hending : c.ending.kind = .eof)
    {a : Method} (h : parseMain c s = (.ok a, s')) :
    ∃ x : MainMethodPhrase, s = s'.before x.tokens ∧ x.tree = a ∧
      x.body.statements.Every (·.Regular) ∧ x.body.statements.levels ≤ maxNesting := by
  replace h := expect_bind_eq_ok hending (by decide) h
  obtain ⟨publicWord, u, rfl, h⟩ := h
  replace h := expect_bind_eq_ok hending (by decide) h
  obtain ⟨staticWord, u, rfl, h⟩ := h
  replace h := type_bind_eq_ok hending h
  obtain ⟨returnType, u, rfl, h⟩ := h
  replace h := expect_bind_eq_ok hending (by decide) h
  obtain ⟨name, u, rfl, h⟩ := h
  replace h := expect_bind_eq_ok hending (by decide) h
  obtain ⟨opening, u, rfl, h⟩ := h
  replace h := expect_bind_eq_ok hending (by decide) h
  obtain ⟨closing, u, rfl, h⟩ := h
  replace h := Parse.bind_eq_ok.mp h
  obtain ⟨_, w, hbody, h⟩ := h
  cases h
  obtain ⟨body, rfl, rfl, hregular, hlevels⟩ := derives_parseBody hc hending hbody
  refine ⟨⟨publicWord, staticWord, returnType, name, opening, closing, body⟩, ?_, rfl, hregular,
    hlevels⟩
  simp [MainMethodPhrase.tokens, ParseState.before]

end Method

/-! ## Classes -/

theorem MainClass.derives_parse (hc : c.policy = .failFast) (hending : c.ending.kind = .eof)
    {a : MainClass} (h : MainClass.parse c s = (.ok a, s')) :
    ∃ x : MainClassPhrase, s = s'.before x.tokens ∧ x.tree = a ∧
      x.method.body.statements.Every (·.Regular) ∧
      x.method.body.statements.levels ≤ maxNesting := by
  replace h := expect_bind_eq_ok hending (by decide) h
  obtain ⟨classWord, u, rfl, h⟩ := h
  replace h := expect_bind_eq_ok hending (by decide) h
  obtain ⟨name, u, rfl, h⟩ := h
  replace h := expect_bind_eq_ok hending (by decide) h
  obtain ⟨opening, u, rfl, h⟩ := h
  replace h := Parse.bind_eq_ok.mp h
  obtain ⟨_, v, hmethod, h⟩ := h
  obtain ⟨method, rfl, rfl, hregular, hlevels⟩ := Method.derives_parseMain hc hending hmethod
  replace h := expect_bind_eq_ok hending (by decide) h
  obtain ⟨closing, w, rfl, h⟩ := h
  cases h
  refine ⟨⟨classWord, name, opening, method, closing⟩, ?_, rfl, hregular, hlevels⟩
  simp [MainClassPhrase.tokens, ParseState.before]

namespace ClassDecl

theorem derives_parseParent (hending : c.ending.kind = .eof) {a : Option Token}
    (h : parseParent c s = (.ok a, s')) :
    ∃ x : Option (Terminal [.extendsWord] × Terminal [.identifier]),
      s = s'.before (ClassPhrase.parentTokens x) ∧ x.map (·.2.token) = a := by
  replace h := accept_bind_eq_ok hending (by decide) h
  obtain ⟨word, u, rfl, h⟩ | ⟨-, h⟩ := h
  · replace h := expect_bind_eq_ok hending (by decide) h
    obtain ⟨parent, v, rfl, h⟩ := h
    cases h
    exact ⟨some (word, parent), rfl, rfl⟩
  · cases h
    exact ⟨none, rfl, rfl⟩

theorem derives_parseMembers (hc : c.policy = .failFast) (hending : c.ending.kind = .eof)
    (k : Nat) :
    ∀ {s : ParseState} {fields : List VarDecl} {methods : List Method},
      parseMembers k c s = (.ok (fields, methods), s') →
      ∃ xs : List MemberPhrase, s = s'.before (xs.flatMap (·.tokens)) ∧
        xs.filterMap (·.field?) = fields ∧ xs.filterMap (·.method?) = methods ∧
        ∀ b ∈ xs.flatMap (·.bodies),
          b.statements.Every (·.Regular) ∧ b.statements.levels ≤ maxNesting := by
  induction k with
  | zero =>
    intro s fields methods h
    cases h
    exact ⟨[], rfl, rfl, rfl, fun _ hb => absurd hb List.not_mem_nil⟩
  | succ k ih =>
    intro s fields methods h
    have hpeek : peek c s = (.ok (s.ahead.headD c.ending), s) := rfl
    replace h := (bind_of_ok hpeek).symm.trans h
    by_cases hstop : (s.ahead.headD c.ending).kind = .rbrace ∨ (s.ahead.headD c.ending).kind = .eof
    · rw [if_pos hstop] at h
      cases h
      exact ⟨[], rfl, rfl, rfl, fun _ hb => absurd hb List.not_mem_nil⟩
    · rw [if_neg hstop] at h
      by_cases hpublic : (s.ahead.headD c.ending).kind = .publicWord
      · rw [if_pos hpublic] at h
        replace h := Parse.bind_eq_ok.mp h
        obtain ⟨_, u, hmethod, h⟩ := h
        obtain ⟨m, rfl, rfl, hm⟩ := Method.derives_parse hc hending hmethod
        replace h := Parse.bind_eq_ok.mp h
        obtain ⟨⟨fields', methods'⟩, v, hrest, h⟩ := h
        cases h
        obtain ⟨xs, rfl, rfl, rfl, hxs⟩ := ih hrest
        refine ⟨.method m :: xs, (ParseState.before_append _ _ _).symm, rfl, rfl, ?_⟩
        rw [List.flatMap_cons, MemberPhrase.bodies, List.singleton_append]
        exact List.forall_mem_cons.mpr ⟨hm, hxs⟩
      · rw [if_neg hpublic] at h
        replace h := Parse.bind_eq_ok.mp h
        obtain ⟨_, u, hfield, h⟩ := h
        obtain ⟨decl, rfl, rfl⟩ := VarDecl.derives_parse hending (by decide) hfield
        replace h := Parse.bind_eq_ok.mp h
        obtain ⟨⟨fields', methods'⟩, v, hrest, h⟩ := h
        cases h
        obtain ⟨xs, rfl, rfl, rfl, hxs⟩ := ih hrest
        exact ⟨.field decl :: xs, (ParseState.before_append _ _ _).symm, rfl, rfl, hxs⟩

theorem derives_parse (hc : c.policy = .failFast) (hending : c.ending.kind = .eof)
    {a : ClassDecl} (h : parse c s = (.ok a, s')) :
    ∃ x : ClassPhrase, s = s'.before x.tokens ∧ x.tree = a ∧
      ∀ b ∈ x.members.flatMap (·.bodies),
        b.statements.Every (·.Regular) ∧ b.statements.levels ≤ maxNesting := by
  replace h := expect_bind_eq_ok hending (by decide) h
  obtain ⟨classWord, u, rfl, h⟩ := h
  replace h := expect_bind_eq_ok hending (by decide) h
  obtain ⟨name, u, rfl, h⟩ := h
  replace h := Parse.bind_eq_ok.mp h
  obtain ⟨_, u, hparent, h⟩ := h
  obtain ⟨parent?, rfl, rfl⟩ := derives_parseParent hending hparent
  replace h := expect_bind_eq_ok hending (by decide) h
  obtain ⟨opening, u, rfl, h⟩ := h
  replace h := (bind_of_ok bound_run).symm.trans h
  replace h := Parse.bind_eq_ok.mp h
  obtain ⟨⟨fields, methods⟩, v, hmembers, h⟩ := h
  obtain ⟨members, rfl, rfl, rfl, hbodies⟩ := derives_parseMembers hc hending _ hmembers
  replace h := expect_bind_eq_ok hending (by decide) h
  obtain ⟨closing, w, rfl, h⟩ := h
  cases h
  refine ⟨⟨classWord, name, parent?, opening, members, closing⟩, ?_, rfl, hbodies⟩
  simp [ClassPhrase.tokens, ParseState.before]

theorem derives_parseMany (hc : c.policy = .failFast) (hending : c.ending.kind = .eof) (k : Nat) :
    ∀ {s : ParseState} {as : List ClassDecl}, s.ahead.length < k →
      parseMany k c s = (.ok as, s') →
      ∃ xs : List ClassPhrase, s = s'.before (xs.flatMap (·.tokens)) ∧ xs.map (·.tree) = as ∧
        (∀ b ∈ xs.flatMap fun x => x.members.flatMap (·.bodies),
          b.statements.Every (·.Regular) ∧ b.statements.levels ≤ maxNesting) ∧
        c.nextKind s' ≠ .classWord := by
  induction k with
  | zero => exact fun hk _ => absurd hk (Nat.not_lt_zero _)
  | succ k ih =>
    intro s as hk h
    have hpeek : peek c s = (.ok (s.ahead.headD c.ending), s) := rfl
    replace h := (bind_of_ok hpeek).symm.trans h
    by_cases hclass : (s.ahead.headD c.ending).kind = .classWord
    · rw [if_pos hclass] at h
      replace h := Parse.bind_eq_ok.mp h
      obtain ⟨_, u, hfirst, h⟩ := h
      obtain ⟨_, rfl, hparse⟩ := Statement.recovering_eq_ok hc hfirst
      obtain ⟨x, rfl, rfl, hx⟩ := ClassDecl.derives_parse hc hending hparse
      replace h := Parse.bind_eq_ok.mp h
      obtain ⟨_, v, hrest, h⟩ := h
      cases h
      -- Every class takes a token, so that the loop stops at something else than a class.
      obtain ⟨xs, rfl, rfl, hxs, hstop⟩ := ih (by
        simp only [ParseState.ahead_before, ClassPhrase.tokens, List.length_append,
          List.length_cons] at hk
        omega) hrest
      refine ⟨x :: xs, (ParseState.before_append _ _ _).symm, rfl, ?_, hstop⟩
      simp only [List.flatMap_cons, List.mem_append, or_imp, forall_and] at hx hxs ⊢
      exact ⟨⟨hx.1, hxs.1⟩, hx.2, hxs.2⟩
    · rw [if_neg hclass] at h
      cases h
      exact ⟨[], rfl, rfl, fun _ hb => absurd hb List.not_mem_nil, hclass⟩

end ClassDecl

/-! ## Programs -/

/-- What is read without an error up to the end of file is a program phrase. -/
theorem Program.derives_parse (hc : c.policy = .failFast) (hending : c.ending.kind = .eof)
    (hahead : ∀ t ∈ s.ahead, t.kind ≠ .eof) {p? : Option Program}
    (h : Program.parse c s = (.ok p?, s')) :
    ∃ x : ProgramPhrase, s.ahead = x.tokens ∧ some x.tree = p? ∧ x.Every (·.Regular) ∧
      x.Within maxNesting := by
  replace h := Parse.bind_eq_ok.mp h
  obtain ⟨_, u, hmain, h⟩ := h
  replace hmain := Statement.recovering_eq_ok hc hmain
  obtain ⟨_, rfl, hmain⟩ := hmain
  obtain ⟨mainClass, rfl, rfl, hregular, hlevels⟩ := MainClass.derives_parse hc hending hmain
  replace h := (bind_of_ok bound_run).symm.trans h
  replace h := Parse.bind_eq_ok.mp h
  obtain ⟨_, v, hclasses, h⟩ := h
  obtain ⟨classes, rfl, rfl, hbodies, hstop⟩ :=
    ClassDecl.derives_parseMany hc hending _ (Nat.lt_succ_self _) hclasses
  obtain ⟨t, w, hend, h⟩ := Parse.bind_eq_ok.mp h
  cases h
  -- Whatever is left begins no class and is no end of file, and it was expected to be one of them.
  have hnil : v.ahead = [] := by
    rw [expect_run] at hend
    cases hv : v.ahead with
    | nil => rfl
    | cons t ts =>
      have hne : t.kind ≠ .eof := hahead t (by simp [hv])
      have hclass : t.kind ≠ .classWord := by simpa [ParseContext.nextKind, hv] using hstop
      rw [hv, if_neg (by simp [NodeKind.followSet, hne, hclass])] at hend
      cases hend
  refine ⟨⟨mainClass, classes⟩, ?_, rfl, ?_, ?_⟩
  · simp [ProgramPhrase.tokens, hnil]
  · exact List.forall_mem_cons.mpr ⟨hregular, fun b hb => (hbodies b hb).1⟩
  · exact List.forall_mem_cons.mpr ⟨hlevels, fun b hb => (hbodies b hb).2⟩

end MiniJava
