import MiniJava.Proofs.Phrase.Program
import MiniJava.Proofs.Reading.Statement
import MiniJava.Program.Parse

/-!
# Reading the phrases of programs

A program phrase whose statements are regular is read as a whole if every method body stays within
`maxNesting` levels, and otherwise the parse ends because some body opens too many
(`Program.parse_before`). Everything here is for a parser that gives up at the first error.
-/

namespace MiniJava

open Parse

variable {c : ParseContext} {s : ParseState}

namespace Method

/-! ## Parameters -/

theorem parseParamBehind_before (x : ParamPhrase) :
    parseParamBehind x.type.base.token c
        (s.before (TypePhrase.suffixTokens x.type.suffix? ++ [x.name.token])) =
      (.ok x.tree, s) := by
  have hname : c.nextKind (s.before [x.name.token]) ≠ .lbracket := by
    rw [ParseContext.nextKind_before_leaf]
    decide
  rw [ParseState.before_append]
  apply (bind_of_ok (TypeRef.parseSuffix_before _ x.type.suffix? hname)).trans
  exact bind_of_ok (expect_before x.name.kind_mem)

theorem parseMoreParams_before (xs : List (Terminal [.comma] × ParamPhrase))
    (hnext : c.nextKind s ≠ .comma) :
    ∀ k : Nat, (ParamPhrase.moreTokens xs ++ s.ahead).length < k →
      parseMoreParams k c (s.before (ParamPhrase.moreTokens xs)) =
        (.ok (xs.map fun x => x.2.tree), s) := by
  induction xs with
  | nil =>
    intro k hk
    obtain ⟨k, rfl⟩ := Nat.exists_eq_add_one.mpr (Nat.zero_lt_of_lt hk)
    exact bind_of_ok (accept_of_notMem (fun h => hnext (List.mem_singleton.mp h)))
  | cons x xs ih =>
    intro k hk
    obtain ⟨k, rfl⟩ := Nat.exists_eq_add_one.mpr (Nat.zero_lt_of_lt hk)
    obtain ⟨comma, x⟩ := x
    have hrest := ih k (by
      simp only [ParamPhrase.moreTokens, List.flatMap_cons, List.length_append,
        List.length_cons] at hk ⊢
      omega)
    -- The type of a parameter is read in two steps: its base, then what may stand behind it.
    have htokens : ParamPhrase.moreTokens ((comma, x) :: xs) =
        comma.token :: x.type.base.token ::
          (TypePhrase.suffixTokens x.type.suffix? ++ [x.name.token] ++
            ParamPhrase.moreTokens xs) := by
      simp [ParamPhrase.moreTokens, ParamPhrase.tokens, TypePhrase.tokens]
    rw [htokens]
    apply (bind_of_ok (accept_before comma.kind_mem)).trans
    apply (bind_of_ok (expect_before x.type.base.kind_mem)).trans
    rw [ParseState.before_append]
    exact (bind_of_ok (parseParamBehind_before x)).trans (bind_of_ok hrest)

theorem parseParams_before (x : ParamsPhrase) (closing : Terminal [.rparen]) :
    parseParams c (s.before (x.tokens ++ [closing.token])) = (.ok x.trees, s) := by
  cases x with
  | none =>
    apply (bind_of_ok (expect_before (by simp [closing.kind_eq]))).trans
    rw [if_pos closing.kind_eq]
    rfl
  | some first more =>
    have hnext : c.nextKind (s.before [closing.token]) ≠ .comma := by
      rw [ParseContext.nextKind_before_leaf]
      decide
    -- The first token tells parameters from the parenthesis that closes none.
    have hbase : first.type.base.token.kind ≠ .rparen := by
      intro h
      have hmem := first.type.base.kind_mem
      rw [h] at hmem
      exact absurd hmem (by decide)
    have htokens : (ParamsPhrase.some first more).tokens ++ [closing.token] =
        first.type.base.token ::
          (TypePhrase.suffixTokens first.type.suffix? ++ [first.name.token] ++
            (ParamPhrase.moreTokens more ++ [closing.token])) := by
      simp [ParamsPhrase.tokens, ParamPhrase.tokens, TypePhrase.tokens]
    have hmore : parseMoreParams
          ((ParamPhrase.moreTokens more ++ [closing.token] ++ s.ahead).length + 1) c
          (s.before (ParamPhrase.moreTokens more ++ [closing.token])) =
        (.ok (more.map fun x => x.2.tree), s.before [closing.token]) := by
      rw [ParseState.before_append]
      apply parseMoreParams_before more hnext _
      simp only [ParseState.ahead_before, List.append_assoc]
      exact Nat.lt_succ_self _
    rw [htokens]
    apply (bind_of_ok (expect_before (List.mem_cons_of_mem _ first.type.base.kind_mem))).trans
    rw [if_neg hbase, ParseState.before_append]
    refine (bind_of_ok (parseParamBehind_before first)).trans ((bind_of_ok bound_run).trans ?_)
    apply (bind_of_ok hmore).trans
    exact bind_of_ok (expect_before (by simp [closing.kind_eq]))

/-! ## Methods -/

theorem parseBody_before (hc : c.policy = .failFast) (x : BodyPhrase)
    (hx : x.statements.Every (·.Regular)) :
    Reaches (parseBody c (s.before x.tokens)) (.ok x.statements.trees, s)
      (x.statements.levels ≤ maxNesting) :=
  .step (expect_before x.opening.kind_mem)
    (Statement.parseList_before (Statement.parse_before maxNesting) hc x.statements hx x.closing)

theorem parseType_before (x : TypePhrase NodeKind.typeStart) (name : Terminal [.identifier])
    (ts : List Token) :
    TypeRef.parse (NodeKind.firstSet .type) c (s.before (x.tokens ++ name.token :: ts)) =
      (.ok x.tree, s.before (name.token :: ts)) := by
  have hname : c.nextKind (s.before (name.token :: ts)) ≠ .lbracket := by
    rw [ParseContext.nextKind_before_leaf]
    decide
  rw [ParseState.before_append]
  exact TypeRef.parse_before x hname

theorem parse_before (hc : c.policy = .failFast) (x : MethodPhrase)
    (hx : x.body.statements.Every (·.Regular)) :
    Reaches (parse c (s.before x.tokens)) (.ok x.tree, s)
      (x.body.statements.levels ≤ maxNesting) := by
  have hparams : parseParams c (s.before (x.params.tokens ++ x.closing.token :: x.body.tokens)) =
      (.ok x.params.trees, s.before x.body.tokens) := by
    rw [ParseState.before_append, ParseState.before_cons, ← ParseState.before_append]
    exact parseParams_before x.params x.closing
  refine .step (expect_before x.publicWord.kind_mem) ?_
  refine .step (parseType_before x.returnType x.name _) ?_
  refine .step (expect_before x.name.kind_mem) (.step (expect_before x.opening.kind_mem) ?_)
  exact .step hparams (parseBody_before hc x.body hx).map

theorem parseMain_before (hc : c.policy = .failFast) (x : MainMethodPhrase)
    (hx : x.body.statements.Every (·.Regular)) :
    Reaches (parseMain c (s.before x.tokens)) (.ok x.tree, s)
      (x.body.statements.levels ≤ maxNesting) := by
  refine .step (expect_before x.publicWord.kind_mem) ?_
  refine .step (expect_before x.staticWord.kind_mem) ?_
  refine .step (parseType_before x.returnType x.name _) ?_
  refine .step (expect_before x.name.kind_mem) (.step (expect_before x.opening.kind_mem) ?_)
  exact .step (expect_before x.closing.kind_mem) (parseBody_before hc x.body hx).map

end Method

/-! ## Classes -/

theorem MainClass.parse_before (hc : c.policy = .failFast) (x : MainClassPhrase)
    (hx : x.method.body.statements.Every (·.Regular)) :
    Reaches (MainClass.parse c (s.before x.tokens)) (.ok x.tree, s)
      (x.method.body.statements.levels ≤ maxNesting) := by
  refine .step (expect_before x.classWord.kind_mem) (.step (expect_before x.name.kind_mem) ?_)
  refine .step (expect_before x.opening.kind_mem) ?_
  rw [ParseState.before_append]
  apply (Method.parseMain_before hc x.method hx).bind_free
  exact .step (expect_before x.closing.kind_mem) (.pure _)

namespace ClassDecl

-- Fields and methods up to the brace that closes the class.
theorem parseMembers_before (hc : c.policy = .failFast) (xs : List MemberPhrase)
    (hnext : c.nextKind s = .rbrace) :
    ∀ k : Nat, (∀ b ∈ xs.flatMap (·.bodies), b.statements.Every (·.Regular)) →
      (xs.flatMap (·.tokens) ++ s.ahead).length < k →
      Reaches (parseMembers k c (s.before (xs.flatMap (·.tokens))))
        (.ok (xs.filterMap (·.field?), xs.filterMap (·.method?)), s)
        (∀ b ∈ xs.flatMap (·.bodies), b.statements.levels ≤ maxNesting) := by
  induction xs with
  | nil =>
    intro k _ hk
    obtain ⟨k, rfl⟩ := Nat.exists_eq_add_one.mpr (Nat.zero_lt_of_lt hk)
    have hpeek : peek c s = (.ok (s.ahead.headD c.ending), s) := rfl
    have hbrace : (s.ahead.headD c.ending).kind = .rbrace := hnext
    refine .step hpeek ?_
    rw [if_pos (.inl hbrace)]
    exact (Reaches.pure _).congr (by simp)
  | cons x xs ih =>
    intro k hx hk
    obtain ⟨k, rfl⟩ := Nat.exists_eq_add_one.mpr (Nat.zero_lt_of_lt hk)
    simp only [List.flatMap_cons, List.mem_append] at hx
    rw [List.flatMap_cons, List.length_append, List.length_append] at hk
    rw [List.flatMap_cons, ParseState.before_append]
    cases x with
    | field decl =>
      have hrest := ih k (fun b hb => hx b (.inr hb)) (by
        have hpos : 0 < (MemberPhrase.field decl).tokens.length := Nat.succ_pos _
        rw [List.length_append]
        omega)
      -- A field begins with its type, which is neither the brace nor `public`.
      have hmem := decl.type.base.kind_mem
      refine .step peek_before ?_
      rw [if_neg (by
          rintro (h | h) <;> rw [h] at hmem <;> exact absurd hmem (by decide)),
        if_neg (by
          intro h
          rw [h] at hmem
          exact absurd hmem (by decide))]
      refine .step (VarDecl.parse_before decl) ?_
      exact hrest.map.congr (by simp [MemberPhrase.bodies])
    | method m =>
      have hrest := ih k (fun b hb => hx b (.inr hb)) (by
        have hpos : 0 < (MemberPhrase.method m).tokens.length := Nat.succ_pos _
        rw [List.length_append]
        omega)
      have hmethod := Method.parse_before (s := s.before (xs.flatMap (·.tokens))) hc m
        (hx m.body (.inl (List.mem_singleton_self _)))
      refine .step peek_before ?_
      rw [if_neg (by simp [m.publicWord.kind_eq]), if_pos m.publicWord.kind_eq]
      refine Reaches.congr (P := m.body.statements.levels ≤ maxNesting ∧
        ∀ b ∈ xs.flatMap (·.bodies), b.statements.levels ≤ maxNesting) ?_
        (by simp [MemberPhrase.bodies])
      exact hmethod.bind (fun _ => hrest.map)

theorem parseParent_before (x : Option (Terminal [.extendsWord] × Terminal [.identifier]))
    (hnext : c.nextKind s ≠ .extendsWord) :
    parseParent c (s.before (ClassPhrase.parentTokens x)) = (.ok (x.map (·.2.token)), s) := by
  cases x with
  | none => exact bind_of_ok (accept_of_notMem (fun h => hnext (List.mem_singleton.mp h)))
  | some parent =>
    exact (bind_of_ok (accept_before parent.1.kind_mem)).trans
      (bind_of_ok (expect_before parent.2.kind_mem))

theorem parse_before (hc : c.policy = .failFast) (x : ClassPhrase)
    (hx : ∀ b ∈ x.members.flatMap (·.bodies), b.statements.Every (·.Regular)) :
    Reaches (parse c (s.before x.tokens)) (.ok x.tree, s)
      (∀ b ∈ x.members.flatMap (·.bodies), b.statements.levels ≤ maxNesting) := by
  have hparent (ts : List Token) :
      parseParent c (s.before (ClassPhrase.parentTokens x.parent? ++ x.opening.token :: ts)) =
        (.ok (x.parent?.map (·.2.token)), s.before (x.opening.token :: ts)) := by
    rw [ParseState.before_append]
    apply parseParent_before x.parent?
    rw [ParseContext.nextKind_before_leaf]
    decide
  have hclosing : c.nextKind (s.before [x.closing.token]) = .rbrace := x.closing.kind_eq
  refine .step (expect_before x.classWord.kind_mem) (.step (expect_before x.name.kind_mem) ?_)
  refine .step (hparent _) (.step (expect_before x.opening.kind_mem) ?_)
  rw [ParseState.before_append]
  refine .step bound_run ((parseMembers_before hc x.members hclosing _ hx ?_).bind_free ?_)
  · exact Nat.lt_succ_self _
  · exact .step (expect_before x.closing.kind_mem) (.pure _)

theorem parseMany_before (hc : c.policy = .failFast) (xs : List ClassPhrase)
    (hnext : c.nextKind s ≠ .classWord) :
    ∀ k : Nat,
      (∀ b ∈ xs.flatMap fun x => x.members.flatMap (·.bodies), b.statements.Every (·.Regular)) →
      (xs.flatMap (·.tokens) ++ s.ahead).length < k →
      Reaches (parseMany k c (s.before (xs.flatMap (·.tokens)))) (.ok (xs.map (·.tree)), s)
        (∀ b ∈ xs.flatMap fun x => x.members.flatMap (·.bodies),
          b.statements.levels ≤ maxNesting) := by
  induction xs with
  | nil =>
    intro k _ hk
    obtain ⟨k, rfl⟩ := Nat.exists_eq_add_one.mpr (Nat.zero_lt_of_lt hk)
    have hpeek : peek c s = (.ok (s.ahead.headD c.ending), s) := rfl
    have hstop : (s.ahead.headD c.ending).kind ≠ .classWord := hnext
    refine .step hpeek ?_
    rw [if_neg hstop]
    exact (Reaches.pure _).congr (by simp)
  | cons x xs ih =>
    intro k hx hk
    obtain ⟨k, rfl⟩ := Nat.exists_eq_add_one.mpr (Nat.zero_lt_of_lt hk)
    simp only [List.flatMap_cons, List.mem_append] at hx
    have hrest := ih k (fun b hb => hx b (.inr hb)) (by
      simp only [List.flatMap_cons, ClassPhrase.tokens, List.length_append,
        List.length_cons] at hk ⊢
      omega)
    have hclass := ClassDecl.parse_before (s := s.before (xs.flatMap (·.tokens))) hc x
      (fun b hb => hx b (.inl hb))
    rw [List.flatMap_cons, ParseState.before_append]
    refine .step peek_before ?_
    rw [if_pos x.classWord.kind_eq]
    refine Reaches.congr
      (P := (∀ b ∈ x.members.flatMap (·.bodies), b.statements.levels ≤ maxNesting) ∧
        ∀ b ∈ xs.flatMap fun x => x.members.flatMap (·.bodies),
          b.statements.levels ≤ maxNesting) ?_
      (by simp only [List.flatMap_cons, List.mem_append, or_imp, forall_and])
    exact (Statement.recovering_reaches hc hclass).bind (fun _ => hrest.map)

end ClassDecl

/-! ## Programs -/

/-- A whole program, up to the end of file. -/
theorem Program.parse_before (hc : c.policy = .failFast) (hending : c.ending.kind = .eof)
    (recoveries : List Recovery) (x : ProgramPhrase) (hx : x.Every (·.Regular)) :
    Reaches (Program.parse c ⟨x.tokens, recoveries⟩) (.ok (some x.tree), ⟨[], recoveries⟩)
      (x.Within maxNesting) := by
  have hend : c.nextKind ⟨[], recoveries⟩ = .eof := hending
  have hclasses := ClassDecl.parseMany_before (s := ⟨[], recoveries⟩) hc x.classes
    (by rw [hend]; decide) _ (fun b hb => hx b (List.mem_cons_of_mem _ hb)) (Nat.lt_succ_self _)
  have hmain := MainClass.parse_before
    (s := ParseState.before ⟨[], recoveries⟩ (x.classes.flatMap (·.tokens))) hc x.mainClass
    (hx _ (List.mem_cons_self ..))
  -- Behind the classes nothing is ahead but the end of file, which is expected and not consumed.
  have hexpect : expect (NodeKind.followSet .classDecl) c ⟨[], recoveries⟩ =
      (.ok c.ending, ⟨[], recoveries⟩) := by
    rw [expect_run]
    refine if_pos (List.contains_iff_mem.mpr ?_)
    show c.ending.kind ∈ NodeKind.followSet .classDecl
    rw [hending]
    decide
  -- The state before a program is the end of the tokens with all of its classes put back.
  have hstart : (⟨x.tokens, recoveries⟩ : ParseState) =
      ((⟨[], recoveries⟩ : ParseState).before (x.classes.flatMap (·.tokens))).before
        x.mainClass.tokens := by
    rw [← ParseState.before_append]
    simp [ParseState.before, ProgramPhrase.tokens]
  rw [hstart]
  refine Reaches.congr (P := x.mainClass.method.body.statements.levels ≤ maxNesting ∧
      (∀ b ∈ x.classes.flatMap fun x => x.members.flatMap (·.bodies),
        b.statements.levels ≤ maxNesting) ∧ True) ?_
    (by simp [ProgramPhrase.Within, ProgramPhrase.bodies])
  refine (Statement.recovering_reaches hc hmain).bind (fun _ => .step bound_run ?_)
  exact hclasses.bind (fun _ => .step hexpect (.of_eq rfl))

end MiniJava
