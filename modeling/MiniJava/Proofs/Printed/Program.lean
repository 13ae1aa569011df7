import MiniJava.Proofs.Phrase.Program
import MiniJava.Proofs.Printed.Statement
import Mathlib.Data.List.Forall2

/-!
# Phrases of printed programs

Tokens with the lexemes of a legible program are derived by a program of the same shape. How many
levels it opens and whether its statements begin with names can be told from the tree that was
printed (`Program.exists_printed`).
-/

namespace MiniJava

/-! ## Methods -/

theorem VarDecl.exists_moreParams : ∀ (ds : List VarDecl) {ts : List Token},
    (∀ d ∈ ds, d.Legible NodeKind.typeStart) → ts.map (·.lexeme) = moreLexemes ds →
      ∃ more : List (Terminal [.comma] × ParamPhrase), ParamPhrase.moreTokens more = ts ∧
        more.map (·.2.tree.erase) = ds.map (·.erase)
  | [], ts, _, hts => by
    obtain rfl := List.map_eq_nil_iff.mp hts
    exact ⟨[], rfl, rfl⟩
  | d :: ds, ts, hds, hts => by
    obtain ⟨hd, hmore⟩ := List.forall_mem_cons.mp hds
    simp only [moreLexemes, List.flatMap_cons, List.cons_append, List.map_eq_cons_iff,
      List.map_eq_append_iff] at hts
    obtain ⟨comma, _, rfl, hcomma, ts₁, ts₂, rfl, hts₁, hts₂⟩ := hts
    obtain ⟨type, name, rfl, hshape⟩ := exists_pair hd hts₁
    obtain ⟨more, rfl, hshapes⟩ := exists_moreParams ds hmore hts₂
    refine ⟨(.ofLexeme comma hcomma, ⟨type, name⟩) :: more, rfl, ?_⟩
    rw [List.map_cons, hshapes, List.map_cons]
    exact congrArg (· :: _) hshape

theorem VarDecl.exists_params (ds : List VarDecl) {ts : List Token}
    (hds : ∀ d ∈ ds, d.Legible NodeKind.typeStart) (hts : ts.map (·.lexeme) = paramLexemes ds) :
    ∃ x : ParamsPhrase, x.tokens = ts ∧ x.trees.map (·.erase) = ds.map (·.erase) := by
  cases ds with
  | nil =>
    obtain rfl := List.map_eq_nil_iff.mp hts
    exact ⟨.none, rfl, rfl⟩
  | cons d ds =>
    obtain ⟨hd, hmore⟩ := List.forall_mem_cons.mp hds
    obtain ⟨ts₁, ts₂, rfl, hts₁, hts₂⟩ := List.map_eq_append_iff.mp hts
    obtain ⟨type, name, rfl, hshape⟩ := exists_pair hd hts₁
    obtain ⟨more, rfl, hshapes⟩ := exists_moreParams ds hmore hts₂
    refine ⟨.some ⟨type, name⟩ more, rfl, ?_⟩
    rw [ParamsPhrase.trees, List.map_cons, List.map_map, List.map_cons, ← hshapes]
    exact congrArg (· :: _) hshape

namespace Method

/-- The statements of the body derive what the body of the method was printed as. -/
def BodyPrinted (b : BodyPhrase) (m : Method) : Prop :=
  ∃ ts, Statement.EachPrinted m.body ts b.statements

variable {m : Method} {ts : List Token}

theorem exists_body (hm : m.Legible) (hts : ts.map (·.lexeme) = m.bodyLexemes) :
    ∃ b : BodyPhrase, b.tokens = ts ∧ BodyPrinted b m ∧
      Statement.eraseEach b.statements.trees = Statement.eraseEach m.body := by
  simp only [bodyLexemes, List.map_eq_cons_iff, List.map_eq_append_iff, List.map_eq_nil_iff] at hts
  obtain ⟨opening, _, rfl, hopening, ts₁, _, rfl, hts₁, closing, _, rfl, hclosing, rfl⟩ := hts
  obtain ⟨x, hx⟩ := Statement.exists_eachPrinted m.body hm.2.2.2 hts₁
  refine ⟨⟨.ofLexeme opening hopening, x, .ofLexeme closing hclosing⟩, ?_, ⟨ts₁, hx⟩, hx.shape⟩
  simp [BodyPhrase.tokens, hx.tokens, Terminal.ofLexeme]

theorem exists_phrase (hm : m.Legible) (hts : ts.map (·.lexeme) = m.lexemes) :
    ∃ x : MethodPhrase, x.tokens = ts ∧ x.tree.erase = m.erase ∧ BodyPrinted x.body m := by
  obtain ⟨htype, hname, hparams, -⟩ := id hm
  simp only [lexemes, List.map_eq_cons_iff, List.map_eq_append_iff] at hts
  obtain ⟨word, _, rfl, hword, ts₁, _, rfl, hts₁, name, _, rfl, hname', opening, _, rfl, hopening,
    ts₂, _, rfl, hts₂, closing, ts₃, rfl, hclosing, hts₃⟩ := hts
  obtain ⟨type, rfl, htypeShape⟩ := TypeRef.exists_phrase htype hts₁
  obtain ⟨params, rfl, hparamShapes⟩ := VarDecl.exists_params m.params hparams hts₂
  obtain ⟨body, rfl, hbody, hbodyShape⟩ := exists_body hm hts₃
  refine ⟨⟨.ofLexeme word hword, type, .ofToken hname name hname', .ofLexeme opening hopening,
    params, .ofLexeme closing hclosing, body⟩, rfl, ?_, hbody⟩
  rw [MethodPhrase.tree, erase, htypeShape, hparamShapes, hbodyShape]
  exact congrArg (Method.mk _ · _ _) (Token.erase_eq_of_lexeme_eq hname')

theorem exists_mainPhrase (hm : m.Legible) (hnone : m.params = [])
    (hts : ts.map (·.lexeme) = m.mainLexemes) :
    ∃ x : MainMethodPhrase, x.tokens = ts ∧ x.tree.erase = m.erase ∧ BodyPrinted x.body m := by
  obtain ⟨htype, hname, -⟩ := id hm
  simp only [mainLexemes, List.map_eq_cons_iff, List.map_eq_append_iff] at hts
  obtain ⟨word, _, rfl, hword, word', _, rfl, hword', ts₁, _, rfl, hts₁, name, _, rfl, hname',
    opening, _, rfl, hopening, closing, ts₂, rfl, hclosing, hts₂⟩ := hts
  obtain ⟨type, rfl, htypeShape⟩ := TypeRef.exists_phrase htype hts₁
  obtain ⟨body, rfl, hbody, hbodyShape⟩ := exists_body hm hts₂
  refine ⟨⟨.ofLexeme word hword, .ofLexeme word' hword', type, .ofToken hname name hname',
    .ofLexeme opening hopening, .ofLexeme closing hclosing, body⟩, rfl, ?_, hbody⟩
  rw [MainMethodPhrase.tree, erase, htypeShape, hbodyShape, erase, hnone]
  exact congrArg (Method.mk _ · _ _) (Token.erase_eq_of_lexeme_eq hname')

theorem exists_phrases : ∀ (ms : List Method) {ts : List Token}, (∀ m ∈ ms, m.Legible) →
    ts.map (·.lexeme) = ms.flatMap (·.lexemes) →
      ∃ xs : List MethodPhrase, xs.flatMap (·.tokens) = ts ∧
        xs.map (·.tree.erase) = ms.map (·.erase) ∧
        List.Forall₂ BodyPrinted (xs.map (·.body)) ms
  | [], ts, _, hts => by
    obtain rfl := List.map_eq_nil_iff.mp hts
    exact ⟨[], rfl, rfl, .nil⟩
  | m :: ms, ts, hms, hts => by
    obtain ⟨hm, hmore⟩ := List.forall_mem_cons.mp hms
    obtain ⟨ts₁, ts₂, rfl, hts₁, hts₂⟩ := List.map_eq_append_iff.mp hts
    obtain ⟨x, rfl, hshape, hbody⟩ := exists_phrase hm hts₁
    obtain ⟨xs, rfl, hshapes, hbodies⟩ := exists_phrases ms hmore hts₂
    refine ⟨x :: xs, rfl, ?_, .cons hbody hbodies⟩
    rw [List.map_cons, hshape, hshapes, List.map_cons]

end Method

/-! ## Classes and programs -/

theorem MainClass.exists_phrase {c : MainClass} {ts : List Token} (hc : c.Legible)
    (hts : ts.map (·.lexeme) = c.lexemes) :
    ∃ x : MainClassPhrase, x.tokens = ts ∧ x.tree.erase = c.erase ∧
      Method.BodyPrinted x.method.body c.mainMethod := by
  obtain ⟨hname, hnone, hmethod⟩ := hc
  simp only [lexemes, List.map_eq_cons_iff, List.map_eq_append_iff, List.map_eq_nil_iff] at hts
  obtain ⟨word, _, rfl, hword, name, _, rfl, hname', opening, _, rfl, hopening, ts₁, _, rfl, hts₁,
    closing, _, rfl, hclosing, rfl⟩ := hts
  obtain ⟨method, rfl, hshape, hbody⟩ := Method.exists_mainPhrase hmethod hnone hts₁
  refine ⟨⟨.ofLexeme word hword, .ofToken hname name hname', .ofLexeme opening hopening, method,
    .ofLexeme closing hclosing⟩, rfl, ?_, hbody⟩
  rw [MainClassPhrase.tree, erase, hshape]
  exact congrArg (MainClass.mk · _) (Token.erase_eq_of_lexeme_eq hname')

namespace ClassDecl

theorem exists_parent {parent? : Option Token} {ts : List Token}
    (hparent : ∀ parent ∈ parent?, parent.IsA [.identifier])
    (hts : ts.map (·.lexeme) = parentLexemes parent?) :
    ∃ x : Option (Terminal [.extendsWord] × Terminal [.identifier]),
      ClassPhrase.parentTokens x = ts ∧
        x.map (fun clause => clause.2.token.erase) = parent?.map (·.erase) := by
  cases parent? with
  | none =>
    obtain rfl := List.map_eq_nil_iff.mp hts
    exact ⟨none, rfl, rfl⟩
  | some parent =>
    simp only [parentLexemes, List.map_eq_cons_iff, List.map_eq_nil_iff] at hts
    obtain ⟨word, _, rfl, hword, name, _, rfl, hname, rfl⟩ := hts
    exact ⟨some (.ofLexeme word hword, .ofToken (hparent parent rfl) name hname), rfl,
      congrArg some (Token.erase_eq_of_lexeme_eq hname)⟩

theorem exists_fields : ∀ (ds : List VarDecl) {ts : List Token},
    (∀ d ∈ ds, d.Legible NodeKind.typeStart) →
      ts.map (·.lexeme) = ds.flatMap (fun d => d.lexemes ++ [TokenKind.semicolon.lexeme]) →
      ∃ xs : List (DeclPhrase NodeKind.typeStart), xs.flatMap (·.tokens) = ts ∧
        xs.map (·.tree.erase) = ds.map (·.erase)
  | [], ts, _, hts => by
    obtain rfl := List.map_eq_nil_iff.mp hts
    exact ⟨[], rfl, rfl⟩
  | d :: ds, ts, hds, hts => by
    obtain ⟨hd, hmore⟩ := List.forall_mem_cons.mp hds
    obtain ⟨ts₁, ts₂, rfl, hts₁, hts₂⟩ := List.map_eq_append_iff.mp hts
    obtain ⟨x, rfl, hshape⟩ := VarDecl.exists_decl hd hts₁
    obtain ⟨xs, rfl, hshapes⟩ := exists_fields ds hmore hts₂
    refine ⟨x :: xs, rfl, ?_⟩
    rw [List.map_cons, hshape, hshapes, List.map_cons]

theorem exists_phrase {c : ClassDecl} {ts : List Token} (hc : c.Legible)
    (hts : ts.map (·.lexeme) = c.lexemes) :
    ∃ x : ClassPhrase, x.tokens = ts ∧ x.tree.erase = c.erase ∧
      List.Forall₂ Method.BodyPrinted (x.members.flatMap (·.bodies)) c.methods := by
  obtain ⟨hname, hparent, hfields, hmethods⟩ := hc
  simp only [lexemes, List.map_eq_cons_iff, List.map_eq_append_iff, List.map_eq_nil_iff] at hts
  obtain ⟨word, _, rfl, hword, name, _, rfl, hname', ts₁, _, rfl, hts₁, opening, _, rfl, hopening,
    ts₂, _, rfl, hts₂, ts₃, _, rfl, hts₃, closing, _, rfl, hclosing, rfl⟩ := hts
  obtain ⟨clause, rfl, hclause⟩ := exists_parent hparent hts₁
  obtain ⟨fields, rfl, hfieldShapes⟩ := exists_fields c.fields hfields hts₂
  obtain ⟨methods, rfl, hmethodShapes, hbodies⟩ := Method.exists_phrases c.methods hmethods hts₃
  refine ⟨⟨.ofLexeme word hword, .ofToken hname name hname', clause, .ofLexeme opening hopening,
    fields.map .field ++ methods.map .method, .ofLexeme closing hclosing⟩, ?_, ?_, ?_⟩
  · simp [ClassPhrase.tokens, MemberPhrase.tokens, List.flatMap_map, Terminal.ofLexeme,
      Terminal.ofToken]
  -- Fields are printed before methods, so that both lists keep their order.
  · have hfields : (fields.map MemberPhrase.field ++ methods.map MemberPhrase.method).filterMap
        (·.field?) = fields.map (·.tree) := by
      simp [List.filterMap_map, MemberPhrase.field?]
    have hmethods : (fields.map MemberPhrase.field ++ methods.map MemberPhrase.method).filterMap
        (·.method?) = methods.map (·.tree) := by
      simp [List.filterMap_map, MemberPhrase.method?]
    simp [ClassPhrase.tree, erase, hfields, hmethods, ← hfieldShapes, ← hmethodShapes, ← hclause,
      Function.comp_def, Terminal.ofToken, Token.erase_eq_of_lexeme_eq hname']
  · have hbodies' : (fields.map MemberPhrase.field ++ methods.map MemberPhrase.method).flatMap
        (·.bodies) = methods.map (·.body) := by
      rw [List.flatMap_append, List.flatMap_map, List.flatMap_map, List.map_eq_flatMap]
      simp [MemberPhrase.bodies]
    rwa [hbodies']

theorem exists_phrases : ∀ (cs : List ClassDecl) {ts : List Token}, (∀ c ∈ cs, c.Legible) →
    ts.map (·.lexeme) = cs.flatMap (·.lexemes) →
      ∃ xs : List ClassPhrase, xs.flatMap (·.tokens) = ts ∧
        xs.map (·.tree.erase) = cs.map (·.erase) ∧
        List.Forall₂ Method.BodyPrinted (xs.flatMap fun x => x.members.flatMap (·.bodies))
          (cs.flatMap (·.methods))
  | [], ts, _, hts => by
    obtain rfl := List.map_eq_nil_iff.mp hts
    exact ⟨[], rfl, rfl, .nil⟩
  | c :: cs, ts, hcs, hts => by
    obtain ⟨hc, hmore⟩ := List.forall_mem_cons.mp hcs
    obtain ⟨ts₁, ts₂, rfl, hts₁, hts₂⟩ := List.map_eq_append_iff.mp hts
    obtain ⟨x, rfl, hshape, hbodies⟩ := exists_phrase hc hts₁
    obtain ⟨xs, rfl, hshapes, hmoreBodies⟩ := exists_phrases cs hmore hts₂
    refine ⟨x :: xs, rfl, ?_, List.rel_append hbodies hmoreBodies⟩
    rw [List.map_cons, hshape, hshapes, List.map_cons]

end ClassDecl

namespace Program

/-- The program derives the tokens, and what it stands for was printed as them. -/
structure Printed (p : Program) (ts : List Token) (x : ProgramPhrase) : Prop where
  tokens : x.tokens = ts
  shape : x.tree.erase = p.erase
  settled : x.Every StatementPhrase.Settled
  within_iff : ∀ limit, x.Within limit ↔ p.PrintsWithin limit
  names : x.Every StatementPhrase.NameFirst ↔ p.BeginsWithNames

-- Conditions on bodies that agree on each body agree on all of them.
theorem forall_bodies_iff {bs : List BodyPhrase} {ms : List Method}
    (h : List.Forall₂ Method.BodyPrinted bs ms) {P : BodyPhrase → Prop} {Q : Method → Prop}
    (hPQ : ∀ b m, Method.BodyPrinted b m → (P b ↔ Q m)) : (∀ b ∈ bs, P b) ↔ ∀ m ∈ ms, Q m := by
  induction h with
  | nil => exact iff_of_true (List.forall_mem_nil _) (List.forall_mem_nil _)
  | cons hbm _ ih =>
    rw [List.forall_mem_cons, List.forall_mem_cons, hPQ _ _ hbm, ih]

/-- Tokens with the lexemes of a legible program are derived by a program. -/
theorem exists_printed {p : Program} {ts : List Token} (hp : p.Legible)
    (hts : ts.map (·.lexeme) = p.lexemes) : ∃ x, p.Printed ts x := by
  obtain ⟨ts₁, ts₂, rfl, hts₁, hts₂⟩ := List.map_eq_append_iff.mp hts
  obtain ⟨main, rfl, hmainShape, hbody⟩ := MainClass.exists_phrase hp.1 hts₁
  obtain ⟨classes, rfl, hshapes, hmoreBodies⟩ := ClassDecl.exists_phrases p.classes hp.2 hts₂
  have hbodies : List.Forall₂ Method.BodyPrinted (ProgramPhrase.bodies ⟨main, classes⟩) p.methods :=
    .cons hbody hmoreBodies
  refine ⟨⟨main, classes⟩, rfl, ?_, ?_, ?_, ?_⟩
  · rw [ProgramPhrase.tree, erase, erase, hmainShape, List.map_map, ← hshapes]
    rfl
  -- No condition on the tree is needed: whatever was derived from a body is settled.
  · have hsettled := forall_bodies_iff (P := fun b => b.statements.Every StatementPhrase.Settled)
      (Q := fun _ => True) hbodies fun b m hbm => by
        obtain ⟨ts, hbm⟩ := hbm
        exact iff_of_true hbm.settled trivial
    exact hsettled.mpr fun _ _ => trivial
  · intro limit
    refine forall_bodies_iff hbodies fun b m hbm => ?_
    obtain ⟨ts, hbm⟩ := hbm
    rw [hbm.levels]
  · refine forall_bodies_iff hbodies fun b m hbm => ?_
    obtain ⟨ts, hbm⟩ := hbm
    exact hbm.names

end Program

end MiniJava
