import MiniJava.Proofs.Outlines.Labels
import MiniJava.Proofs.RoundTrip
import MiniJava.Proofs.Storage.Program
import Mathlib.Tactic.TFAE

/-!
# Outlines and texts as views of a tree

Legible programs with the same forest have the same shape: the label of a node tells its form and
the tokens in it, and the form tells what is inside. The row of an `else` is no part of the node of
its `if`, but no statement has such a label, so that it belongs to the `if` in front of it. Programs
that are printed alike have the same shape too, as there is one derivation of the text that both are
printed as (`Program.erase_eq_of_print_eq`). So for programs that were read the shape, the outline
without its positions and the printed text determine each other (`outline_and_text_show_the_shape`).
-/

namespace MiniJava

/-! ## Expressions -/

namespace Expr

mutual

/-- Legible expressions with the same node have the same shape. -/
theorem erase_eq_of_node_eq : ∀ e e' : Expr, e.Legible → e'.Legible → e.label = e'.label →
    e.inside = e'.inside → e.erase = e'.erase
  | binary left op right, e', he, he', hlabel, hinside => by
    have hwords := words_eq_of_label_eq he he' hlabel
    cases e' with
    | binary left' op' right' =>
      simp only [inside, Forest.node.injEq] at hinside
      obtain ⟨hleft, hleft', hright, hright', -⟩ := hinside
      have hop : op.lexeme = op'.lexeme := by simpa [words] using hwords
      rw [erase, erase, Token.erase_eq_of_lexeme_eq hop,
        erase_eq_of_node_eq left left' he.1 he'.1 hleft hleft',
        erase_eq_of_node_eq right right' he.2.2 he'.2.2 hright hright']
    | _ => simp [words, Lexeme.word, TokenKind.lexeme] at hwords
  | unary op operand, e', he, he', hlabel, hinside => by
    have hwords := words_eq_of_label_eq he he' hlabel
    cases e' with
    | unary op' operand' =>
      simp only [inside, Forest.node.injEq] at hinside
      obtain ⟨hoperand, hoperand', -⟩ := hinside
      have hop : op.lexeme = op'.lexeme := by simpa [words] using hwords
      rw [erase, erase, Token.erase_eq_of_lexeme_eq hop,
        erase_eq_of_node_eq operand operand' he.2 he'.2 hoperand hoperand']
    | _ => simp [words, Lexeme.word, TokenKind.lexeme] at hwords
  | index array i, e', he, he', hlabel, hinside => by
    have hwords := words_eq_of_label_eq he he' hlabel
    cases e' with
    | index array' i' =>
      simp only [inside, Forest.node.injEq] at hinside
      obtain ⟨harray, harray', hi, hi', -⟩ := hinside
      rw [erase, erase, erase_eq_of_node_eq array array' he.1 he'.1 harray harray',
        erase_eq_of_node_eq i i' he.2 he'.2 hi hi']
    | _ => simp [words, Lexeme.word, TokenKind.lexeme] at hwords
  | arrayLength array, e', he, he', hlabel, hinside => by
    have hwords := words_eq_of_label_eq he he' hlabel
    cases e' with
    | arrayLength array' =>
      simp only [inside, Forest.node.injEq] at hinside
      obtain ⟨harray, harray', -⟩ := hinside
      rw [erase, erase, erase_eq_of_node_eq array array' he he' harray harray']
    | _ => simp [words, Lexeme.word, TokenKind.lexeme] at hwords
  | newObject className _, e', he, he', hlabel, _ => by
    have hwords := words_eq_of_label_eq he he' hlabel
    cases e' with
    | newObject className' p =>
      have hname : className.lexeme = className'.lexeme := by simpa [words] using hwords
      rw [erase, erase, Token.erase_eq_of_lexeme_eq hname]
    | _ => simp [words, Lexeme.word, TokenKind.lexeme] at hwords
  | newArray elementType length _, e', he, he', hlabel, hinside => by
    have hwords := words_eq_of_label_eq he he' hlabel
    cases e' with
    | newArray elementType' length' p =>
      simp only [inside, Forest.node.injEq] at hinside
      obtain ⟨hlength, hlength', -⟩ := hinside
      have hbase : elementType.base.lexeme = elementType'.base.lexeme := by
        simpa [words] using hwords
      -- Neither type has brackets of its own.
      have htype : elementType.erase = elementType'.erase := by
        rw [TypeRef.erase, TypeRef.erase, Token.erase_eq_of_lexeme_eq hbase, he.2.1, he'.2.1]
      rw [erase, erase, htype, erase_eq_of_node_eq length length' he.2.2 he'.2.2 hlength hlength']
    | _ => simp [words, Lexeme.word, TokenKind.lexeme] at hwords
  | call receiver method args, e', he, he', hlabel, hinside => by
    have hwords := words_eq_of_label_eq he he' hlabel
    cases e' with
    | call receiver' method' args' =>
      simp only [inside, Forest.node.injEq] at hinside
      obtain ⟨hreceiver, hreceiver', hargs⟩ := hinside
      have hmethod : method.lexeme = method'.lexeme := by simpa [words] using hwords
      rw [erase, erase, Token.erase_eq_of_lexeme_eq hmethod,
        erase_eq_of_node_eq receiver receiver' he.1 he'.1 hreceiver hreceiver',
        eraseEach_eq_of_forest_eq args args' he.2.2 he'.2.2 hargs]
    | _ => simp [words, Lexeme.word, TokenKind.lexeme] at hwords
  | intLiteral t, e', he, he', hlabel, _ => by
    have hwords := words_eq_of_label_eq he he' hlabel
    cases e' with
    | intLiteral t' =>
      have ht : t.lexeme = t'.lexeme := by simpa [words] using hwords
      rw [erase, erase, Token.erase_eq_of_lexeme_eq ht]
    | _ => simp [words, Lexeme.word, TokenKind.lexeme] at hwords
  | boolLiteral t, e', he, he', hlabel, _ => by
    have hwords := words_eq_of_label_eq he he' hlabel
    cases e' with
    | boolLiteral t' =>
      have ht : t.lexeme = t'.lexeme := by simpa [words] using hwords
      rw [erase, erase, Token.erase_eq_of_lexeme_eq ht]
    | _ => simp [words, Lexeme.word, TokenKind.lexeme] at hwords
  | identifier t, e', he, he', hlabel, _ => by
    have hwords := words_eq_of_label_eq he he' hlabel
    cases e' with
    | identifier t' =>
      have ht : t.lexeme = t'.lexeme := by simpa [words] using hwords
      rw [erase, erase, Token.erase_eq_of_lexeme_eq ht]
    | _ => simp [words, Lexeme.word, TokenKind.lexeme] at hwords
  | this t, e', he, he', hlabel, _ => by
    have hwords := words_eq_of_label_eq he he' hlabel
    cases e' with
    | this t' =>
      have ht : t.lexeme = t'.lexeme :=
        (Token.lexeme_eq_of_isA rfl he).trans (Token.lexeme_eq_of_isA rfl he').symm
      rw [erase, erase, Token.erase_eq_of_lexeme_eq ht]
    | _ => simp [words, Lexeme.word, TokenKind.lexeme] at hwords

theorem eraseEach_eq_of_forest_eq : ∀ es es' : List Expr, EachLegible es → EachLegible es' →
    forestEach es = forestEach es' → eraseEach es = eraseEach es'
  | [], [], _, _, _ => rfl
  | [], _ :: _, _, _, h | _ :: _, [], _, _, h => by cases h
  | e :: es, e' :: es', hes, hes', h => by
    obtain ⟨hlabel, hinside, hmore⟩ := Forest.node.inj h
    rw [eraseEach, eraseEach, erase_eq_of_node_eq e e' hes.1 hes'.1 hlabel hinside,
      eraseEach_eq_of_forest_eq es es' hes.2 hes'.2 hmore]

end

-- An expression in front of other nodes.
theorem forest_cancel {e e' : Expr} {behind behind' : Forest} (he : e.Legible) (he' : e'.Legible)
    (h : e.forest behind = e'.forest behind') : e.erase = e'.erase ∧ behind = behind' := by
  obtain ⟨hlabel, hinside, hbehind⟩ := Forest.node.inj h
  exact ⟨erase_eq_of_node_eq e e' he he' hlabel hinside, hbehind⟩

end Expr

/-! ## Statements -/

/-- The first node is not that of an `else`. -/
def Forest.ElseFree (f : Forest) : Prop := ∀ inside behind, f ≠ .node "else" inside behind

theorem Forest.elseFree_nil : Forest.nil.ElseFree := nofun

namespace Statement

-- The first node of a statement has its label.
theorem exists_forest_eq (s : Statement) (behind : Forest) :
    ∃ inside rest, s.forest behind = .node s.label inside rest := by
  cases s <;> exact ⟨_, _, rfl⟩

theorem label_eq_of_forest_eq {s s' : Statement} {behind behind' : Forest}
    (h : s.forest behind = s'.forest behind') : s.label = s'.label := by
  obtain ⟨inside, rest, heq⟩ := s.exists_forest_eq behind
  obtain ⟨inside', rest', heq'⟩ := s'.exists_forest_eq behind'
  rw [heq, heq'] at h
  exact (Forest.node.inj h).1

theorem elseFree_forest {s : Statement} (hs : s.Legible) (behind : Forest) :
    (s.forest behind).ElseFree := by
  obtain ⟨inside, rest, heq⟩ := s.exists_forest_eq behind
  intro inside' rest' h
  rw [heq] at h
  exact label_ne_else hs (Forest.node.inj h).1

theorem elseFree_forestEach {ss : List Statement} (hss : EachLegible ss) :
    (forestEach ss).ElseFree := by
  cases ss with
  | nil => exact Forest.elseFree_nil
  | cons s ss => exact elseFree_forest hss.1 _

mutual

/-- Legible statements with the same nodes, in front of others that are no `else`, have the same
shape. -/
theorem forest_cancel : ∀ (s s' : Statement) {behind behind' : Forest}, s.Legible → s'.Legible →
    behind.ElseFree → behind'.ElseFree → s.forest behind = s'.forest behind' →
      s.erase = s'.erase ∧ behind = behind'
  | block statements p, s', behind, behind', hs, hs', _, _, h => by
    have hwords := words_eq_of_label_eq hs hs' (label_eq_of_forest_eq h)
    cases s' with
    | block statements' p' =>
      obtain ⟨-, hinside, hbehind⟩ := Forest.node.inj h
      rw [erase, erase, eraseEach_eq_of_forest_eq statements statements' hs hs' hinside]
      exact ⟨rfl, hbehind⟩
    | _ => simp [words, Lexeme.word, TokenKind.lexeme] at hwords
  | varDecl d, s', behind, behind', hs, hs', _, _, h => by
    have hwords := words_eq_of_label_eq hs hs' (label_eq_of_forest_eq h)
    cases s' with
    | varDecl d' =>
      obtain ⟨-, -, hbehind⟩ := Forest.node.inj h
      rw [erase, erase, VarDecl.erase_eq_of_pair_eq hs.1 hs'.1 (List.cons.inj hwords).2]
      exact ⟨rfl, hbehind⟩
    | _ => simp [words, Lexeme.word, TokenKind.lexeme] at hwords
  | assignment target value p, s', behind, behind', hs, hs', _, _, h => by
    have hwords := words_eq_of_label_eq hs hs' (label_eq_of_forest_eq h)
    cases s' with
    | assignment target' value' p' =>
      obtain ⟨-, hinside, hbehind⟩ := Forest.node.inj h
      obtain ⟨htarget, hinside⟩ := Expr.forest_cancel hs.1 hs'.1 hinside
      obtain ⟨hvalue, -⟩ := Expr.forest_cancel hs.2 hs'.2 hinside
      rw [erase, erase, htarget, hvalue]
      exact ⟨rfl, hbehind⟩
    | _ => simp [words, Lexeme.word, TokenKind.lexeme] at hwords
  | print value p, s', behind, behind', hs, hs', _, _, h => by
    have hwords := words_eq_of_label_eq hs hs' (label_eq_of_forest_eq h)
    cases s' with
    | print value' p' =>
      obtain ⟨-, hinside, hbehind⟩ := Forest.node.inj h
      obtain ⟨hvalue, -⟩ := Expr.forest_cancel hs hs' hinside
      rw [erase, erase, hvalue]
      exact ⟨rfl, hbehind⟩
    | _ => simp [words, Lexeme.word, TokenKind.lexeme] at hwords
  | assert condition p, s', behind, behind', hs, hs', _, _, h => by
    have hwords := words_eq_of_label_eq hs hs' (label_eq_of_forest_eq h)
    cases s' with
    | assert condition' p' =>
      obtain ⟨-, hinside, hbehind⟩ := Forest.node.inj h
      obtain ⟨hcondition, -⟩ := Expr.forest_cancel hs hs' hinside
      rw [erase, erase, hcondition]
      exact ⟨rfl, hbehind⟩
    | _ => simp [words, Lexeme.word, TokenKind.lexeme] at hwords
  | returnValue value p, s', behind, behind', hs, hs', _, _, h => by
    have hwords := words_eq_of_label_eq hs hs' (label_eq_of_forest_eq h)
    cases s' with
    | returnValue value' p' =>
      obtain ⟨-, hinside, hbehind⟩ := Forest.node.inj h
      obtain ⟨hvalue, -⟩ := Expr.forest_cancel hs hs' hinside
      rw [erase, erase, hvalue]
      exact ⟨rfl, hbehind⟩
    | _ => simp [words, Lexeme.word, TokenKind.lexeme] at hwords
  | call receiver method args, s', behind, behind', hs, hs', _, _, h => by
    have hwords := words_eq_of_label_eq hs hs' (label_eq_of_forest_eq h)
    cases s' with
    | call receiver' method' args' =>
      obtain ⟨-, hinside, hbehind⟩ := Forest.node.inj h
      obtain ⟨hcall, -⟩ := Expr.forest_cancel hs hs' hinside
      -- The parts of the statement are those of the expression inside it.
      obtain ⟨hreceiver, hmethod, hargs⟩ := Expr.call.inj hcall
      rw [erase, erase, hreceiver, hmethod, hargs]
      exact ⟨rfl, hbehind⟩
    | _ => simp [words, Lexeme.word, TokenKind.lexeme] at hwords
  | ifThen condition thenBranch p, s', behind, behind', hs, hs', hfree, hfree', h => by
    have hwords := words_eq_of_label_eq hs hs' (label_eq_of_forest_eq h)
    cases s' with
    | ifThen condition' thenBranch' p' =>
      obtain ⟨-, hinside, hbehind⟩ := Forest.node.inj h
      obtain ⟨hcondition, hinside⟩ := Expr.forest_cancel hs.1 hs'.1 hinside
      obtain ⟨hthen, -⟩ := forest_cancel thenBranch thenBranch' hs.2 hs'.2
        Forest.elseFree_nil Forest.elseFree_nil hinside
      rw [erase, erase, hcondition, hthen]
      exact ⟨rfl, hbehind⟩
    | ifElse =>
      obtain ⟨-, -, hbehind⟩ := Forest.node.inj h
      exact absurd hbehind (hfree _ _)
    | _ => simp [words, Lexeme.word, TokenKind.lexeme] at hwords
  | ifElse condition thenBranch elseBranch p, s', behind, behind', hs, hs', hfree, hfree', h => by
    have hwords := words_eq_of_label_eq hs hs' (label_eq_of_forest_eq h)
    cases s' with
    | ifElse condition' thenBranch' elseBranch' p' =>
      obtain ⟨-, hinside, hrest⟩ := Forest.node.inj h
      obtain ⟨-, hinsideElse, hbehind⟩ := Forest.node.inj hrest
      obtain ⟨hcondition, hinside⟩ := Expr.forest_cancel hs.1 hs'.1 hinside
      obtain ⟨hthen, -⟩ := forest_cancel thenBranch thenBranch' hs.2.1 hs'.2.1
        Forest.elseFree_nil Forest.elseFree_nil hinside
      obtain ⟨helse, -⟩ := forest_cancel elseBranch elseBranch' hs.2.2.2 hs'.2.2.2
        Forest.elseFree_nil Forest.elseFree_nil hinsideElse
      rw [erase, erase, hcondition, hthen, helse]
      exact ⟨rfl, hbehind⟩
    | ifThen =>
      obtain ⟨-, -, hbehind⟩ := Forest.node.inj h
      exact absurd hbehind.symm (hfree' _ _)
    | _ => simp [words, Lexeme.word, TokenKind.lexeme] at hwords
  | loop condition body p, s', behind, behind', hs, hs', _, _, h => by
    have hwords := words_eq_of_label_eq hs hs' (label_eq_of_forest_eq h)
    cases s' with
    | loop condition' body' p' =>
      obtain ⟨-, hinside, hbehind⟩ := Forest.node.inj h
      obtain ⟨hcondition, hinside⟩ := Expr.forest_cancel hs.1 hs'.1 hinside
      obtain ⟨hbody, -⟩ := forest_cancel body body' hs.2 hs'.2
        Forest.elseFree_nil Forest.elseFree_nil hinside
      rw [erase, erase, hcondition, hbody]
      exact ⟨rfl, hbehind⟩
    | _ => simp [words, Lexeme.word, TokenKind.lexeme] at hwords

theorem eraseEach_eq_of_forest_eq : ∀ ss ss' : List Statement, EachLegible ss → EachLegible ss' →
    forestEach ss = forestEach ss' → eraseEach ss = eraseEach ss'
  | [], [], _, _, _ => rfl
  | [], s :: ss, _, _, h => by
    obtain ⟨inside, rest, heq⟩ := s.exists_forest_eq (forestEach ss)
    rw [forestEach, forestEach, heq] at h
    cases h
  | s :: ss, [], _, _, h => by
    obtain ⟨inside, rest, heq⟩ := s.exists_forest_eq (forestEach ss)
    rw [forestEach, forestEach, heq] at h
    cases h
  | s :: ss, s' :: ss', hss, hss', h => by
    obtain ⟨hfirst, hmore⟩ := forest_cancel s s' hss.1 hss'.1 (elseFree_forestEach hss.2)
      (elseFree_forestEach hss'.2) h
    rw [eraseEach, eraseEach, hfirst, eraseEach_eq_of_forest_eq ss ss' hss.2 hss'.2 hmore]

end

end Statement

/-! ## Programs -/

namespace Method

/-- Legible methods with the same nodes have the same shape. -/
theorem forest_cancel {m m' : Method} {word : String} {behind behind' : Forest} (hm : m.Legible)
    (hm' : m'.Legible) (h : m.forest word behind = m'.forest word behind') :
    m.erase = m'.erase ∧ behind = behind' := by
  obtain ⟨hlabel, hinside, hbehind⟩ := Forest.node.inj h
  have hsignature : m.signature = m'.signature := by simpa using hlabel
  obtain ⟨htype, hname, hparams⟩ := signature_injective hm hm' hsignature
  rw [erase, erase, htype, hname, hparams,
    Statement.eraseEach_eq_of_forest_eq _ _ hm.2.2.2 hm'.2.2.2 hinside]
  exact ⟨rfl, hbehind⟩

theorem forestEach_injective : ∀ {ms ms' : List Method}, (∀ m ∈ ms, m.Legible) →
    (∀ m ∈ ms', m.Legible) →
      ms.foldr (forest "method") .nil = ms'.foldr (forest "method") .nil →
        ms.map (·.erase) = ms'.map (·.erase)
  | [], [], _, _, _ => rfl
  | [], _ :: _, _, _, h | _ :: _, [], _, _, h => by cases h
  | m :: ms, m' :: ms', hms, hms', h => by
    obtain ⟨hm, hmore⟩ := List.forall_mem_cons.mp hms
    obtain ⟨hm', hmore'⟩ := List.forall_mem_cons.mp hms'
    obtain ⟨hfirst, h⟩ := forest_cancel hm hm' h
    rw [List.map_cons, List.map_cons, hfirst, forestEach_injective hmore hmore' h]

end Method

namespace ClassDecl

-- No field is labelled as a method.
theorem fieldForest_ne {d : VarDecl} (hd : d.Legible NodeKind.typeStart) {ms : List Method}
    (hms : ∀ m ∈ ms, m.Legible) (behind : Forest) :
    d.fieldForest behind ≠ ms.foldr (Method.forest "method") .nil := by
  intro h
  cases ms with
  | nil => cases h
  | cons m ms =>
    have hlexes := Method.lexesTo_label (List.forall_mem_cons.mp hms).1
    have hwords := (VarDecl.lexesTo_fieldLabel hd).unique ((Forest.node.inj h).1 ▸ hlexes)
    simp [Lexeme.word] at hwords

/-- The nodes of legible fields and of the legible methods behind them. -/
theorem members_injective {ms ms' : List Method} (hms : ∀ m ∈ ms, m.Legible)
    (hms' : ∀ m ∈ ms', m.Legible) :
    ∀ {ds ds' : List VarDecl}, (∀ d ∈ ds, d.Legible NodeKind.typeStart) →
      (∀ d ∈ ds', d.Legible NodeKind.typeStart) →
        ds.foldr VarDecl.fieldForest (ms.foldr (Method.forest "method") .nil) =
          ds'.foldr VarDecl.fieldForest (ms'.foldr (Method.forest "method") .nil) →
        ds.map (·.erase) = ds'.map (·.erase) ∧ ms.map (·.erase) = ms'.map (·.erase)
  | [], [], _, _, h => ⟨rfl, Method.forestEach_injective hms hms' h⟩
  | [], d :: ds, _, hds, h =>
    absurd h.symm (fieldForest_ne (List.forall_mem_cons.mp hds).1 hms _)
  | d :: ds, [], hds, _, h => absurd h (fieldForest_ne (List.forall_mem_cons.mp hds).1 hms' _)
  | d :: ds, d' :: ds', hds, hds', h => by
    obtain ⟨hd, hmore⟩ := List.forall_mem_cons.mp hds
    obtain ⟨hd', hmore'⟩ := List.forall_mem_cons.mp hds'
    obtain ⟨hlabel, -, h⟩ := Forest.node.inj h
    have hwords := (VarDecl.lexesTo_fieldLabel hd).unique
      (hlabel ▸ VarDecl.lexesTo_fieldLabel hd')
    have hfirst := VarDecl.erase_eq_of_pair_eq hd hd' (List.cons.inj hwords).2
    obtain ⟨hfields, hmethods⟩ := members_injective hms hms' hmore hmore' h
    rw [List.map_cons, List.map_cons, hfirst, hfields]
    exact ⟨rfl, hmethods⟩

/-- Legible classes with the same nodes have the same shape. -/
theorem forestEach_injective : ∀ {cs cs' : List ClassDecl}, (∀ c ∈ cs, c.Legible) →
    (∀ c ∈ cs', c.Legible) → cs.foldr forest .nil = cs'.foldr forest .nil →
      cs.map (·.erase) = cs'.map (·.erase)
  | [], [], _, _, _ => rfl
  | [], _ :: _, _, _, h | _ :: _, [], _, _, h => by cases h
  | c :: cs, c' :: cs', hcs, hcs', h => by
    obtain ⟨hc, hmore⟩ := List.forall_mem_cons.mp hcs
    obtain ⟨hc', hmore'⟩ := List.forall_mem_cons.mp hcs'
    obtain ⟨hlabel, hinside, h⟩ := Forest.node.inj h
    obtain ⟨hname, hparent⟩ := heading_injective hc hc' hlabel
    obtain ⟨hfields, hmethods⟩ :=
      members_injective hc.2.2.2 hc'.2.2.2 hc.2.2.1 hc'.2.2.1 hinside
    have hfirst : c.erase = c'.erase := by
      rw [erase, erase, hname, hparent, hfields, hmethods]
    rw [List.map_cons, List.map_cons, hfirst, forestEach_injective hmore hmore' h]

end ClassDecl

namespace Program

variable {p q : Program}

/-- Legible programs with the same rows in their outlines have the same shape. -/
theorem erase_eq_of_rows_eq (hp : p.Legible) (hq : q.Legible) (h : p.rows = q.rows) :
    p.erase = q.erase := by
  rw [rows_eq, rows_eq] at h
  obtain ⟨hlabel, hinside, hclasses⟩ := Forest.node.inj (Forest.rows_injective h)
  have hwords := (MainClass.lexesTo_label hp.1).unique
    (hlabel ▸ MainClass.lexesTo_label hq.1)
  have hname := Token.erase_eq_of_lexeme_eq (List.cons.inj (List.cons.inj hwords).2).1
  obtain ⟨hmain, -⟩ := Method.forest_cancel hp.1.2.2 hq.1.2.2 hinside
  rw [erase, erase, MainClass.erase, MainClass.erase, hname, hmain,
    ClassDecl.forestEach_injective hp.2 hq.2 hclasses]

/-- Programs of one shape have the same rows in their outlines. -/
theorem rows_eq_of_erase_eq (h : p.erase = q.erase) : p.rows = q.rows := by
  rw [rows_eq, rows_eq, ← forest_erase p, h, forest_erase]

/-- Legible programs that are printed alike have the same shape. -/
theorem erase_eq_of_print_eq (hp : p.Legible) (hq : q.Legible) (h : p.print = q.print) :
    p.erase = q.erase := by
  obtain ⟨-, x, hx⟩ := exists_printed_print hp
  obtain ⟨-, y, hy⟩ := exists_printed_print hq
  -- Both stand for the one settled derivation of the text.
  have htokens : x.tokens = y.tokens := by rw [hx.tokens, hy.tokens, h]
  rw [← hx.shape, ← hy.shape, ProgramPhrase.unique hx.settled hy.settled htokens]

end Program

/-- Two programs that were read, each under either policy, have the same shape if and only if their
outlines have the same depths and labels, and if and only if they are printed as the same text. -/
theorem outline_and_text_show_the_shape {source source' : String} {policy policy' : ErrorPolicy}
    {p q : Program} (hp : parse source policy = .ok p) (hq : parse source' policy' = .ok q) :
    [p.erase = q.erase,
      p.outline.map (fun row => (row.depth, row.label)) =
        q.outline.map (fun row => (row.depth, row.label)),
      p.print = q.print].TFAE := by
  have hlegible := legible_of_parse (parse_failFast_of_parse hp)
  have hlegible' := legible_of_parse (parse_failFast_of_parse hq)
  tfae_have 1 → 2 := Program.rows_eq_of_erase_eq
  tfae_have 2 → 1 := Program.erase_eq_of_rows_eq hlegible hlegible'
  tfae_have 1 → 3 := Program.print_eq_of_erase_eq
  tfae_have 3 → 1 := Program.erase_eq_of_print_eq hlegible hlegible'
  tfae_finish

-- A program with blanks and parentheses, and the same program without them.
def looseLayout : String :=
  "class M \x7b public static void main() \x7b if (a) b = (c); else d.e(); \x7d \x7d"

def tightLayout : String := "class M\x7bpublic static void main()\x7bif(a)b=c;else d.e();\x7d\x7d"

/-- Two layouts of one program are printed alike, so that they have one shape and one outline. -/
theorem shape_of_two_layouts :
    ∃ p q, parse looseLayout .failFast = .ok p ∧ parse tightLayout .recover = .ok q ∧
      p.print = q.print ∧ p.erase = q.erase ∧
      p.outline.map (fun row => (row.depth, row.label)) =
        q.outline.map (fun row => (row.depth, row.label)) := by
  have hprint : (match parse looseLayout .failFast, parse tightLayout .recover with
      | .ok p, .ok q => p.print == q.print
      | _, _ => false) = true := by decide +kernel
  split at hprint
  next p q hp hq =>
    have hshape := outline_and_text_show_the_shape hp hq
    have htext : p.print = q.print := beq_iff_eq.mp hprint
    exact ⟨p, q, hp, hq, htext, (hshape.out 2 0).mp htext, (hshape.out 2 1).mp htext⟩
  next => cases hprint

end MiniJava
