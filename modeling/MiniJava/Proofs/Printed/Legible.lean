import MiniJava.Proofs.Phrase.Program
import MiniJava.Proofs.Printing.Lexemes

/-!
# Trees that were read are legible

The tree of a phrase holds tokens of the kinds that their places want. If the tokens of the phrase
are spelled as their kinds want it and every `else` belongs to the nearest open `if`, the tree can
be printed and derived again (`ProgramPhrase.legible`).
-/

namespace MiniJava

/-- The tokens are spelled as their kinds want it. -/
def AllSpelled (ts : List Token) : Prop := ∀ t ∈ ts, t.lexeme.Spelled

namespace AllSpelled

variable {t : Token} {ts us : List Token}

theorem cons_iff : AllSpelled (t :: ts) ↔ t.lexeme.Spelled ∧ AllSpelled ts := List.forall_mem_cons

theorem append_iff : AllSpelled (ts ++ us) ↔ AllSpelled ts ∧ AllSpelled us :=
  List.forall_mem_append

end AllSpelled

open AllSpelled

theorem Terminal.isA {kinds : List TokenKind} (t : Terminal kinds) (h : t.token.lexeme.Spelled) :
    t.token.IsA kinds :=
  ⟨t.kind_mem, h⟩

/-! ## Expressions -/

mutual

theorem ExprPhrase.legible : ∀ x : ExprPhrase, AllSpelled x.tokens → x.tree.Legible
  | .operand head tails, h => by
    obtain ⟨hhead, htails⟩ := append_iff.mp h
    exact tails.legible_extend htails (head.legible hhead)
  | .binary left op right, h => by
    simp only [ExprPhrase.tokens, append_iff, cons_iff] at h
    obtain ⟨hleft, hop, hright⟩ := h
    exact ⟨left.legible hleft, op.isA hop, right.legible hright⟩

theorem HeadPhrase.legible : ∀ x : HeadPhrase, AllSpelled x.tokens → x.tree.Legible
  | .not bang negand, h => by
    obtain ⟨hbang, hnegand⟩ := cons_iff.mp h
    exact ⟨bang.isA hbang, negand.legible hnegand⟩
  | .parens opening inner closing, h => by
    simp only [HeadPhrase.tokens, append_iff, cons_iff] at h
    exact inner.legible h.2.1
  | .this word, h => word.isA (cons_iff.mp h).1
  | .boolLiteral literal, h => literal.isA (cons_iff.mp h).1
  | .intLiteral literal, h => literal.isA (cons_iff.mp h).1
  | .name name, h => name.isA (cons_iff.mp h).1
  | .newObject word className opening closing, h => by
    simp only [HeadPhrase.tokens, cons_iff] at h
    exact className.isA h.2.1
  | .newArray word base opening length closing, h => by
    simp only [HeadPhrase.tokens, append_iff, cons_iff] at h
    obtain ⟨-, hbase, -, hlength, -⟩ := h
    exact ⟨base.isA hbase, rfl, length.legible hlength⟩

-- Tails behind a legible tree make a legible tree.
theorem TailsPhrase.legible_extend : ∀ (x : TailsPhrase) {e : Expr}, AllSpelled x.tokens →
    e.Legible → (x.extend e).Legible
  | .nil, e, _, he => he
  | .index opening i closing rest, e, h, he => by
    simp only [TailsPhrase.tokens, append_iff, cons_iff] at h
    obtain ⟨-, hi, -, hrest⟩ := h
    exact rest.legible_extend hrest ⟨he, i.legible hi⟩
  | .length dot word rest, e, h, he => by
    simp only [TailsPhrase.tokens, cons_iff] at h
    exact rest.legible_extend h.2.2 he
  | .call dot method args rest, e, h, he => by
    simp only [TailsPhrase.tokens, append_iff, cons_iff] at h
    obtain ⟨-, hmethod, hargs, hrest⟩ := h
    exact rest.legible_extend hrest ⟨he, method.isA hmethod, args.eachLegible hargs⟩

theorem ArgsPhrase.eachLegible : ∀ x : ArgsPhrase, AllSpelled x.tokens → Expr.EachLegible x.trees
  | .none _ _, _ => trivial
  | .some opening first more closing, h => by
    simp only [ArgsPhrase.tokens, append_iff, cons_iff] at h
    obtain ⟨-, hfirst, hmore, -⟩ := h
    exact ⟨first.legible hfirst, more.eachLegible hmore⟩

theorem MoreArgsPhrase.eachLegible :
    ∀ x : MoreArgsPhrase, AllSpelled x.tokens → Expr.EachLegible x.trees
  | .nil, _ => trivial
  | .cons comma arg rest, h => by
    simp only [MoreArgsPhrase.tokens, append_iff, cons_iff] at h
    obtain ⟨-, harg, hrest⟩ := h
    exact ⟨arg.legible harg, rest.eachLegible hrest⟩

end

/-! ## Declarations and statements -/

theorem VarDecl.legible_pair {bases : List TokenKind} (type : TypePhrase bases)
    (name : Terminal [.identifier]) (htype : AllSpelled type.tokens)
    (hname : name.token.lexeme.Spelled) : VarDecl.Legible bases ⟨type.tree, name.token⟩ :=
  ⟨type.base.isA (cons_iff.mp htype).1, name.isA hname⟩

theorem DeclPhrase.legible {bases : List TokenKind} (x : DeclPhrase bases)
    (h : AllSpelled x.tokens) : x.tree.Legible bases := by
  simp only [tokens, append_iff, cons_iff] at h
  exact VarDecl.legible_pair x.type x.name h.1 h.2.1

-- The tree of a statement ends open if its phrase does.
theorem StatementPhrase.endsOpen_tree : ∀ x : StatementPhrase, x.tree.endsOpen = x.endsOpen
  | .ifThen .. => rfl
  | .ifElse _ _ _ _ elseBranch => elseBranch.endsOpen_tree
  | .loop _ _ body => body.endsOpen_tree
  | .block .. | .varDecl .. | .assignment .. | .print .. | .assert .. | .returnValue ..
  | .call .. => rfl

mutual

theorem StatementPhrase.legible : ∀ x : StatementPhrase, AllSpelled x.tokens →
    x.Every StatementPhrase.ElseNearest → x.tree.Legible
  | .block opening statements closing, h, helse => by
    simp only [StatementPhrase.tokens, append_iff, cons_iff] at h
    exact statements.eachLegible h.2.1 helse.2
  | .varDecl decl bare, h, _ => by
    refine ⟨decl.legible h, fun hnamed => ?_⟩
    have hkind : decl.type.base.token.kind = .identifier := beq_iff_eq.mp hnamed
    show decl.type.suffix?.isSome = false
    rw [bare hkind]
    rfl
  | .assignment target sign value ending, h, _ => by
    simp only [StatementPhrase.tokens, append_iff, cons_iff] at h
    obtain ⟨htarget, -, hvalue, -⟩ := h
    exact ⟨target.legible htarget, value.legible hvalue⟩
  | .print word dot out dot' println value ending, h, _ => by
    simp only [StatementPhrase.tokens, ParensPhrase.tokens, append_iff, cons_iff] at h
    obtain ⟨-, -, -, -, -, ⟨-, hvalue, -⟩, -⟩ := h
    exact value.inner.legible hvalue
  | .assert word condition ending, h, _ => by
    simp only [StatementPhrase.tokens, ParensPhrase.tokens, append_iff, cons_iff] at h
    obtain ⟨-, ⟨-, hcondition, -⟩, -⟩ := h
    exact condition.inner.legible hcondition
  | .returnValue word value ending, h, _ => by
    simp only [StatementPhrase.tokens, append_iff, cons_iff] at h
    exact value.legible h.2.1
  | .call call ending, h, _ => by
    have hcall := call.expr.legible (append_iff.mp h).1
    rwa [call.tree_expr] at hcall
  | .ifThen word condition thenBranch, h, helse => by
    simp only [StatementPhrase.tokens, ParensPhrase.tokens, append_iff, cons_iff] at h
    obtain ⟨-, ⟨-, hcondition, -⟩, hthen⟩ := h
    exact ⟨condition.inner.legible hcondition, thenBranch.legible hthen helse.2⟩
  | .ifElse word condition thenBranch elseWord elseBranch, h, helse => by
    simp only [StatementPhrase.tokens, ParensPhrase.tokens, append_iff, cons_iff] at h
    obtain ⟨-, ⟨-, hcondition, -⟩, hthen, -, helseTokens⟩ := h
    obtain ⟨hnearest, hthenElse, helseElse⟩ := helse
    exact ⟨condition.inner.legible hcondition, thenBranch.legible hthen hthenElse,
      thenBranch.endsOpen_tree.trans hnearest, elseBranch.legible helseTokens helseElse⟩
  | .loop word condition body, h, helse => by
    simp only [StatementPhrase.tokens, ParensPhrase.tokens, append_iff, cons_iff] at h
    obtain ⟨-, ⟨-, hcondition, -⟩, hbody⟩ := h
    exact ⟨condition.inner.legible hcondition, body.legible hbody helse.2⟩

theorem StatementsPhrase.eachLegible : ∀ x : StatementsPhrase, AllSpelled x.tokens →
    x.Every StatementPhrase.ElseNearest → Statement.EachLegible x.trees
  | .nil, _, _ => trivial
  | .cons first rest, h, helse => by
    obtain ⟨hfirst, hrest⟩ := append_iff.mp h
    exact ⟨first.legible hfirst helse.1, rest.eachLegible hrest helse.2⟩

end

/-! ## Methods, classes and programs -/

theorem ParamsPhrase.legible (x : ParamsPhrase) (h : AllSpelled x.tokens) :
    ∀ d ∈ x.trees, d.Legible NodeKind.typeStart := by
  have hparam (x : ParamPhrase) (h : AllSpelled x.tokens) : x.tree.Legible NodeKind.typeStart := by
    simp only [ParamPhrase.tokens, append_iff, cons_iff] at h
    exact VarDecl.legible_pair x.type x.name h.1 h.2.1
  cases x with
  | none => exact List.forall_mem_nil _
  | some first more =>
    obtain ⟨hfirst, hmore⟩ := append_iff.mp h
    refine List.forall_mem_cons.mpr ⟨hparam first hfirst, ?_⟩
    rintro d hd
    obtain ⟨y, hy, rfl⟩ := List.mem_map.mp hd
    refine hparam y.2 fun t ht => hmore t ?_
    exact List.mem_flatMap.mpr ⟨y, hy, List.mem_cons_of_mem _ ht⟩

theorem BodyPhrase.legible (x : BodyPhrase) (h : AllSpelled x.tokens)
    (helse : x.statements.Every StatementPhrase.ElseNearest) :
    Statement.EachLegible x.statements.trees := by
  simp only [tokens, append_iff, cons_iff] at h
  exact x.statements.eachLegible h.2.1 helse

theorem MethodPhrase.legible (x : MethodPhrase) (h : AllSpelled x.tokens)
    (helse : x.body.statements.Every StatementPhrase.ElseNearest) : x.tree.Legible := by
  simp only [tokens, TypePhrase.tokens, append_iff, cons_iff] at h
  obtain ⟨-, ⟨hbase, -⟩, hname, -, hparams, -, hbody⟩ := h
  exact ⟨x.returnType.base.isA hbase, x.name.isA hname, x.params.legible hparams,
    x.body.legible hbody helse⟩

theorem ClassPhrase.legible (x : ClassPhrase) (h : AllSpelled x.tokens)
    (helse : ∀ b ∈ x.members.flatMap (·.bodies), b.statements.Every StatementPhrase.ElseNearest) :
    x.tree.Legible := by
  simp only [tokens, append_iff, cons_iff] at h
  obtain ⟨-, hname, hparent, -, hmembers, -⟩ := h
  have hmember (y : MemberPhrase) (hy : y ∈ x.members) : AllSpelled y.tokens :=
    fun t ht => hmembers t (List.mem_flatMap.mpr ⟨y, hy, ht⟩)
  refine ⟨x.name.isA hname, ?_, ?_, ?_⟩
  · intro parent hclause
    -- The clause of a class with a parent is a word and a name.
    obtain ⟨⟨word, name⟩, hsome, rfl⟩ := Option.map_eq_some_iff.mp hclause
    rw [hsome, parentTokens] at hparent
    exact name.isA (cons_iff.mp (cons_iff.mp hparent).2).1
  · intro d hd
    obtain ⟨y, hy, hfield⟩ := List.mem_filterMap.mp hd
    cases y with
    | field decl =>
      obtain rfl := Option.some.inj hfield
      exact decl.legible (hmember _ hy)
    | method m => cases hfield
  · intro m hm
    obtain ⟨y, hy, hmethod⟩ := List.mem_filterMap.mp hm
    cases y with
    | field decl => cases hmethod
    | method m =>
      obtain rfl := Option.some.inj hmethod
      refine m.legible (hmember _ hy) (helse _ (List.mem_flatMap.mpr ⟨_, hy, ?_⟩))
      exact List.mem_singleton_self _

/-- The tree of a program is legible. -/
theorem ProgramPhrase.legible (x : ProgramPhrase) (h : AllSpelled x.tokens)
    (helse : x.Every StatementPhrase.ElseNearest) : x.tree.Legible := by
  obtain ⟨hmain, hclasses⟩ := append_iff.mp h
  obtain ⟨helseMain, helseClasses⟩ := List.forall_mem_cons.mp helse
  constructor
  · simp only [MainClassPhrase.tokens, MainMethodPhrase.tokens, TypePhrase.tokens, append_iff,
      cons_iff] at hmain
    obtain ⟨-, hname, -, ⟨-, -, ⟨hbase, -⟩, hmethodName, -, -, hbody⟩, -⟩ := hmain
    refine ⟨x.mainClass.name.isA hname, rfl, x.mainClass.method.returnType.base.isA hbase,
      x.mainClass.method.name.isA hmethodName, List.forall_mem_nil _, ?_⟩
    exact x.mainClass.method.body.legible hbody helseMain
  · intro c hc
    obtain ⟨y, hy, rfl⟩ := List.mem_map.mp hc
    refine y.legible (fun t ht => hclasses t (List.mem_flatMap.mpr ⟨y, hy, ht⟩)) fun b hb => ?_
    exact helseClasses b (List.mem_flatMap.mpr ⟨y, hy, hb⟩)

end MiniJava
