import MiniJava.Proofs.Acceptance
import MiniJava.Proofs.Phrase.Program
import MiniJava.Proofs.Storage.Statement
import MiniJava.Proofs.Tiling.Source

/-!
# What programs keep

A program keeps every token of its text that is of a kind to be kept, each once and unchanged; its
nodes stand where the words and the braces stand with which they begin; and its classes, fields,
methods, parameters, statements and arguments stand in the order of the text. Fields and methods of
a class are kept in two lists, so that the tokens of a program are kept in another order than the
text has them.
-/

namespace MiniJava

/-! ## Methods -/

theorem BodyPhrase.places (x : BodyPhrase) :
    Places x.tokens (x.statements.trees.map Statement.position) :=
  (x.statements.places.append_right [x.closing.token]).cons x.opening.token

theorem BodyPhrase.faithful (x : BodyPhrase) :
    Faithful 1 x.tokens (Statement.keptAll x.statements.trees) :=
  (x.statements.faithful 2 (Nat.le_refl 2)).braces x.opening x.closing (by decide)

theorem ParamPhrase.faithful {depth : Nat} (x : ParamPhrase) :
    Faithful depth x.tokens x.tree.kept :=
  (x.type.faithful (List.Subset.refl _)).append (Faithful.nil.token x.name (by decide))

theorem ParamPhrase.places (x : ParamPhrase) : Places x.tokens [x.tree.position] :=
  .singleton (List.mem_append_left _ List.mem_cons_self)

-- Parameters with a comma before each.
theorem ParamPhrase.faithful_more (depth : Nat) (xs : List (Terminal [.comma] × ParamPhrase)) :
    Faithful depth (moreTokens xs) (VarDecl.keptAll (xs.map fun x => x.2.tree)) ∧
      Places (moreTokens xs) ((xs.map fun x => x.2.tree).map VarDecl.position) := by
  induction xs with
  | nil => exact ⟨.nil, .nil⟩
  | cons x xs ih =>
    constructor
    · exact (x.2.faithful.append ih.1).silent x.1 (by decide)
    · exact (x.2.places.append ih.2).cons x.1.token

theorem ParamsPhrase.faithful (depth : Nat) (x : ParamsPhrase) :
    Faithful depth x.tokens (VarDecl.keptAll x.trees) ∧
      Places x.tokens (x.trees.map VarDecl.position) := by
  cases x with
  | none => exact ⟨.nil, .nil⟩
  | some first more =>
    obtain ⟨hmore, hplaces⟩ := ParamPhrase.faithful_more depth more
    exact ⟨first.faithful.append hmore, first.places.append hplaces⟩

theorem MethodPhrase.faithful (x : MethodPhrase) : Faithful 1 x.tokens x.tree.kept := by
  obtain ⟨hparams, hplaces⟩ := x.params.faithful 1
  have hbody := (x.body.faithful.list x.body.places).silent x.closing (by decide)
  have hbehind := (hparams.append hbody).list (hplaces.append_right _)
  have hname := (hbehind.silent x.opening (by decide)).token x.name (by decide)
  exact ((x.returnType.faithful (List.Subset.refl _)).append hname).silent x.publicWord (by decide)

theorem MethodPhrase.places (x : MethodPhrase) : Places x.tokens [x.tree.position] :=
  ((Places.singleton List.mem_cons_self).append_left _).cons _

-- The main method has no parameters.
theorem MainMethodPhrase.faithful (x : MainMethodPhrase) : Faithful 1 x.tokens x.tree.kept := by
  have hbody := (x.body.faithful.list x.body.places).silent x.closing (by decide)
  have hname := ((hbody.list .nil).silent x.opening (by decide)).token x.name (by decide)
  have htype := (x.returnType.faithful (List.Subset.refl _)).append hname
  exact (htype.silent x.staticWord (by decide)).silent x.publicWord (by decide)

/-! ## Classes -/

-- Fields and methods are kept apart, each in the order of the text.
theorem MemberPhrase.faithful (xs : List MemberPhrase) :
    Faithful 1 (xs.flatMap (·.tokens)) (VarDecl.keptAll (xs.filterMap (·.field?)) ++
      Method.keptAll (xs.filterMap (·.method?))) ∧
    Places (xs.flatMap (·.tokens)) ((xs.filterMap (·.field?)).map VarDecl.position) ∧
    Places (xs.flatMap (·.tokens)) ((xs.filterMap (·.method?)).map Method.position) := by
  induction xs with
  | nil => exact ⟨.nil, .nil, .nil⟩
  | cons x xs ih =>
    obtain ⟨hrest, hfields, hmethods⟩ := ih
    cases x with
    | field decl =>
      refine ⟨?_, decl.places.append hfields, hmethods.append_left decl.tokens⟩
      have hfield := (decl.faithful (List.Subset.refl _)).append hrest
      rwa [← Kept.append_assoc] at hfield
    | method m =>
      refine ⟨?_, hfields.append_left m.tokens, m.places.append hmethods⟩
      refine (m.faithful.append hrest).congr ?_ ?_ ?_
      · exact List.perm_append_comm_assoc _ _ _
      · exact List.perm_append_comm_assoc _ _ _
      · exact (List.perm_append_comm_assoc _ _ _).symm.subset

theorem ClassPhrase.faithful_parent {depth : Nat}
    (parent? : Option (Terminal [.extendsWord] × Terminal [.identifier])) :
    Faithful depth (parentTokens parent?) ((parent?.map (·.2.token)).elim .none .token) := by
  cases parent? with
  | none => exact .nil
  | some parent => exact (Faithful.nil.token parent.2 (by decide)).silent parent.1 (by decide)

theorem ClassPhrase.faithful (x : ClassPhrase) : Faithful 0 x.tokens x.tree.kept := by
  obtain ⟨hmembers, hfields, hmethods⟩ := MemberPhrase.faithful x.members
  have hbody := ((hmembers.list hmethods).list hfields).braces x.opening x.closing (by decide)
  have hbehind := (faithful_parent x.parent?).append hbody
  exact (hbehind.token x.name (by decide)).silent x.classWord (by decide)

theorem ClassPhrase.places (x : ClassPhrase) : Places x.tokens [x.tree.position] :=
  (Places.singleton List.mem_cons_self).cons _

theorem ClassPhrase.faithful_all (xs : List ClassPhrase) :
    Faithful 0 (xs.flatMap (·.tokens)) (ClassDecl.keptAll (xs.map (·.tree))) ∧
      Places (xs.flatMap (·.tokens)) ((xs.map (·.tree)).map ClassDecl.position) := by
  induction xs with
  | nil => exact ⟨.nil, .nil⟩
  | cons x xs ih => exact ⟨x.faithful.append ih.1, x.places.append ih.2⟩

theorem MainClassPhrase.faithful (x : MainClassPhrase) :
    Faithful 0 x.tokens (.token x.tree.name ++ x.tree.mainMethod.kept) :=
  ((x.method.faithful.braces x.opening x.closing (by decide)).token x.name (by decide)).silent
    x.classWord (by decide)

/-! ## Programs -/

theorem ProgramPhrase.faithful (x : ProgramPhrase) : Faithful 0 x.tokens x.tree.kept := by
  obtain ⟨hclasses, hplaces⟩ := ClassPhrase.faithful_all x.classes
  have hmain : Places x.mainClass.tokens [x.mainClass.name.token.position] :=
    (Places.singleton List.mem_cons_self).cons _
  have hprogram := (x.mainClass.faithful.append hclasses).list (hmain.append hplaces)
  rwa [Kept.append_assoc] at hprogram

-- What is read under one policy is read up to the first error too.
theorem parse_failFast_of_parse {source : String} {policy : ErrorPolicy} {p : Program}
    (h : parse source policy = .ok p) : parse source .failFast = .ok p := by
  cases policy with
  | failFast => exact h
  | recover =>
    rcases parse_agrees source with ⟨q, hearly, hfull⟩ | ⟨lexical, es, -, -, hfull⟩
    · rw [hfull] at h
      rwa [← h]
    · rw [hfull] at h
      cases h

/-- The program that is read from a source keeps the tokens of the source that are names, literals,
`this`, `int`, `boolean`, `void`, `!` or binary operators, each once and as it is; no two of them
stand at the same position. Its blocks, prints, assertions, returns, conditionals, loops and
creations stand at the braces and words with which they begin, one at each. Its lists of classes,
fields, methods, parameters, statements and arguments are in the order of their positions. -/
theorem parse_keeps_tokens (source : String) (policy : ErrorPolicy) (p : Program)
    (h : parse source policy = .ok p) :
    let tokens := (tokenize source).tokens
    (tokens.map (·.position)).Nodup ∧
    (tokens.filter (·.kind ∈ TokenKind.kept)).Perm p.kept.tokens ∧
    (nodeMarks 0 tokens).Perm p.kept.nodes ∧
    ∀ ps ∈ p.kept.lists, ps.Pairwise Position.Before := by
  intro tokens
  have hordered : tokens.Pairwise (·.position.Before ·.position) := pairwise_tokens_tokenize source
  obtain ⟨-, d, hd, -, -, rfl⟩ := (parse_eq_ok_iff source p).mp (parse_failFast_of_parse h)
  -- Behind the tokens of the derivation there is only the end of file.
  let ending : Terminal [.eof] := ⟨(TokenStream.ofTokens tokens).ending,
    List.mem_singleton.mpr (TokenStream.kind_ending_ofTokens tokens)⟩
  have htokens : d.tokens ++ [ending.token] = tokens := by
    rw [hd]
    exact ahead_append_ending_tokenize source
  have hfaithful := d.faithful.silent_end ending (by decide)
  rw [htokens] at hfaithful
  refine ⟨?_, hfaithful.tokens_perm, ?_, hfaithful.lists_ordered hordered⟩
  · exact List.pairwise_map.mpr (hordered.imp Position.Before.ne)
  · have hnodes := hfaithful.nodes_perm []
    rwa [nodeMarks, List.append_nil, List.append_nil] at hnodes

/-- A block with an assignment in it, read while recovering from errors. -/
theorem parse_keeps_tokens_of_block :
    ∃ p, parse "class M { public static void main() { { x = new A(); } } }" .recover = .ok p ∧
      (p.kept.tokens.map (·.text)).Perm ["M", "void", "main", "x", "A"] ∧
      p.kept.nodes.Perm [(.lbrace, ⟨1, 39⟩), (.newWord, ⟨1, 45⟩)] := by
  have hread : (parse "class M { public static void main() { { x = new A(); } } }"
      .recover).toBool = true := by decide +kernel
  cases hparse : parse "class M { public static void main() { { x = new A(); } } }" .recover with
  | error d =>
    rw [hparse] at hread
    cases hread
  | ok p =>
    obtain ⟨-, htokens, hnodes, -⟩ := parse_keeps_tokens _ _ p hparse
    refine ⟨p, rfl, (htokens.map (·.text)).symm.trans ?_, hnodes.symm.trans ?_⟩
    · exact .of_eq (by decide +kernel)
    · exact .of_eq (by decide +kernel)

end MiniJava
