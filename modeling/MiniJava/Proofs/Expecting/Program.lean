import MiniJava.Proofs.Expecting.Statement

/-!
# What declarations and programs expect

The lists of members and of classes are loops like those of statements. A program may be followed by
the end of file alone, which is expected but never passed, so that a parse that failed is run again
as a whole (`Parse.replays_of_error`).
-/

namespace MiniJava

namespace Parse

open Method ClassDecl

/-! ## Methods -/

theorem truthful_paramBehind (base : Token) : Truthful (parseParamBehind base) :=
  .bind (truthful_suffix base) fun _ => .expect_bind (by decide) fun _ => truthful_pure _

theorem truthful_moreParams : Truthful (bound >>= fun n => parseMoreParams n) := by
  have hforward : (bound >>= fun n => parseMoreParams n).Forward :=
    lifts_forward.bind lifts_forward.bound lifts_forward.parseMoreParams
  have hround (params : List VarDecl) : Truthful (paramsRound params) := by
    refine .accept_or (by decide) (fun _ => ?_) (truthful_pure _)
    refine .expect_bind (by decide) fun base => ?_
    exact .bind (truthful_paramBehind base) fun _ => truthful_pure _
  exact truthful_of_repeats hforward hround fun _ _ hending =>
    repeats_params hending (Nat.lt_succ_self _)

theorem truthful_params : Truthful parseParams := by
  refine .expect_bind (by decide) fun opening => .ite (truthful_pure _) ?_
  refine .bind (truthful_paramBehind opening) fun _ => ?_
  rw [← bind_assoc]
  exact .bind truthful_moreParams fun _ => .expect_bind (by decide) fun _ => truthful_pure _

theorem truthful_body : Truthful parseBody := by
  obtain ⟨hstatement, hopens⟩ := truthful_statement maxNesting
  exact .expect_bind (by decide) fun _ => truthful_list hstatement hopens (passes_statement _)

theorem truthful_type : Truthful (TypeRef.parse (NodeKind.firstSet .type)) :=
  truthful_of_begins (begins_truthful_type _) (by decide)

theorem begins_truthful_method : Begins @Truthful [.publicWord] Method.parse := by
  refine ⟨_, rfl, fun _ => .bind truthful_type fun _ => .expect_bind (by decide) fun _ => ?_⟩
  refine .expect_bind (by decide) fun _ => .bind truthful_params fun _ => ?_
  exact .bind truthful_body fun _ => truthful_pure _

theorem truthful_mainMethod : Truthful parseMain := by
  refine .expect_bind (by decide) fun _ => .expect_bind (by decide) fun _ => ?_
  refine .bind truthful_type fun _ => .expect_bind (by decide) fun _ => ?_
  refine .expect_bind (by decide) fun _ => .expect_bind (by decide) fun _ => ?_
  exact .bind truthful_body fun _ => truthful_pure _

/-! ## Classes -/

theorem truthful_mainClass : Truthful MainClass.parse := by
  refine .expect_bind (by decide) fun _ => .expect_bind (by decide) fun _ => ?_
  refine .expect_bind (by decide) fun _ => .bind truthful_mainMethod fun _ => ?_
  exact .expect_bind (by decide) fun _ => truthful_pure _

theorem truthful_parent : Truthful parseParent :=
  .accept_or (by decide) (fun _ => .expect_bind (by decide) fun _ => truthful_pure _)
    (truthful_pure _)

/-- A round reads a method behind the word for it and a field behind a type, and before a closing
brace nothing more. -/
theorem truthfulBefore_membersRound (members : List VarDecl × List Method) :
    TruthfulBefore (Round.Follow fun _ kind => kind ∈ [TokenKind.rbrace])
      (membersRound members) := by
  have hmethod := truthful_of_begins begins_truthful_method (by decide)
  have hfield := truthful_of_begins (begins_truthful_varDecl (NodeKind.firstSet .field)) (by decide)
  have hforward : (membersRound members).Forward := by
    refine lifts_forward.bind lifts_forward.peek fun t => Lifts.ite (lifts_forward.pure _) ?_
    exact Lifts.ite (lifts_forward.bind hmethod.forward fun _ => lifts_forward.pure _)
      (lifts_forward.bind hfield.forward fun _ => lifts_forward.pure _)
  refine truthful_of_branches (.publicWord :: NodeKind.firstSet .field) (fun kind =>
    if kind = .rbrace ∨ kind = .eof then pure (.stop members)
    else if kind = .publicWord then do
      let method ← Method.parse
      pure (.goOn (members.1, members.2 ++ [method]))
    else do
      let field ← VarDecl.parse (NodeKind.firstSet .field)
      pure (.goOn (members.1 ++ [field], members.2))) hforward (fun _ _ => rfl) fun kind => ?_
  by_cases hstop : kind = .rbrace ∨ kind = .eof
  · refine .inr ⟨?_, .stop members, if_pos hstop, fun kind' hkind => .inr (if_pos ?_)⟩
    · rcases hstop with rfl | rfl <;> decide
    · exact .inl (List.mem_singleton.mp hkind)
  · simp only [if_neg hstop]
    by_cases hpublic : kind = .publicWord
    · simp only [if_pos hpublic]
      exact .inl ⟨_, List.cons_subset_cons _ (List.nil_subset _),
        .bind hmethod fun _ => truthful_pure _,
        (opens_of_begins begins_truthful_method (by decide)).bind fun _ => lifts_forward.pure _,
        fun _ => List.mem_singleton.mpr hpublic⟩
    · simp only [if_neg hpublic]
      exact .inl ⟨_, List.subset_cons_self _ _, .bind hfield fun _ => truthful_pure _,
        (opens_of_begins (begins_truthful_varDecl _) (by decide)).bind fun _ =>
          lifts_forward.pure _,
        fun h => (List.mem_cons.mp h).resolve_left hpublic⟩

theorem begins_truthful_class : Begins @Truthful [.classWord] ClassDecl.parse := by
  refine ⟨_, rfl, fun _ => .expect_bind (by decide) fun _ => .bind truthful_parent fun _ => ?_⟩
  refine .expect_bind (by decide) fun _ => ?_
  have hforward : (bound >>= fun n => parseMembers n).Forward :=
    lifts_forward.bind lifts_forward.bound (lifts_forward.parseMembers fun _ => forward_list)
  have hmembers : TruthfulBefore (fun _ kind => kind ∈ [TokenKind.rbrace])
      (bound >>= fun n => parseMembers n) :=
    truthfulBefore_of_repeats hforward truthfulBefore_membersRound fun _ _ hending =>
      repeats_members hending (Nat.lt_succ_self _)
  rw [← bind_assoc]
  exact hmembers.bind_expect (by decide) fun _ _ => truthful_pure _

/-- Classes go on where the word for one comes. -/
theorem truthful_classRound (classes : List ClassDecl) :
    Truthful (ClassDecl.manyRound classes) := by
  have hclass := truthful_of_begins begins_truthful_class (by decide)
  have hopens := opens_of_begins begins_truthful_class (by decide)
  have hfirst := TruthfulBefore.recovering hclass .classDecl
  have hforward : (ClassDecl.manyRound classes).Forward := by
    refine lifts_forward.bind lifts_forward.peek fun t => Lifts.ite ?_ (lifts_forward.pure _)
    exact lifts_forward.bind hfirst.forward fun _ => lifts_forward.pure _
  refine truthful_of_branches [.classWord] (fun kind =>
    if kind = .classWord then do
      let first? ← recovering .classDecl ClassDecl.parse
      pure (.goOn (classes ++ first?.toList))
    else pure (.stop classes)) hforward (fun _ _ => rfl) fun kind => ?_
  by_cases hkind : kind = .classWord
  · simp only [if_pos hkind]
    exact .inl ⟨_, List.Subset.refl _, .bind hfirst fun _ => truthful_pure _,
      (hopens.recovering _).bind fun _ => lifts_forward.pure _, id⟩
  · refine .inr ⟨fun h => hkind (List.mem_singleton.mp h), .stop classes, if_neg hkind,
      fun kind' _ => ?_⟩
    by_cases hkind' : kind' = .classWord
    · exact .inl (List.mem_singleton.mpr hkind')
    · exact .inr (if_neg hkind')

theorem truthful_classes : Truthful (bound >>= fun n => ClassDecl.parseMany n) := by
  have hforward : (bound >>= fun n => ClassDecl.parseMany n).Forward :=
    lifts_forward.bind lifts_forward.bound
      (lifts_forward.classDecl_parseMany fun boundary _ hstep => hstep.recovering boundary)
  exact truthful_of_repeats hforward truthful_classRound fun _ _ hending =>
    ClassDecl.repeats_many hending (Nat.lt_succ_self _)

/-! ## Programs -/

/-- The classes of a program, before the end of file is expected. -/
def parseClasses : Parse (Option MainClass × List ClassDecl) := do
  let mainClass? ← recovering .classDecl MainClass.parse
  let classes ← (do ClassDecl.parseMany (← bound))
  pure (mainClass?, classes)

theorem truthful_parseClasses : Truthful parseClasses :=
  .bind (.recovering truthful_mainClass _) fun _ =>
    .bind truthful_classes fun _ => truthful_pure _

/-- What is done behind the classes. -/
def parseEnd (classes : Option MainClass × List ClassDecl) : Parse (Option Program) := do
  let _ ← expect (NodeKind.followSet .classDecl)
  pure (classes.1.map fun mainClass => ⟨mainClass, classes.2⟩)

theorem parse_eq_parseClasses_bind : Program.parse = parseClasses >>= parseEnd := by
  simp only [Program.parse, parseClasses, parseEnd, bind_assoc, pure_bind]

theorem parseEnd_of_mem {c : ParseContext} {s : ParseState}
    (classes : Option MainClass × List ClassDecl)
    (h : c.nextKind s ∈ NodeKind.followSet .classDecl) :
    ∃ p s', parseEnd classes c s = (.ok p, s') :=
  ⟨_, _, bind_of_ok (expect_of_mem h)⟩

theorem parseEnd_eq_error {c : ParseContext} {s s' : ParseState} {e : SyntaxError}
    {classes : Option MainClass × List ClassDecl} (h : parseEnd classes c s = (.error e, s')) :
    c.nextKind s ∉ NodeKind.followSet .classDecl ∧ s' = s ∧
      e = ⟨.unexpected (NodeKind.followSet .classDecl), s.ahead.headD c.ending⟩ := by
  by_cases hmem : c.nextKind s ∈ NodeKind.followSet .classDecl
  · obtain ⟨p, u, hok⟩ := parseEnd_of_mem classes hmem
    cases h.symm.trans hok
  · cases (bind_of_error (expect_of_notMem hmem)).symm.trans h
    exact ⟨hmem, rfl, rfl⟩

theorem forward_parseEnd (classes : Option MainClass × List ClassDecl) :
    (parseEnd classes).Forward :=
  lifts_forward.expect_bind fun _ => lifts_forward.pure _

/-- A parse that failed is run again, with a token of an expected kind behind what it passed: it
succeeds or reads on. -/
theorem replays_of_error {c : ParseContext} {s s' : ParseState} {e : SyntaxError} (hc : c.Strict)
    (hrun : Program.parse c s = (.error e, s')) :
    (e.found = s'.ahead.headD c.ending ∧ e.found.kind ∉ e.expected) ∧
      ∃ front, s = s'.before front ∧ ∀ (c' : ParseContext) (v : ParseState), c'.Strict →
        c'.nextKind v ∈ e.expected →
        (∃ p u, Program.parse c' (v.before front) = (.ok p, u)) ∨
          Beyond v (Program.parse c' (v.before front)) := by
  obtain ⟨hfound, front, hs, hruns⟩ := truthful_parseClasses.replays c s hc
  rw [parse_eq_parseClasses_bind] at hrun ⊢
  rcases bind_eq_error hrun with hclasses | ⟨classes, u, hclasses, hend⟩
  · rw [hclasses] at hfound hs hruns
    refine ⟨hfound e rfl, front, hs, fun c' v hc' hnext => .inr ?_⟩
    rcases (hruns c' v _ hc' rfl).2 hnext with ⟨_, hok, -⟩ | hbeyond
    · cases hok
    · exact hbeyond.bind forward_parseEnd
  · -- The classes were read; what comes behind them is no class and not the end of file.
    obtain ⟨hnext, rfl, rfl⟩ := parseEnd_eq_error hend
    rw [hclasses] at hs hruns
    refine ⟨⟨rfl, hnext⟩, front, hs, fun c' v hc' hnext' => ?_⟩
    rcases (hruns c' v _ hc' rfl).2 trivial with ⟨_, -, hagain⟩ | hbeyond
    · obtain ⟨p, w, hok⟩ := parseEnd_of_mem _ hnext'
      exact .inl ⟨p, w, (bind_of_ok hagain).trans hok⟩
    · exact .inr (hbeyond.bind forward_parseEnd)

end Parse

end MiniJava
