import MiniJava.Proofs.Following.Statement
import MiniJava.Proofs.Storage.Program

/-!
# What follows the nodes of a program

The sites of a program are those of its one derivation, and their nodes are the nodes of the tree,
up to the order in which a class has its fields and methods. Right behind a node comes what the
table has, unless it is what the table leaves out (`parse_follow_iff`). So the table is not
complete: in a short program three nodes have something behind them that is not in their rows
(`overlookedPhrase`).
-/

namespace MiniJava

/-! ## Phrases one behind the other -/

namespace Site

section

variable {α : Type} {tokens : α → List Token} {sites : α → List Token → List Site}
variable {kinds : List TokenKind} {behind : List Token}

/-- The nodes of phrases one behind the other. -/
def each (tokens : α → List Token) (sites : α → List Token → List Site) :
    List α → List Token → List Site
  | [], _ => []
  | x :: xs, behind => sites x (xs.flatMap tokens ++ behind) ++ each tokens sites xs behind

theorem leads_flatMap (hfirst : ∀ x ts, Leads kinds (tokens x ++ ts)) (hbehind : Leads kinds behind)
    (xs : List α) : Leads kinds (xs.flatMap tokens ++ behind) := by
  cases xs with
  | nil => exact hbehind
  | cons x xs =>
    rw [List.flatMap_cons, List.append_assoc]
    exact hfirst x _

-- Behind each of the phrases comes the next one, or what is behind the last.
theorem fits_each (hfirst : ∀ x ts, Leads kinds (tokens x ++ ts)) (hbehind : Leads kinds behind)
    (xs : List α)
    (hfits : ∀ x ∈ xs, ∀ ts, Leads kinds ts → ∀ s ∈ sites x ts, s.Fits (tokens x ++ ts)) :
    ∀ s ∈ each tokens sites xs behind, s.Fits (xs.flatMap tokens ++ behind) := by
  induction xs with
  | nil => exact List.forall_mem_nil _
  | cons x xs ih =>
    obtain ⟨hx, hxs⟩ := List.forall_mem_cons.mp hfits
    rw [List.flatMap_cons, List.append_assoc]
    refine List.forall_mem_append.mpr ⟨hx _ (leads_flatMap hfirst hbehind xs), ?_⟩
    exact forall_fits_mono (ih hxs) (List.suffix_append _ _)

end

end Site

/-! ## Sites -/

/-- The nodes of the statements of a method. -/
def BodyPhrase.sites (x : BodyPhrase) (behind : List Token) : List Site :=
  x.statements.sites (x.closing.token :: behind)

/-- The nodes of a parameter. -/
def ParamPhrase.sites (x : ParamPhrase) (behind : List Token) : List Site :=
  [⟨.type x.type, x.name.token :: behind⟩, ⟨.name x.name, behind⟩, ⟨.param x, behind⟩]

/-- The nodes of parameters with a comma before each. -/
def ParamPhrase.moreSites (xs : List (Terminal [.comma] × ParamPhrase)) (behind : List Token) :
    List Site :=
  Site.each (fun x => x.1.token :: x.2.tokens) (fun x => x.2.sites) xs behind

/-- The nodes of the parameters of a method. -/
def ParamsPhrase.sites : ParamsPhrase → List Token → List Site
  | none, _ => []
  | some first more, behind =>
    first.sites (ParamPhrase.moreTokens more ++ behind) ++ ParamPhrase.moreSites more behind

/-- The nodes of a method. -/
def MethodPhrase.sites (x : MethodPhrase) (behind : List Token) : List Site :=
  let body := x.closing.token :: (x.body.tokens ++ behind)
  let params := x.opening.token :: (x.params.tokens ++ body)
  ⟨.type x.returnType, x.name.token :: params⟩ :: ⟨.name x.name, params⟩ ::
    (x.params.sites body ++ (x.body.sites behind ++ [⟨.method x, behind⟩]))

/-- The nodes of the main method. -/
def MainMethodPhrase.sites (x : MainMethodPhrase) (behind : List Token) : List Site :=
  let params := x.opening.token :: x.closing.token :: (x.body.tokens ++ behind)
  ⟨.type x.returnType, x.name.token :: params⟩ :: ⟨.name x.name, params⟩ ::
    (x.body.sites behind ++ [⟨.mainMethod x, behind⟩])

/-- The nodes of a member of a class. -/
def MemberPhrase.sites : MemberPhrase → List Token → List Site
  | field decl, behind => decl.sites behind ++ [⟨.field decl, behind⟩]
  | method m, behind => m.sites behind

/-- The class that is extended. -/
def ClassPhrase.parentSites :
    Option (Terminal [.extendsWord] × Terminal [.identifier]) → List Token → List Site
  | some (_, parent), behind => [⟨.name parent, behind⟩]
  | none, _ => []

/-- The nodes of a class. -/
def ClassPhrase.sites (x : ClassPhrase) (behind : List Token) : List Site :=
  let body := x.opening.token ::
    (x.members.flatMap (·.tokens) ++ x.closing.token :: behind)
  ⟨.name x.name, parentTokens x.parent? ++ body⟩ :: (parentSites x.parent? body ++
    (Site.each (·.tokens) (·.sites) x.members (x.closing.token :: behind) ++
      [⟨.classDecl x, behind⟩]))

/-- The nodes of the main class. -/
def MainClassPhrase.sites (x : MainClassPhrase) (behind : List Token) : List Site :=
  ⟨.name x.name, x.opening.token :: (x.method.tokens ++ x.closing.token :: behind)⟩ ::
    (x.method.sites (x.closing.token :: behind) ++ [⟨.mainClass x, behind⟩])

/-- The nodes of a program. -/
def ProgramPhrase.sites (x : ProgramPhrase) (behind : List Token) : List Site :=
  x.mainClass.sites (x.classes.flatMap (·.tokens) ++ behind) ++
    (Site.each (·.tokens) (·.sites) x.classes behind ++ [⟨.program x, behind⟩])

/-! ## Nodes -/

theorem ParamPhrase.nodes_moreSites (xs : List (Terminal [.comma] × ParamPhrase))
    (behind : List Token) : (moreSites xs behind).map (·.node) =
      (xs.map fun x => x.2.tree).flatMap VarDecl.nodesOfParam := by
  induction xs with
  | nil => rfl
  | cons x xs ih =>
    rw [moreSites, Site.each, List.map_append, List.map_cons, List.flatMap_cons, ← ih]
    rfl

theorem ParamsPhrase.nodes_sites (x : ParamsPhrase) (behind : List Token) :
    (x.sites behind).map (·.node) = x.trees.flatMap VarDecl.nodesOfParam := by
  cases x with
  | none => rfl
  | some first more =>
    rw [sites, List.map_append, ParamPhrase.nodes_moreSites, trees, List.flatMap_cons]
    rfl

theorem MethodPhrase.nodes_sites (x : MethodPhrase) (behind : List Token) :
    (x.sites behind).map (·.node) = x.tree.nodes := by
  rw [sites, List.map_cons, List.map_cons, List.map_append, List.map_append, x.params.nodes_sites,
    BodyPhrase.sites, x.body.statements.nodes_sites]
  rfl

theorem MainMethodPhrase.nodes_sites (x : MainMethodPhrase) (behind : List Token) :
    (x.sites behind).map (·.node) = x.tree.nodes := by
  rw [sites, List.map_cons, List.map_cons, List.map_append, BodyPhrase.sites,
    x.body.statements.nodes_sites]
  rfl

-- In the tree all fields stand before all methods.
theorem MemberPhrase.nodes_sites (xs : List MemberPhrase) (behind : List Token) :
    ((Site.each (·.tokens) (·.sites) xs behind).map (·.node)).Perm
      ((xs.filterMap (·.field?)).flatMap VarDecl.nodesOfField ++
        (xs.filterMap (·.method?)).flatMap Method.nodes) := by
  induction xs with
  | nil => exact .nil
  | cons x xs ih =>
    rw [Site.each, List.map_append]
    cases x with
    | field decl =>
      have hfield := ih.append_left (decl.tree.nodesOfField)
      rw [← List.append_assoc] at hfield
      exact hfield
    | method m =>
      have hmethod := ih.append_left m.tree.nodes
      rw [sites, m.nodes_sites]
      exact hmethod.trans (List.perm_append_comm_assoc _ _ _)

theorem ClassPhrase.nodes_parentSites
    (parent? : Option (Terminal [.extendsWord] × Terminal [.identifier])) (behind : List Token) :
    (parentSites parent? behind).map (·.node) =
      (parent?.map (·.2.token)).toList.map Node.name := by
  cases parent? <;> rfl

theorem ClassPhrase.nodes_sites (x : ClassPhrase) (behind : List Token) :
    ((x.sites behind).map (·.node)).Perm x.tree.nodes := by
  have hmembers := MemberPhrase.nodes_sites x.members (x.closing.token :: behind)
  rw [sites, List.map_cons, List.map_append, List.map_append, nodes_parentSites]
  have hclass := hmembers.append_right [.classDecl x.tree]
  rw [List.append_assoc] at hclass
  exact (hclass.append_left _).cons _

theorem MainClassPhrase.nodes_sites (x : MainClassPhrase) (behind : List Token) :
    (x.sites behind).map (·.node) = x.tree.nodes := by
  rw [sites, List.map_cons, List.map_append, x.method.nodes_sites]
  rfl

theorem ClassPhrase.nodes_each (xs : List ClassPhrase) (behind : List Token) :
    ((Site.each (·.tokens) (·.sites) xs behind).map (·.node)).Perm
      ((xs.map (·.tree)).flatMap ClassDecl.nodes) := by
  induction xs with
  | nil => exact .nil
  | cons x xs ih =>
    rw [Site.each, List.map_append]
    exact (x.nodes_sites _).append ih

/-- The sites of a derivation are the nodes of its tree. -/
theorem ProgramPhrase.nodes_sites (x : ProgramPhrase) (behind : List Token) :
    ((x.sites behind).map (·.node)).Perm x.tree.nodes := by
  rw [sites, List.map_append, List.map_append, x.mainClass.nodes_sites]
  exact ((ClassPhrase.nodes_each x.classes behind).append_right _).append_left _

/-! ## The nodes fit -/

section

variable {behind : List Token}

theorem BodyPhrase.fits_sites (x : BodyPhrase) (hx : x.statements.Every (·.NameFirst))
    (behind : List Token) : ∀ s ∈ x.sites behind, s.Fits (x.tokens ++ behind) := by
  have hstatements := x.statements.fits_sites hx (x.closing.leads behind (by decide))
  exact forall_fits_mono hstatements ⟨[x.opening.token], by simp [tokens]⟩

theorem ParamPhrase.fits_sites (x : ParamPhrase) (h : Leads (NodeKind.followSet .param) behind) :
    ∀ s ∈ x.sites behind, s.Fits (x.tokens ++ behind) := by
  have htype := Site.fits_type x.type (x.name.leads behind (by decide))
  have hname := Site.fits_name x.name (h.mono (by decide))
  have hself : Site.Fits (x.tokens ++ behind) ⟨.param x, behind⟩ := ⟨List.suffix_refl _, h⟩
  have htext : x.tokens ++ behind = x.type.tokens ++ x.name.token :: behind := by simp [tokens]
  rw [htext] at hself ⊢
  exact List.forall_mem_cons.mpr ⟨htype, List.forall_mem_cons.mpr
    ⟨hname.mono (List.suffix_append _ _), List.forall_mem_singleton.mpr hself⟩⟩

theorem ParamPhrase.leads_more (xs : List (Terminal [.comma] × ParamPhrase))
    (h : Leads (NodeKind.followSet .param) behind) :
    Leads (NodeKind.followSet .param) (moreTokens xs ++ behind) :=
  Site.leads_flatMap (fun x _ => x.1.leads _ (by decide)) h xs

theorem ParamsPhrase.fits_sites (x : ParamsPhrase)
    (h : Leads (NodeKind.followSet .param) behind) :
    ∀ s ∈ x.sites behind, s.Fits (x.tokens ++ behind) := by
  cases x with
  | none => exact List.forall_mem_nil _
  | some first more =>
    have hmore : ∀ s ∈ ParamPhrase.moreSites more behind,
        s.Fits (ParamPhrase.moreTokens more ++ behind) := by
      refine Site.fits_each (fun x _ => x.1.leads _ (by decide)) h more fun x _ ts hts => ?_
      exact forall_fits_mono (x.2.fits_sites hts) (List.suffix_cons _ _)
    rw [tokens, List.append_assoc]
    refine List.forall_mem_append.mpr ⟨first.fits_sites (ParamPhrase.leads_more more h), ?_⟩
    exact forall_fits_mono hmore (List.suffix_append _ _)

theorem MethodPhrase.fits_sites (x : MethodPhrase) (hx : x.body.statements.Every (·.NameFirst))
    (h : Leads NodeKind.memberFollow behind) :
    ∀ s ∈ x.sites behind, s.Fits (x.tokens ++ behind) := by
  have htype := Site.fits_type x.returnType (x.name.leads (x.opening.token ::
    (x.params.tokens ++ x.closing.token :: (x.body.tokens ++ behind))) (by decide))
  have hname := Site.fits_name x.name (x.opening.leads
    (x.params.tokens ++ x.closing.token :: (x.body.tokens ++ behind)) (by decide))
  have hparams := x.params.fits_sites (x.closing.leads (x.body.tokens ++ behind) (by decide))
  have hbody := x.body.fits_sites hx behind
  have hself : Site.Fits (x.tokens ++ behind) ⟨.method x, behind⟩ := ⟨List.suffix_refl _, h⟩
  refine List.forall_mem_cons.mpr ⟨?_, List.forall_mem_cons.mpr ⟨?_, List.forall_mem_append.mpr
    ⟨?_, List.forall_mem_append.mpr ⟨?_, List.forall_mem_singleton.mpr hself⟩⟩⟩⟩
  · exact htype.mono ⟨[x.publicWord.token], by simp [tokens]⟩
  · exact hname.mono ⟨x.publicWord.token :: x.returnType.tokens, by simp [tokens]⟩
  · refine forall_fits_mono hparams
      ⟨x.publicWord.token :: (x.returnType.tokens ++ [x.name.token, x.opening.token]), ?_⟩
    simp [tokens]
  · refine forall_fits_mono hbody ⟨x.publicWord.token :: (x.returnType.tokens ++
      x.name.token :: x.opening.token :: (x.params.tokens ++ [x.closing.token])), ?_⟩
    simp [tokens]

theorem MainMethodPhrase.fits_sites (x : MainMethodPhrase)
    (hx : x.body.statements.Every (·.NameFirst)) (h : Leads NodeKind.memberFollow behind) :
    ∀ s ∈ x.sites behind, s.Fits (x.tokens ++ behind) := by
  have htype := Site.fits_type x.returnType (x.name.leads
    (x.opening.token :: x.closing.token :: (x.body.tokens ++ behind)) (by decide))
  have hname := Site.fits_name x.name
    (x.opening.leads (x.closing.token :: (x.body.tokens ++ behind)) (by decide))
  have hbody := x.body.fits_sites hx behind
  have hself : Site.Fits (x.tokens ++ behind) ⟨.mainMethod x, behind⟩ := ⟨List.suffix_refl _, h⟩
  refine List.forall_mem_cons.mpr ⟨?_, List.forall_mem_cons.mpr ⟨?_,
    List.forall_mem_append.mpr ⟨?_, List.forall_mem_singleton.mpr hself⟩⟩⟩
  · exact htype.mono ⟨[x.publicWord.token, x.staticWord.token], by simp [tokens]⟩
  · refine hname.mono
      ⟨x.publicWord.token :: x.staticWord.token :: x.returnType.tokens, by simp [tokens]⟩
  · refine forall_fits_mono hbody ⟨x.publicWord.token :: x.staticWord.token ::
      (x.returnType.tokens ++ [x.name.token, x.opening.token, x.closing.token]), ?_⟩
    simp [tokens]

-- A member begins with `public` or with a type, `void` included.
theorem MemberPhrase.leads (x : MemberPhrase) (ts : List Token) :
    Leads NodeKind.memberFollow (x.tokens ++ ts) := by
  cases x with
  | field decl => exact decl.type.base.leads _ (by decide)
  | method m => exact m.publicWord.leads _ (by decide)

theorem MemberPhrase.fits_sites (x : MemberPhrase)
    (hx : ∀ b ∈ x.bodies, b.statements.Every (·.NameFirst))
    (h : Leads NodeKind.memberFollow behind) :
    ∀ s ∈ x.sites behind, s.Fits (x.tokens ++ behind) := by
  cases x with
  | field decl =>
    have hself : Site.Fits (decl.tokens ++ behind) ⟨.field decl, behind⟩ :=
      ⟨List.suffix_refl _, h⟩
    exact List.forall_mem_append.mpr
      ⟨decl.fits_sites behind, List.forall_mem_singleton.mpr hself⟩
  | method m => exact m.fits_sites (hx _ (List.mem_singleton_self _)) h

theorem ClassPhrase.leads_parent
    (parent? : Option (Terminal [.extendsWord] × Terminal [.identifier]))
    (h : Leads [.lbrace] behind) :
    Leads (NodeKind.followSet .identifier) (parentTokens parent? ++ behind) := by
  cases parent? with
  | none => exact h.mono (by decide)
  | some parent => exact parent.1.leads _ (by decide)

theorem ClassPhrase.fits_parentSites
    (parent? : Option (Terminal [.extendsWord] × Terminal [.identifier]))
    (h : Leads [.lbrace] behind) :
    ∀ s ∈ parentSites parent? behind, s.Fits (parentTokens parent? ++ behind) := by
  cases parent? with
  | none => exact List.forall_mem_nil _
  | some parent =>
    have hname := Site.fits_name parent.2 (h.mono (by decide))
    exact List.forall_mem_singleton.mpr (hname.mono (List.suffix_cons _ _))

theorem ClassPhrase.fits_sites (x : ClassPhrase)
    (hx : ∀ b ∈ x.members.flatMap (·.bodies), b.statements.Every (·.NameFirst))
    (h : Leads (NodeKind.followSet .classDecl) behind) :
    ∀ s ∈ x.sites behind, s.Fits (x.tokens ++ behind) := by
  have hopening : Leads [.lbrace] (x.opening.token ::
      (x.members.flatMap (·.tokens) ++ x.closing.token :: behind)) := x.opening.leads _ (by decide)
  have hname := Site.fits_name x.name (leads_parent x.parent? hopening)
  have hparent := fits_parentSites x.parent? hopening
  have hclosing : Leads NodeKind.memberFollow (x.closing.token :: behind) :=
    x.closing.leads behind (by decide)
  have hmembers := Site.fits_each MemberPhrase.leads hclosing x.members fun m hm ts hts =>
    m.fits_sites (fun b hb => hx b (List.mem_flatMap.mpr ⟨m, hm, hb⟩)) hts
  have hself : Site.Fits (x.tokens ++ behind) ⟨.classDecl x, behind⟩ :=
    ⟨List.suffix_refl _, h.mono fun _ hk => List.mem_append_left _ hk⟩
  refine List.forall_mem_cons.mpr ⟨?_, List.forall_mem_append.mpr ⟨?_,
    List.forall_mem_append.mpr ⟨?_, List.forall_mem_singleton.mpr hself⟩⟩⟩
  · exact hname.mono ⟨[x.classWord.token], by simp [tokens]⟩
  · exact forall_fits_mono hparent ⟨[x.classWord.token, x.name.token], by simp [tokens]⟩
  · refine forall_fits_mono hmembers ⟨x.classWord.token :: x.name.token ::
      (parentTokens x.parent? ++ [x.opening.token]), ?_⟩
    simp [tokens]

theorem MainClassPhrase.fits_sites (x : MainClassPhrase)
    (hx : x.method.body.statements.Every (·.NameFirst))
    (h : Leads (NodeKind.followSet .mainClass) behind) :
    ∀ s ∈ x.sites behind, s.Fits (x.tokens ++ behind) := by
  have hname := Site.fits_name x.name
    (x.opening.leads (x.method.tokens ++ x.closing.token :: behind) (by decide))
  have hmethod := x.method.fits_sites hx (x.closing.leads behind (by decide))
  have hself : Site.Fits (x.tokens ++ behind) ⟨.mainClass x, behind⟩ :=
    ⟨List.suffix_refl _, h.mono fun _ hk => List.mem_append_left _ hk⟩
  refine List.forall_mem_cons.mpr ⟨?_, List.forall_mem_append.mpr
    ⟨?_, List.forall_mem_singleton.mpr hself⟩⟩
  · exact hname.mono ⟨[x.classWord.token], by simp [tokens]⟩
  · refine forall_fits_mono hmethod
      ⟨[x.classWord.token, x.name.token, x.opening.token], by simp [tokens]⟩

/-- What stands behind the nodes of a program, if behind the program stands the end of file. -/
theorem ProgramPhrase.fits_sites (x : ProgramPhrase) (hx : x.Every (·.NameFirst))
    (h : Leads [.eof] behind) : ∀ s ∈ x.sites behind, s.Fits (x.tokens ++ behind) := by
  obtain ⟨hmain, hbodies⟩ := List.forall_mem_cons.mp hx
  have hclass : ∀ (c : ClassPhrase) ts, Leads (NodeKind.followSet .classDecl) (c.tokens ++ ts) :=
    fun c ts => c.classWord.leads _ (by decide)
  have hending : Leads (NodeKind.followSet .classDecl) behind := h.mono (by decide)
  have hmainClass := x.mainClass.fits_sites hmain (Site.leads_flatMap hclass hending x.classes)
  have hclasses := Site.fits_each hclass hending x.classes fun c hc ts hts =>
    c.fits_sites (fun b hb => hbodies b (List.mem_flatMap.mpr ⟨c, hc, hb⟩)) hts
  have hself : Site.Fits (x.tokens ++ behind) ⟨.program x, behind⟩ := ⟨List.suffix_refl _, h⟩
  refine List.forall_mem_append.mpr ⟨?_, List.forall_mem_append.mpr
    ⟨?_, List.forall_mem_singleton.mpr hself⟩⟩
  · exact forall_fits_mono hmainClass ⟨[], by simp [tokens]⟩
  · exact forall_fits_mono hclasses ⟨x.mainClass.tokens, by simp [tokens]⟩

end

/-! ## Programs that are read -/

/-- A program that is read has one derivation, and the nodes of the program are those of the
derivation. Each of them has tokens of its own in the source and a token right behind these, whose
kind is in the table unless it is one of those that the table leaves out there. -/
theorem parse_follow_iff (source : String) (policy : ErrorPolicy) (p : Program)
    (h : parse source policy = .ok p) :
    ∃ (d : ProgramPhrase) (ending : Token),
      d.tokens ++ [ending] = (tokenize source).tokens ∧ d.tree = p ∧ d.Every (·.Regular) ∧
      (∀ d' : ProgramPhrase, d'.tokens = d.tokens → d'.Every (·.Settled) → d' = d) ∧
      ((d.sites [ending]).map (·.node)).Perm p.nodes ∧
      ∀ s ∈ d.sites [ending], s.phrase.tokens ++ s.behind <:+ (tokenize source).tokens ∧
        ∃ t ∈ s.behind.head?, (t.kind ∈ s.kind.followSet ↔ t.kind ∉ s.kind.overlooked) := by
  obtain ⟨-, d, hd, hregular, -, rfl⟩ := (parse_eq_ok_iff source p).mp (parse_failFast_of_parse h)
  let ending := (TokenStream.ofTokens (tokenize source).tokens).ending
  have hending : ending.kind = .eof := TokenStream.kind_ending_ofTokens _
  have htokens : d.tokens ++ [ending] = (tokenize source).tokens := by
    rw [hd]
    exact ahead_append_ending_tokenize source
  have hunique (d' : ProgramPhrase) (hd' : d'.tokens = d.tokens) (hsettled : d'.Every (·.Settled)) :
      d' = d :=
    ProgramPhrase.unique hsettled (hregular.imp fun _ hx => hx.1) hd'
  have hfits := d.fits_sites (hregular.imp fun _ hx => hx.2)
    (leads_cons.mpr (List.mem_singleton.mpr hending) : Leads [.eof] [ending])
  rw [htokens] at hfits
  refine ⟨d, ending, htokens, rfl, hregular, hunique, d.nodes_sites _, fun s hs => ?_⟩
  obtain ⟨hsuffix, t, ht, hkind⟩ := hfits s hs
  refine ⟨hsuffix, t, ht, fun hrow hleft => ?_, fun hleft => ?_⟩
  · exact NodeKind.notMem_followSet_of_mem_overlooked hleft hrow
  · exact (List.mem_append.mp hkind).resolve_right hleft

/-! ## What the table leaves out -/

/-- A leaf in the first line, in its one spelling or as a name. -/
def Terminal.atColumn (kind : TokenKind) (column : Nat) : Terminal [kind] :=
  ⟨⟨kind, kind.spelling?.getD "a", ⟨1, column⟩⟩, List.mem_singleton_self kind⟩

/-- A type of one word in the first line. -/
def TypePhrase.atColumn {bases : List TokenKind} (kind : TokenKind) (column : Nat)
    (h : kind ∈ bases) : TypePhrase bases :=
  ⟨⟨(Terminal.atColumn kind column).token, h⟩, none⟩

/-- The length of `this`, a new array, a field and another one that is `void`. -/
def overlookedSource : String :=
  "class a \x7b public static void a() \x7b a = new int[this.length]; \x7d \x7d " ++
    "class a \x7b int a; void a; \x7d"

/-- The assignment in it. -/
def overlookedAssignment : StatementPhrase :=
  .assignment (.operand (.name (.atColumn .identifier 36)) .nil) (.atColumn .assign 38)
    (.operand (.newArray (.atColumn .newWord 40)
      ⟨(Terminal.atColumn .intWord 44).token, by decide⟩ (.atColumn .lbracket 47)
      (.operand (.this (.atColumn .thisWord 48))
        (.length (.atColumn .dot 52) (.atColumn .lengthWord 53) .nil))
      (.atColumn .rbracket 59)) .nil)
    (.atColumn .semicolon 60)

/-- The derivation of the source. -/
def overlookedPhrase : ProgramPhrase where
  mainClass := ⟨.atColumn .classWord 1, .atColumn .identifier 7, .atColumn .lbrace 9,
    ⟨.atColumn .publicWord 11, .atColumn .staticWord 18, .atColumn .voidWord 25 (by decide),
      .atColumn .identifier 30, .atColumn .lparen 31, .atColumn .rparen 32,
      ⟨.atColumn .lbrace 34, .cons overlookedAssignment .nil, .atColumn .rbrace 62⟩⟩,
    .atColumn .rbrace 64⟩
  classes := [⟨.atColumn .classWord 66, .atColumn .identifier 72, none, .atColumn .lbrace 74,
    [.field ⟨.atColumn .intWord 76 (by decide), .atColumn .identifier 80,
        .atColumn .semicolon 81⟩,
      .field ⟨.atColumn .voidWord 83 (by decide), .atColumn .identifier 88,
        .atColumn .semicolon 89⟩],
    .atColumn .rbrace 91⟩]

theorem tokenize_overlookedSource : tokenize overlookedSource =
    ⟨overlookedPhrase.tokens ++ [Token.endOfFile ⟨1, 92⟩], []⟩ := by
  decide +kernel

theorem regular_overlookedPhrase : overlookedPhrase.Every (·.Regular) := by
  have hgrouped : overlookedAssignment.Grouped :=
    List.forall_mem_cons.mpr ⟨⟨trivial, trivial⟩,
      List.forall_mem_singleton.mpr ⟨⟨trivial, trivial⟩, trivial⟩⟩
  have hbody : (StatementsPhrase.cons overlookedAssignment .nil).Every (·.Regular) :=
    ⟨⟨⟨hgrouped, trivial⟩, rfl⟩, trivial⟩
  exact List.forall_mem_singleton.mpr hbody

theorem parse_overlookedSource :
    parse overlookedSource .failFast = .ok overlookedPhrase.tree := by
  rw [parse_eq_ok_iff, tokenize_overlookedSource]
  refine ⟨rfl, overlookedPhrase, by decide +kernel, regular_overlookedPhrase, ?_, rfl⟩
  exact List.forall_mem_singleton.mpr (by decide)

/-- Behind the element type of a new array comes a bracket, behind `this` a dot, and behind a field
`void`: three rows leave out what stands there. -/
theorem parse_follow_iff_of_overlooked :
    parse overlookedSource .failFast = .ok overlookedPhrase.tree ∧
    (∀ s ∈ overlookedPhrase.sites [Token.endOfFile ⟨1, 92⟩],
      ∃ t ∈ s.behind.head?, (t.kind ∈ s.kind.followSet ↔ t.kind ∉ s.kind.overlooked)) ∧
    ((overlookedPhrase.sites [Token.endOfFile ⟨1, 92⟩]).filter
        fun s => s.behind.head?.any (·.kind ∉ s.kind.followSet)).map
        (fun s => (s.kind, s.behind.head?.map (·.kind))) =
      [(.type, some .lbracket), (.this, some .dot), (.field, some .voidWord)] := by
  obtain ⟨d, ending, htokens, -, -, hunique, -, hsites⟩ :=
    parse_follow_iff _ _ _ parse_overlookedSource
  -- The derivation is the one that is given here.
  rw [tokenize_overlookedSource] at htokens
  obtain ⟨hd, hending⟩ := List.append_inj' htokens.symm rfl
  have heq := hunique _ hd (regular_overlookedPhrase.imp fun _ hx => hx.1)
  rw [← heq, ← hending] at hsites
  exact ⟨parse_overlookedSource, fun s hs => (hsites s hs).2, by decide +kernel⟩

/-- The table does not have every kind of token that comes behind a node. -/
theorem not_next_mem_followSet :
    ¬ ∀ (source : String) (policy : ErrorPolicy) (p : Program) (d : ProgramPhrase) (ending : Token),
      parse source policy = .ok p → d.tokens ++ [ending] = (tokenize source).tokens →
      d.tree = p → d.Every (·.Regular) →
      ∀ s ∈ d.sites [ending], ∀ t ∈ s.behind.head?, t.kind ∈ s.kind.followSet := by
  intro h
  have htokens := congrArg (·.tokens) tokenize_overlookedSource.symm
  have hall := h _ _ _ _ _ parse_overlookedSource htokens rfl regular_overlookedPhrase
  exact absurd hall (by decide +kernel)

end MiniJava
