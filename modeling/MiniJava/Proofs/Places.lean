import Mathlib.Data.List.TakeWhile
import MiniJava.Proofs.Acceptance

/-!
# Places — programs with a hole

A place is what stands around some statement of a program (`StatementPlace`), or between two members
of some class (`MemberPlace`). Filling the hole gives a derivation: of the tokens in front of the
place, of those that were put there, and of those behind it. The tree is that of the place with
another part in it.

A statement fits for another one if it is regular, ends as closed and opens no more levels. Then it
can stand wherever the other one does: what is read with the one in a place is read with the other
one in the same place (`StatementPlace.isOf_fill`). Whatever fields are put between the members of a
class, it is still read (`MemberPlace.isOf_fill`).
-/

namespace MiniJava

/-- The list of tokens is read, and this is its derivation. -/
structure ProgramPhrase.IsOf (d : ProgramPhrase) (tokens : List Token) : Prop where
  tokens_eq : d.tokens = tokens.takeWhile (·.kind != .eof)
  regular : d.Every (·.Regular)
  within : d.Within maxNesting

namespace ProgramPhrase.IsOf

variable {d d' : ProgramPhrase} {tokens front middle behind : List Token}

theorem read (h : d.IsOf tokens) : (Session.ofTokens tokens).readToFirstError.1 = .ok d.tree :=
  (Session.readToFirstError_eq_ok_iff tokens d.tree).mpr
    ⟨d, h.tokens_eq, h.regular, h.within, rfl⟩

-- Other tokens between those in front and those behind, none of which is an end of file.
theorem exchange (h : d.IsOf tokens) {old : List Token} (hd : d.tokens = front ++ old ++ behind)
    (hmiddle : ∀ t ∈ middle, t.kind ≠ .eof) (hd' : d'.tokens = front ++ middle ++ behind)
    (hregular : d'.Every (·.Regular)) (hwithin : d'.Within maxNesting) :
    d'.IsOf (front ++ middle ++ behind) := by
  have hold : ∀ t ∈ front ++ old ++ behind, t.kind ≠ .eof := by
    intro t ht
    rw [← hd, h.tokens_eq] at ht
    simpa using List.mem_takeWhile_imp ht
  refine ⟨?_, hregular, hwithin⟩
  rw [hd', eq_comm, List.takeWhile_eq_self_iff]
  intro t ht
  simp only [List.mem_append] at ht hold
  have hkind : t.kind ≠ .eof := by
    rcases ht with (ht | ht) | ht
    · exact hold t (.inl (.inl ht))
    · exact hmiddle t ht
    · exact hold t (.inr ht)
  simpa using hkind

end ProgramPhrase.IsOf

theorem Terminal.kind_ne_eof {kinds : List TokenKind} (x : Terminal kinds) (h : .eof ∉ kinds) :
    x.token.kind ≠ .eof :=
  fun heq => h (heq ▸ x.kind_mem)

-- No declaration has an end of file in it.
theorem DeclPhrase.kind_ne_eof {bases : List TokenKind} (decl : DeclPhrase bases)
    (hbases : .eof ∉ bases) : ∀ t ∈ decl.tokens, t.kind ≠ .eof := by
  have hsuffix : ∀ t ∈ TypePhrase.suffixTokens decl.type.suffix?, t.kind ≠ .eof := by
    cases decl.type.suffix? with
    | none => exact List.forall_mem_nil _
    | some suffix =>
      exact List.forall_mem_cons.mpr ⟨suffix.1.kind_ne_eof (by decide),
        List.forall_mem_singleton.mpr (suffix.2.kind_ne_eof (by decide))⟩
  refine List.forall_mem_append.mpr
    ⟨List.forall_mem_cons.mpr ⟨decl.type.base.kind_ne_eof hbases, hsuffix⟩, ?_⟩
  exact List.forall_mem_cons.mpr ⟨decl.name.kind_ne_eof (by decide),
    List.forall_mem_singleton.mpr (decl.ending.kind_ne_eof (by decide))⟩

/-! ## Statements in statements -/

/-- A statement between others. -/
def StatementsPhrase.around (before : List StatementPhrase) (x : StatementPhrase)
    (rest : StatementsPhrase) : StatementsPhrase :=
  before.foldr .cons (.cons x rest)

namespace StatementsPhrase

variable (before : List StatementPhrase) (x : StatementPhrase) (rest : StatementsPhrase)

theorem tokens_around :
    (around before x rest).tokens = before.flatMap (·.tokens) ++ (x.tokens ++ rest.tokens) := by
  induction before with
  | nil => rfl
  | cons first before ih =>
    rw [List.flatMap_cons, List.append_assoc, ← ih]
    rfl

theorem trees_around :
    (around before x rest).trees = before.map (·.tree) ++ x.tree :: rest.trees := by
  induction before with
  | nil => rfl
  | cons first before ih => exact congrArg _ ih

end StatementsPhrase

/-- What stands right around a statement inside another one. -/
inductive StatementFrame where
  | block (opening : Terminal [.lbrace]) (before : List StatementPhrase) (rest : StatementsPhrase)
      (closing : Terminal [.rbrace])
  | onlyBranch (word : Terminal [.ifWord]) (condition : ParensPhrase)
  | thenBranch (word : Terminal [.ifWord]) (condition : ParensPhrase)
      (elseWord : Terminal [.elseWord]) (elseBranch : StatementPhrase)
  | elseBranch (word : Terminal [.ifWord]) (condition : ParensPhrase) (thenBranch : StatementPhrase)
      (elseWord : Terminal [.elseWord])
  | loopBody (word : Terminal [.whileWord]) (condition : ParensPhrase)

namespace StatementFrame

/-- The statement with another one inside. -/
def fill : StatementFrame → StatementPhrase → StatementPhrase
  | block opening before rest closing, x => .block opening (.around before x rest) closing
  | onlyBranch word condition, x => .ifThen word condition x
  | thenBranch word condition elseWord other, x => .ifElse word condition x elseWord other
  | elseBranch word condition other elseWord, x => .ifElse word condition other elseWord x
  | loopBody word condition, x => .loop word condition x

/-- The tokens in front of the place. -/
def front : StatementFrame → List Token
  | block opening before _ _ => opening.token :: before.flatMap (·.tokens)
  | onlyBranch word condition => word.token :: condition.tokens
  | thenBranch word condition _ _ => word.token :: condition.tokens
  | elseBranch word condition other elseWord =>
    word.token :: (condition.tokens ++ (other.tokens ++ [elseWord.token]))
  | loopBody word condition => word.token :: condition.tokens

/-- The tokens behind the place. -/
def behind : StatementFrame → List Token
  | block _ _ rest closing => rest.tokens ++ [closing.token]
  | thenBranch _ _ elseWord other => elseWord.token :: other.tokens
  | onlyBranch .. | elseBranch .. | loopBody .. => []

/-- The tree with that of another statement inside. -/
def tree : StatementFrame → Statement → Statement
  | block opening before rest _, s =>
    .block (before.map (·.tree) ++ s :: rest.trees) opening.token.position
  | onlyBranch word condition, s => .ifThen condition.inner.tree s word.token.position
  | thenBranch word condition _ other, s =>
    .ifElse condition.inner.tree s other.tree word.token.position
  | elseBranch word condition other _, s =>
    .ifElse condition.inner.tree other.tree s word.token.position
  | loopBody word condition, s => .loop condition.inner.tree s word.token.position

theorem tokens_fill (f : StatementFrame) (x : StatementPhrase) :
    (f.fill x).tokens = f.front ++ x.tokens ++ f.behind := by
  cases f <;>
    simp [fill, front, behind, StatementPhrase.tokens, StatementsPhrase.tokens_around]

theorem tree_fill (f : StatementFrame) (x : StatementPhrase) : (f.fill x).tree = f.tree x.tree := by
  cases f with
  | block opening before rest closing =>
    exact congrArg (Statement.block · opening.token.position)
      (StatementsPhrase.trees_around before x rest)
  | onlyBranch | thenBranch | elseBranch | loopBody => rfl

end StatementFrame

/-! ## Statements that fit -/

/-- The first statement can stand wherever the second one does. -/
structure StatementPhrase.FitsFor (y x : StatementPhrase) : Prop where
  regular : x.Every (·.Regular) → y.Every (·.Regular)
  closed : x.endsOpen = false → y.endsOpen = false
  levels_le : y.levels ≤ x.levels

namespace StatementPhrase.FitsFor

variable {x y : StatementPhrase}

theorem every_around (h : y.FitsFor x) (before : List StatementPhrase) (rest : StatementsPhrase)
    (hx : (StatementsPhrase.around before x rest).Every (·.Regular)) :
    (StatementsPhrase.around before y rest).Every (·.Regular) := by
  induction before with
  | nil => exact ⟨h.regular hx.1, hx.2⟩
  | cons first before ih => exact ⟨hx.1, ih hx.2⟩

theorem levels_around_le (h : y.FitsFor x) (before : List StatementPhrase)
    (rest : StatementsPhrase) :
    (StatementsPhrase.around before y rest).levels ≤
      (StatementsPhrase.around before x rest).levels := by
  have hlevels := h.levels_le
  induction before with
  | nil =>
    show max (y.levels + 1) rest.levels ≤ max (x.levels + 1) rest.levels
    omega
  | cons first before ih =>
    show max (first.levels + 1) (StatementsPhrase.around before y rest).levels ≤
      max (first.levels + 1) (StatementsPhrase.around before x rest).levels
    omega

/-- What fits for a statement fits inside another one as well. -/
theorem fill (h : y.FitsFor x) (f : StatementFrame) : (f.fill y).FitsFor (f.fill x) := by
  have hlevels := h.levels_le
  cases f with
  | block opening before rest closing =>
    exact ⟨fun hx => ⟨hx.1, h.every_around before rest hx.2⟩, id, h.levels_around_le before rest⟩
  | onlyBranch word condition =>
    refine ⟨fun hx => ⟨hx.1, h.regular hx.2⟩, id, ?_⟩
    show max _ (y.levels + 1) ≤ max _ (x.levels + 1)
    omega
  | thenBranch word condition elseWord other =>
    -- The `else` must still belong to this `if`.
    refine ⟨fun hx => ⟨⟨⟨hx.1.1.1, h.closed hx.1.1.2⟩, trivial⟩, h.regular hx.2.1, hx.2.2⟩, id, ?_⟩
    show max _ (max (y.levels + 1) _) ≤ max _ (max (x.levels + 1) _)
    omega
  | elseBranch word condition other elseWord =>
    refine ⟨fun hx => ⟨hx.1, hx.2.1, h.regular hx.2.2⟩, h.closed, ?_⟩
    show max _ (max _ (y.levels + 1)) ≤ max _ (max _ (x.levels + 1))
    omega
  | loopBody word condition =>
    refine ⟨fun hx => ⟨hx.1, h.regular hx.2⟩, h.closed, ?_⟩
    show max _ (y.levels + 1) ≤ max _ (x.levels + 1)
    omega

theorem foldr_fill (h : y.FitsFor x) (frames : List StatementFrame) :
    (frames.foldr StatementFrame.fill y).FitsFor (frames.foldr StatementFrame.fill x) := by
  induction frames with
  | nil => exact h
  | cons f frames ih => exact ih.fill f

-- A declaration fits for every statement: it has no expressions and opens nothing.
theorem varDecl {decl : DeclPhrase NodeKind.varDeclStart}
    (bare : decl.type.base.token.kind = .identifier → decl.type.suffix? = none)
    (x : StatementPhrase) : (varDecl decl bare).FitsFor x :=
  ⟨fun _ => ⟨⟨List.forall_mem_nil _, trivial⟩, trivial⟩, fun _ => rfl, Nat.zero_le _⟩

end StatementPhrase.FitsFor

/-! ## Members of classes -/

/-- A place between two members of a class: so many members of the owner are in front of it. -/
structure MemberPlace where
  mainClass : MainClassPhrase
  before : List ClassPhrase
  owner : ClassPhrase
  index : Nat
  after : List ClassPhrase

namespace MemberPlace

/-- The program with further members at the place. -/
def fill (place : MemberPlace) (ms : List MemberPhrase) : ProgramPhrase :=
  ⟨place.mainClass, place.before ++
    { place.owner with
      members := place.owner.members.take place.index ++ ms ++
        place.owner.members.drop place.index } :: place.after⟩

/-- The tokens in front of the place. -/
def front (place : MemberPlace) : List Token :=
  place.mainClass.tokens ++ place.before.flatMap (·.tokens) ++
    place.owner.classWord.token :: place.owner.name.token ::
      (ClassPhrase.parentTokens place.owner.parent? ++ place.owner.opening.token ::
        (place.owner.members.take place.index).flatMap (·.tokens))

/-- The tokens behind the place. -/
def behind (place : MemberPlace) : List Token :=
  (place.owner.members.drop place.index).flatMap (·.tokens) ++
    place.owner.closing.token :: place.after.flatMap (·.tokens)

/-- The tree with further fields and methods of the owner at the place. -/
def tree (place : MemberPlace) (fields : List VarDecl) (methods : List Method) : Program :=
  let front := place.owner.members.take place.index
  let behind := place.owner.members.drop place.index
  ⟨place.mainClass.tree, place.before.map (·.tree) ++
    { place.owner.tree with
      fields := front.filterMap (·.field?) ++ fields ++ behind.filterMap (·.field?)
      methods := front.filterMap (·.method?) ++ methods ++ behind.filterMap (·.method?) } ::
    place.after.map (·.tree)⟩

variable (place : MemberPlace) (ms : List MemberPhrase)

theorem tokens_fill :
    (place.fill ms).tokens = place.front ++ ms.flatMap (·.tokens) ++ place.behind := by
  simp [fill, front, behind, ProgramPhrase.tokens, ClassPhrase.tokens]

theorem tree_fill : (place.fill ms).tree =
    place.tree (ms.filterMap (·.field?)) (ms.filterMap (·.method?)) := by
  simp [fill, tree, ProgramPhrase.tree, ClassPhrase.tree]

theorem mem_bodies_fill {b : BodyPhrase} : b ∈ (place.fill ms).bodies ↔
    b ∈ (place.fill []).bodies ∨ b ∈ ms.flatMap (·.bodies) := by
  simp only [fill, ProgramPhrase.bodies, List.flatMap_append, List.flatMap_cons,
    List.append_nil, List.mem_cons, List.mem_append]
  tauto

/-- Fields can stand between any two members of a class that is read. -/
theorem isOf_fill {tokens : List Token} (h : (place.fill []).IsOf tokens)
    (decl : DeclPhrase NodeKind.typeStart) :
    (place.fill [.field decl]).IsOf (place.front ++ decl.tokens ++ place.behind) := by
  have hbodies : ∀ b ∈ (place.fill [.field decl]).bodies, b ∈ (place.fill []).bodies := by
    intro b hb
    exact ((place.mem_bodies_fill [.field decl]).mp hb).resolve_right (List.not_mem_nil)
  have htokens := place.tokens_fill [.field decl]
  rw [List.flatMap_singleton] at htokens
  exact h.exchange (place.tokens_fill []) (decl.kind_ne_eof (by decide)) htokens
    (fun b hb => h.regular b (hbodies b hb)) (fun b hb => h.within b (hbodies b hb))

end MemberPlace

/-! ## Statements of bodies -/

/-- The body of a method, with the program around it. Which statements the method had does not
matter. -/
inductive BodyPlace where
  | main (mainClass : MainClassPhrase) (classes : List ClassPhrase)
  | method (place : MemberPlace) (m : MethodPhrase)

namespace BodyPlace

/-- The program with these statements in the body. -/
def fill : BodyPlace → StatementsPhrase → ProgramPhrase
  | main mainClass classes, ss =>
    ⟨{ mainClass with
        method := { mainClass.method with
          body := { mainClass.method.body with statements := ss } } }, classes⟩
  | method place m, ss => place.fill [.method { m with body := { m.body with statements := ss } }]

/-- The tokens in front of the statements. -/
def front : BodyPlace → List Token
  | main mainClass _ =>
    mainClass.classWord.token :: mainClass.name.token :: mainClass.opening.token ::
      mainClass.method.publicWord.token :: mainClass.method.staticWord.token ::
      (mainClass.method.returnType.tokens ++
        [mainClass.method.name.token, mainClass.method.opening.token,
          mainClass.method.closing.token, mainClass.method.body.opening.token])
  | method place m =>
    place.front ++ m.publicWord.token :: (m.returnType.tokens ++ m.name.token :: m.opening.token ::
      (m.params.tokens ++ [m.closing.token, m.body.opening.token]))

/-- The tokens behind the statements. -/
def behind : BodyPlace → List Token
  | main mainClass classes =>
    mainClass.method.body.closing.token :: mainClass.closing.token :: classes.flatMap (·.tokens)
  | method place m => m.body.closing.token :: place.behind

/-- The tree with these statements in the body. -/
def tree : BodyPlace → List Statement → Program
  | main mainClass classes, ss =>
    ⟨⟨mainClass.name.token, { mainClass.method.tree with body := ss }⟩, classes.map (·.tree)⟩
  | method place m, ss => place.tree [] [{ m.tree with body := ss }]

theorem tokens_fill (b : BodyPlace) (ss : StatementsPhrase) :
    (b.fill ss).tokens = b.front ++ ss.tokens ++ b.behind := by
  cases b with
  | main mainClass classes =>
    simp [fill, front, behind, ProgramPhrase.tokens, MainClassPhrase.tokens,
      MainMethodPhrase.tokens, BodyPhrase.tokens]
  | method place m =>
    simp [fill, front, behind, place.tokens_fill, MemberPhrase.tokens, MethodPhrase.tokens,
      BodyPhrase.tokens]

theorem tree_fill (b : BodyPlace) (ss : StatementsPhrase) :
    (b.fill ss).tree = b.tree ss.trees := by
  cases b with
  | main mainClass classes => rfl
  | method place m => exact place.tree_fill _

-- What holds of all bodies holds with other statements of which it holds in this one.
theorem forall_bodies_fill {p : StatementsPhrase → Prop} {ss ss' : StatementsPhrase}
    (b : BodyPlace) (hp : p ss → p ss') (h : ∀ x ∈ (b.fill ss).bodies, p x.statements) :
    ∀ x ∈ (b.fill ss').bodies, p x.statements := by
  cases b with
  | main mainClass classes =>
    obtain ⟨hmain, hclasses⟩ := List.forall_mem_cons.mp h
    exact List.forall_mem_cons.mpr ⟨hp hmain, hclasses⟩
  | method place m =>
    intro x hx
    rcases (place.mem_bodies_fill _).mp hx with hx | hx
    · exact h x ((place.mem_bodies_fill _).mpr (.inl hx))
    · obtain rfl : x = { m.body with statements := ss' } := by
        simpa [MemberPhrase.bodies] using hx
      refine hp (h { m.body with statements := ss } ((place.mem_bodies_fill _).mpr (.inr ?_)))
      simp [MemberPhrase.bodies]

end BodyPlace

/-- A place of a statement: the body that it is in, the statements around it there, and the
statements it is inside of, the outermost first. -/
structure StatementPlace where
  body : BodyPlace
  before : List StatementPhrase
  frames : List StatementFrame
  rest : StatementsPhrase

namespace StatementPlace

/-- The program with a statement at the place. -/
def fill (place : StatementPlace) (x : StatementPhrase) : ProgramPhrase :=
  place.body.fill (.around place.before (place.frames.foldr StatementFrame.fill x) place.rest)

/-- The tokens in front of the place. -/
def front (place : StatementPlace) : List Token :=
  place.body.front ++ place.before.flatMap (·.tokens) ++ place.frames.flatMap (·.front)

/-- The tokens behind the place. -/
def behind (place : StatementPlace) : List Token :=
  place.frames.reverse.flatMap (·.behind) ++ place.rest.tokens ++ place.body.behind

/-- The tree with a statement at the place. -/
def tree (place : StatementPlace) (s : Statement) : Program :=
  place.body.tree (place.before.map (·.tree) ++
    place.frames.foldr StatementFrame.tree s :: place.rest.trees)

theorem tokens_foldr_fill (frames : List StatementFrame) (x : StatementPhrase) :
    (frames.foldr StatementFrame.fill x).tokens =
      frames.flatMap (·.front) ++ x.tokens ++ frames.reverse.flatMap (·.behind) := by
  induction frames with
  | nil => simp
  | cons f frames ih => simp [StatementFrame.tokens_fill, ih]

theorem tree_foldr_fill (frames : List StatementFrame) (x : StatementPhrase) :
    (frames.foldr StatementFrame.fill x).tree = frames.foldr StatementFrame.tree x.tree := by
  induction frames with
  | nil => rfl
  | cons f frames ih => rw [List.foldr_cons, f.tree_fill, ih, List.foldr_cons]

variable (place : StatementPlace) {x y : StatementPhrase}

theorem tokens_fill (x : StatementPhrase) :
    (place.fill x).tokens = place.front ++ x.tokens ++ place.behind := by
  rw [fill, BodyPlace.tokens_fill, StatementsPhrase.tokens_around, tokens_foldr_fill, front, behind]
  simp

theorem tree_fill (x : StatementPhrase) : (place.fill x).tree = place.tree x.tree := by
  rw [fill, BodyPlace.tree_fill, StatementsPhrase.trees_around, tree_foldr_fill, tree]

/-- What fits for a statement can stand in its place in any program that is read. -/
theorem isOf_fill {tokens : List Token} (hfits : y.FitsFor x)
    (hkinds : ∀ t ∈ y.tokens, t.kind ≠ .eof) (h : (place.fill x).IsOf tokens) :
    (place.fill y).IsOf (place.front ++ y.tokens ++ place.behind) := by
  have hinside := hfits.foldr_fill place.frames
  refine h.exchange (place.tokens_fill x) hkinds (place.tokens_fill y) ?_ ?_
  · exact place.body.forall_bodies_fill (hinside.every_around place.before place.rest) h.regular
  · refine place.body.forall_bodies_fill (p := (·.levels ≤ maxNesting)) (fun hlimit => ?_) h.within
    exact Nat.le_trans (hinside.levels_around_le place.before place.rest) hlimit

end StatementPlace

end MiniJava
