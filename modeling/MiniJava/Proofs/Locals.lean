import MiniJava.Proofs.Places
import MiniJava.Proofs.Printing.Shape

/-!
# Local declarations and fields

A field and a local declaration are a type, a name and a semicolon. Fields may be of any type. A
statement that begins with a name is a declaration only if a second name comes right behind it, so
that a local declaration of a class type has no `[]`. With this one exception the declarations of
fields that are not `void` are local declarations as well: they are read at every place of every
body, as the same declaration (`Session.reads_local_declarations`). Those of the exception are read
at none (`Statement.parse_fails_before_brackets`).
-/

namespace MiniJava

open Parse

/-! ## The same declaration at two places -/

-- But for their positions, the tokens of a declaration say all about it.
theorem DeclPhrase.erase_tree_eq {bases bases' : List TokenKind} {x : DeclPhrase bases}
    {y : DeclPhrase bases'} (h : x.tokens.map Token.erase = y.tokens.map Token.erase) :
    x.tree.erase = y.tree.erase := by
  obtain ⟨⟨base, suffix?⟩, name, ending⟩ := x
  obtain ⟨⟨base', suffix?'⟩, name', ending'⟩ := y
  have hparts : base.token.erase = base'.token.erase ∧ suffix?.isSome = suffix?'.isSome ∧
      name.token.erase = name'.token.erase := by
    cases suffix? <;> cases suffix?' <;>
      simp_all [tokens, TypePhrase.tokens, TypePhrase.suffixTokens]
  obtain ⟨hbase, hsuffix, hname⟩ := hparts
  show VarDecl.mk ⟨base.token.erase, suffix?.isSome⟩ name.token.erase =
    VarDecl.mk ⟨base'.token.erase, suffix?'.isSome⟩ name'.token.erase
  rw [hbase, hsuffix, hname]

/-! ## Class types with brackets -/

namespace Expr

variable {c : ParseContext} {s s' : ParseState} {e : SyntaxError} {expression negand : Parse Expr}

theorem parseHead_fails (h : c.nextKind s ∉ TokenKind.expressionStart) :
    ∃ e s', parseHead expression negand c s = (.error e, s') :=
  ⟨_, _, bind_of_error ((expect_run _ c s).trans
    (if_neg fun hc => h (List.contains_iff_mem.mp hc)))⟩

-- What no operand begins with, no expression begins with.
theorem parse_succ_fails {n : Nat}
    (h : parseOperand (parse n) (parseNegand n) c s = (.error e, s')) :
    parse (n + 1) c s = (.error e, s') := by
  rw [parse_succ]
  exact bind_of_error h

theorem parse_fails (n : Nat) (h : c.nextKind s ∉ TokenKind.expressionStart) :
    ∃ e s', parse n c s = (.error e, s') := by
  cases n with
  | zero => exact ⟨_, _, rfl⟩
  | succ n =>
    obtain ⟨e, s', hhead⟩ : ∃ e s', parseHead (parse n) (parseNegand n) c s = (.error e, s') :=
      parseHead_fails h
    exact ⟨e, s', parse_succ_fails (bind_of_error hhead)⟩

-- An opening bracket behind a name begins an index, and nothing is no index.
theorem parse_fails_before_brackets (n : Nat) {name opening closing : Token} {rest : List Token}
    (hname : name.kind = .identifier) (hopening : opening.kind = .lbracket)
    (hclosing : closing.kind = .rbracket) (s : ParseState) :
    ∃ e s', parse n c (s.before (name :: opening :: closing :: rest)) = (.error e, s') := by
  cases n with
  | zero => exact ⟨_, _, rfl⟩
  | succ n =>
    obtain ⟨e, s', hindex⟩ : ∃ e s', parse n c (s.before (closing :: rest)) = (.error e, s') := by
      apply parse_fails
      rw [ParseContext.nextKind_before_cons, hclosing]
      decide
    refine ⟨e, s', parse_succ_fails ?_⟩
    have hhead : parseHead (parse n) (parseNegand n) c
        (s.before (name :: opening :: closing :: rest)) =
          (.ok (.identifier name), s.before (opening :: closing :: rest)) := by
      rw [parseHead, bind_of_ok (expect_before (by rw [hname]; decide)), hname]
      rfl
    rw [parseOperand, bind_of_ok hhead, bind_of_ok bound_run, parseTails,
      bind_of_ok (accept_before (List.mem_singleton.mpr hopening))]
    exact bind_of_error hindex

end Expr

/-- Where a name and a pair of brackets come next, no statement is read, under either policy and
with any levels left. -/
theorem Statement.parse_fails_before_brackets (n : Nat) (c : ParseContext) (s : ParseState)
    {name opening closing : Token} {rest : List Token} (hname : name.kind = .identifier)
    (hopening : opening.kind = .lbracket) (hclosing : closing.kind = .rbracket) :
    ∃ e s', parse n c (s.before (name :: opening :: closing :: rest)) = (.error e, s') := by
  cases n with
  | zero => exact ⟨_, _, rfl⟩
  | succ n =>
    obtain ⟨e, s', hexpression⟩ :
        ∃ e s', Expr.parse n c (s.before (name :: opening :: closing :: rest)) = (.error e, s') :=
      Expr.parse_fails_before_brackets n hname hopening hclosing s
    refine ⟨e, s', ?_⟩
    rw [parse_succ, parseForm, bind_of_ok peek_before, hname]
    dsimp only
    rw [bind_of_ok peekBehind_before, ParseContext.nextKind_before_cons, hopening,
      if_neg (by decide)]
    exact bind_of_error hexpression

/-! ## Declarations at every place -/

/-- A declaration whose type is not `void`, and the same declaration elsewhere as a field. The field
is read between any two members of any class of a program that is read. Unless the type is that of a
class with `[]`, the declaration is read in the place of any statement of any body of a program that
is read, within the limit of which it needs nothing, and but for positions it is the same as that
of the field. With such a type it is no statement, under either policy and with any levels left. -/
theorem Session.reads_local_declarations (decl : DeclPhrase NodeKind.varDeclStart)
    (field : DeclPhrase NodeKind.typeStart)
    (hsame : decl.tokens.map Token.erase = field.tokens.map Token.erase) :
    (∀ (place : MemberPlace) (tokens : List Token), (place.fill []).IsOf tokens →
      (ofTokens (place.front ++ field.tokens ++ place.behind)).readToFirstError.1 =
        .ok (place.tree [field.tree] [])) ∧
      ((decl.type.base.token.kind = .identifier → decl.type.suffix? = none) →
        ∀ (place : StatementPlace) (tokens : List Token) (x : StatementPhrase),
          (place.fill x).IsOf tokens →
            (ofTokens (place.front ++ decl.tokens ++ place.behind)).readToFirstError.1 =
              .ok (place.tree (.varDecl decl.tree))) ∧
      decl.tree.erase = field.tree.erase ∧
      (decl.type.base.token.kind = .identifier → decl.type.suffix?.isSome →
        ∀ (n : Nat) (c : ParseContext) (s : ParseState),
          ∃ e s', Statement.parse n c (s.before decl.tokens) = (.error e, s')) := by
  refine ⟨fun place tokens h => ?_, fun bare place tokens x h => ?_,
    DeclPhrase.erase_tree_eq hsame, fun hname hsuffix n c s => ?_⟩
  · rw [(place.isOf_fill h field).read, place.tree_fill]
    rfl
  · have hkinds : ∀ t ∈ (StatementPhrase.varDecl decl bare).tokens, t.kind ≠ .eof :=
      decl.kind_ne_eof (by decide)
    have hread := (place.isOf_fill (.varDecl bare x) hkinds h).read
    exact hread.trans (congrArg Except.ok (place.tree_fill _))
  · obtain ⟨⟨base, suffix?⟩, name, ending⟩ := decl
    obtain ⟨⟨opening, closing⟩, rfl⟩ := Option.isSome_iff_exists.mp hsuffix
    exact Statement.parse_fails_before_brackets n c s hname opening.kind_eq closing.kind_eq

/-! ## Two declarations of arrays -/

/-- A declaration of an array whose elements are of this type. -/
def DeclPhrase.plainArray {bases : List TokenKind} (kind : TokenKind) (h : kind ∈ bases) :
    DeclPhrase bases :=
  ⟨⟨⟨(Terminal.plain kind).token, h⟩, some (.plain .lbracket, .plain .rbracket)⟩,
    .plain .identifier, .plain .semicolon⟩

def StatementPhrase.plainBlock : StatementPhrase := .block (.plain .lbrace) .nil (.plain .rbrace)

theorem StatementPhrase.regular_plainBlock : plainBlock.Every (·.Regular) :=
  ⟨⟨⟨List.forall_mem_nil _, trivial⟩, trivial⟩, trivial⟩

/-- The place in a class without members, behind a main class. -/
def MemberPlace.plain : MemberPlace where
  mainClass := (ProgramPhrase.plain .plainBlock).mainClass
  before := []
  owner := ⟨.plain .classWord, .plain .identifier, none, .plain .lbrace, [], .plain .rbrace⟩
  index := 0
  after := []

theorem MemberPlace.isOf_plain : (plain.fill []).IsOf (plain.fill []).tokens where
  tokens_eq := by decide +kernel
  regular := ProgramPhrase.every_plain StatementPhrase.regular_plainBlock
  within := (ProgramPhrase.within_plain .plainBlock _).mpr (by decide)

/-- The place in the body of a loop, which is the only statement of a main class. -/
def StatementPlace.plain : StatementPlace where
  body := .main (ProgramPhrase.plain .plainBlock).mainClass []
  before := []
  frames := [.loopBody (.plain .whileWord) .plain]
  rest := .nil

theorem StatementPlace.isOf_plain :
    (plain.fill .plainBlock).IsOf (plain.fill .plainBlock).tokens where
  tokens_eq := by decide +kernel
  regular := by
    have hcondition : ExprPhrase.plain.Grouped := ⟨trivial, trivial⟩
    refine ProgramPhrase.every_plain (x := .loop (.plain .whileWord) .plain .plainBlock) ?_
    exact ⟨⟨⟨List.forall_mem_singleton.mpr hcondition, trivial⟩, trivial⟩,
      StatementPhrase.regular_plainBlock⟩
  within := (ProgramPhrase.within_plain (.loop (.plain .whileWord) .plain .plainBlock) _).mpr
    (by decide)

/-- An array of numbers is declared in a class and, in the same words, in the body of a loop. -/
theorem Session.reads_array_in_loop :
    let decl : DeclPhrase NodeKind.varDeclStart := .plainArray .intWord (by decide)
    let field : DeclPhrase NodeKind.typeStart := .plainArray .intWord (by decide)
    let member := MemberPlace.plain
    let place := StatementPlace.plain
    decl.tokens.map Token.erase = field.tokens.map Token.erase ∧
      ((member.fill []).IsOf (member.fill []).tokens ∧
        (ofTokens (member.front ++ field.tokens ++ member.behind)).readToFirstError.1 =
          .ok (member.tree [field.tree] [])) ∧
      ((decl.type.base.token.kind = .identifier → decl.type.suffix? = none) ∧
        (place.fill .plainBlock).IsOf (place.fill .plainBlock).tokens ∧
        (ofTokens (place.front ++ decl.tokens ++ place.behind)).readToFirstError.1 =
          .ok (place.tree (.varDecl decl.tree))) ∧
      decl.tree.erase = field.tree.erase := by
  intro decl field member place
  have hsame : decl.tokens.map Token.erase = field.tokens.map Token.erase := rfl
  have hbare : decl.type.base.token.kind = .identifier → decl.type.suffix? = none := nofun
  obtain ⟨hfield, hstatement, herase, -⟩ := reads_local_declarations decl field hsame
  exact ⟨hsame, ⟨MemberPlace.isOf_plain, hfield member _ MemberPlace.isOf_plain⟩,
    ⟨hbare, StatementPlace.isOf_plain,
      hstatement hbare place _ .plainBlock StatementPlace.isOf_plain⟩, herase⟩

/-- Not every declaration that is read as a field is read as a statement: one of an array of objects
is read in a class, but not in the body of a loop. -/
theorem Session.not_reads_every_local_declaration :
    ¬ ∀ (decl : DeclPhrase NodeKind.varDeclStart) (field : DeclPhrase NodeKind.typeStart),
      decl.tokens.map Token.erase = field.tokens.map Token.erase →
        (∃ (place : MemberPlace) (p : Program),
          (ofTokens (place.front ++ field.tokens ++ place.behind)).readToFirstError.1 = .ok p) →
        ∀ (place : StatementPlace) (tokens : List Token) (x : StatementPhrase),
          (place.fill x).IsOf tokens → ∃ p,
            (ofTokens (place.front ++ decl.tokens ++ place.behind)).readToFirstError.1 =
              .ok p := by
  intro h
  let decl : DeclPhrase NodeKind.varDeclStart := .plainArray .identifier (by decide)
  let field : DeclPhrase NodeKind.typeStart := .plainArray .identifier (by decide)
  have hdecl : (ofTokens (StatementPlace.plain.front ++ decl.tokens ++
      StatementPlace.plain.behind)).readToFirstError.1.isOk = false := by decide +kernel
  have hread : ∃ (place : MemberPlace) (p : Program),
      (ofTokens (place.front ++ field.tokens ++ place.behind)).readToFirstError.1 = .ok p :=
    ⟨.plain, _, (MemberPlace.plain.isOf_fill MemberPlace.isOf_plain field).read⟩
  obtain ⟨p, hp⟩ := h decl field rfl hread .plain _ .plainBlock StatementPlace.isOf_plain
  rw [hp] at hdecl
  cases hdecl

end MiniJava
