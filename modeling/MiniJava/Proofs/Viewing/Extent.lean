import Mathlib.Data.String.Basic
import MiniJava.Proofs.Storage.Program
import MiniJava.Proofs.Tiling.Source
import MiniJava.Text.Lines
import MiniJava.Viewer

/-!
# How much there is to show

No list that the viewer shows is longer than its text. Each row of an outline has a token of its own
among the tokens that were read for it, each token a character, and so has each line.
-/

namespace MiniJava

/-! ## A token for each row -/

mutual

theorem ExprPhrase.length_outline_le : ∀ (x : ExprPhrase) (depth : Nat),
    (x.tree.outline depth).length ≤ x.tokens.length
  | .operand head tails, depth => by
    have htails := TailsPhrase.length_outline_le tails head.tree (HeadPhrase.length_outline_le head)
    rw [ExprPhrase.tree, ExprPhrase.tokens, List.length_append]
    exact htails depth
  | .binary left op right, depth => by
    have hleft := ExprPhrase.length_outline_le left (depth + 1)
    have hright := ExprPhrase.length_outline_le right (depth + 1)
    simp only [ExprPhrase.tree, ExprPhrase.tokens, Expr.outline, List.length_append,
      List.length_cons]
    omega

theorem HeadPhrase.length_outline_le : ∀ (x : HeadPhrase) (depth : Nat),
    (x.tree.outline depth).length ≤ x.tokens.length
  | .not bang negand, depth => by
    have hnegand := HeadPhrase.length_outline_le negand (depth + 1)
    exact Nat.succ_le_succ hnegand
  | .parens _ inner _, depth => by
    have hinner := ExprPhrase.length_outline_le inner depth
    simp only [HeadPhrase.tree, HeadPhrase.tokens, List.length_append, List.length_cons]
    omega
  | .newArray _ _ _ length _, depth => by
    have hlength := ExprPhrase.length_outline_le length (depth + 1)
    simp only [HeadPhrase.tree, HeadPhrase.tokens, Expr.outline, List.length_append,
      List.length_cons]
    omega
  | .this _, _ | .boolLiteral _, _ | .intLiteral _, _ | .name _, _ | .newObject .., _ => by
    simp [HeadPhrase.tree, HeadPhrase.tokens, Expr.outline]

-- What the tails are put behind moves deeper, so its rows are bounded at every depth.
theorem TailsPhrase.length_outline_le : ∀ (x : TailsPhrase) (e : Expr) {n : Nat},
    (∀ depth, (e.outline depth).length ≤ n) →
      ∀ depth, ((x.extend e).outline depth).length ≤ n + x.tokens.length
  | .nil, e, n, he, depth => he depth
  | .index _ i _ rest, e, n, he, depth => by
    have hindexed : ∀ depth, ((Expr.index e i.tree).outline depth).length ≤
        n + i.tokens.length + 1 := by
      intro depth
      have he := he (depth + 1)
      have hi := ExprPhrase.length_outline_le i (depth + 1)
      simp only [Expr.outline, List.length_append, List.length_cons]
      omega
    have hrest := TailsPhrase.length_outline_le rest _ hindexed depth
    simp only [TailsPhrase.extend, TailsPhrase.tokens, List.length_append, List.length_cons]
    omega
  | .length _ _ rest, e, n, he, depth => by
    have hmeasured : ∀ depth, ((Expr.arrayLength e).outline depth).length ≤ n + 1 :=
      fun depth => Nat.succ_le_succ (he (depth + 1))
    have hrest := TailsPhrase.length_outline_le rest _ hmeasured depth
    simp only [TailsPhrase.extend, TailsPhrase.tokens, List.length_cons]
    omega
  | .call _ method args rest, e, n, he, depth => by
    have hcalled : ∀ depth, ((Expr.call e method.token args.trees).outline depth).length ≤
        n + args.tokens.length + 1 := by
      intro depth
      have he := he (depth + 1)
      have hargs := ArgsPhrase.length_outline_le args (depth + 1)
      simp only [Expr.outline, List.length_append, List.length_cons]
      omega
    have hrest := TailsPhrase.length_outline_le rest _ hcalled depth
    simp only [TailsPhrase.extend, TailsPhrase.tokens, List.length_append, List.length_cons]
    omega

theorem ArgsPhrase.length_outline_le : ∀ (x : ArgsPhrase) (depth : Nat),
    (Expr.outlineEach depth x.trees).length ≤ x.tokens.length
  | .none _ _, _ => Nat.zero_le _
  | .some _ first more _, depth => by
    have hfirst := ExprPhrase.length_outline_le first depth
    have hmore := MoreArgsPhrase.length_outline_le more depth
    simp only [ArgsPhrase.trees, ArgsPhrase.tokens, Expr.outlineEach, List.length_append,
      List.length_cons]
    omega

theorem MoreArgsPhrase.length_outline_le : ∀ (x : MoreArgsPhrase) (depth : Nat),
    (Expr.outlineEach depth x.trees).length ≤ x.tokens.length
  | .nil, _ => Nat.le_refl _
  | .cons _ arg rest, depth => by
    have harg := ExprPhrase.length_outline_le arg depth
    have hrest := MoreArgsPhrase.length_outline_le rest depth
    simp only [MoreArgsPhrase.trees, MoreArgsPhrase.tokens, Expr.outlineEach, List.length_append,
      List.length_cons]
    omega

end

theorem ParensPhrase.length_outline_le (x : ParensPhrase) (depth : Nat) :
    (x.inner.tree.outline depth).length + 2 ≤ x.tokens.length := by
  have hinner := x.inner.length_outline_le depth
  simp only [ParensPhrase.tokens, List.length_append, List.length_cons]
  omega

mutual

theorem StatementPhrase.length_outline_le : ∀ (x : StatementPhrase) (depth : Nat),
    (x.tree.outline depth).length ≤ x.tokens.length
  | .block _ statements _, depth => by
    have hstatements := StatementsPhrase.length_outline_le statements (depth + 1)
    simp only [StatementPhrase.tree, StatementPhrase.tokens, Statement.outline, List.length_append,
      List.length_cons]
    omega
  | .varDecl decl _, depth => by
    exact Nat.succ_le_succ (Nat.zero_le _)
  | .assignment target _ value _, depth => by
    have htarget := target.length_outline_le (depth + 1)
    have hvalue := value.length_outline_le (depth + 1)
    simp only [StatementPhrase.tree, StatementPhrase.tokens, Statement.outline, List.length_append,
      List.length_cons]
    omega
  | .print _ _ _ _ _ value _, depth => by
    have hvalue := value.length_outline_le (depth + 1)
    simp only [StatementPhrase.tree, StatementPhrase.tokens, Statement.outline, List.length_append,
      List.length_cons]
    omega
  | .assert _ condition _, depth => by
    have hcondition := condition.length_outline_le (depth + 1)
    simp only [StatementPhrase.tree, StatementPhrase.tokens, Statement.outline, List.length_append,
      List.length_cons]
    omega
  | .returnValue _ value _, depth => by
    have hvalue := value.length_outline_le (depth + 1)
    simp only [StatementPhrase.tree, StatementPhrase.tokens, Statement.outline, List.length_append,
      List.length_cons]
    omega
  | .call call _, depth => by
    have hcall := call.expr.length_outline_le (depth + 1)
    rw [call.tree_expr] at hcall
    simp only [StatementPhrase.tree, StatementPhrase.tokens, Statement.outline, List.length_append,
      List.length_cons]
    omega
  | .ifThen _ condition thenBranch, depth => by
    have hcondition := condition.length_outline_le (depth + 1)
    have hthen := StatementPhrase.length_outline_le thenBranch (depth + 1)
    simp only [StatementPhrase.tree, StatementPhrase.tokens, Statement.outline, List.length_append,
      List.length_cons]
    omega
  | .ifElse _ condition thenBranch _ elseBranch, depth => by
    have hcondition := condition.length_outline_le (depth + 1)
    have hthen := StatementPhrase.length_outline_le thenBranch (depth + 1)
    have helse := StatementPhrase.length_outline_le elseBranch (depth + 1)
    simp only [StatementPhrase.tree, StatementPhrase.tokens, Statement.outline, List.length_append,
      List.length_cons]
    omega
  | .loop _ condition body, depth => by
    have hcondition := condition.length_outline_le (depth + 1)
    have hbody := StatementPhrase.length_outline_le body (depth + 1)
    simp only [StatementPhrase.tree, StatementPhrase.tokens, Statement.outline, List.length_append,
      List.length_cons]
    omega

theorem StatementsPhrase.length_outline_le : ∀ (x : StatementsPhrase) (depth : Nat),
    (Statement.outlineEach depth x.trees).length ≤ x.tokens.length
  | .nil, _ => Nat.le_refl _
  | .cons first rest, depth => by
    have hfirst := StatementPhrase.length_outline_le first depth
    have hrest := StatementsPhrase.length_outline_le rest depth
    simp only [StatementsPhrase.trees, StatementsPhrase.tokens, Statement.outlineEach,
      List.length_append]
    omega

end

-- A method has its row at its name, whatever sort of method it is.
theorem BodyPhrase.length_outlineMethod_le (x : BodyPhrase) (word : String) {m : Method}
    (h : m.body = x.statements.trees) :
    (Program.outlineMethod word m).length < x.tokens.length := by
  have hstatements := x.statements.length_outline_le 2
  rw [Program.outlineMethod, h]
  simp only [BodyPhrase.tokens, List.length_append, List.length_cons]
  omega

theorem MethodPhrase.length_outline_le (x : MethodPhrase) :
    (Program.outlineMethod "method" x.tree).length ≤ x.tokens.length := by
  have hbody := x.body.length_outlineMethod_le "method" (m := x.tree) rfl
  simp only [MethodPhrase.tokens, List.length_append, List.length_cons]
  omega

theorem MainClassPhrase.length_outline_lt (x : MainClassPhrase) :
    (Program.outlineMethod "static method" x.tree.mainMethod).length < x.tokens.length := by
  have hbody := x.method.body.length_outlineMethod_le "static method" (m := x.tree.mainMethod) rfl
  simp only [MainClassPhrase.tokens, MainMethodPhrase.tokens, List.length_append, List.length_cons]
  omega

-- The rows of the fields of a class come before those of its methods, in whatever order they stand.
theorem MemberPhrase.length_outline_le (members : List MemberPhrase) :
    (members.filterMap (·.field?)).length +
        ((members.filterMap (·.method?)).flatMap (Program.outlineMethod "method")).length ≤
      (members.flatMap (·.tokens)).length := by
  induction members with
  | nil => exact Nat.le_refl _
  | cons member members ih =>
    generalize hfields : members.filterMap (·.field?) = fields at ih
    generalize hmethods : members.filterMap (·.method?) = methods at ih
    rw [List.filterMap_cons, List.filterMap_cons, List.flatMap_cons, hfields, hmethods,
      List.length_append]
    cases member with
    | field decl =>
      have hdecl : 0 < (MemberPhrase.field decl).tokens.length := Nat.succ_pos _
      show fields.length + 1 + (methods.flatMap (Program.outlineMethod "method")).length ≤ _
      omega
    | method m =>
      have hm : (Program.outlineMethod "method" m.tree).length ≤ (method m).tokens.length :=
        m.length_outline_le
      show fields.length + ((m.tree :: methods).flatMap (Program.outlineMethod "method")).length ≤ _
      rw [List.flatMap_cons, List.length_append]
      omega

theorem ClassPhrase.length_outline_le (x : ClassPhrase) :
    (Program.outlineClass x.tree).length ≤ x.tokens.length := by
  have hmembers := MemberPhrase.length_outline_le x.members
  simp only [Program.outlineClass, ClassPhrase.tree, ClassPhrase.tokens, List.length_append,
    List.length_cons, List.length_map]
  omega

/-- A program has no more rows than it was read from tokens. -/
theorem ProgramPhrase.length_outline_le (x : ProgramPhrase) :
    x.tree.outline.length ≤ x.tokens.length := by
  have hmain := x.mainClass.length_outline_lt
  have hclasses : ((x.classes.map (·.tree)).flatMap Program.outlineClass).length ≤
      (x.classes.flatMap (·.tokens)).length := by
    induction x.classes with
    | nil => exact Nat.le_refl _
    | cons c classes ih =>
      have hc := c.length_outline_le
      simp only [List.map_cons, List.flatMap_cons, List.length_append]
      omega
  simp only [Program.outline, ProgramPhrase.tree, ProgramPhrase.tokens, List.length_append,
    List.length_cons]
  omega

/-! ## A character for each token and each line -/

-- A token has a text.
theorem Tiled.length_le {front text : List Char} {tokens : List Token}
    (h : Tiled front text tokens) : tokens.length ≤ text.length := by
  induction h with
  | last => exact Nat.zero_le _
  | @token front gap rest t tokens hgap hlongest hplace h ih =>
    have hpos : 0 < t.text.toList.length := List.length_pos_iff.mpr hlongest.isLexeme.ne_nil
    simp only [List.length_cons, List.length_append]
    omega

theorem length_ahead_tokenize_le (source : String) :
    (TokenStream.ofTokens (tokenize source).tokens).ahead.length ≤ source.length := by
  obtain ⟨tokens, heq, htiled⟩ := exists_tiled_tokenize source
  have hahead := congrArg List.length (ahead_append_ending_tokenize source)
  have hlength := congrArg List.length heq
  have hle : tokens.length ≤ source.length := htiled.length_le
  rw [List.length_append, List.length_singleton] at hahead hlength
  omega

/-- The tree of a text has no more rows than the text has characters. -/
theorem length_outline_le_of_parse {source : String} {policy : ErrorPolicy} {p : Program}
    (h : parse source policy = .ok p) : p.outline.length ≤ source.length := by
  obtain ⟨-, d, htokens, -, -, rfl⟩ :=
    (parse_eq_ok_iff source p).mp (parse_failFast_of_parse h)
  calc d.tree.outline.length
      ≤ d.tokens.length := d.length_outline_le
    _ ≤ source.length := by
      rw [htokens]
      exact length_ahead_tokenize_le source

namespace Text

-- What ends a line belongs to it.
theorem length_splitLines_le (s : List Char) : (splitLines s).length ≤ s.length := by
  fun_induction splitLines s with
  | case1 => exact Nat.le_refl _
  | case2 rest ih => exact Nat.succ_le_succ ih
  | case3 rest ih => exact Nat.le_succ_of_le (Nat.succ_le_succ ih)
  | case4 c rest _ _ hnone ih => exact Nat.succ_le_succ (Nat.zero_le _)
  | case5 c rest _ _ line more hsome ih =>
    rw [hsome] at ih
    exact Nat.le_succ_of_le ih

/-- A text has no more lines than characters. -/
theorem length_lines_le (s : String) : (lines s).length ≤ s.length := by
  rw [lines, List.length_map]
  exact length_splitLines_le s.toList

/-- A text has no more characters than bytes. -/
theorem length_le_utf8ByteSize (s : String) : s.length ≤ s.utf8ByteSize := by
  rw [← String.utf8Len_toList, ← String.length_toList]
  induction s.toList with
  | nil => exact Nat.le_refl _
  | cons c cs ih =>
    have hsize := c.utf8Size_pos
    rw [List.length_cons, String.utf8Len_cons]
    omega

end Text

end MiniJava
