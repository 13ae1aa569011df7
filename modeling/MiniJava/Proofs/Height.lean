import MiniJava.Proofs.RoundTrip
import MiniJava.Proofs.Storage.Program
import Mathlib.Data.List.MinMax
import Mathlib.Order.Nat

/-!
# How high the tree of a text can be

The nesting limit counts the expressions and statements that are open at once. Two loops put nodes
around the expression read so far and open nothing: the one that joins operators, and the one that
adds tails. So the tree of a text can be as high as it likes, on the left: an operator holds what
stands before it as its left side, and an index, a length or a call holds it as its array or
receiver.

`height` counts the nodes on the longest way down a tree, and what a step into such an expression
counts is a parameter. Counted in any one of the four ways to make it, it makes heights unbounded
(`parse_height_unbounded`). Not counted, every text has a tree of at most seven nodes for each level
that may be open (`parse_height_le`): one for each precedence, and one for the operand.
-/

namespace MiniJava

/-- The nodes that the parser puts around an expression it has already read. -/
inductive Wrap where
  | operator | index | length | call
deriving DecidableEq, Repr, Inhabited

namespace Wrap

/-- Every step down a tree counts. -/
def counted : Wrap → Nat := fun _ => 1

/-- No step counts that goes down into an expression that a node was put around. -/
def uncounted : Wrap → Nat := fun _ => 0

/-- Such steps count for one kind of node only. -/
def only (w : Wrap) : Wrap → Nat := fun v => if v = w then 1 else 0

end Wrap

/-! ## Heights -/

mutual

/-- The nodes on the longest way down an expression. -/
def Expr.height (weight : Wrap → Nat) : Expr → Nat
  | .binary left _ right =>
    max (left.height weight + weight .operator) (right.height weight + 1)
  | .unary _ operand => operand.height weight + 1
  | .index array i => max (array.height weight + weight .index) (i.height weight + 1)
  | .arrayLength array => array.height weight + weight .length
  | .newArray _ length _ => length.height weight + 1
  | .call receiver _ args =>
    max (receiver.height weight + weight .call) (Expr.eachHeight weight args + 1)
  | .newObject .. | .intLiteral _ | .boolLiteral _ | .identifier _ | .this _ => 1

def Expr.eachHeight (weight : Wrap → Nat) : List Expr → Nat
  | [] => 0
  | e :: es => max (e.height weight) (Expr.eachHeight weight es)

end

mutual

/-- The nodes on the longest way down a statement, through the expressions in it. -/
def Statement.height (weight : Wrap → Nat) : Statement → Nat
  | .block statements _ => Statement.eachHeight weight statements + 1
  | .varDecl _ => 1
  | .assignment target value _ => max (target.height weight) (value.height weight) + 1
  | .print value _ => value.height weight + 1
  | .assert condition _ => condition.height weight + 1
  | .returnValue value _ => value.height weight + 1
  | .call receiver _ args => max (receiver.height weight) (Expr.eachHeight weight args) + 1
  | .ifThen condition thenBranch _ =>
    max (condition.height weight) (thenBranch.height weight) + 1
  | .ifElse condition thenBranch elseBranch _ =>
    max (condition.height weight) (max (thenBranch.height weight) (elseBranch.height weight)) + 1
  | .loop condition body _ => max (condition.height weight) (body.height weight) + 1

def Statement.eachHeight (weight : Wrap → Nat) : List Statement → Nat
  | [] => 0
  | s :: ss => max (s.height weight) (Statement.eachHeight weight ss)

end

/-- The longest chain of nested statements and expressions in a program. -/
def Program.height (weight : Wrap → Nat) (p : Program) : Nat :=
  (p.methods.map fun m => Statement.eachHeight weight m.body).foldr max 0

/-! ## The bound

An expression of the parser is a chain of right sides, each under an operator that binds tighter
than the one before, until a level is opened. -/

mutual

theorem ExprPhrase.height_le : ∀ x : ExprPhrase, x.Grouped →
    x.tree.height Wrap.uncounted + x.tightness ≤
      (TokenKind.maxPrecedence + 1) * x.levels + (TokenKind.maxPrecedence + 2)
  | .operand head tails, ⟨hhead, htails⟩ => by
    have h := TailsPhrase.height_le tails head.tree htails
    have hhead := HeadPhrase.height_le head hhead
    simp only [ExprPhrase.tree, ExprPhrase.tightness, ExprPhrase.levels, TokenKind.maxPrecedence]
      at *
    omega
  | .binary left op right, ⟨hlow, hhigh, hleft, hright⟩ => by
    have hleft := ExprPhrase.height_le left hleft
    have hright := ExprPhrase.height_le right hright
    simp only [ExprPhrase.tree, ExprPhrase.tightness, ExprPhrase.levels, Expr.height,
      Wrap.uncounted, TokenKind.maxPrecedence] at *
    omega

theorem HeadPhrase.height_le : ∀ x : HeadPhrase, x.Grouped →
    x.tree.height Wrap.uncounted ≤ (TokenKind.maxPrecedence + 1) * x.levels + 1
  | .not bang negand, h => by
    have hnegand := HeadPhrase.height_le negand h
    simp only [HeadPhrase.tree, HeadPhrase.levels, Expr.height, TokenKind.maxPrecedence] at *
    omega
  | .parens _ inner _, h => by
    have hinner := ExprPhrase.height_le inner h
    have hpos := inner.tightness_pos
    simp only [HeadPhrase.tree, HeadPhrase.levels, TokenKind.maxPrecedence] at *
    omega
  | .newArray _ _ _ length _, h => by
    have hlength := ExprPhrase.height_le length h
    have hpos := length.tightness_pos
    simp only [HeadPhrase.tree, HeadPhrase.levels, Expr.height, TokenKind.maxPrecedence] at *
    omega
  | .this _, _ | .boolLiteral _, _ | .intLiteral _, _ | .name _, _ | .newObject .., _ => by
    simp [HeadPhrase.tree, Expr.height]

theorem TailsPhrase.height_le : ∀ (x : TailsPhrase) (e : Expr), x.Grouped →
    (x.extend e).height Wrap.uncounted ≤
      max (e.height Wrap.uncounted) ((TokenKind.maxPrecedence + 1) * x.levels + 1)
  | .nil, e, _ => Nat.le_max_left _ _
  | .index _ i _ rest, e, ⟨hi, hrest⟩ => by
    have hi := ExprPhrase.height_le i hi
    have hpos := i.tightness_pos
    have hrest := TailsPhrase.height_le rest (.index e i.tree) hrest
    simp only [TailsPhrase.extend, TailsPhrase.levels, Expr.height, Wrap.uncounted,
      TokenKind.maxPrecedence] at *
    omega
  | .length _ _ rest, e, h => by
    -- The length opens nothing and counts nothing.
    exact TailsPhrase.height_le rest (.arrayLength e) h
  | .call _ method args rest, e, ⟨hargs, hrest⟩ => by
    have hargs := ArgsPhrase.height_le args hargs
    have hrest := TailsPhrase.height_le rest (.call e method.token args.trees) hrest
    simp only [TailsPhrase.extend, TailsPhrase.levels, Expr.height, Wrap.uncounted,
      TokenKind.maxPrecedence] at *
    omega

theorem ArgsPhrase.height_le : ∀ x : ArgsPhrase, x.Grouped →
    Expr.eachHeight Wrap.uncounted x.trees ≤ (TokenKind.maxPrecedence + 1) * x.levels
  | .none _ _, _ => Nat.zero_le _
  | .some _ first more _, ⟨hfirst, hmore⟩ => by
    have hfirst := ExprPhrase.height_le first hfirst
    have hpos := first.tightness_pos
    have hmore := MoreArgsPhrase.height_le more hmore
    simp only [ArgsPhrase.trees, ArgsPhrase.levels, Expr.eachHeight, TokenKind.maxPrecedence] at *
    omega

theorem MoreArgsPhrase.height_le : ∀ x : MoreArgsPhrase, x.Grouped →
    Expr.eachHeight Wrap.uncounted x.trees ≤ (TokenKind.maxPrecedence + 1) * x.levels
  | .nil, _ => Nat.zero_le _
  | .cons _ arg rest, ⟨harg, hrest⟩ => by
    have harg := ExprPhrase.height_le arg harg
    have hpos := arg.tightness_pos
    have hrest := MoreArgsPhrase.height_le rest hrest
    simp only [MoreArgsPhrase.trees, MoreArgsPhrase.levels, Expr.eachHeight,
      TokenKind.maxPrecedence] at *
    omega

end

-- An expression that opens a level stays within it.
theorem ExprPhrase.Grouped.height_le_level {x : ExprPhrase} (h : x.Grouped) :
    x.tree.height Wrap.uncounted ≤ (TokenKind.maxPrecedence + 1) * (x.levels + 1) := by
  have hheight := ExprPhrase.height_le x h
  have hpos := x.tightness_pos
  rw [Nat.mul_succ]
  omega

mutual

theorem StatementPhrase.height_le : ∀ x : StatementPhrase, x.Every (·.Grouped) →
    x.tree.height Wrap.uncounted ≤ (TokenKind.maxPrecedence + 1) * x.levels + 1
  | .block _ statements _, h => by
    have hstatements := StatementsPhrase.height_le statements h.2
    exact Nat.succ_le_succ hstatements
  | .varDecl .., _ => Nat.le_add_left _ _
  | .assignment target _ value _, h => by
    have htarget := (h target List.mem_cons_self).height_le_level
    have hvalue := (h value (List.mem_cons_of_mem _ List.mem_cons_self)).height_le_level
    simp only [StatementPhrase.tree, StatementPhrase.levels, Statement.height,
      TokenKind.maxPrecedence] at *
    omega
  | .print _ _ _ _ _ value _, h => by
    have hvalue := (h value.inner List.mem_cons_self).height_le_level
    exact Nat.succ_le_succ hvalue
  | .assert _ condition _, h => by
    have hcondition := (h condition.inner List.mem_cons_self).height_le_level
    exact Nat.succ_le_succ hcondition
  | .returnValue _ value _, h => by
    have hvalue := (h value List.mem_cons_self).height_le_level
    exact Nat.succ_le_succ hvalue
  | .call c _, h => by
    have hcall := (h c.expr List.mem_cons_self).height_le_level
    rw [c.tree_expr] at hcall
    simp only [StatementPhrase.tree, StatementPhrase.levels, Statement.height, Expr.height,
      Wrap.uncounted, TokenKind.maxPrecedence] at *
    omega
  | .ifThen _ condition thenBranch, ⟨h, hthen⟩ => by
    have hcondition := (h condition.inner List.mem_cons_self).height_le_level
    have hthen := StatementPhrase.height_le thenBranch hthen
    simp only [StatementPhrase.tree, StatementPhrase.levels, Statement.height,
      TokenKind.maxPrecedence] at *
    omega
  | .ifElse _ condition thenBranch _ elseBranch, ⟨h, hthen, helse⟩ => by
    have hcondition := (h condition.inner List.mem_cons_self).height_le_level
    have hthen := StatementPhrase.height_le thenBranch hthen
    have helse := StatementPhrase.height_le elseBranch helse
    simp only [StatementPhrase.tree, StatementPhrase.levels, Statement.height,
      TokenKind.maxPrecedence] at *
    omega
  | .loop _ condition body, ⟨h, hbody⟩ => by
    have hcondition := (h condition.inner List.mem_cons_self).height_le_level
    have hbody := StatementPhrase.height_le body hbody
    simp only [StatementPhrase.tree, StatementPhrase.levels, Statement.height,
      TokenKind.maxPrecedence] at *
    omega

theorem StatementsPhrase.height_le : ∀ x : StatementsPhrase, x.Every (·.Grouped) →
    Statement.eachHeight Wrap.uncounted x.trees ≤ (TokenKind.maxPrecedence + 1) * x.levels
  | .nil, _ => Nat.zero_le _
  | .cons first rest, ⟨hfirst, hrest⟩ => by
    have hfirst := StatementPhrase.height_le first hfirst
    have hrest := StatementsPhrase.height_le rest hrest
    simp only [StatementsPhrase.trees, StatementsPhrase.levels, Statement.eachHeight,
      TokenKind.maxPrecedence] at *
    omega

end

-- The bodies of the methods of a derived program are those of its phrases.
theorem ProgramPhrase.map_body_methods (x : ProgramPhrase) :
    x.tree.methods.map (·.body) = x.bodies.map (·.statements.trees) := by
  have hmembers (members : List MemberPhrase) :
      (members.filterMap (·.method?)).map (·.body) =
        (members.flatMap (·.bodies)).map (·.statements.trees) := by
    induction members with
    | nil => rfl
    | cons member members ih =>
      cases member with
      | field decl => exact ih
      | method m => exact congrArg (m.body.statements.trees :: ·) ih
  have hclasses (classes : List ClassPhrase) :
      ((classes.map (·.tree)).flatMap (·.methods)).map (·.body) =
        (classes.flatMap fun c => c.members.flatMap (·.bodies)).map (·.statements.trees) := by
    induction classes with
    | nil => rfl
    | cons c classes ih =>
      rw [List.map_cons, List.flatMap_cons, List.map_append, List.flatMap_cons, List.map_append, ih]
      exact congrArg (· ++ _) (hmembers c.members)
  exact congrArg (x.mainClass.method.body.statements.trees :: ·) (hclasses x.classes)

/-- In the tree of a text, no way down has more than seven nodes for each level that may be open,
steps into what nodes were put around not counted. -/
theorem parse_height_le {source : String} {policy : ErrorPolicy} {p : Program}
    (h : parse source policy = .ok p) :
    p.height Wrap.uncounted ≤ (TokenKind.maxPrecedence + 1) * maxNesting := by
  obtain ⟨-, d, -, hregular, hwithin, rfl⟩ :=
    (parse_eq_ok_iff source p).mp (parse_failFast_of_parse h)
  have hgrouped : d.Every (·.Grouped) := hregular.imp fun _ hx => hx.1.1
  have hbodies : ∀ k ∈ d.bodies.map fun b => Statement.eachHeight Wrap.uncounted b.statements.trees,
      k ≤ (TokenKind.maxPrecedence + 1) * maxNesting := by
    intro k hk
    obtain ⟨b, hb, rfl⟩ := List.mem_map.mp hk
    calc Statement.eachHeight Wrap.uncounted b.statements.trees
        ≤ (TokenKind.maxPrecedence + 1) * b.statements.levels :=
          StatementsPhrase.height_le _ (hgrouped b hb)
      _ ≤ (TokenKind.maxPrecedence + 1) * maxNesting := Nat.mul_le_mul_left _ (hwithin b hb)
  have hmethods : d.tree.methods.map (fun m => Statement.eachHeight Wrap.uncounted m.body) =
      d.bodies.map fun b => Statement.eachHeight Wrap.uncounted b.statements.trees := by
    have hmap := congrArg (List.map (Statement.eachHeight Wrap.uncounted)) d.map_body_methods
    rwa [List.map_map, List.map_map] at hmap
  rw [Program.height, hmethods]
  exact List.max_le_of_forall_le _ _ hbodies

-- The tree of a text with a sum in it, read with recovery.
theorem height_le_of_sum :
    parse "class M \x7b public static void main() \x7b a = b + 3; \x7d \x7d" .recover =
        .ok (.around .sum) ∧
      (Program.around .sum).height Wrap.uncounted ≤
        (TokenKind.maxPrecedence + 1) * maxNesting := by
  have hread : parse "class M \x7b public static void main() \x7b a = b + 3; \x7d \x7d" .recover =
      .ok (.around .sum) := by decide +kernel
  exact ⟨hread, parse_height_le hread⟩

/-! ## Chains

Texts in which nodes of one kind are put around a name, as many as one likes. -/

/-- Lexemes as a text, with a space behind each. -/
def Lexeme.spaced (ls : List Lexeme) : String :=
  String.ofList (ls.flatMap fun l => l.text.toList ++ [' '])

-- Lexemes that are spelled as their kinds want it are what their text consists of.
theorem Lexeme.tokenize_spaced {ls : List Lexeme} (h : ∀ l ∈ ls, l.Spelled) :
    (tokenize (Lexeme.spaced ls)).errors = [] ∧
      (TokenStream.ofTokens (tokenize (Lexeme.spaced ls)).tokens).ahead.map (·.lexeme) = ls := by
  have hlexes : LexesTo (ls.flatMap fun l => l.text.toList ++ [' ']) ls := by
    induction ls with
    | nil => exact LexesTo.nil
    | cons l ls ih =>
      obtain ⟨hl, hls⟩ := List.forall_mem_cons.mp h
      have hfirst := ((ih hls).gap (c := ' ') rfl).spelled hl (delimited_space _)
      simpa using hfirst
  refine (lexesTo_iff (Lexeme.spaced ls) ls).mp ?_
  rwa [Lexeme.spaced, String.toList_ofList]

/-- The name in the texts below. -/
def Lexeme.name : Lexeme := ⟨.identifier, "a"⟩

namespace Wrap

/-- The lexemes behind an expression that put one such node around it. -/
def lexemes : Wrap → List Lexeme
  | operator => [TokenKind.add.lexeme, Lexeme.name]
  | index => [TokenKind.lbracket.lexeme, Lexeme.name, TokenKind.rbracket.lexeme]
  | length => [TokenKind.dot.lexeme, TokenKind.lengthWord.lexeme]
  | call =>
    [TokenKind.dot.lexeme, Lexeme.name, TokenKind.lparen.lexeme, TokenKind.rparen.lexeme]

/-- The lexemes that put so many nodes around an expression. -/
def chain (w : Wrap) (n : Nat) : List Lexeme := (List.replicate n w.lexemes).flatten

/-- The lexemes in front of the value that the program assigns. -/
def opening : List Lexeme :=
  [TokenKind.classWord.lexeme, Lexeme.name, TokenKind.lbrace.lexeme, TokenKind.publicWord.lexeme,
    TokenKind.staticWord.lexeme, TokenKind.voidWord.lexeme, Lexeme.name, TokenKind.lparen.lexeme,
    TokenKind.rparen.lexeme, TokenKind.lbrace.lexeme, Lexeme.name, TokenKind.assign.lexeme]

/-- The lexemes behind it. -/
def closing : List Lexeme :=
  [TokenKind.semicolon.lexeme, TokenKind.rbrace.lexeme, TokenKind.rbrace.lexeme]

/-- The text of a program that assigns a name with so many nodes around it. -/
def source (w : Wrap) (n : Nat) : String :=
  Lexeme.spaced (opening ++ (Lexeme.name :: w.chain n) ++ closing)

-- The name and the kinds that have one spelling are spelled as they should be.
theorem spelled_of_fixed {ls : List Lexeme}
    (h : ∀ l ∈ ls, l = Lexeme.name ∨ l.kind.spelling? = some l.text) : ∀ l ∈ ls, l.Spelled := by
  have hname : Segment.isLegalName "a".toList = true ∧ TokenKind.ofWord? "a" = none := by
    decide +kernel
  intro l hl
  rcases h l hl with rfl | hfixed
  · exact hname
  · exact Lexeme.spelled_of_spelling? hfixed

theorem spelled_chain (w : Wrap) (n : Nat) : ∀ l ∈ w.chain n, l.Spelled := by
  have hone : ∀ l ∈ w.lexemes, l.Spelled := spelled_of_fixed (by cases w <;> decide +kernel)
  intro l hl
  obtain ⟨ls, hls, hl⟩ := List.mem_flatten.mp hl
  rw [List.eq_of_mem_replicate hls] at hl
  exact hone l hl

theorem tokenize_source (w : Wrap) (n : Nat) :
    (tokenize (w.source n)).errors = [] ∧
      (TokenStream.ofTokens (tokenize (w.source n)).tokens).ahead.map (·.lexeme) =
        opening ++ (Lexeme.name :: w.chain n) ++ closing := by
  have hopening : ∀ l ∈ opening, l.Spelled := spelled_of_fixed (by decide +kernel)
  have hname : ∀ l ∈ [Lexeme.name], l.Spelled := spelled_of_fixed (by decide +kernel)
  have hclosing : ∀ l ∈ closing, l.Spelled := spelled_of_fixed (by decide +kernel)
  refine Lexeme.tokenize_spaced fun l hl => ?_
  simp only [List.mem_append, List.mem_cons] at hl
  rcases hl with (hl | rfl | hl) | hl
  · exact hopening l hl
  · exact hname _ (List.mem_singleton_self _)
  · exact spelled_chain w n l hl
  · exact hclosing l hl

/-! ### Their derivations -/

variable {w : Wrap} {weight : Wrap → Nat}

-- The name as a leaf.
theorem exists_name {t : Token} (ht : t.lexeme = Lexeme.name) :
    ∃ leaf : Terminal [.identifier], leaf.token = t :=
  ⟨⟨t, List.mem_singleton.mpr (congrArg Lexeme.kind ht)⟩, rfl⟩

-- The lexemes of one tail are derived by a tail, which is around any expression as one node.
theorem exists_tail (weight : Wrap → Nat) (hw : w ≠ operator) {ts : List Token}
    (hts : ts.map (·.lexeme) = w.lexemes) :
    ∃ tail : TailsPhrase, tail.tokens = ts ∧ tail.Grouped ∧ tail.levels ≤ 1 ∧
      ∀ e : Expr, e.height weight + weight w ≤ (tail.extend e).height weight := by
  cases w with
  | operator => exact absurd rfl hw
  | index =>
    simp only [lexemes, List.map_eq_cons_iff, List.map_eq_nil_iff] at hts
    obtain ⟨opening, _, rfl, hopening, name, _, rfl, hname, closing, _, rfl, hclosing, rfl⟩ := hts
    obtain ⟨leaf, rfl⟩ := exists_name hname
    exact ⟨.index (.ofLexeme opening hopening) (.operand (.name leaf) .nil)
      (.ofLexeme closing hclosing) .nil, rfl, ⟨⟨trivial, trivial⟩, trivial⟩, le_rfl,
      fun e => Nat.le_max_left _ _⟩
  | length =>
    simp only [lexemes, List.map_eq_cons_iff, List.map_eq_nil_iff] at hts
    obtain ⟨dot, _, rfl, hdot, word, _, rfl, hword, rfl⟩ := hts
    exact ⟨.length (.ofLexeme dot hdot) (.ofLexeme word hword) .nil, rfl, trivial,
      Nat.zero_le _, fun e => le_rfl⟩
  | call =>
    simp only [lexemes, List.map_eq_cons_iff, List.map_eq_nil_iff] at hts
    obtain ⟨dot, _, rfl, hdot, name, _, rfl, hname, opening, _, rfl, hopening, closing, _, rfl,
      hclosing, rfl⟩ := hts
    obtain ⟨leaf, rfl⟩ := exists_name hname
    exact ⟨.call (.ofLexeme dot hdot) leaf
      (.none (.ofLexeme opening hopening) (.ofLexeme closing hclosing)) .nil, rfl,
      ⟨trivial, trivial⟩, Nat.zero_le _, fun e => Nat.le_max_left _ _⟩

-- The lexemes of tails are derived by tails, each of them one node more.
theorem exists_tails (hw : w ≠ operator) (hweight : 0 < weight w) : ∀ (n : Nat) {ts : List Token},
    ts.map (·.lexeme) = w.chain n → ∃ tails : TailsPhrase, tails.tokens = ts ∧ tails.Grouped ∧
      tails.levels ≤ 1 ∧ ∀ e : Expr, e.height weight + n ≤ (tails.extend e).height weight
  | 0, ts, hts => by
    obtain rfl := List.map_eq_nil_iff.mp hts
    exact ⟨.nil, rfl, trivial, Nat.zero_le _, fun _ => le_rfl⟩
  | n + 1, ts, hts => by
    rw [chain, List.replicate_succ, List.flatten_cons] at hts
    obtain ⟨ts₁, ts₂, rfl, hts₁, hts₂⟩ := List.map_eq_append_iff.mp hts
    obtain ⟨tail, rfl, hgrouped, hlevels, hheight⟩ := exists_tail weight hw hts₁
    obtain ⟨rest, rfl, hgroupedRest, hlevelsRest, hheightRest⟩ := exists_tails hw hweight n hts₂
    refine ⟨tail.append rest, tail.tokens_append rest,
      (tail.grouped_append rest).mpr ⟨hgrouped, hgroupedRest⟩, ?_, fun e => ?_⟩
    · rw [TailsPhrase.levels_append]
      exact Nat.max_le.mpr ⟨hlevels, hlevelsRest⟩
    · have hone := hheight e
      have hmore := hheightRest (tail.extend e)
      rw [TailsPhrase.extend_append]
      omega

-- The lexemes of sums behind an expression are derived with it, each sum as one node more.
theorem exists_sums (hweight : 0 < weight operator) : ∀ (n : Nat) {ts : List Token}
    (left : ExprPhrase), left.Grouped → left.levels = 0 →
      TokenKind.add.precedence ≤ left.tightness → ts.map (·.lexeme) = operator.chain n →
        ∃ x : ExprPhrase, x.tokens = left.tokens ++ ts ∧ x.Grouped ∧ x.levels = 0 ∧
          left.tree.height weight + n ≤ x.tree.height weight
  | 0, ts, left, hgrouped, hlevels, _, hts => by
    obtain rfl := List.map_eq_nil_iff.mp hts
    exact ⟨left, (List.append_nil _).symm, hgrouped, hlevels, le_rfl⟩
  | n + 1, ts, left, hgrouped, hlevels, htightness, hts => by
    simp only [chain, List.replicate_succ, List.flatten_cons, lexemes, List.cons_append,
      List.nil_append, List.map_eq_cons_iff] at hts
    obtain ⟨plus, _, rfl, hplus, name, ts, rfl, hname, hts⟩ := hts
    obtain ⟨leaf, rfl⟩ := exists_name hname
    have hkind : plus.kind = .add := congrArg Lexeme.kind hplus
    let op : Terminal TokenKind.binaryOperators := ⟨plus, by rw [hkind]; decide⟩
    let sum : ExprPhrase := .binary left op (.operand (.name leaf) .nil)
    have hprecedence : op.token.kind.precedence = TokenKind.add.precedence :=
      congrArg TokenKind.precedence hkind
    have hoperand : TokenKind.add.precedence < TokenKind.maxPrecedence + 1 := by decide
    have hsum : sum.Grouped :=
      ⟨hprecedence.trans_le htightness, hprecedence.trans_lt hoperand, hgrouped, trivial, trivial⟩
    obtain ⟨x, htokens, hx, hlevelsx, hheight⟩ := exists_sums hweight n sum hsum
      (by simp [sum, ExprPhrase.levels, HeadPhrase.levels, TailsPhrase.levels, hlevels])
      hprecedence.ge hts
    refine ⟨x, ?_, hx, hlevelsx, ?_⟩
    · simpa [sum, op, ExprPhrase.tokens, HeadPhrase.tokens, TailsPhrase.tokens] using htokens
    · have hone : left.tree.height weight + weight operator ≤ sum.tree.height weight :=
        Nat.le_max_left _ _
      omega

-- A name and the lexemes behind it are derived by an expression with as many nodes around it.
theorem exists_chain (hweight : 0 < weight w) (n : Nat) {ts : List Token}
    (hts : ts.map (·.lexeme) = Lexeme.name :: w.chain n) :
    ∃ x : ExprPhrase, x.tokens = ts ∧ x.Grouped ∧ x.levels ≤ 1 ∧ n ≤ x.tree.height weight := by
  obtain ⟨name, ts, rfl, hname, hmore⟩ := List.map_eq_cons_iff.mp hts
  obtain ⟨leaf, rfl⟩ := exists_name hname
  by_cases hw : w = operator
  · subst hw
    obtain ⟨x, htokens, hgrouped, hlevels, hheight⟩ :=
      exists_sums hweight n (.operand (.name leaf) .nil) ⟨trivial, trivial⟩ rfl
        (TokenKind.precedence_le .add |>.trans (Nat.le_succ _)) hmore
    exact ⟨x, htokens, hgrouped, hlevels.trans_le (Nat.zero_le _), by omega⟩
  · obtain ⟨tails, rfl, hgrouped, hlevels, hheight⟩ := exists_tails hw hweight n hmore
    have hchain := hheight (.identifier leaf.token)
    exact ⟨.operand (.name leaf) tails, rfl, ⟨trivial, hgrouped⟩,
      Nat.max_le.mpr ⟨Nat.zero_le _, hlevels⟩, (Nat.le_add_left _ _).trans hchain⟩

-- The text with so many nodes around a name is read, and its tree is as high.
theorem exists_parse_source (hweight : 0 < weight w) (n : Nat) :
    ∃ p, parse (w.source n) .failFast = .ok p ∧ n ≤ p.height weight := by
  obtain ⟨hlexical, hts⟩ := w.tokenize_source n
  obtain ⟨ts, ts₃, htokens, hts, hts₃⟩ := List.map_eq_append_iff.mp hts
  obtain ⟨ts₁, ts₂, rfl, hts₁, hts₂⟩ := List.map_eq_append_iff.mp hts
  obtain ⟨x, rfl, hgrouped, hlevels, hheight⟩ := exists_chain hweight n hts₂
  simp only [opening, closing, List.map_eq_cons_iff, List.map_eq_nil_iff] at hts₁ hts₃
  obtain ⟨classWord, _, rfl, hclass, className, _, rfl, hclassName, brace, _, rfl, hbrace,
    publicWord, _, rfl, hpublic, staticWord, _, rfl, hstatic, voidWord, _, rfl, hvoid,
    methodName, _, rfl, hmethodName, lparen, _, rfl, hlparen, rparen, _, rfl, hrparen,
    lbrace, _, rfl, hlbrace, target, _, rfl, htarget, sign, _, rfl, hsign, rfl⟩ := hts₁
  obtain ⟨semicolon, _, rfl, hsemicolon, rbrace, _, rfl, hrbrace, last, _, rfl, hlast, rfl⟩ := hts₃
  obtain ⟨classLeaf, rfl⟩ := exists_name hclassName
  obtain ⟨methodLeaf, rfl⟩ := exists_name hmethodName
  obtain ⟨targetLeaf, rfl⟩ := exists_name htarget
  have hvoidKind : voidWord.kind = .voidWord := congrArg Lexeme.kind hvoid
  let statement : StatementPhrase := .assignment (.operand (.name targetLeaf) .nil)
    (.ofLexeme sign hsign) x (.ofLexeme semicolon hsemicolon)
  let body : BodyPhrase :=
    ⟨.ofLexeme lbrace hlbrace, .cons statement .nil, .ofLexeme rbrace hrbrace⟩
  let method : MainMethodPhrase :=
    ⟨.ofLexeme publicWord hpublic, .ofLexeme staticWord hstatic,
      ⟨⟨voidWord, by rw [hvoidKind]; decide⟩, none⟩, methodLeaf, .ofLexeme lparen hlparen,
      .ofLexeme rparen hrparen, body⟩
  let d : ProgramPhrase :=
    ⟨⟨.ofLexeme classWord hclass, classLeaf, .ofLexeme brace hbrace, method,
      .ofLexeme last hlast⟩, []⟩
  have hname : statement.NameFirst := congrArg some targetLeaf.kind_eq
  have hregular : d.Every (·.Regular) := by
    refine List.forall_mem_singleton.mpr ⟨⟨⟨?_, trivial⟩, hname⟩, trivial⟩
    exact List.forall_mem_cons.mpr ⟨⟨trivial, trivial⟩, List.forall_mem_singleton.mpr hgrouped⟩
  have hlevels : body.statements.levels ≤ maxNesting := by
    simp only [body, statement, StatementsPhrase.levels, StatementPhrase.levels, ExprPhrase.levels,
      HeadPhrase.levels, TailsPhrase.levels, maxNesting]
    omega
  have hread : d.tokens = (TokenStream.ofTokens (tokenize (w.source n)).tokens).ahead := by
    rw [htokens]
    simp [d, method, body, statement, ProgramPhrase.tokens, MainClassPhrase.tokens,
      MainMethodPhrase.tokens, BodyPhrase.tokens, TypePhrase.tokens, TypePhrase.suffixTokens,
      StatementsPhrase.tokens, StatementPhrase.tokens, ExprPhrase.tokens, HeadPhrase.tokens,
      TailsPhrase.tokens, Terminal.ofLexeme]
  refine ⟨d.tree, (parse_eq_ok_iff _ _).mpr
    ⟨hlexical, d, hread, hregular, List.forall_mem_singleton.mpr hlevels, rfl⟩, ?_⟩
  have hassignment : x.tree.height weight ≤ statement.tree.height weight :=
    (Nat.le_max_right _ _).trans (Nat.le_succ _)
  have hbody : statement.tree.height weight ≤ d.tree.height weight :=
    (Nat.le_max_left _ _).trans (Nat.le_max_left _ _)
  exact hheight.trans (hassignment.trans hbody)

end Wrap

/-- The longest chain of nested statements and expressions in the trees of texts has no bound,
whether every step of it counts or those into what one kind of node was put around. -/
theorem parse_height_unbounded :
    (¬ ∃ bound, ∀ source policy p, parse source policy = .ok p →
      p.height Wrap.counted ≤ bound) ∧
    ∀ w : Wrap, ¬ ∃ bound, ∀ source policy p, parse source policy = .ok p →
      p.height w.only ≤ bound := by
  have hunbounded (w : Wrap) (weight : Wrap → Nat) (hweight : 0 < weight w) :
      ¬ ∃ bound, ∀ source policy p, parse source policy = .ok p → p.height weight ≤ bound := by
    rintro ⟨bound, hbound⟩
    obtain ⟨p, hp, hheight⟩ := Wrap.exists_parse_source hweight (bound + 1)
    exact absurd (hbound _ _ p hp) (Nat.not_le.mpr hheight)
  refine ⟨hunbounded .length Wrap.counted Nat.one_pos, fun w => hunbounded w w.only ?_⟩
  rw [Wrap.only, if_pos rfl]
  exact Nat.one_pos

end MiniJava
