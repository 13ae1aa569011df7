import MiniJava.Outline
import MiniJava.Proofs.Printing.Shape

/-!
# Outlines as forests

A forest is what an outline shows: labelled nodes, each with a forest inside it, one behind the
other. The depths of the rows tell where the inside of a node ends, so that the rows determine the
forest (`Forest.rows_injective`). The rows of an outline, without their positions, are those of the
forest of the program (`Program.rows_eq`), which is the same for programs of one shape.
-/

namespace MiniJava

/-- Labelled nodes one behind the other, each with a forest inside it. -/
inductive Forest where
  | nil
  | node (label : String) (inside behind : Forest)
deriving DecidableEq

namespace Forest

/-- The depths and the labels of the nodes, what is inside a node right behind it. -/
def rows (depth : Nat) : Forest → List (Nat × String)
  | nil => []
  | node label inside behind => (depth, label) :: (inside.rows (depth + 1) ++ behind.rows depth)

/-- Rows that belong to no forest at this depth: the first of them, if any, is less deep. -/
def Rises (depth : Nat) (rows : List (Nat × String)) : Prop := ∀ row ∈ rows.head?, row.1 < depth

-- What stands behind the inside of a node is less deep.
theorem rises_succ {depth : Nat} {rest : List (Nat × String)} (f : Forest)
    (h : Rises depth rest) : Rises (depth + 1) (f.rows depth ++ rest) := by
  intro row hrow
  cases f with
  | nil => exact Nat.lt_succ_of_lt (h row hrow)
  | node label inside behind =>
    obtain rfl := Option.some.inj hrow
    exact Nat.lt_succ_self depth

-- Rows that rise do not begin with a node at the depth.
theorem not_rises_rows_node (depth : Nat) (label : String) (inside behind : Forest)
    (rest : List (Nat × String)) : ¬ Rises depth ((node label inside behind).rows depth ++ rest) :=
  fun h => Nat.lt_irrefl depth (h (depth, label) rfl)

/-- A forest in front of rows that rise is determined by the rows, and so is what follows it. -/
theorem rows_cancel : ∀ (f g : Forest) {depth : Nat} {rest rest' : List (Nat × String)},
    Rises depth rest → Rises depth rest' → f.rows depth ++ rest = g.rows depth ++ rest' →
      f = g ∧ rest = rest'
  | nil, nil, _, _, _, _, _, h => ⟨rfl, h⟩
  | nil, node .., _, _, _, hrest, _, h => by
    rw [rows, List.nil_append] at h
    exact (not_rises_rows_node _ _ _ _ _ (h ▸ hrest)).elim
  | node .., nil, _, _, rest', _, hrest', h => by
    change _ = rest' at h
    exact (not_rises_rows_node _ _ _ _ _ (h ▸ hrest')).elim
  | node label inside behind, node label' inside' behind', _, _, _, hrest, hrest', h => by
    simp only [rows, List.cons_append, List.append_assoc, List.cons.injEq, Prod.mk.injEq,
      true_and] at h
    obtain ⟨rfl, h⟩ := h
    obtain ⟨rfl, hbehind⟩ :=
      rows_cancel inside inside' (rises_succ behind hrest) (rises_succ behind' hrest') h
    obtain ⟨rfl, rfl⟩ := rows_cancel behind behind' hrest hrest' hbehind
    exact ⟨rfl, rfl⟩

theorem rows_injective {f g : Forest} {depth : Nat} (h : f.rows depth = g.rows depth) : f = g := by
  have hnone : Rises depth [] := nofun
  exact (rows_cancel f g hnone hnone (by rw [h])).1

end Forest

/-- A row without its position. -/
def OutlineRow.entry (r : OutlineRow) : Nat × String := (r.depth, r.label)

/-! ## Expressions -/

namespace Expr

/-- The label of the row of an expression. -/
def label : Expr → String
  | binary _ op _ => "binary " ++ op.text
  | unary op _ => "unary " ++ op.text
  | index .. => "index"
  | arrayLength _ => "length"
  | newObject className _ => "new " ++ className.text ++ "()"
  | newArray elementType .. => "new " ++ elementType.base.text ++ "[]"
  | call _ method _ => "call ." ++ method.text
  | intLiteral t => "int " ++ t.text
  | boolLiteral t => "boolean " ++ t.text
  | identifier t => "ident " ++ t.text
  | this _ => "this"

mutual

/-- The nodes inside the node of an expression. -/
def inside : Expr → Forest
  | binary left _ right => .node left.label left.inside (.node right.label right.inside .nil)
  | unary _ operand => .node operand.label operand.inside .nil
  | index array i => .node array.label array.inside (.node i.label i.inside .nil)
  | arrayLength array => .node array.label array.inside .nil
  | newArray _ length _ => .node length.label length.inside .nil
  | call receiver _ args => .node receiver.label receiver.inside (forestEach args)
  | newObject .. | intLiteral _ | boolLiteral _ | identifier _ | this _ => .nil

/-- The nodes of expressions one behind the other. -/
def forestEach : List Expr → Forest
  | [] => .nil
  | e :: es => .node e.label e.inside (forestEach es)

end

/-- The node of an expression in front of others. -/
def forest (e : Expr) (behind : Forest) : Forest := .node e.label e.inside behind

mutual

theorem map_entry_outline : ∀ (e : Expr) (depth : Nat),
    (e.outline depth).map (·.entry) = (depth, e.label) :: e.inside.rows (depth + 1)
  | binary left _ right, depth | index left right, depth => by
    simp only [outline, inside, Forest.rows, List.cons_append, List.map_cons, List.map_append,
      List.append_nil, map_entry_outline left, map_entry_outline right]
    rfl
  | unary _ operand, depth | arrayLength operand, depth | newArray _ operand _, depth => by
    simp only [outline, inside, Forest.rows, List.map_cons, List.append_nil,
      map_entry_outline operand]
    rfl
  | call receiver method args, depth => by
    simp only [outline, inside, Forest.rows, List.cons_append, List.map_cons, List.map_append,
      map_entry_outline receiver, map_entry_outlineEach args]
    rfl
  | newObject .., _ | intLiteral _, _ | boolLiteral _, _ | identifier _, _ | this _, _ => rfl

theorem map_entry_outlineEach : ∀ (es : List Expr) (depth : Nat),
    (outlineEach depth es).map (·.entry) = (forestEach es).rows depth
  | [], _ => rfl
  | e :: es, depth => by
    simp [outlineEach, forestEach, Forest.rows, map_entry_outline e, map_entry_outlineEach es]

end

-- The node of an expression shows the rows of its outline.
theorem rows_forest (e : Expr) (behind : Forest) (depth : Nat) :
    (e.forest behind).rows depth = (e.outline depth).map (·.entry) ++ behind.rows depth := by
  rw [forest, Forest.rows, e.map_entry_outline, List.cons_append]

theorem label_erase (e : Expr) : e.erase.label = e.label := by cases e <;> rfl

mutual

theorem inside_erase : ∀ e : Expr, e.erase.inside = e.inside
  | binary left _ right | index left right => by
    simp only [erase, inside, label_erase, inside_erase left, inside_erase right]
  | unary _ operand | arrayLength operand | newArray _ operand _ => by
    simp only [erase, inside, label_erase, inside_erase operand]
  | call receiver _ args => by
    simp only [erase, inside, label_erase, inside_erase receiver, forestEach_eraseEach args]
  | newObject .. | intLiteral _ | boolLiteral _ | identifier _ | this _ => rfl

theorem forestEach_eraseEach : ∀ es : List Expr, forestEach (eraseEach es) = forestEach es
  | [] => rfl
  | e :: es => by
    simp only [eraseEach, forestEach, label_erase, inside_erase e, forestEach_eraseEach es]

end

theorem forest_erase (e : Expr) (behind : Forest) : e.erase.forest behind = e.forest behind := by
  rw [forest, label_erase, inside_erase, forest]

end Expr

/-! ## Statements -/

namespace Statement

/-- The label of the row of a statement. -/
def label : Statement → String
  | block .. => "block"
  | varDecl d => "var " ++ d.type.print ++ " " ++ d.name.text
  | assignment .. => "assign"
  | print .. => "println"
  | assert .. => "assert"
  | returnValue .. => "return"
  | call .. => "call statement"
  | ifThen .. | ifElse .. => "if"
  | loop .. => "while"

mutual

/-- The nodes of a statement in front of others. An `else` is a node of its own. -/
def forest (behind : Forest) : Statement → Forest
  | block statements p => .node (block statements p).label (forestEach statements) behind
  | varDecl d => .node (varDecl d).label .nil behind
  | assignment target value p =>
    .node (assignment target value p).label (target.forest (value.forest .nil)) behind
  | print value p => .node (print value p).label (value.forest .nil) behind
  | assert condition p => .node (assert condition p).label (condition.forest .nil) behind
  | returnValue value p => .node (returnValue value p).label (value.forest .nil) behind
  | call receiver method args =>
    .node (call receiver method args).label ((Expr.call receiver method args).forest .nil) behind
  | ifThen condition thenBranch p =>
    .node (ifThen condition thenBranch p).label (condition.forest (thenBranch.forest .nil)) behind
  | ifElse condition thenBranch elseBranch p =>
    .node (ifElse condition thenBranch elseBranch p).label
      (condition.forest (thenBranch.forest .nil)) (.node "else" (elseBranch.forest .nil) behind)
  | loop condition body p =>
    .node (loop condition body p).label (condition.forest (body.forest .nil)) behind

/-- The nodes of statements one behind the other. -/
def forestEach : List Statement → Forest
  | [] => .nil
  | s :: ss => s.forest (forestEach ss)

end

mutual

/-- The nodes of a statement show the rows of its outline. -/
theorem rows_forest : ∀ (s : Statement) (behind : Forest) (depth : Nat),
    (s.forest behind).rows depth = (s.outline depth).map (·.entry) ++ behind.rows depth
  | block statements _, behind, depth => by
    simp [forest, Forest.rows, outline, label, OutlineRow.entry, rows_forestEach statements]
  | varDecl _, _, _ => rfl
  | assignment .., _, _ | print .., _, _ | assert .., _, _ | returnValue .., _, _
  | call .., _, _ => by
    simp [forest, Forest.rows, outline, label, OutlineRow.entry, Expr.rows_forest]
  | ifThen _ branch _, behind, depth | loop _ branch _, behind, depth => by
    simp [forest, Forest.rows, outline, label, OutlineRow.entry, Expr.rows_forest,
      rows_forest branch]
  | ifElse _ thenBranch elseBranch _, behind, depth => by
    simp [forest, Forest.rows, outline, label, OutlineRow.entry, Expr.rows_forest,
      rows_forest thenBranch, rows_forest elseBranch]

theorem rows_forestEach : ∀ (ss : List Statement) (depth : Nat),
    (forestEach ss).rows depth = (outlineEach depth ss).map (·.entry)
  | [], _ => rfl
  | s :: ss, depth => by
    rw [forestEach, rows_forest s, rows_forestEach ss, outlineEach, List.map_append]

end

theorem label_erase (s : Statement) : s.erase.label = s.label := by cases s <;> rfl

mutual

theorem forest_erase : ∀ (s : Statement) (behind : Forest), s.erase.forest behind = s.forest behind
  | block statements _, behind => by
    simp only [erase, forest, label, forestEach_eraseEach statements]
  | varDecl _, _ => rfl
  | assignment .., _ | print .., _ | assert .., _ | returnValue .., _ => by
    simp only [erase, forest, label, Expr.forest_erase]
  | call receiver method args, behind => by
    have hcall := (Expr.call receiver method args).forest_erase .nil
    rw [Expr.erase] at hcall
    simp only [erase, forest, label, hcall]
  | ifThen _ branch _, behind | loop _ branch _, behind => by
    simp only [erase, forest, label, Expr.forest_erase, forest_erase branch]
  | ifElse _ thenBranch elseBranch _, behind => by
    simp only [erase, forest, label, Expr.forest_erase, forest_erase thenBranch,
      forest_erase elseBranch]

theorem forestEach_eraseEach : ∀ ss : List Statement, forestEach (eraseEach ss) = forestEach ss
  | [] => rfl
  | s :: ss => by rw [eraseEach, forestEach, forest_erase s, forestEach_eraseEach ss, forestEach]

end

end Statement

/-! ## Programs -/

/-- The node of a field in front of others. -/
def VarDecl.fieldForest (d : VarDecl) (behind : Forest) : Forest :=
  .node ("field " ++ d.type.print ++ " " ++ d.name.text) .nil behind

/-- The node of a method in front of others; `word` says which sort of method it is. -/
def Method.forest (word : String) (m : Method) (behind : Forest) : Forest :=
  .node (word ++ " " ++ m.signature) (Statement.forestEach m.body) behind

/-- The node of a class in front of others. -/
def ClassDecl.forest (c : ClassDecl) (behind : Forest) : Forest :=
  .node c.heading
    (c.fields.foldr VarDecl.fieldForest (c.methods.foldr (Method.forest "method") .nil)) behind

/-- The nodes of a program. -/
def Program.forest (p : Program) : Forest :=
  .node ("class " ++ p.mainClass.name.text ++ " (main)")
    (p.mainClass.mainMethod.forest "static method" .nil) (p.classes.foldr ClassDecl.forest .nil)

/-- The depths and the labels in the outline of a program. -/
def Program.rows (p : Program) : List (Nat × String) := p.outline.map (·.entry)

theorem Method.rows_forest (word : String) (m : Method) (behind : Forest) :
    (m.forest word behind).rows 1 =
      (Program.outlineMethod word m).map (·.entry) ++ behind.rows 1 := by
  simp [forest, Forest.rows, Program.outlineMethod, OutlineRow.entry, Statement.rows_forestEach]

theorem ClassDecl.rows_forest (c : ClassDecl) (behind : Forest) :
    (c.forest behind).rows 0 = (Program.outlineClass c).map (·.entry) ++ behind.rows 0 := by
  have hmethods (ms : List Method) : (ms.foldr (Method.forest "method") .nil).rows 1 =
      (ms.flatMap (Program.outlineMethod "method")).map (·.entry) := by
    induction ms with
    | nil => rfl
    | cons m ms ih =>
      rw [List.foldr_cons, Method.rows_forest, ih, List.flatMap_cons, List.map_append]
  have hfields (ds : List VarDecl) (behind : Forest) :
      (ds.foldr VarDecl.fieldForest behind).rows 1 =
        ds.map (fun d => (1, "field " ++ d.type.print ++ " " ++ d.name.text)) ++ behind.rows 1 := by
    induction ds with
    | nil => rfl
    | cons d ds ih =>
      rw [List.foldr_cons, VarDecl.fieldForest, Forest.rows, ih]
      rfl
  rw [forest, Forest.rows, hfields, hmethods]
  simp [Program.outlineClass, OutlineRow.entry]

/-- The rows of an outline are those of the forest. -/
theorem Program.rows_eq (p : Program) : p.rows = p.forest.rows 0 := by
  have hclasses (cs : List ClassDecl) : (cs.foldr ClassDecl.forest .nil).rows 0 =
      (cs.flatMap outlineClass).map (·.entry) := by
    induction cs with
    | nil => rfl
    | cons c cs ih =>
      rw [List.foldr_cons, ClassDecl.rows_forest, ih, List.flatMap_cons, List.map_append]
  rw [forest, Forest.rows, Method.rows_forest, hclasses]
  simp [rows, outline, OutlineRow.entry, Forest.rows]

theorem Method.forest_erase (word : String) (m : Method) (behind : Forest) :
    m.erase.forest word behind = m.forest word behind := by
  have hsignature : m.erase.signature = m.signature := by
    rw [signature, signature, VarDecl.printParams, VarDecl.printParams, erase, List.map_map]
    rfl
  rw [forest, hsignature, erase, Statement.forestEach_eraseEach, forest]

theorem ClassDecl.forest_erase (c : ClassDecl) (behind : Forest) :
    c.erase.forest behind = c.forest behind := by
  have hheading : c.erase.heading = c.heading := by
    obtain ⟨name, parent?, fields, methods⟩ := c
    cases parent? <;> rfl
  rw [forest, hheading, erase, List.foldr_map, List.foldr_map]
  simp only [Method.forest_erase]
  rfl

/-- Programs of one shape have one forest. -/
theorem Program.forest_erase (p : Program) : p.erase.forest = p.forest := by
  rw [forest, erase, MainClass.erase, Method.forest_erase, List.foldr_map]
  simp only [ClassDecl.forest_erase]
  rfl

end MiniJava
