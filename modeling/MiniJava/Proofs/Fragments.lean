import MiniJava.Proofs.Nodes
import MiniJava.Proofs.Printing.Lines
import MiniJava.Proofs.RoundTrip

/-!
# Fragments — statements printed on their own

A statement of a program that was read is printed on every level as at the margin, but for the
spaces in front of its lines. `methodsIn` finds the methods in the lines of a printed program,
without knowing the program: a method begins with the word `public` one level deep, and ends with
the next brace one level deep. What it finds are the methods of the program, and in each of them the
text of its statements as they are printed on their own, two levels deep
(`printed_fragments_of_parse`).
-/

namespace MiniJava

/-! ## Statements inside statements -/

namespace Expr

variable (s : Statement)

mutual

theorem statement_notMem_nodes : ∀ e : Expr, .statement s ∉ e.nodes
  | binary left _ right => by
    simp [nodes, statement_notMem_nodes left, statement_notMem_nodes right]
  | unary _ operand => by simp [nodes, statement_notMem_nodes operand]
  | index array i => by simp [nodes, statement_notMem_nodes array, statement_notMem_nodes i]
  | arrayLength array => by simp [nodes, statement_notMem_nodes array]
  | newArray _ length _ => by simp [nodes, statement_notMem_nodes length]
  | call receiver _ args => by
    simp [nodes, statement_notMem_nodes receiver, statement_notMem_nodesEach args]
  | newObject .. | intLiteral _ | boolLiteral _ | identifier _ | this _ => by simp [nodes]

theorem statement_notMem_nodesEach : ∀ es : List Expr, .statement s ∉ nodesEach es
  | [] => List.not_mem_nil
  | e :: es => by simp [nodesEach, statement_notMem_nodes e, statement_notMem_nodesEach es]

end

end Expr

namespace Statement

variable {s : Statement}

mutual

/-- The statements inside a legible one are legible. -/
theorem legible_of_mem_nodes : ∀ t : Statement, t.Legible → .statement s ∈ t.nodes → s.Legible
  | block statements p, h, hs => by
    have hcases : .statement s ∈ nodesEach statements ∨ s = block statements p := by
      simpa [nodes] using hs
    rcases hcases with hinside | rfl
    · exact legible_of_mem_nodesEach statements h hinside
    · exact h
  -- These hold no statement but themselves.
  | varDecl _, h, hs | assignment .., h, hs | print .., h, hs | assert .., h, hs
  | returnValue .., h, hs | call .., h, hs => by
    simp only [nodes, VarDecl.nodes, List.mem_append, List.mem_cons, List.not_mem_nil,
      Expr.statement_notMem_nodes, Expr.statement_notMem_nodesEach, reduceCtorEq, false_or,
      or_false, Node.statement.injEq] at hs
    exact hs ▸ h
  | ifThen condition thenBranch p, h, hs => by
    have hcases : .statement s ∈ thenBranch.nodes ∨ s = ifThen condition thenBranch p := by
      simpa [nodes, Expr.statement_notMem_nodes] using hs
    rcases hcases with hinside | rfl
    · exact legible_of_mem_nodes thenBranch h.2 hinside
    · exact h
  | ifElse condition thenBranch elseBranch p, h, hs => by
    have hcases : .statement s ∈ thenBranch.nodes ∨ .statement s ∈ elseBranch.nodes ∨
        s = ifElse condition thenBranch elseBranch p := by
      simpa [nodes, Expr.statement_notMem_nodes] using hs
    rcases hcases with hinside | hinside | rfl
    · exact legible_of_mem_nodes thenBranch h.2.1 hinside
    · exact legible_of_mem_nodes elseBranch h.2.2.2 hinside
    · exact h
  | loop condition body p, h, hs => by
    have hcases : .statement s ∈ body.nodes ∨ s = loop condition body p := by
      simpa [nodes, Expr.statement_notMem_nodes] using hs
    rcases hcases with hinside | rfl
    · exact legible_of_mem_nodes body h.2 hinside
    · exact h

theorem legible_of_mem_nodesEach : ∀ ss : List Statement, EachLegible ss →
    .statement s ∈ nodesEach ss → s.Legible
  | t :: ts, ⟨ht, hts⟩, hs => by
    rcases List.mem_append.mp hs with hs | hs
    · exact legible_of_mem_nodes t ht hs
    · exact legible_of_mem_nodesEach ts hts hs

end

end Statement

theorem Method.legible_of_mem_nodes {m : Method} {s : Statement} (h : m.Legible)
    (hs : .statement s ∈ m.nodes) : s.Legible := by
  have hbody : .statement s ∈ Statement.nodesEach m.body := by
    simpa [nodes, VarDecl.nodesOfParam, VarDecl.nodes] using hs
  exact Statement.legible_of_mem_nodesEach m.body h.2.2.2 hbody

theorem Program.legible_of_mem_nodes {p : Program} {s : Statement} (h : p.Legible)
    (hs : .statement s ∈ p.nodes) : s.Legible := by
  have hmethod : .statement s ∈ p.mainClass.mainMethod.nodes ∨
      ∃ c ∈ p.classes, ∃ m ∈ c.methods, .statement s ∈ m.nodes := by
    simpa [nodes, MainClass.nodes, ClassDecl.nodes, VarDecl.nodesOfField, VarDecl.nodes] using hs
  rcases hmethod with hmain | ⟨c, hc, m, hm, hs⟩
  · exact Method.legible_of_mem_nodes h.1.2.2 hmain
  · exact Method.legible_of_mem_nodes ((h.2 c hc).2.2.2 m hm) hs

/-! ## Methods in a text -/

/-- The line begins a method: the word `public` stands on it, one level deep. -/
def OpensMethod (line : String) : Prop := "    public ".toList <+: line.toList

instance (line : String) : Decidable (OpensMethod line) := inferInstanceAs (Decidable (_ <+: _))

/-- The line of a brace that closes a method. -/
def closingLine : String := "    \x7d"

/-- The lines in front of the first brace that closes a method, if there is one. -/
def bodyLines? : List String → Option (List String)
  | [] => none
  | line :: below => if line = closingLine then some [] else (bodyLines? below).map (line :: ·)

/-- The methods in the lines of a text: each line that begins one, with the text that stands between
it and the next brace that closes a method. -/
def methodsIn : List String → List (String × Option String)
  | [] => []
  | line :: below =>
    if OpensMethod line then (line, (bodyLines? below).map CommandLine.unlines) :: methodsIn below
    else methodsIn below

theorem bodyLines?_append {body : List String} (h : ∀ line ∈ body, line ≠ closingLine)
    (rest : List String) : bodyLines? (body ++ closingLine :: rest) = some body := by
  induction body with
  | nil => simp [bodyLines?]
  | cons line body ih =>
    obtain ⟨hline, hbody⟩ := List.forall_mem_cons.mp h
    rw [List.cons_append, bodyLines?, if_neg hline, ih hbody]
    rfl

theorem methodsIn_cons {line : String} (h : ¬ OpensMethod line) (rest : List String) :
    methodsIn (line :: rest) = methodsIn rest := by
  rw [methodsIn, if_neg h]

theorem methodsIn_append {front : List String} (h : ∀ line ∈ front, ¬ OpensMethod line)
    (rest : List String) : methodsIn (front ++ rest) = methodsIn rest := by
  induction front with
  | nil => rfl
  | cons line front ih =>
    obtain ⟨hline, hfront⟩ := List.forall_mem_cons.mp h
    rw [List.cons_append, methodsIn_cons hline, ih hfront]

/-! ## Lines around methods -/

namespace PrintedLine

variable {l : PrintedLine}

-- Two levels deep a space stands where a method has its first letter or its brace.
theorem getElem?_indented (h : 2 ≤ l.depth) : l.indented.toList[4]? = some ' ' := by
  have hlength : 4 < (List.replicate (4 * l.depth) ' ').length := by
    rw [List.length_replicate]
    omega
  rw [indented, indentation, String.toList_append, String.toList_ofList,
    List.getElem?_append_left hlength, List.getElem?_eq_getElem hlength, List.getElem_replicate]

theorem not_opensMethod (h : 2 ≤ l.depth) : ¬ OpensMethod l.indented := by
  rintro ⟨rest, hrest⟩
  have hspace := getElem?_indented h
  rw [← hrest] at hspace
  cases hspace

theorem ne_closingLine (h : 2 ≤ l.depth) : l.indented ≠ closingLine := by
  intro heq
  have hspace := getElem?_indented h
  rw [heq] at hspace
  exact absurd hspace (by decide)

end PrintedLine

-- What is spelled `public` is of one kind only, with which no type begins.
theorem TypeRef.print_ne_public {t : TypeRef} (h : t.base.IsA NodeKind.typeStart) :
    t.print ≠ "public" := by
  unfold print
  split
  · intro heq
    have hlast := congrArg (·.toList.getLast?) heq
    simp at hlast
  · intro heq
    have hread := Token.lexesTo_text h.2
    rw [heq] at hread
    have hlexemes := hread.unique (LexesTo.fixed_alone .publicWord rfl)
    have hkind : t.base.kind = .publicWord := congrArg Lexeme.kind (List.singleton_inj.mp hlexemes)
    exact absurd (hkind ▸ h.1) (by decide)

theorem VarDecl.not_opensMethod {d : VarDecl} (h : d.Legible NodeKind.typeStart) :
    ¬ OpensMethod (PrintedLine.indented ⟨1, d.print⟩) := by
  rintro ⟨rest, hrest⟩
  have hprint : "public".toList ++ ' ' :: rest =
      d.type.print.toList ++ ' ' :: (d.name.text.toList ++ [';']) := by
    simpa [PrintedLine.indented, PrintedLine.indentation, print] using hrest
  -- What is in front of the first space is the type.
  have hspace : ∀ c ∈ d.type.print.toList, (c != ' ') = true := by
    intro c hc
    rw [bne_iff_ne]
    rintro rfl
    exact absurd (TypeRef.not_gap_print h.1 _ hc) (by decide)
  have htype := congrArg (List.takeWhile (· != ' ')) hprint
  rw [List.takeWhile_append_of_pos (List.all_eq_true.mp (by decide)),
    List.takeWhile_append_of_pos hspace] at htype
  simp only [List.takeWhile_cons, bne_self_eq_false, Bool.false_eq_true, if_false, List.append_nil,
    String.toList_inj] at htype
  exact TypeRef.print_ne_public h.1 htype.symm

-- The first line of a class stands at the margin.
theorem not_opensMethod_class (heading : String) :
    ¬ OpensMethod (PrintedLine.indented ⟨0, "class " ++ heading⟩) := by
  rintro ⟨rest, hrest⟩
  simp [PrintedLine.indented, PrintedLine.indentation] at hrest

/-! ## Methods of a program -/

namespace Method

/-- The statements of a method as they are printed on their own, two levels deep. -/
def fragments (m : Method) : String := String.join (m.body.map (Statement.render 2))

theorem fragments_eq_unlines (m : Method) : m.fragments =
    CommandLine.unlines ((Statement.linesEach 2 m.body).map PrintedLine.indented) := by
  unfold fragments
  induction m.body with
  | nil => rfl
  | cons s ss ih =>
    rw [List.map_cons, String.join_cons, ih, Statement.linesEach, List.map_append,
      CommandLine.unlines_append, ← PrintedLine.renderAll_eq_unlines (s.lines 2), Statement.render]

/-- A method under its first line is found, with its fragments. -/
theorem methodsIn_linesUnder {header : String} (h : "public ".toList <+: header.toList)
    (m : Method) (rest : List String) :
    methodsIn ((m.linesUnder header).map PrintedLine.indented ++ rest) =
      ("    " ++ header ++ " \x7b", some m.fragments) :: methodsIn rest := by
  have hheader : PrintedLine.indented ⟨1, header ++ " \x7b"⟩ = "    " ++ header ++ " \x7b" :=
    (String.append_assoc ..).symm
  have hclosing : PrintedLine.indented ⟨1, "\x7d"⟩ = closingLine := rfl
  have hopens : OpensMethod ("    " ++ header ++ " \x7b") := by
    obtain ⟨behind, hbehind⟩ := h
    refine ⟨behind ++ " \x7b".toList, ?_⟩
    rw [String.toList_append, String.toList_append, ← hbehind]
    rfl
  have hdeep : ∀ l ∈ Statement.linesEach 2 m.body, 2 ≤ l.depth :=
    fun l hl => Statement.le_depth_of_mem_linesEach hl
  simp only [linesUnder, List.map_append, List.map_cons, List.map_nil, List.cons_append,
    List.nil_append, List.append_assoc, hheader, hclosing]
  rw [methodsIn, if_pos hopens, bodyLines?_append, Option.map_some, ← fragments_eq_unlines,
    methodsIn_append, methodsIn_cons (by decide)]
  · exact List.forall_mem_map.mpr fun l hl => PrintedLine.not_opensMethod (hdeep l hl)
  · exact List.forall_mem_map.mpr fun l hl => PrintedLine.ne_closingLine (hdeep l hl)

/-- The first line of a method of an ordinary class, but for its brace. -/
def header (m : Method) : String := "public " ++ m.signature

-- What is found of a method of an ordinary class.
def found (m : Method) : String × Option String :=
  ("    " ++ m.header ++ " \x7b", some m.fragments)

theorem methodsIn_lines (m : Method) (rest : List String) :
    methodsIn (m.lines.map PrintedLine.indented ++ rest) = m.found :: methodsIn rest := by
  refine methodsIn_linesUnder ?_ m rest
  rw [String.toList_append]
  exact List.prefix_append _ _

end Method

/-- The first line of the main method, but for its brace. -/
def MainClass.header (c : MainClass) : String :=
  "public static " ++ c.mainMethod.returnType.print ++ " " ++ c.mainMethod.name.text ++ "()"

theorem MainClass.methodsIn_lines (c : MainClass) (rest : List String) :
    methodsIn (c.lines.map PrintedLine.indented ++ rest) =
      ("    " ++ c.header ++ " \x7b", some c.mainMethod.fragments) :: methodsIn rest := by
  have hclass : ¬ OpensMethod (PrintedLine.indented ⟨0, "class " ++ c.name.text ++ " \x7b"⟩) := by
    rw [String.append_assoc]
    exact not_opensMethod_class _
  have hpublic : "public ".toList <+: c.header.toList := by
    have hwords : "public ".toList <+: "public static ".toList := by decide
    show _ <+: ("public static " ++ c.mainMethod.returnType.print ++ " " ++
      c.mainMethod.name.text ++ "()").toList
    simp only [String.toList_append, List.append_assoc]
    exact hwords.trans (List.prefix_append _ _)
  rw [lines, List.map_append, List.map_cons, List.append_assoc, List.cons_append,
    methodsIn_cons hclass]
  refine (Method.methodsIn_linesUnder hpublic c.mainMethod _).trans ?_
  exact congrArg _ (methodsIn_cons (by decide) rest)

namespace ClassDecl

-- A blank line begins no method.
theorem not_opensMethod_blankLine : ¬ OpensMethod blankLine.indented := by decide

theorem methodsIn_spacedMethods (ms : List Method) (rest : List String) :
    methodsIn ((spacedMethods ms).map PrintedLine.indented ++ rest) =
      ms.map Method.found ++ methodsIn rest := by
  induction ms with
  | nil => rfl
  | cons m ms ih =>
    rw [spacedMethods, List.flatMap_cons, ← spacedMethods, List.cons_append, List.map_cons,
      List.map_append, List.cons_append, List.append_assoc,
      methodsIn_cons not_opensMethod_blankLine, Method.methodsIn_lines, ih]
    rfl

theorem methodsIn_memberLines {c : ClassDecl} (h : c.Legible) (rest : List String) :
    methodsIn (c.memberLines.map PrintedLine.indented ++ rest) =
      c.methods.map Method.found ++ methodsIn rest := by
  obtain ⟨-, -, hfields, -⟩ := h
  unfold memberLines
  split
  · rename_i first more _ heq
    rw [heq, List.map_append, List.append_assoc, Method.methodsIn_lines, methodsIn_spacedMethods]
    rfl
  · rw [List.map_append, List.append_assoc, methodsIn_append, methodsIn_spacedMethods]
    rw [List.map_map]
    exact List.forall_mem_map.mpr fun d hd => VarDecl.not_opensMethod (hfields d hd)

theorem methodsIn_lines {c : ClassDecl} (h : c.Legible) (rest : List String) :
    methodsIn (c.lines.map PrintedLine.indented ++ rest) =
      c.methods.map Method.found ++ methodsIn rest := by
  have hclass : ¬ OpensMethod (PrintedLine.indented ⟨0, c.heading ++ " \x7b"⟩) := by
    unfold heading
    split <;> simpa only [String.append_assoc] using not_opensMethod_class _
  rw [lines, List.map_append, List.map_cons, List.append_assoc, List.cons_append,
    methodsIn_cons hclass, methodsIn_memberLines h]
  exact congrArg _ (methodsIn_cons (by decide) rest)

end ClassDecl

namespace Program

/-- The methods of a program behind their first lines, the main method first. -/
def headed (p : Program) : List (String × Method) :=
  (p.mainClass.header, p.mainClass.mainMethod) ::
    (p.classes.flatMap (·.methods)).map fun m => (m.header, m)

/-- The methods in the lines of a legible program are those of the program. -/
theorem methodsIn_lines {p : Program} (h : p.Legible) :
    methodsIn (p.lines.map PrintedLine.indented) =
      p.headed.map fun (header, m) => ("    " ++ header ++ " \x7b", some m.fragments) := by
  have hclasses : ∀ cs : List ClassDecl, (∀ c ∈ cs, c.Legible) →
      methodsIn ((cs.flatMap fun c => ClassDecl.blankLine :: c.lines).map PrintedLine.indented) =
        (cs.flatMap (·.methods)).map Method.found := by
    intro cs hcs
    induction cs with
    | nil => rfl
    | cons c cs ih =>
      obtain ⟨hc, hmore⟩ := List.forall_mem_cons.mp hcs
      rw [List.flatMap_cons, List.flatMap_cons, List.cons_append, List.map_cons, List.map_append,
        List.map_append, methodsIn_cons ClassDecl.not_opensMethod_blankLine,
        ClassDecl.methodsIn_lines hc, ih hmore]
  rw [lines, List.map_append, MainClass.methodsIn_lines, hclasses p.classes h.2, headed,
    List.map_cons, List.map_map]
  rfl

end Program

/-- Each statement of a program that was read, however deep it stands in it, is printed on every
level as at the margin, with four spaces a level in front of each of its lines; all of them end in
a newline. In the printed program the first lines of methods are those of its methods, in order, and
between each of them and the brace that closes its method there are just the statements of the
method as they are printed on their own, two levels deep. -/
theorem printed_fragments_of_parse {source : String} {policy : ErrorPolicy} {p : Program}
    (h : parse source policy = .ok p) :
    (∀ s, .statement s ∈ p.nodes → ∃ lines, lines ≠ [] ∧ HasLines (s.render 0) lines ∧
      ∀ depth, HasLines (s.render depth) (lines.map (Text.spaces (4 * depth) ++ ·))) ∧
    ∃ lines, HasLines p.print lines ∧
      methodsIn lines =
        p.headed.map fun (header, m) => ("    " ++ header ++ " \x7b", some m.fragments) := by
  have hp := legible_of_parse (parse_failFast_of_parse h)
  constructor
  · intro s hs
    have hlegible := Program.legible_of_mem_nodes hp hs
    refine ⟨(s.lines 0).map PrintedLine.indented, ?_, ?_, Statement.hasLines_render hlegible⟩
    · exact mt List.map_eq_nil_iff.mp s.lines_ne_nil
    · exact PrintedLine.hasLines_renderAll (s.oneLine_lines 0 hlegible)
  · exact ⟨_, PrintedLine.hasLines_renderAll (Program.oneLine_lines hp),
      Program.methodsIn_lines hp⟩

-- A loop over a block.
def Statement.loopOverBlock : Statement :=
  .loop (.identifier ⟨.identifier, "b", ⟨1, 81⟩⟩)
    (.block [.assignment (.identifier ⟨.identifier, "c", ⟨1, 84⟩⟩)
      (.intLiteral ⟨.intLiteral, "1", ⟨1, 86⟩⟩) ⟨1, 84⟩] ⟨1, 83⟩) ⟨1, 75⟩

-- The loop is a branch of the only statement, and the type of the field only begins like a method.
def Program.branching : Program :=
  let name (w : String) (column : Nat) : Token := ⟨.identifier, w, ⟨1, column⟩⟩
  let conditional : Statement := .ifElse (.identifier (name "a" 73)) .loopOverBlock
    (.returnValue (.identifier (name "x" 101)) ⟨1, 94⟩) ⟨1, 70⟩
  ⟨⟨name "M" 7, ⟨⟨⟨.voidWord, "void", ⟨1, 23⟩⟩, false⟩, name "main" 28, [], []⟩⟩,
    [⟨name "N" 43, none, [⟨⟨name "publicA" 45, false⟩, name "x" 53⟩],
      [⟨⟨⟨.intWord, "int", ⟨1, 62⟩⟩, false⟩, name "f" 66, [], [conditional]⟩]⟩]⟩

-- The text from which the program is read.
def branchingSource : String :=
  "class M\x7bpublic static void main()\x7b\x7d\x7d" ++
    "class N\x7bpublicA x;public int f()\x7bif(a)while(b)\x7bc=1;\x7delse return x;\x7d\x7d"

/-- The loop in the branch is printed alike on all levels, and both methods are found. -/
theorem printed_fragments_of_branching :
    parse branchingSource .recover = .ok .branching ∧
      .statement .loopOverBlock ∈ Program.branching.nodes ∧
      Statement.loopOverBlock.render 1 =
        "    while (b)\n    \x7b\n        c = 1;\n    \x7d\n" ∧
      (∃ lines, lines ≠ [] ∧ HasLines (Statement.loopOverBlock.render 0) lines ∧
        HasLines (Statement.loopOverBlock.render 3) (lines.map (Text.spaces 12 ++ ·))) ∧
      ∃ lines, HasLines Program.branching.print lines ∧
        methodsIn lines = [("    public static void main() \x7b", some ""),
          ("    public int f() \x7b", some ("        if (a)\n            while (b)\n" ++
            "            \x7b\n                c = 1;\n            \x7d\n" ++
            "        else\n            return x;\n"))] := by
  have hread : parse branchingSource .recover = .ok .branching := by decide +kernel
  have hmem : .statement .loopOverBlock ∈ Program.branching.nodes := by decide +kernel
  obtain ⟨hstatements, printed, hprinted, hfound⟩ := printed_fragments_of_parse hread
  obtain ⟨lines, hne, hmargin, hlevels⟩ := hstatements _ hmem
  refine ⟨hread, hmem, by decide +kernel, ⟨lines, hne, hmargin, hlevels 3⟩, printed, hprinted, ?_⟩
  exact hfound.trans (by decide +kernel)

end MiniJava
