import MiniJava.Proofs.Listings
import MiniJava.Proofs.Outlines.Labels
import MiniJava.Text.Padding

/-!
# The lines of a printed tree

A token that is spelled as its kind wants it holds no blank, so that nothing in a legible tree is
printed with a newline in it. Each printed line is then one line of the text
(`PrintedLine.hasLines_renderAll`). The level on which a statement is printed decides nothing but
the spaces in front of its lines: some levels deeper each of them is so many levels deeper
(`Statement.lines_add`).
-/

namespace MiniJava

/-! ## Tokens and types -/

namespace Token.IsA

variable {kinds : List TokenKind} {t : Token}

-- The token is found again in its own text, and no lexeme holds a blank.
theorem not_gap (h : t.IsA kinds) : ∀ c ∈ t.text.toList, Segment.isGapChar c = false := by
  obtain ⟨-, hread⟩ := (lexesTo_iff t.text [t.lexeme]).mp (lexesTo_text h.2)
  obtain ⟨u, hu, hlexeme⟩ := List.mem_map.mp (hread ▸ List.mem_singleton_self t.lexeme)
  obtain ⟨front, htokens, htiled⟩ := exists_tiled_tokenize t.text
  rw [← ahead_append_ending_tokenize] at htokens
  have hfront : u ∈ front := (List.append_inj' htokens rfl).1 ▸ hu
  have htext : u.text = t.text := congrArg Lexeme.text hlexeme
  exact htext ▸ (htiled.isLexeme u hfront).not_gap

theorem oneLine (h : t.IsA kinds) : OneLine t.text :=
  fun hmem => absurd (h.not_gap _ hmem) (by decide)

end Token.IsA

namespace TypeRef

variable {kinds : List TokenKind} {t : TypeRef}

theorem not_gap_print (h : t.base.IsA kinds) :
    ∀ c ∈ t.print.toList, Segment.isGapChar c = false := by
  unfold print
  split
  · have hbrackets : ∀ c ∈ "[]".toList, Segment.isGapChar c = false :=
      List.forall_mem_cons.mpr ⟨rfl, List.forall_mem_singleton.mpr rfl⟩
    rw [String.toList_append]
    exact List.forall_mem_append.mpr ⟨h.not_gap, hbrackets⟩
  · exact h.not_gap

theorem oneLine_print (h : t.base.IsA kinds) : OneLine t.print :=
  fun hmem => absurd (not_gap_print h _ hmem) (by decide)

end TypeRef

/-! ## Expressions -/

namespace Expr

mutual

/-- A legible expression is printed on one line. -/
theorem oneLine_print : ∀ e : Expr, e.Legible → OneLine e.print
  | binary left op right, ⟨hleft, hop, hright⟩ => by
    simp +decide [print, oneLine_append, oneLine_print left hleft, hop.oneLine,
      oneLine_print right hright]
  | unary op operand, ⟨hop, hoperand⟩ => by
    rw [print]
    split <;> simp +decide [oneLine_append, hop.oneLine, oneLine_print operand hoperand]
  | index array i, ⟨harray, hi⟩ => by
    simp +decide [print, oneLine_append, oneLine_print array harray, oneLine_print i hi]
  | arrayLength array, harray => oneLine_append.mpr ⟨oneLine_print array harray, by decide⟩
  | newObject className _, hname => by
    simp +decide [print, oneLine_append, Token.IsA.oneLine hname]
  | newArray elementType length _, ⟨hbase, _, hlength⟩ => by
    simp +decide [print, oneLine_append, hbase.oneLine, oneLine_print length hlength]
  | call receiver method args, ⟨hreceiver, hmethod, hargs⟩ => by
    have hlist : OneLine (", ".intercalate (printEach args)) :=
      oneLine_intercalate (by decide) (oneLine_printEach args hargs)
    simp +decide [print, oneLine_append, oneLine_print receiver hreceiver, hmethod.oneLine, hlist]
  | intLiteral _, h | boolLiteral _, h | identifier _, h | this _, h => Token.IsA.oneLine h

theorem oneLine_printEach :
    ∀ es : List Expr, EachLegible es → ∀ text ∈ printEach es, OneLine text
  | [], _ => List.forall_mem_nil _
  | e :: es, ⟨he, hes⟩ => List.forall_mem_cons.mpr ⟨oneLine_print e he, oneLine_printEach es hes⟩

end

-- An expression between two texts on its line.
theorem oneLine_between {e : Expr} {front behind : String} (h : e.Legible) (hfront : OneLine front)
    (hbehind : OneLine behind) : OneLine (front ++ e.print ++ behind) :=
  oneLine_append.mpr ⟨oneLine_append.mpr ⟨hfront, e.oneLine_print h⟩, hbehind⟩

end Expr

/-! ## Declarations -/

namespace VarDecl

variable {bases : List TokenKind}

theorem oneLine_pair {d : VarDecl} (h : d.Legible bases) :
    OneLine (d.type.print ++ " " ++ d.name.text) := by
  have htype : OneLine (d.type.print ++ " ") :=
    oneLine_append.mpr ⟨TypeRef.oneLine_print h.1, by decide⟩
  exact oneLine_append.mpr ⟨htype, h.2.oneLine⟩

theorem oneLine_print {d : VarDecl} (h : d.Legible bases) : OneLine d.print :=
  oneLine_append.mpr ⟨oneLine_pair h, by decide⟩

theorem oneLine_printParams {ds : List VarDecl} (h : ∀ d ∈ ds, d.Legible bases) :
    OneLine (printParams ds) := by
  refine oneLine_intercalate (by decide) fun text htext => ?_
  obtain ⟨d, hd, rfl⟩ := List.mem_map.mp htext
  exact oneLine_pair (h d hd)

end VarDecl

/-! ## Statements -/

namespace Statement

variable {depth : Nat}

mutual

/-- No line of a legible statement goes on to another one. -/
theorem oneLine_lines : ∀ (s : Statement) (depth : Nat), s.Legible →
    ∀ l ∈ s.lines depth, OneLine l.text
  | block statements _, depth, h => by
    simp only [lines, List.forall_mem_append, List.forall_mem_cons]
    exact ⟨⟨by decide, oneLine_linesEach statements (depth + 1) h⟩, by decide,
      List.forall_mem_nil _⟩
  | varDecl _, _, h => List.forall_mem_singleton.mpr (VarDecl.oneLine_print h.1)
  | assignment target value _, _, ⟨htarget, hvalue⟩ => by
    have hsign : OneLine (target.print ++ " = ") :=
      oneLine_append.mpr ⟨target.oneLine_print htarget, by decide⟩
    exact List.forall_mem_singleton.mpr (Expr.oneLine_between hvalue hsign (by decide))
  | print _ _, _, h | assert _ _, _, h | returnValue _ _, _, h =>
    List.forall_mem_singleton.mpr (Expr.oneLine_between h (by decide) (by decide))
  | call receiver method args, _, h => by
    have hcall := (Expr.call receiver method args).oneLine_print h
    exact List.forall_mem_singleton.mpr (oneLine_append.mpr ⟨hcall, by decide⟩)
  | ifThen _ thenBranch _, depth, ⟨hcondition, hthen⟩ => by
    simp only [lines, List.forall_mem_cons]
    exact ⟨Expr.oneLine_between hcondition (by decide) (by decide),
      oneLine_lines thenBranch _ hthen⟩
  | ifElse _ thenBranch elseBranch _, depth, ⟨hcondition, hthen, _, helse⟩ => by
    simp only [lines, List.forall_mem_append, List.forall_mem_cons]
    exact ⟨⟨Expr.oneLine_between hcondition (by decide) (by decide),
      oneLine_lines thenBranch _ hthen⟩, by decide, oneLine_lines elseBranch _ helse⟩
  | loop _ body _, depth, ⟨hcondition, hbody⟩ => by
    simp only [lines, List.forall_mem_cons]
    exact ⟨Expr.oneLine_between hcondition (by decide) (by decide), oneLine_lines body _ hbody⟩

theorem oneLine_linesEach : ∀ (ss : List Statement) (depth : Nat), EachLegible ss →
    ∀ l ∈ linesEach depth ss, OneLine l.text
  | [], _, _ => List.forall_mem_nil _
  | s :: ss, depth, ⟨hs, hss⟩ =>
    List.forall_mem_append.mpr ⟨oneLine_lines s depth hs, oneLine_linesEach ss depth hss⟩

end

mutual

/-- Some levels deeper, a statement has the same lines, each so many levels deeper. -/
theorem lines_add : ∀ (s : Statement) (depth levels : Nat),
    s.lines (depth + levels) = (s.lines depth).map (PrintedLine.deeper levels)
  | block statements _, depth, levels => by
    rw [lines, lines, Nat.add_right_comm, linesEach_add statements]
    simp [PrintedLine.deeper]
  | varDecl _, _, _ | assignment .., _, _ | print .., _, _ | assert .., _, _
  | returnValue .., _, _ | call .., _, _ => rfl
  | ifThen _ thenBranch _, depth, levels => by
    rw [lines, lines, Nat.add_right_comm, lines_add thenBranch]
    rfl
  | ifElse _ thenBranch elseBranch _, depth, levels => by
    rw [lines, lines, Nat.add_right_comm depth levels thenBranch.branchDepth,
      Nat.add_right_comm depth levels elseBranch.branchDepth, lines_add thenBranch,
      lines_add elseBranch]
    simp [PrintedLine.deeper]
  | loop _ body _, depth, levels => by
    rw [lines, lines, Nat.add_right_comm, lines_add body]
    rfl

theorem linesEach_add : ∀ (ss : List Statement) (depth levels : Nat),
    linesEach (depth + levels) ss = (linesEach depth ss).map (PrintedLine.deeper levels)
  | [], _, _ => rfl
  | s :: ss, depth, levels => by
    rw [linesEach, linesEach, lines_add s, linesEach_add ss, List.map_append]

end

-- Nothing under a level is printed in front of it.
theorem le_depth_of_mem_linesEach {ss : List Statement} {l : PrintedLine}
    (h : l ∈ linesEach depth ss) : depth ≤ l.depth := by
  rw [← Nat.zero_add depth, linesEach_add] at h
  obtain ⟨k, -, rfl⟩ := List.mem_map.mp h
  exact Nat.le_add_left depth k.depth

theorem lines_ne_nil (s : Statement) : s.lines depth ≠ [] := by
  cases s <;> simp [lines]

end Statement

/-! ## Methods, classes and programs -/

namespace Method

variable {m : Method}

theorem oneLine_signature (h : m.Legible) : OneLine m.signature := by
  obtain ⟨htype, hname, hparams, -⟩ := h
  simp +decide [signature, oneLine_append, TypeRef.oneLine_print htype, hname.oneLine,
    VarDecl.oneLine_printParams hparams]

theorem oneLine_linesUnder {header : String} (h : m.Legible) (hheader : OneLine header) :
    ∀ l ∈ m.linesUnder header, OneLine l.text := by
  simp only [linesUnder, List.forall_mem_append, List.forall_mem_cons]
  exact ⟨⟨oneLine_append.mpr ⟨hheader, by decide⟩, Statement.oneLine_linesEach m.body 2 h.2.2.2⟩,
    by decide, List.forall_mem_nil _⟩

theorem oneLine_lines (h : m.Legible) : ∀ l ∈ m.lines, OneLine l.text :=
  oneLine_linesUnder h (oneLine_append.mpr ⟨by decide, oneLine_signature h⟩)

end Method

theorem MainClass.oneLine_lines {c : MainClass} (h : c.Legible) :
    ∀ l ∈ c.lines, OneLine l.text := by
  obtain ⟨hname, -, hmethod⟩ := h
  have hclass : OneLine ("class " ++ c.name.text ++ " \x7b") := by
    simp +decide [oneLine_append, hname.oneLine]
  have hheader : OneLine ("public static " ++ c.mainMethod.returnType.print ++ " " ++
      c.mainMethod.name.text ++ "()") := by
    simp +decide [oneLine_append, TypeRef.oneLine_print hmethod.1, hmethod.2.1.oneLine]
  simp only [lines, List.forall_mem_append, List.forall_mem_cons]
  exact ⟨⟨hclass, Method.oneLine_linesUnder hmethod hheader⟩, by decide, List.forall_mem_nil _⟩

namespace ClassDecl

variable {c : ClassDecl}

theorem oneLine_heading (h : c.Legible) : OneLine c.heading := by
  obtain ⟨hname, hparent, -⟩ := h
  unfold heading
  split
  · rename_i parent heq
    simp +decide [oneLine_append, hname.oneLine, (hparent parent heq).oneLine]
  · simp +decide [oneLine_append, hname.oneLine]

theorem oneLine_spacedMethods {ms : List Method} (h : ∀ m ∈ ms, m.Legible) :
    ∀ l ∈ spacedMethods ms, OneLine l.text :=
  List.forall_mem_flatMap.mpr fun m hm =>
    List.forall_mem_cons.mpr ⟨by decide, Method.oneLine_lines (h m hm)⟩

theorem oneLine_memberLines (h : c.Legible) : ∀ l ∈ c.memberLines, OneLine l.text := by
  obtain ⟨-, -, hfields, hmethods⟩ := h
  unfold memberLines
  split
  · rename_i first rest _ heq
    rw [heq] at hmethods
    obtain ⟨hfirst, hrest⟩ := List.forall_mem_cons.mp hmethods
    exact List.forall_mem_append.mpr ⟨Method.oneLine_lines hfirst, oneLine_spacedMethods hrest⟩
  · refine List.forall_mem_append.mpr ⟨List.forall_mem_map.mpr fun d hd => ?_,
      oneLine_spacedMethods hmethods⟩
    exact VarDecl.oneLine_print (hfields d hd)

theorem oneLine_lines (h : c.Legible) : ∀ l ∈ c.lines, OneLine l.text := by
  simp only [lines, List.forall_mem_append, List.forall_mem_cons]
  exact ⟨⟨oneLine_append.mpr ⟨oneLine_heading h, by decide⟩, oneLine_memberLines h⟩, by decide,
    List.forall_mem_nil _⟩

end ClassDecl

theorem Program.oneLine_lines {p : Program} (h : p.Legible) : ∀ l ∈ p.lines, OneLine l.text := by
  refine List.forall_mem_append.mpr ⟨MainClass.oneLine_lines h.1,
    List.forall_mem_flatMap.mpr fun c hc => ?_⟩
  exact List.forall_mem_cons.mpr ⟨by decide, ClassDecl.oneLine_lines (h.2 c hc)⟩

/-! ## The text -/

namespace PrintedLine

/-- A line behind its spaces. -/
def indented (l : PrintedLine) : String := indentation l.depth ++ l.text

theorem indented_deeper (levels : Nat) (l : PrintedLine) :
    (l.deeper levels).indented = Text.spaces (4 * levels) ++ l.indented := by
  have hspaces : indentation (l.depth + levels) =
      Text.spaces (4 * levels) ++ indentation l.depth := by
    rw [indentation, Text.spaces, indentation, ← String.ofList_append,
      List.replicate_append_replicate, Nat.mul_add, Nat.add_comm]
  rw [deeper, indented, indented, hspaces, String.append_assoc]

theorem renderAll_eq_unlines (ls : List PrintedLine) :
    renderAll ls = CommandLine.unlines (ls.map indented) := by
  rw [CommandLine.unlines, List.map_map]
  rfl

/-- Printed lines without newlines are the lines of the text. -/
theorem hasLines_renderAll {ls : List PrintedLine} (h : ∀ l ∈ ls, OneLine l.text) :
    HasLines (renderAll ls) (ls.map indented) := by
  refine ⟨renderAll_eq_unlines ls, List.forall_mem_map.mpr fun l hl => ?_⟩
  refine oneLine_append.mpr ⟨?_, h l hl⟩
  rw [indentation, oneLine_ofList, List.mem_replicate]
  exact fun hspace => absurd hspace.2 (by decide)

end PrintedLine

/-- A legible statement is printed on a level as at the margin, with the spaces of the level in
front of each line. -/
theorem Statement.hasLines_render {s : Statement} (h : s.Legible) (depth : Nat) :
    HasLines (s.render depth)
      (((s.lines 0).map PrintedLine.indented).map (Text.spaces (4 * depth) ++ ·)) := by
  have hindented : (s.lines depth).map PrintedLine.indented =
      ((s.lines 0).map PrintedLine.indented).map (Text.spaces (4 * depth) ++ ·) := by
    rw [← Nat.zero_add depth, lines_add, List.map_map, List.map_map, Nat.zero_add]
    exact List.map_congr_left fun l _ => l.indented_deeper depth
  rw [← hindented]
  exact PrintedLine.hasLines_renderAll (s.oneLine_lines depth h)

end MiniJava
