import MiniJava.Program
import MiniJava.Statement.Print

/-!
# Printing programs

Classes are separated by blank lines. A class lists its fields before its methods, with a blank line
before every method but one that comes first.
-/

namespace MiniJava

/-- Fields or parameters without their semicolons, separated by commas. -/
def VarDecl.printParams (params : List VarDecl) : String :=
  ", ".intercalate (params.map fun d => d.type.print ++ " " ++ d.name.text)

namespace Method

/-- The first line of a method, behind its modifiers. -/
def signature (m : Method) : String :=
  m.returnType.print ++ " " ++ m.name.text ++ "(" ++ VarDecl.printParams m.params ++ ")"

/-- A method under its first line. -/
def linesUnder (header : String) (m : Method) : List PrintedLine :=
  ⟨1, header ++ " \x7b"⟩ :: Statement.linesEach 2 m.body ++ [⟨1, "\x7d"⟩]

/-- The lines of a method of an ordinary class. -/
def lines (m : Method) : List PrintedLine := m.linesUnder ("public " ++ m.signature)

end Method

/-- The lines of the main class. -/
def MainClass.lines (c : MainClass) : List PrintedLine :=
  let m := c.mainMethod
  ⟨0, "class " ++ c.name.text ++ " \x7b"⟩ ::
    m.linesUnder ("public static " ++ m.returnType.print ++ " " ++ m.name.text ++ "()") ++
    [⟨0, "\x7d"⟩]

namespace ClassDecl

/-- The name of a class and of the class it extends. -/
def heading (c : ClassDecl) : String :=
  match c.parent? with
  | some parent => "class " ++ c.name.text ++ " extends " ++ parent.text
  | none => "class " ++ c.name.text

/-- A blank line. -/
def blankLine : PrintedLine := ⟨0, ""⟩

/-- The lines of methods, each with a blank line before it. -/
def spacedMethods (methods : List Method) : List PrintedLine :=
  methods.flatMap fun m => blankLine :: m.lines

/-- The lines of the fields and the methods of a class. -/
def memberLines (c : ClassDecl) : List PrintedLine :=
  match c.fields, c.methods with
  | [], first :: rest => first.lines ++ spacedMethods rest
  | fields, methods => fields.map (fun d => ⟨1, d.print⟩) ++ spacedMethods methods

/-- The lines of a class. -/
def lines (c : ClassDecl) : List PrintedLine :=
  ⟨0, c.heading ++ " \x7b"⟩ :: c.memberLines ++ [⟨0, "\x7d"⟩]

end ClassDecl

namespace Program

/-- The lines of a program. -/
def lines (p : Program) : List PrintedLine :=
  p.mainClass.lines ++ p.classes.flatMap fun c => ClassDecl.blankLine :: c.lines

/-- A program as text. -/
def print (p : Program) : String := PrintedLine.renderAll p.lines

end Program

end MiniJava
