import MiniJava.Statement

/-!
# Programs

A program is a main class, which holds one static method, and ordinary classes behind it. Classes
keep their fields and methods in the order in which the text gives them.
-/

namespace MiniJava

/-- A method with its parameters and its body. -/
structure Method where
  returnType : TypeRef
  name : Token
  params : List VarDecl
  body : List Statement
deriving DecidableEq, Repr, Inhabited

/-- The class that holds the static method with which a program starts. -/
structure MainClass where
  name : Token
  mainMethod : Method
deriving DecidableEq, Repr, Inhabited

/-- A class, perhaps with the class it extends. -/
structure ClassDecl where
  name : Token
  parent? : Option Token
  fields : List VarDecl
  methods : List Method
deriving DecidableEq, Repr, Inhabited

/-- A program. -/
structure Program where
  mainClass : MainClass
  classes : List ClassDecl
deriving DecidableEq, Repr, Inhabited

namespace Method

/-- Where the name of the method stands. -/
def position (m : Method) : Position := m.name.position

end Method

namespace ClassDecl

/-- Where the name of the class stands. -/
def position (c : ClassDecl) : Position := c.name.position

end ClassDecl

namespace Program

/-- The methods of a program in the order of the text, the main method first. -/
def methods (p : Program) : List Method :=
  p.mainClass.mainMethod :: p.classes.flatMap (·.methods)

end Program

end MiniJava
