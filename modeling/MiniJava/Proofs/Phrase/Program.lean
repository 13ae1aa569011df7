import MiniJava.Program
import MiniJava.Proofs.Phrase.Statement

/-!
# Phrases of programs

Phrases of methods, classes and whole programs. Statements are the only places where levels open, so
`levels` of a program is the largest of those of its method bodies, and the conditions on statements
are asked of every body.
-/

namespace MiniJava

/-- The statements of a method in their braces. -/
structure BodyPhrase where
  opening : Terminal [.lbrace]
  statements : StatementsPhrase
  closing : Terminal [.rbrace]

def BodyPhrase.tokens (x : BodyPhrase) : List Token :=
  x.opening.token :: (x.statements.tokens ++ [x.closing.token])

/-! ## Parameters -/

-- A type and a name.
structure ParamPhrase where
  type : TypePhrase NodeKind.typeStart
  name : Terminal [.identifier]

namespace ParamPhrase

def tokens (x : ParamPhrase) : List Token := x.type.tokens ++ [x.name.token]

def tree (x : ParamPhrase) : VarDecl := ⟨x.type.tree, x.name.token⟩

-- The tokens of parameters with a comma before each.
def moreTokens (xs : List (Terminal [.comma] × ParamPhrase)) : List Token :=
  xs.flatMap fun x => x.1.token :: x.2.tokens

end ParamPhrase

/-- No parameters, or some with commas between them. -/
inductive ParamsPhrase where
  | none
  | some (first : ParamPhrase) (more : List (Terminal [.comma] × ParamPhrase))

namespace ParamsPhrase

def tokens : ParamsPhrase → List Token
  | none => []
  | some first more => first.tokens ++ ParamPhrase.moreTokens more

def trees : ParamsPhrase → List VarDecl
  | none => []
  | some first more => first.tree :: more.map fun x => x.2.tree

end ParamsPhrase

/-! ## Methods -/

-- A method of an ordinary class.
structure MethodPhrase where
  publicWord : Terminal [.publicWord]
  returnType : TypePhrase NodeKind.typeStart
  name : Terminal [.identifier]
  opening : Terminal [.lparen]
  params : ParamsPhrase
  closing : Terminal [.rparen]
  body : BodyPhrase

namespace MethodPhrase

def tokens (x : MethodPhrase) : List Token :=
  x.publicWord.token :: (x.returnType.tokens ++ x.name.token :: x.opening.token ::
    (x.params.tokens ++ x.closing.token :: x.body.tokens))

def tree (x : MethodPhrase) : Method :=
  ⟨x.returnType.tree, x.name.token, x.params.trees, x.body.statements.trees⟩

end MethodPhrase

/-- The method of the main class. -/
structure MainMethodPhrase where
  publicWord : Terminal [.publicWord]
  staticWord : Terminal [.staticWord]
  returnType : TypePhrase NodeKind.typeStart
  name : Terminal [.identifier]
  opening : Terminal [.lparen]
  closing : Terminal [.rparen]
  body : BodyPhrase

namespace MainMethodPhrase

def tokens (x : MainMethodPhrase) : List Token :=
  x.publicWord.token :: x.staticWord.token :: (x.returnType.tokens ++ x.name.token ::
    x.opening.token :: x.closing.token :: x.body.tokens)

def tree (x : MainMethodPhrase) : Method :=
  ⟨x.returnType.tree, x.name.token, [], x.body.statements.trees⟩

end MainMethodPhrase

/-! ## Classes -/

-- The main class.
structure MainClassPhrase where
  classWord : Terminal [.classWord]
  name : Terminal [.identifier]
  opening : Terminal [.lbrace]
  method : MainMethodPhrase
  closing : Terminal [.rbrace]

namespace MainClassPhrase

def tokens (x : MainClassPhrase) : List Token :=
  x.classWord.token :: x.name.token :: x.opening.token :: (x.method.tokens ++ [x.closing.token])

def tree (x : MainClassPhrase) : MainClass := ⟨x.name.token, x.method.tree⟩

end MainClassPhrase

/-- A field or a method. -/
inductive MemberPhrase where
  | field (decl : DeclPhrase NodeKind.typeStart)
  | method (method : MethodPhrase)

namespace MemberPhrase

def tokens : MemberPhrase → List Token
  | field decl => decl.tokens
  | method m => m.tokens

-- The member as a field.
def field? : MemberPhrase → Option VarDecl
  | field decl => some decl.tree
  | method _ => none

-- The member as a method.
def method? : MemberPhrase → Option Method
  | field _ => none
  | method m => some m.tree

def bodies : MemberPhrase → List BodyPhrase
  | field _ => []
  | method m => [m.body]

end MemberPhrase

/-- An ordinary class. -/
structure ClassPhrase where
  classWord : Terminal [.classWord]
  name : Terminal [.identifier]
  parent? : Option (Terminal [.extendsWord] × Terminal [.identifier])
  opening : Terminal [.lbrace]
  members : List MemberPhrase
  closing : Terminal [.rbrace]

namespace ClassPhrase

-- The tokens of the clause that names the class that is extended.
def parentTokens : Option (Terminal [.extendsWord] × Terminal [.identifier]) → List Token
  | some (word, parent) => [word.token, parent.token]
  | none => []

def tokens (x : ClassPhrase) : List Token :=
  x.classWord.token :: x.name.token :: (parentTokens x.parent? ++ x.opening.token ::
    (x.members.flatMap (·.tokens) ++ [x.closing.token]))

def tree (x : ClassPhrase) : ClassDecl :=
  ⟨x.name.token, x.parent?.map (·.2.token), x.members.filterMap (·.field?),
    x.members.filterMap (·.method?)⟩

end ClassPhrase

/-! ## Programs -/

/-- A whole program, without the end of file. -/
structure ProgramPhrase where
  mainClass : MainClassPhrase
  classes : List ClassPhrase

namespace ProgramPhrase

def tokens (x : ProgramPhrase) : List Token :=
  x.mainClass.tokens ++ x.classes.flatMap (·.tokens)

def tree (x : ProgramPhrase) : Program := ⟨x.mainClass.tree, x.classes.map (·.tree)⟩

/-- The bodies of the methods of a program. -/
def bodies (x : ProgramPhrase) : List BodyPhrase :=
  x.mainClass.method.body :: x.classes.flatMap fun c => c.members.flatMap (·.bodies)

/-- No more than so many statements, expressions and operands of `!` are open at once. -/
def Within (limit : Nat) (x : ProgramPhrase) : Prop :=
  ∀ b ∈ x.bodies, b.statements.levels ≤ limit

/-- The condition holds of every statement of the program. -/
def Every (p : StatementPhrase → Prop) (x : ProgramPhrase) : Prop :=
  ∀ b ∈ x.bodies, b.statements.Every p

-- A condition that follows from another one holds of every statement if that one does.
theorem Every.imp {p q : StatementPhrase → Prop} (h : ∀ x, p x → q x) {x : ProgramPhrase}
    (hx : x.Every p) : x.Every q :=
  fun b hb => (hx b hb).imp h

-- Two conditions that hold of every statement hold of it together.
theorem Every.and {p q : StatementPhrase → Prop} {x : ProgramPhrase} (hp : x.Every p)
    (hq : x.Every q) : x.Every fun x => p x ∧ q x :=
  fun b hb => (hp b hb).and (hq b hb)

end ProgramPhrase

end MiniJava
