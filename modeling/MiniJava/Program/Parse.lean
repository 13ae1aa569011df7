import MiniJava.Program
import MiniJava.Statement.Parse

/-!
# Parsing declarations and programs

A class holds fields and methods in any order, and the word `public` alone tells them apart. A
broken class may be recovered from; a program has a tree only if its main class was read.
-/

namespace MiniJava

open Parse

namespace Method

/-- The name of a parameter behind the base of its type. -/
def parseParamBehind (base : Token) : Parse VarDecl := do
  let type ← TypeRef.parseSuffix base
  let name ← expect [.identifier]
  pure ⟨type, name⟩

/-- Parameters with a comma before each, at most `n` of them. -/
def parseMoreParams : Nat → Parse (List VarDecl)
  | 0 => pure []
  | n + 1 => do
    match ← accept [.comma] with
    | some _ => do
      let base ← expect (NodeKind.firstSet .param)
      let param ← parseParamBehind base
      let rest ← parseMoreParams n
      pure (param :: rest)
    | none => pure []

/-- The parameters behind the opening parenthesis, and the closing one. -/
def parseParams : Parse (List VarDecl) := do
  let opening ← expect (.rparen :: NodeKind.firstSet .param)
  if opening.kind = .rparen then pure []
  else do
    let param ← parseParamBehind opening
    let rest ← parseMoreParams (← bound)
    let _ ← expect [.comma, .rparen]
    pure (param :: rest)

/-- The body of a method. -/
def parseBody : Parse (List Statement) := do
  let _ ← expect [.lbrace]
  Statement.parseList (Statement.parse maxNesting)

/-- A method of an ordinary class. -/
def parse : Parse Method := do
  let _ ← expect [.publicWord]
  let returnType ← TypeRef.parse (NodeKind.firstSet .type)
  let name ← expect [.identifier]
  let _ ← expect [.lparen]
  let params ← parseParams
  let body ← parseBody
  pure ⟨returnType, name, params, body⟩

/-- The method of the main class: static, and without parameters. -/
def parseMain : Parse Method := do
  let _ ← expect [.publicWord]
  let _ ← expect [.staticWord]
  let returnType ← TypeRef.parse (NodeKind.firstSet .type)
  let name ← expect [.identifier]
  let _ ← expect [.lparen]
  let _ ← expect [.rparen]
  let body ← parseBody
  pure ⟨returnType, name, [], body⟩

end Method

/-- The class with which a program begins. -/
def MainClass.parse : Parse MainClass := do
  let _ ← expect [.classWord]
  let name ← expect [.identifier]
  let _ ← expect [.lbrace]
  let mainMethod ← Method.parseMain
  let _ ← expect [.rbrace]
  pure ⟨name, mainMethod⟩

namespace ClassDecl

/-- The class that is extended, if the word for it comes. -/
def parseParent : Parse (Option Token) := do
  match ← accept [.extendsWord] with
  | some _ => do
    let parent ← expect [.identifier]
    pure (some parent)
  | none => pure none

/-- Fields and methods up to a closing brace or the end of file, at most `n` of them. -/
def parseMembers : Nat → Parse (List VarDecl × List Method)
  | 0 => pure ([], [])
  | n + 1 => do
    let t ← peek
    if t.kind = .rbrace ∨ t.kind = .eof then pure ([], [])
    else if t.kind = .publicWord then do
      let method ← Method.parse
      let (fields, methods) ← parseMembers n
      pure (fields, method :: methods)
    else do
      let field ← VarDecl.parse (NodeKind.firstSet .field)
      let (fields, methods) ← parseMembers n
      pure (field :: fields, methods)

/-- An ordinary class. -/
def parse : Parse ClassDecl := do
  let _ ← expect [.classWord]
  let name ← expect [.identifier]
  let parent? ← parseParent
  let _ ← expect [.lbrace]
  let (fields, methods) ← parseMembers (← bound)
  let _ ← expect [.rbrace]
  pure ⟨name, parent?, fields, methods⟩

/-- Classes as long as the word `class` comes, at most `n` of them. -/
def parseMany : Nat → Parse (List ClassDecl)
  | 0 => pure []
  | n + 1 => do
    let t ← peek
    if t.kind = .classWord then do
      let first? ← recovering .classDecl parse
      let rest ← parseMany n
      pure (first?.toList ++ rest)
    else pure []

end ClassDecl

/-- A whole program. There is none if the main class was broken. -/
def Program.parse : Parse (Option Program) := do
  let mainClass? ← recovering .classDecl MainClass.parse
  let classes ← ClassDecl.parseMany (← bound)
  let _ ← expect (NodeKind.followSet .classDecl)
  pure (mainClass?.map fun mainClass => ⟨mainClass, classes⟩)

end MiniJava
