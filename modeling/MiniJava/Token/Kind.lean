/-!
# Kinds of tokens

The lexical categories of MiniJava. Most kinds have one spelling, which is a reserved word or a
mark; names, the two literals and the end of the text have none. The tables of reserved words and of
marks give the kind of a spelling, and the two lists at the end are the operators that can stand
between operands and the kinds an expression begins with.
-/

namespace MiniJava

/-- The lexical categories. -/
inductive TokenKind where
  | identifier | intLiteral | boolLiteral
  | intWord | booleanWord | voidWord
  | classWord | extendsWord | publicWord | staticWord | thisWord | newWord | lengthWord
  | ifWord | elseWord | whileWord | assertWord | returnWord
  | systemWord | outWord | printlnWord
  | add | sub | mul | div | mod | and | or | eq | lt | gt
  | not
  | assign
  | lparen | rparen | lbracket | rbracket | lbrace | rbrace | comma | semicolon | dot
  | eof
deriving DecidableEq, Repr, Inhabited

namespace TokenKind

/-- The one spelling of a reserved word or a mark. -/
def spelling? : TokenKind → Option String
  | identifier | intLiteral | boolLiteral | eof => none
  | intWord => some "int"
  | booleanWord => some "boolean"
  | voidWord => some "void"
  | classWord => some "class"
  | extendsWord => some "extends"
  | publicWord => some "public"
  | staticWord => some "static"
  | thisWord => some "this"
  | newWord => some "new"
  | lengthWord => some "length"
  | ifWord => some "if"
  | elseWord => some "else"
  | whileWord => some "while"
  | assertWord => some "assert"
  | returnWord => some "return"
  | systemWord => some "System"
  | outWord => some "out"
  | printlnWord => some "println"
  | add => some "+"
  | sub => some "-"
  | mul => some "*"
  | div => some "/"
  | mod => some "%"
  | and => some "&&"
  | or => some "||"
  | eq => some "=="
  | lt => some "<"
  | gt => some ">"
  | not => some "!"
  | assign => some "="
  | lparen => some "("
  | rparen => some ")"
  | lbracket => some "["
  | rbracket => some "]"
  | lbrace => some "\x7b"
  | rbrace => some "\x7d"
  | comma => some ","
  | semicolon => some ";"
  | dot => some "."

/-- A kind as messages name it: its spelling in quotes, or what it stands for. -/
def describe (kind : TokenKind) : String :=
  match kind.spelling? with
  | some text => "'" ++ text ++ "'"
  | none =>
    match kind with
    | identifier => "identifier"
    | intLiteral => "integer literal"
    | boolLiteral => "boolean literal"
    | _ => "end of file"

/-- A kind as listings of tokens name it. -/
def name : TokenKind → String
  | identifier => "Identifier"
  | intLiteral => "IntLiteral"
  | boolLiteral => "BoolLiteral"
  | intWord => "Int"
  | booleanWord => "Boolean"
  | voidWord => "Void"
  | classWord => "Class"
  | extendsWord => "Extends"
  | publicWord => "Public"
  | staticWord => "Static"
  | thisWord => "This"
  | newWord => "New"
  | lengthWord => "Length"
  | ifWord => "If"
  | elseWord => "Else"
  | whileWord => "While"
  | assertWord => "Assert"
  | returnWord => "Return"
  | systemWord => "System"
  | outWord => "Out"
  | printlnWord => "Println"
  | add => "Add"
  | sub => "Sub"
  | mul => "Mul"
  | div => "Div"
  | mod => "Mod"
  | and => "And"
  | or => "Or"
  | eq => "Eq"
  | lt => "Lt"
  | gt => "Gt"
  | not => "Not"
  | assign => "Assign"
  | lparen => "LParen"
  | rparen => "RParen"
  | lbracket => "LBracket"
  | rbracket => "RBracket"
  | lbrace => "LBrace"
  | rbrace => "RBrace"
  | comma => "Comma"
  | semicolon => "Semicolon"
  | dot => "Dot"
  | eof => "Eof"

/-! ## Spellings -/

/-- The words that are no names. -/
def reservedWords : List (String × TokenKind) := [
  ("while", whileWord), ("assert", assertWord), ("if", ifWord), ("else", elseWord),
  ("return", returnWord), ("class", classWord), ("public", publicWord), ("static", staticWord),
  ("extends", extendsWord), ("this", thisWord), ("new", newWord), ("length", lengthWord),
  ("int", intWord), ("boolean", booleanWord), ("void", voidWord), ("true", boolLiteral),
  ("false", boolLiteral), ("System", systemWord), ("out", outWord), ("println", printlnWord)]

/-- The kind of a reserved word. -/
def ofWord? (word : String) : Option TokenKind := reservedWords.lookup word

/-- Some reserved word is of this kind. -/
def isReserved (kind : TokenKind) : Bool := reservedWords.any (·.2 == kind)

/-- The kind of a character that is a token of its own whatever follows it. -/
def ofMark? : Char → Option TokenKind
  | '(' => some lparen
  | ')' => some rparen
  | '[' => some lbracket
  | ']' => some rbracket
  | '{' => some lbrace
  | '}' => some rbrace
  | '.' => some dot
  | ',' => some comma
  | ';' => some semicolon
  | '+' => some add
  | '-' => some sub
  | '*' => some mul
  | '%' => some mod
  | '<' => some lt
  | '>' => some gt
  | '!' => some not
  | _ => none

/-- A mark of one character is the spelling of its kind. -/
theorem spelling?_of_ofMark? {c : Char} {kind : TokenKind} (h : ofMark? c = some kind) :
    kind.spelling? = some (String.singleton c) := by
  unfold ofMark? at h
  split at h <;> cases h <;> rfl

/-! ## Operators and the beginnings of expressions -/

/-- The operators that can stand between two operands. -/
def binaryOperators : List TokenKind := [add, sub, mul, div, mod, and, or, eq, lt, gt]

/-- The kinds an expression can begin with, in the order in which messages list them. -/
def expressionStart : List TokenKind :=
  [not, lparen, thisWord, boolLiteral, intLiteral, identifier, newWord]

/-- The kind can stand between two operands. -/
def isBinaryOperator (kind : TokenKind) : Bool := binaryOperators.contains kind

/-- An expression can begin with this kind. -/
def startsExpression (kind : TokenKind) : Bool := expressionStart.contains kind

/-- How tightly an operator binds its operands; what is no operator does not bind at all. -/
def precedence : TokenKind → Nat
  | mul | div | mod => 6
  | add | sub => 5
  | lt | gt => 4
  | eq => 3
  | and => 2
  | or => 1
  | _ => 0

/-- The tightest binding there is. -/
def maxPrecedence : Nat := 6

theorem precedence_le (kind : TokenKind) : kind.precedence ≤ maxPrecedence := by
  cases kind <;> decide

/-- The operators are the kinds that bind. -/
theorem isBinaryOperator_iff_precedence_pos (kind : TokenKind) :
    kind.isBinaryOperator = true ↔ 0 < kind.precedence := by
  cases kind <;> decide

/-- No operator begins an expression. -/
theorem startsExpression_eq_false_of_isBinaryOperator {kind : TokenKind}
    (h : kind.isBinaryOperator = true) : kind.startsExpression = false := by
  revert h
  cases kind <;> decide

end TokenKind

end MiniJava
