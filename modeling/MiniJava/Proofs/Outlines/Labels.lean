import MiniJava.Proofs.Outlines.Forest
import MiniJava.Proofs.Printed.Expr
import MiniJava.Proofs.Printing.Text

/-!
# What the labels of an outline say

A label is a text that lexes without an error, as names contain no separators. So labels that are
the same have the same lexemes, `words`, which tell the form of the node and the tokens in it. The
words of types, parameters and headings are followed by something that they cannot be continued
with, so that they can be told apart from what follows.
-/

namespace MiniJava

/-- A text lexes to one list of lexemes. -/
theorem LexesTo.unique {text : List Char} {ls ls' : List Lexeme} (h : LexesTo text ls)
    (h' : LexesTo text ls') : ls = ls' :=
  h.lexemes.symm.trans h'.lexemes

theorem delimited_nil : Delimited [] := nofun

/-- A word that is no reserved word. -/
def Lexeme.word (w : String) : Lexeme := ⟨.identifier, w⟩

/-- The words of labels that are not reserved. -/
def labelWords : List String :=
  ["binary", "unary", "index", "call", "ident", "block", "var", "assign", "statement", "field",
    "method", "main"]

-- A word of a label in front of a separator.
theorem LexesTo.labelWord {w : String} {rest : List Char} {ls : List Lexeme} (h : LexesTo rest ls)
    (hw : w ∈ labelWords) (hrest : Delimited rest) :
    LexesTo (w.toList ++ rest) (.word w :: ls) := by
  have hspelled : ∀ w ∈ labelWords,
      Segment.isLegalName w.toList = true ∧ TokenKind.ofWord? w = none := by decide +kernel
  exact h.spelled (l := .word w) (hspelled w hw) hrest

-- A label of one word.
theorem LexesTo.labelWord_alone {w : String} (hw : w ∈ labelWords) :
    LexesTo w.toList [.word w] := by
  have h := LexesTo.nil.labelWord hw delimited_nil
  rwa [List.append_nil] at h

theorem LexesTo.fixed_alone (kind : TokenKind) {w : String} (hw : kind.spelling? = some w) :
    LexesTo w.toList [kind.lexeme] := by
  have h := LexesTo.nil.fixed kind hw delimited_nil
  rwa [List.append_nil] at h

namespace Token

variable {t : Token}

-- The text of a token at the end of a label.
theorem lexesTo_text (ht : t.lexeme.Spelled) : LexesTo t.text.toList [t.lexeme] := by
  have h := LexesTo.nil.spelled ht delimited_nil
  rwa [List.append_nil] at h

-- A token of a kind with one spelling is determined by the kind.
theorem lexeme_eq_of_isA {kind : TokenKind} {w : String} (hw : kind.spelling? = some w)
    (h : t.IsA [kind]) : t.lexeme = kind.lexeme := by
  have hkind : t.lexeme.kind = kind := List.mem_singleton.mp h.1
  rw [h.2.eq_lexeme (w := w) (by rw [hkind]; exact hw), hkind]

end Token

/-! ## Expressions -/

namespace Expr

/-- The lexemes of the label of an expression. -/
def words : Expr → List Lexeme
  | binary _ op _ => [.word "binary", op.lexeme]
  | unary op _ => [.word "unary", op.lexeme]
  | index .. => [.word "index"]
  | arrayLength _ => [TokenKind.lengthWord.lexeme]
  | newObject className _ =>
    [TokenKind.newWord.lexeme, className.lexeme, TokenKind.lparen.lexeme, TokenKind.rparen.lexeme]
  | newArray elementType .. =>
    [TokenKind.newWord.lexeme, elementType.base.lexeme, TokenKind.lbracket.lexeme,
      TokenKind.rbracket.lexeme]
  | call _ method _ => [.word "call", TokenKind.dot.lexeme, method.lexeme]
  | intLiteral t => [TokenKind.intWord.lexeme, t.lexeme]
  | boolLiteral t => [TokenKind.booleanWord.lexeme, t.lexeme]
  | identifier t => [.word "ident", t.lexeme]
  | this _ => [TokenKind.thisWord.lexeme]

theorem lexesTo_label {e : Expr} (he : e.Legible) : LexesTo e.label.toList e.words := by
  -- A space behind the first word.
  have spaced {rest : List Char} {ls : List Lexeme} (h : LexesTo rest ls) :
      LexesTo (' ' :: rest) ls := h.gap rfl
  cases e with
  | binary left op right =>
    have h := (spaced (Token.lexesTo_text he.2.1.2)).labelWord (w := "binary") (by decide)
      (delimited_space _)
    simpa [label, words] using h
  | unary op operand =>
    have h := (spaced (Token.lexesTo_text he.1.2)).labelWord (w := "unary") (by decide)
      (delimited_space _)
    simpa [label, words] using h
  | index array i => exact LexesTo.labelWord_alone (w := "index") (by decide)
  | arrayLength array => exact LexesTo.fixed_alone .lengthWord rfl
  | newObject className p =>
    have hparens : LexesTo ['(', ')'] [TokenKind.lparen.lexeme, TokenKind.rparen.lexeme] :=
      (LexesTo.nil.mark rfl).mark rfl
    have h := (spaced (hparens.spelled he.2 (delimited_cons (by decide) _))).fixed .newWord rfl
      (delimited_space _)
    simpa [label, words, Token.lexeme] using h
  | newArray elementType length p =>
    have hbrackets : LexesTo ['[', ']'] [TokenKind.lbracket.lexeme, TokenKind.rbracket.lexeme] :=
      (LexesTo.nil.mark rfl).mark rfl
    have h := (spaced (hbrackets.spelled he.1.2 (delimited_cons (by decide) _))).fixed .newWord rfl
      (delimited_space _)
    simpa [label, words, Token.lexeme] using h
  | call receiver method args =>
    have hdot : LexesTo ('.' :: method.text.toList) [TokenKind.dot.lexeme, method.lexeme] :=
      (Token.lexesTo_text he.2.1.2).mark rfl
    have h := (spaced hdot).labelWord (w := "call") (by decide) (delimited_space _)
    simpa [label, words] using h
  | intLiteral t =>
    have h := (spaced (Token.lexesTo_text he.2)).fixed .intWord rfl (delimited_space _)
    simpa [label, words] using h
  | boolLiteral t =>
    have h := (spaced (Token.lexesTo_text he.2)).fixed .booleanWord rfl (delimited_space _)
    simpa [label, words] using h
  | identifier t =>
    have h := (spaced (Token.lexesTo_text he.2)).labelWord (w := "ident") (by decide)
      (delimited_space _)
    simpa [label, words] using h
  | this t => exact LexesTo.fixed_alone .thisWord rfl

theorem words_eq_of_label_eq {e e' : Expr} (he : e.Legible) (he' : e'.Legible)
    (h : e.label = e'.label) : e.words = e'.words :=
  (lexesTo_label he).unique (h ▸ lexesTo_label he')

end Expr

/-! ## Types, declarations and parameters -/

-- A type in front of something that is no bracket.
theorem TypeRef.lexemes_cancel {t t' : TypeRef} {l l' : Lexeme} {ls ls' : List Lexeme}
    (hl : l.kind ≠ .lbracket) (hl' : l'.kind ≠ .lbracket)
    (h : t.lexemes ++ l :: ls = t'.lexemes ++ l' :: ls') :
    t.erase = t'.erase ∧ l = l' ∧ ls = ls' := by
  obtain ⟨base, isArray⟩ := t
  obtain ⟨base', isArray'⟩ := t'
  simp only [lexemes, List.cons_append, List.cons.injEq] at h
  obtain ⟨hbase, h⟩ := h
  rw [erase, erase, Token.erase_eq_of_lexeme_eq hbase]
  cases isArray <;> cases isArray'
  case false.false =>
    cases h
    exact ⟨rfl, rfl, rfl⟩
  case true.true =>
    cases h
    exact ⟨rfl, rfl, rfl⟩
  -- The bracket of one type would be what follows the other.
  case false.true =>
    cases h
    exact absurd rfl hl
  case true.false =>
    cases h
    exact absurd rfl hl'

namespace VarDecl

variable {bases bases' : List TokenKind}

-- No name is a bracket.
theorem Legible.kind_name_ne {d : VarDecl} (hd : d.Legible bases) :
    d.name.lexeme.kind ≠ .lbracket := by
  have hkind : d.name.lexeme.kind = .identifier := List.mem_singleton.mp hd.2.1
  rw [hkind]
  decide

-- A declaration in front of anything.
theorem lexemes_cancel {d d' : VarDecl} {ls ls' : List Lexeme} (hd : d.Legible bases)
    (hd' : d'.Legible bases') (h : d.lexemes ++ ls = d'.lexemes ++ ls') :
    d.erase = d'.erase ∧ ls = ls' := by
  rw [lexemes, lexemes, List.append_assoc, List.append_assoc] at h
  obtain ⟨htype, hname, hls⟩ := TypeRef.lexemes_cancel hd.kind_name_ne hd'.kind_name_ne h
  rw [erase, erase, htype, Token.erase_eq_of_lexeme_eq hname]
  exact ⟨rfl, hls⟩

-- The text of a type and a name.
theorem erase_eq_of_pair_eq {d d' : VarDecl} (hd : d.Legible bases) (hd' : d'.Legible bases')
    (h : d.lexemes = d'.lexemes) : d.erase = d'.erase :=
  (lexemes_cancel hd hd' (congrArg (· ++ []) h)).1

theorem moreLexemes_injective : ∀ {ds ds' : List VarDecl}, (∀ d ∈ ds, d.Legible bases) →
    (∀ d ∈ ds', d.Legible bases) → moreLexemes ds = moreLexemes ds' →
      ds.map (·.erase) = ds'.map (·.erase)
  | [], [], _, _, _ => rfl
  | [], _ :: _, _, _, h | _ :: _, [], _, _, h => by cases h
  | d :: ds, d' :: ds', hds, hds', h => by
    obtain ⟨hd, hmore⟩ := List.forall_mem_cons.mp hds
    obtain ⟨hd', hmore'⟩ := List.forall_mem_cons.mp hds'
    obtain ⟨heq, h⟩ := lexemes_cancel hd hd' (List.cons.inj h).2
    rw [List.map_cons, List.map_cons, heq, moreLexemes_injective hmore hmore' h]

theorem paramLexemes_injective {ds ds' : List VarDecl} (hds : ∀ d ∈ ds, d.Legible bases)
    (hds' : ∀ d ∈ ds', d.Legible bases) (h : paramLexemes ds = paramLexemes ds') :
    ds.map (·.erase) = ds'.map (·.erase) := by
  match ds, ds' with
  | [], [] => rfl
  | [], ⟨⟨_, _⟩, _⟩ :: _ => cases h
  | ⟨⟨_, _⟩, _⟩ :: _, [] => cases h
  | d :: ds, d' :: ds' =>
    obtain ⟨hd, hmore⟩ := List.forall_mem_cons.mp hds
    obtain ⟨hd', hmore'⟩ := List.forall_mem_cons.mp hds'
    obtain ⟨heq, h⟩ := lexemes_cancel hd hd' h
    rw [List.map_cons, List.map_cons, heq, moreLexemes_injective hmore hmore' h]

end VarDecl

/-! ## Statements -/

namespace Statement

/-- The lexemes of the label of a statement. -/
def words : Statement → List Lexeme
  | block .. => [.word "block"]
  | varDecl d => .word "var" :: d.lexemes
  | assignment .. => [.word "assign"]
  | print .. => [TokenKind.printlnWord.lexeme]
  | assert .. => [TokenKind.assertWord.lexeme]
  | returnValue .. => [TokenKind.returnWord.lexeme]
  | call .. => [.word "call", .word "statement"]
  | ifThen .. | ifElse .. => [TokenKind.ifWord.lexeme]
  | loop .. => [TokenKind.whileWord.lexeme]

theorem lexesTo_label {s : Statement} (hs : s.Legible) : LexesTo s.label.toList s.words := by
  cases s with
  | block => exact LexesTo.labelWord_alone (w := "block") (by decide)
  | varDecl d =>
    have hpair := VarDecl.lexesTo_pair hs.1 delimited_nil LexesTo.nil
    have h := (hpair.gap (c := ' ') rfl).labelWord (w := "var") (by decide) (delimited_space _)
    simpa [label, words] using h
  | assignment => exact LexesTo.labelWord_alone (w := "assign") (by decide)
  | print => exact LexesTo.fixed_alone .printlnWord rfl
  | assert => exact LexesTo.fixed_alone .assertWord rfl
  | returnValue => exact LexesTo.fixed_alone .returnWord rfl
  | call =>
    have hstatement := LexesTo.labelWord_alone (w := "statement") (by decide)
    have h := (hstatement.gap (c := ' ') rfl).labelWord (w := "call") (by decide)
      (delimited_space _)
    simpa [label, words] using h
  | ifThen | ifElse => exact LexesTo.fixed_alone .ifWord rfl
  | loop => exact LexesTo.fixed_alone .whileWord rfl

theorem words_eq_of_label_eq {s s' : Statement} (hs : s.Legible) (hs' : s'.Legible)
    (h : s.label = s'.label) : s.words = s'.words :=
  (lexesTo_label hs).unique (h ▸ lexesTo_label hs')

-- No statement is labelled as an `else`.
theorem label_ne_else {s : Statement} (hs : s.Legible) : s.label ≠ "else" := by
  intro h
  have hwords := (lexesTo_label hs).unique (h ▸ LexesTo.fixed_alone .elseWord rfl)
  cases s <;> simp [words, Lexeme.word, TokenKind.lexeme] at hwords

end Statement

/-! ## Fields, methods and classes -/

-- The label of a field.
theorem VarDecl.lexesTo_fieldLabel {d : VarDecl} {bases : List TokenKind} (hd : d.Legible bases) :
    LexesTo ("field " ++ d.type.print ++ " " ++ d.name.text).toList
      (.word "field" :: d.lexemes) := by
  have hpair := lexesTo_pair hd delimited_nil LexesTo.nil
  have h := (hpair.gap (c := ' ') rfl).labelWord (w := "field") (by decide) (delimited_space _)
  simpa using h

namespace Method

variable {m m' : Method}

/-- The lexemes of the first line of a method. -/
def signatureWords (m : Method) : List Lexeme :=
  m.returnType.lexemes ++ m.name.lexeme :: TokenKind.lparen.lexeme ::
    (VarDecl.paramLexemes m.params ++ [TokenKind.rparen.lexeme])

theorem lexesTo_signature (hm : m.Legible) : LexesTo m.signature.toList m.signatureWords := by
  obtain ⟨⟨-, htype⟩, ⟨-, hname⟩, hparams, -⟩ := hm
  have hclose : LexesTo [')'] [TokenKind.rparen.lexeme] := LexesTo.nil.mark rfl
  have hlist := VarDecl.lexesTo_printParams (delimited_cons (by decide) _) hclose m.params hparams
  have hopen : LexesTo ('(' :: _) (TokenKind.lparen.lexeme :: _) := hlist.mark rfl
  have hmethod := hopen.spelled hname (delimited_cons (by decide) _)
  have h := TypeRef.lexesTo_print htype (delimited_space _) (hmethod.gap (c := ' ') rfl)
  simpa [signature, signatureWords, Token.lexeme] using h

theorem lexesTo_label (hm : m.Legible) :
    LexesTo ("method " ++ m.signature).toList (.word "method" :: m.signatureWords) := by
  have h := ((lexesTo_signature hm).gap (c := ' ') rfl).labelWord (w := "method") (by decide)
    (delimited_space _)
  simpa using h

/-- Legible methods with the same first line have the same type, name and parameters. -/
theorem signature_injective (hm : m.Legible) (hm' : m'.Legible) (h : m.signature = m'.signature) :
    m.returnType.erase = m'.returnType.erase ∧ m.name.erase = m'.name.erase ∧
      m.params.map (·.erase) = m'.params.map (·.erase) := by
  have hname {m : Method} (hm : m.Legible) : m.name.lexeme.kind ≠ .lbracket := by
    have hkind : m.name.lexeme.kind = .identifier := List.mem_singleton.mp hm.2.1.1
    rw [hkind]
    decide
  have hwords := (lexesTo_signature hm).unique (h ▸ lexesTo_signature hm')
  obtain ⟨htype, hlexeme, hrest⟩ := TypeRef.lexemes_cancel (hname hm) (hname hm') hwords
  have hparams := List.append_cancel_right (List.cons.inj hrest).2
  exact ⟨htype, Token.erase_eq_of_lexeme_eq hlexeme,
    VarDecl.paramLexemes_injective hm.2.2.1 hm'.2.2.1 hparams⟩

end Method

namespace ClassDecl

variable {c c' : ClassDecl}

theorem lexesTo_heading (hc : c.Legible) :
    LexesTo c.heading.toList
      (TokenKind.classWord.lexeme :: c.name.lexeme :: parentLexemes c.parent?) := by
  obtain ⟨⟨-, hname⟩, hparent, -⟩ := hc
  cases hextends : c.parent? with
  | none =>
    have h := ((Token.lexesTo_text hname).gap (c := ' ') rfl).fixed .classWord rfl
      (delimited_space _)
    simpa [heading, hextends, parentLexemes] using h
  | some parent =>
    have htext := Token.lexesTo_text (hparent parent hextends).2
    have hword := (htext.gap (c := ' ') rfl).fixed .extendsWord rfl (delimited_space _)
    have hclass := (hword.gap (c := ' ') rfl).spelled hname (delimited_space _)
    have h := (hclass.gap (c := ' ') rfl).fixed .classWord rfl (delimited_space _)
    simpa [heading, hextends, parentLexemes, Token.lexeme] using h

theorem parentLexemes_injective : ∀ {parent? parent?' : Option Token},
    parentLexemes parent? = parentLexemes parent?' →
      parent?.map (·.erase) = parent?'.map (·.erase)
  | none, none, _ => rfl
  | none, some _, h | some _, none, h => by cases h
  | some parent, some parent', h => by
    have hlexeme := (List.cons.inj (List.cons.inj h).2).1
    rw [Option.map_some, Option.map_some, Token.erase_eq_of_lexeme_eq hlexeme]

/-- Legible classes with the same heading have the same name and extend the same class. -/
theorem heading_injective (hc : c.Legible) (hc' : c'.Legible) (h : c.heading = c'.heading) :
    c.name.erase = c'.name.erase ∧ c.parent?.map (·.erase) = c'.parent?.map (·.erase) := by
  have hwords := (lexesTo_heading hc).unique (h ▸ lexesTo_heading hc')
  obtain ⟨hname, hparent⟩ := List.cons.inj (List.cons.inj hwords).2
  exact ⟨Token.erase_eq_of_lexeme_eq hname, parentLexemes_injective hparent⟩

end ClassDecl

-- The label of the main class.
theorem MainClass.lexesTo_label {c : MainClass} (hc : c.Legible) :
    LexesTo ("class " ++ c.name.text ++ " (main)").toList
      [TokenKind.classWord.lexeme, c.name.lexeme, TokenKind.lparen.lexeme, .word "main",
        TokenKind.rparen.lexeme] := by
  have hclose : LexesTo [')'] [TokenKind.rparen.lexeme] := LexesTo.nil.mark rfl
  have hmain := hclose.labelWord (w := "main") (by decide) (delimited_cons (by decide) _)
  have hopen : LexesTo ('(' :: _) (TokenKind.lparen.lexeme :: _) := hmain.mark rfl
  have hname := (hopen.gap (c := ' ') rfl).spelled hc.1.2 (delimited_space _)
  have h := (hname.gap (c := ' ') rfl).fixed .classWord rfl (delimited_space _)
  simpa [Token.lexeme] using h

end MiniJava
