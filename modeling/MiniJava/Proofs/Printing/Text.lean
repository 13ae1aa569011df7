import MiniJava.Proofs.Printing.Lexing

/-!
# The text of a legible tree lexes to its lexemes

Printing puts a separator behind everything that could be continued, so that the text of a legible
tree, in front of a text that is known to be lexed, lexes to the lexemes of the tree. Statements and
what contains them are printed in whole lines and need nothing of what is behind them.
-/

namespace MiniJava

-- A kind in its one spelling, in front of a separator.
theorem LexesTo.fixed {rest : List Char} {ls : List Lexeme} (kind : TokenKind) {w : String}
    (hw : kind.spelling? = some w) (hrest : Delimited rest) (h : LexesTo rest ls) :
    LexesTo (w.toList ++ rest) (kind.lexeme :: ls) := by
  have hlexeme : kind.lexeme = ⟨kind, w⟩ := by rw [TokenKind.lexeme, hw, Option.getD_some]
  rw [hlexeme]
  exact h.spelled (l := ⟨kind, w⟩) (Lexeme.spelled_of_spelling? hw) hrest

theorem delimited_space (text : List Char) : Delimited (' ' :: text) :=
  delimited_cons (by decide) text

/-! ## Types and expressions -/

theorem TypeRef.lexesTo_print {t : TypeRef} {rest : List Char} {ls : List Lexeme}
    (ht : t.base.lexeme.Spelled) (hrest : Delimited rest) (h : LexesTo rest ls) :
    LexesTo (t.print.toList ++ rest) (t.lexemes ++ ls) := by
  obtain ⟨base, isArray⟩ := t
  cases isArray with
  | false => exact h.spelled ht hrest
  | true =>
    have hbrackets : LexesTo ('[' :: ']' :: rest)
        (TokenKind.lbracket.lexeme :: TokenKind.rbracket.lexeme :: ls) := (h.mark rfl).mark rfl
    have hbase := hbrackets.spelled ht (delimited_cons (by decide) _)
    simpa [print, lexemes, Token.lexeme] using hbase

namespace Expr

mutual

/-- An expression in front of a separator. -/
theorem lexesTo_print : ∀ (e : Expr) {rest : List Char} {ls : List Lexeme}, e.Legible →
    Delimited rest → LexesTo rest ls → LexesTo (e.print.toList ++ rest) (e.lexemes ++ ls)
  | binary left op right, rest, ls, he, hrest, h => by
    obtain ⟨hleft, ⟨-, hop⟩, hright⟩ := he
    have hclose : LexesTo (')' :: rest) (TokenKind.rparen.lexeme :: ls) := h.mark rfl
    have hsecond := lexesTo_print right hright (delimited_cons (by decide) _) hclose
    have hoperator := (hsecond.gap (c := ' ') rfl).spelled hop (delimited_space _)
    have hfirst := lexesTo_print left hleft (delimited_space _) (hoperator.gap (c := ' ') rfl)
    have hopen : LexesTo ('(' :: _) (TokenKind.lparen.lexeme :: _) := hfirst.mark rfl
    simpa [print, lexemes, Token.lexeme] using hopen
  | unary op operand, rest, ls, he, hrest, h => by
    obtain ⟨⟨hkind, hop⟩, hoperand⟩ := he
    -- The only operator in front of an operand is `!`, in its one spelling.
    have hnot : op.lexeme = TokenKind.not.lexeme := by
      have hkind : op.lexeme.kind = .not := List.mem_singleton.mp hkind
      rw [hop.eq_lexeme (w := "!") (by rw [hkind]; rfl), hkind]
    have htext : op.text = "!" := congrArg Lexeme.text hnot
    have hclose : LexesTo (')' :: rest) (TokenKind.rparen.lexeme :: ls) := h.mark rfl
    rw [print, lexemes]
    split
    · have hinner : LexesTo (')' :: ')' :: rest) (_ :: _ :: ls) := hclose.mark rfl
      have hsecond := lexesTo_print operand hoperand (delimited_cons (by decide) _) hinner
      have hopen : LexesTo ('(' :: _) (TokenKind.lparen.lexeme :: _) := hsecond.mark rfl
      have hresult : LexesTo ('(' :: '!' :: _) (_ :: TokenKind.not.lexeme :: _) :=
        (hopen.mark rfl).mark rfl
      simpa [htext, hnot] using hresult
    · have hsecond := lexesTo_print operand hoperand (delimited_cons (by decide) _) hclose
      have hresult : LexesTo ('(' :: '!' :: _)
          (TokenKind.lparen.lexeme :: TokenKind.not.lexeme :: _) := (hsecond.mark rfl).mark rfl
      simpa [htext, hnot] using hresult
  | index array i, rest, ls, he, hrest, h => by
    obtain ⟨harray, hi⟩ := he
    have hclose : LexesTo (']' :: rest) (TokenKind.rbracket.lexeme :: ls) := h.mark rfl
    have hindex := lexesTo_print i hi (delimited_cons (by decide) _) hclose
    have hopen : LexesTo ('[' :: _) (TokenKind.lbracket.lexeme :: _) := hindex.mark rfl
    have hresult := lexesTo_print array harray (delimited_cons (by decide) _) hopen
    simpa [print, lexemes] using hresult
  | arrayLength array, rest, ls, he, hrest, h => by
    have hlength := h.fixed .lengthWord rfl hrest
    have hdot : LexesTo ('.' :: _) (TokenKind.dot.lexeme :: _) := hlength.mark rfl
    have hresult := lexesTo_print array he (delimited_cons (by decide) _) hdot
    simpa [print, lexemes] using hresult
  | newObject className _, rest, ls, he, hrest, h => by
    have hparens : LexesTo ('(' :: ')' :: rest) (TokenKind.lparen.lexeme :: _ :: ls) :=
      (h.mark rfl).mark rfl
    have hname := hparens.spelled he.2 (delimited_cons (by decide) _)
    have hresult := (hname.gap (c := ' ') rfl).fixed .newWord rfl (delimited_space _)
    simpa [print, lexemes, Token.lexeme] using hresult
  | newArray elementType length _, rest, ls, he, hrest, h => by
    obtain ⟨⟨-, hbase⟩, -, hlength⟩ := he
    have hclose : LexesTo (']' :: rest) (TokenKind.rbracket.lexeme :: ls) := h.mark rfl
    have hcount := lexesTo_print length hlength (delimited_cons (by decide) _) hclose
    have hopen : LexesTo ('[' :: _) (TokenKind.lbracket.lexeme :: _) := hcount.mark rfl
    have htype := hopen.spelled hbase (delimited_cons (by decide) _)
    have hresult := (htype.gap (c := ' ') rfl).fixed .newWord rfl (delimited_space _)
    simpa [print, lexemes, Token.lexeme] using hresult
  | call receiver method args, rest, ls, he, hrest, h => by
    obtain ⟨hreceiver, ⟨-, hmethod⟩, hargs⟩ := he
    have hclose : LexesTo (')' :: rest) (TokenKind.rparen.lexeme :: ls) := h.mark rfl
    have hlist := lexesTo_printEach args hargs (delimited_cons (by decide) _) hclose
    have hopen : LexesTo ('(' :: _) (TokenKind.lparen.lexeme :: _) := hlist.mark rfl
    have hname := hopen.spelled hmethod (delimited_cons (by decide) _)
    have hdot : LexesTo ('.' :: _) (TokenKind.dot.lexeme :: _) := hname.mark rfl
    have hresult := lexesTo_print receiver hreceiver (delimited_cons (by decide) _) hdot
    simpa [print, lexemes, Token.lexeme] using hresult
  | intLiteral t, _, _, he, hrest, h => h.spelled he.2 hrest
  | boolLiteral t, _, _, he, hrest, h => h.spelled he.2 hrest
  | identifier t, _, _, he, hrest, h => h.spelled he.2 hrest
  | this t, _, _, he, hrest, h => h.spelled he.2 hrest

theorem lexesTo_printEach : ∀ (es : List Expr) {rest : List Char} {ls : List Lexeme},
    EachLegible es → Delimited rest → LexesTo rest ls →
      LexesTo ((", ".intercalate (printEach es)).toList ++ rest) (argLexemes es ++ ls)
  | [], rest, ls, _, _, h => by simpa [printEach, argLexemes] using h
  | [e], rest, ls, hes, hrest, h => by
    have he := lexesTo_print e hes.1 hrest h
    simpa [printEach, argLexemes, moreArgLexemes] using he
  | e :: f :: es, rest, ls, hes, hrest, h => by
    have hmore := lexesTo_printEach (f :: es) hes.2 hrest h
    have hcomma : LexesTo (',' :: _) (TokenKind.comma.lexeme :: _) :=
      (hmore.gap (c := ' ') rfl).mark rfl
    have he := lexesTo_print e hes.1 (delimited_cons (by decide) _) hcomma
    simpa [printEach, argLexemes, moreArgLexemes, String.intercalate_cons_cons] using he

end

end Expr

/-! ## Lines -/

namespace PrintedLine

-- The text of lines, the first of them written out, in front of a text.
theorem toList_renderAll_cons (depth : Nat) (text : String) (below : List PrintedLine)
    (rest : List Char) :
    (renderAll (⟨depth, text⟩ :: below)).toList ++ rest =
      List.replicate (4 * depth) ' ' ++
        (text.toList ++ '\n' :: ((renderAll below).toList ++ rest)) := by
  simp [renderAll, render, indentation, String.join_cons]

-- The text of lines and further lines, in front of a text.
theorem toList_renderAll_append (above below : List PrintedLine) (rest : List Char) :
    (renderAll (above ++ below)).toList ++ rest =
      (renderAll above).toList ++ ((renderAll below).toList ++ rest) := by
  simp [renderAll, String.toList_join]

end PrintedLine

open PrintedLine (renderAll toList_renderAll_cons toList_renderAll_append)

-- A line in front of what is known to be lexed.
theorem LexesTo.line {text : String} {below : List PrintedLine} {rest : List Char}
    {ls : List Lexeme} (depth : Nat)
    (h : LexesTo (text.toList ++ '\n' :: ((renderAll below).toList ++ rest)) ls) :
    LexesTo ((renderAll (⟨depth, text⟩ :: below)).toList ++ rest) ls := by
  rw [toList_renderAll_cons]
  exact h.spaces (4 * depth)

-- A single line in front of what is known to be lexed.
theorem LexesTo.lastLine {text : String} {rest : List Char} {ls : List Lexeme} (depth : Nat)
    (h : LexesTo (text.toList ++ '\n' :: rest) ls) :
    LexesTo ((renderAll [⟨depth, text⟩]).toList ++ rest) ls := by
  apply LexesTo.line depth
  exact h

-- The brace that closes a body, on a line of its own.
theorem LexesTo.closingLine {rest : List Char} {ls : List Lexeme} (depth : Nat)
    (h : LexesTo rest ls) :
    LexesTo ((renderAll [⟨depth, "\x7d"⟩]).toList ++ rest) (TokenKind.rbrace.lexeme :: ls) := by
  have hclose : LexesTo ('\x7d' :: '\n' :: rest) (TokenKind.rbrace.lexeme :: ls) :=
    (h.gap (c := '\n') rfl).mark rfl
  exact LexesTo.lastLine depth (by simpa using hclose)

-- The semicolon that ends a line.
theorem LexesTo.semicolon {rest : List Char} {ls : List Lexeme} (h : LexesTo rest ls) :
    LexesTo (';' :: '\n' :: rest) (TokenKind.semicolon.lexeme :: ls) :=
  (h.gap (c := '\n') rfl).mark rfl

/-! ## Declarations and statements -/

namespace VarDecl

-- A type and a name in front of a separator.
theorem lexesTo_pair {bases : List TokenKind} {d : VarDecl} {rest : List Char} {ls : List Lexeme}
    (hd : d.Legible bases) (hrest : Delimited rest) (h : LexesTo rest ls) :
    LexesTo ((d.type.print ++ " " ++ d.name.text).toList ++ rest) (d.lexemes ++ ls) := by
  obtain ⟨⟨-, htype⟩, -, hname⟩ := hd
  have hsecond := h.spelled hname hrest
  have hresult := TypeRef.lexesTo_print htype (delimited_space _) (hsecond.gap (c := ' ') rfl)
  simpa [lexemes, Token.lexeme] using hresult

theorem lexesTo_print {bases : List TokenKind} {d : VarDecl} {rest : List Char} {ls : List Lexeme}
    (hd : d.Legible bases) (h : LexesTo rest ls) :
    LexesTo (d.print.toList ++ rest) (d.lexemes ++ TokenKind.semicolon.lexeme :: ls) := by
  have hsemicolon : LexesTo (';' :: rest) (TokenKind.semicolon.lexeme :: ls) := h.mark rfl
  have hresult := lexesTo_pair hd (delimited_cons (by decide) _) hsemicolon
  simpa [print] using hresult

end VarDecl

namespace Statement

-- A condition in parentheses on a line behind its word.
theorem lexesTo_condition (kind : TokenKind) {w : String} {condition : Expr}
    {below : List PrintedLine} {rest : List Char} {ls : List Lexeme} (depth : Nat)
    (hw : kind.spelling? = some w) (hcondition : condition.Legible)
    (h : LexesTo ((renderAll below).toList ++ rest) ls) :
    LexesTo ((renderAll (⟨depth, w ++ " (" ++ condition.print ++ ")"⟩ :: below)).toList ++ rest)
      (kind.lexeme :: TokenKind.lparen.lexeme ::
        (condition.lexemes ++ TokenKind.rparen.lexeme :: ls)) := by
  have hclose : LexesTo (')' :: '\n' :: _) (TokenKind.rparen.lexeme :: ls) :=
    (h.gap (c := '\n') rfl).mark rfl
  have hinner := condition.lexesTo_print hcondition (delimited_cons (by decide) _) hclose
  have hopen : LexesTo ('(' :: _) (TokenKind.lparen.lexeme :: _) := hinner.mark rfl
  have hword := (hopen.gap (c := ' ') rfl).fixed kind hw (delimited_space _)
  apply LexesTo.line depth
  simpa using hword

mutual

/-- The lines of a statement. -/
theorem lexesTo_lines : ∀ (s : Statement) (depth : Nat) {rest : List Char} {ls : List Lexeme},
    s.Legible → LexesTo rest ls →
      LexesTo ((renderAll (s.lines depth)).toList ++ rest) (s.lexemes ++ ls)
  | block statements _, depth, rest, ls, hs, h => by
    have hlast := h.closingLine depth
    have hbody := lexesTo_linesEach statements (depth + 1) hs hlast
    have hopen : LexesTo ('\x7b' :: '\n' :: _) (TokenKind.lbrace.lexeme :: _) :=
      (hbody.gap (c := '\n') rfl).mark rfl
    rw [lines, List.cons_append]
    apply LexesTo.line depth
    rw [toList_renderAll_append]
    simpa [lexemes] using hopen
  | varDecl d, depth, rest, ls, hs, h => by
    have hline := VarDecl.lexesTo_print hs.1 (h.gap (c := '\n') rfl)
    apply LexesTo.lastLine depth
    simpa [lexemes] using hline
  | assignment target value _, depth, rest, ls, hs, h => by
    obtain ⟨htarget, hvalue⟩ := hs
    have hsecond := value.lexesTo_print hvalue (delimited_cons (by decide) _) h.semicolon
    have hassign := (hsecond.gap (c := ' ') rfl).fixed .assign rfl (delimited_space _)
    have hfirst := target.lexesTo_print htarget (delimited_space _) (hassign.gap (c := ' ') rfl)
    apply LexesTo.lastLine depth
    simpa [lexemes] using hfirst
  | print value _, depth, rest, ls, hs, h => by
    have hend : LexesTo (')' :: ';' :: '\n' :: rest)
        (TokenKind.rparen.lexeme :: TokenKind.semicolon.lexeme :: ls) := h.semicolon.mark rfl
    have hvalue := value.lexesTo_print hs (delimited_cons (by decide) _) hend
    have hopen : LexesTo ('(' :: _) (TokenKind.lparen.lexeme :: _) := hvalue.mark rfl
    have hprintln := hopen.fixed .printlnWord rfl (delimited_cons (by decide) _)
    have hdot : LexesTo ('.' :: _) (TokenKind.dot.lexeme :: _) := hprintln.mark rfl
    have hout := hdot.fixed .outWord rfl (delimited_cons (by decide) _)
    have hdot' : LexesTo ('.' :: _) (TokenKind.dot.lexeme :: _) := hout.mark rfl
    have hsystem := hdot'.fixed .systemWord rfl (delimited_cons (by decide) _)
    apply LexesTo.lastLine depth
    simpa [lexemes] using hsystem
  | assert condition _, depth, rest, ls, hs, h => by
    have hend : LexesTo (')' :: ';' :: '\n' :: rest)
        (TokenKind.rparen.lexeme :: TokenKind.semicolon.lexeme :: ls) := h.semicolon.mark rfl
    have hcondition := condition.lexesTo_print hs (delimited_cons (by decide) _) hend
    have hopen : LexesTo ('(' :: _) (TokenKind.lparen.lexeme :: _) := hcondition.mark rfl
    have hassert := hopen.fixed .assertWord rfl (delimited_cons (by decide) _)
    apply LexesTo.lastLine depth
    simpa [lexemes] using hassert
  | returnValue value _, depth, rest, ls, hs, h => by
    have hvalue := value.lexesTo_print hs (delimited_cons (by decide) _) h.semicolon
    have hreturn := (hvalue.gap (c := ' ') rfl).fixed .returnWord rfl (delimited_space _)
    apply LexesTo.lastLine depth
    simpa [lexemes] using hreturn
  | call receiver method args, depth, rest, ls, hs, h => by
    have hcall := (Expr.call receiver method args).lexesTo_print hs
      (delimited_cons (by decide) _) h.semicolon
    apply LexesTo.lastLine depth
    simpa [lexemes] using hcall
  | ifThen condition thenBranch _, depth, rest, ls, hs, h => by
    obtain ⟨hcondition, hthen⟩ := hs
    have hbranch := lexesTo_lines thenBranch (depth + thenBranch.branchDepth) hthen h
    have hline := lexesTo_condition .ifWord depth rfl hcondition hbranch
    simpa [lines, lexemes] using hline
  | ifElse condition thenBranch elseBranch _, depth, rest, ls, hs, h => by
    obtain ⟨hcondition, hthen, -, helse⟩ := hs
    -- The `else` stands on a line of its own between the lines of the branches.
    have hsecond := lexesTo_lines elseBranch (depth + elseBranch.branchDepth) helse h
    have hword := (hsecond.gap (c := '\n') rfl).fixed .elseWord rfl
      (delimited_cons (by decide) _)
    have hfirst := lexesTo_lines thenBranch (depth + thenBranch.branchDepth) hthen
      (LexesTo.line depth hword)
    rw [← toList_renderAll_append] at hfirst
    have hline := lexesTo_condition .ifWord depth rfl hcondition hfirst
    simpa [lines, lexemes] using hline
  | loop condition body _, depth, rest, ls, hs, h => by
    obtain ⟨hcondition, hbody⟩ := hs
    have hinner := lexesTo_lines body (depth + body.branchDepth) hbody h
    have hline := lexesTo_condition .whileWord depth rfl hcondition hinner
    simpa [lines, lexemes] using hline

theorem lexesTo_linesEach :
    ∀ (ss : List Statement) (depth : Nat) {rest : List Char} {ls : List Lexeme},
      EachLegible ss → LexesTo rest ls →
        LexesTo ((renderAll (linesEach depth ss)).toList ++ rest) (lexemesEach ss ++ ls)
  | [], _, _, _, _, h => h
  | s :: ss, depth, rest, ls, hss, h => by
    have hmore := lexesTo_linesEach ss depth hss.2 h
    have hresult := lexesTo_lines s depth hss.1 hmore
    rw [linesEach, toList_renderAll_append]
    simpa [lexemesEach] using hresult

end

end Statement

/-! ## Methods, classes and programs -/

namespace VarDecl

theorem lexesTo_printParams {bases : List TokenKind} {rest : List Char} {ls : List Lexeme}
    (hrest : Delimited rest) (h : LexesTo rest ls) :
    ∀ ds : List VarDecl, (∀ d ∈ ds, d.Legible bases) →
      LexesTo ((printParams ds).toList ++ rest) (paramLexemes ds ++ ls)
  | [], _ => by simpa [printParams, paramLexemes] using h
  | [d], hds => by
    have hd := lexesTo_pair (hds d (List.mem_cons_self ..)) hrest h
    simpa [printParams, paramLexemes, moreLexemes] using hd
  | d :: e :: ds, hds => by
    obtain ⟨hd, hmore⟩ := List.forall_mem_cons.mp hds
    have hparams := lexesTo_printParams hrest h (e :: ds) hmore
    have hcomma : LexesTo (',' :: ' ' :: _) (TokenKind.comma.lexeme :: _) :=
      (hparams.gap (c := ' ') rfl).mark rfl
    have hresult := lexesTo_pair hd (delimited_cons (by decide) _) hcomma
    simpa [printParams, paramLexemes, moreLexemes, String.intercalate_cons_cons] using hresult

end VarDecl

namespace Method

variable {m : Method} {rest : List Char} {ls : List Lexeme}

-- A method under a first line whose lexemes are known.
theorem lexesTo_linesUnder {header : String} {hs : List Lexeme} (hm : m.Legible)
    (hheader : ∀ {rest ls}, LexesTo (' ' :: rest) ls →
      LexesTo (header.toList ++ ' ' :: rest) (hs ++ ls)) (h : LexesTo rest ls) :
    LexesTo ((renderAll (m.linesUnder header)).toList ++ rest) (hs ++ (m.bodyLexemes ++ ls)) := by
  have hlast := h.closingLine 1
  have hbody := Statement.lexesTo_linesEach m.body 2 hm.2.2.2 hlast
  have hopen : LexesTo ('\x7b' :: '\n' :: _) (TokenKind.lbrace.lexeme :: _) :=
    (hbody.gap (c := '\n') rfl).mark rfl
  have hresult := hheader (hopen.gap (c := ' ') rfl)
  rw [linesUnder, List.cons_append]
  apply LexesTo.line 1
  rw [toList_renderAll_append]
  simpa [bodyLexemes] using hresult

theorem lexesTo_lines (hm : m.Legible) (h : LexesTo rest ls) :
    LexesTo ((renderAll m.lines).toList ++ rest) (m.lexemes ++ ls) := by
  have hheader {rest : List Char} {ls : List Lexeme} (h : LexesTo (' ' :: rest) ls) :
      LexesTo (("public " ++ m.signature).toList ++ ' ' :: rest)
        (TokenKind.publicWord.lexeme :: (m.returnType.lexemes ++ m.name.lexeme ::
          TokenKind.lparen.lexeme :: (VarDecl.paramLexemes m.params ++
            [TokenKind.rparen.lexeme])) ++ ls) := by
    obtain ⟨⟨-, htype⟩, ⟨-, hname⟩, hparams, -⟩ := hm
    have hclose : LexesTo (')' :: _) (TokenKind.rparen.lexeme :: _) := h.mark rfl
    have hlist := VarDecl.lexesTo_printParams (delimited_cons (by decide) _) hclose m.params hparams
    have hopen : LexesTo ('(' :: _) (TokenKind.lparen.lexeme :: _) := hlist.mark rfl
    have hmethod := hopen.spelled hname (delimited_cons (by decide) _)
    have hreturn := TypeRef.lexesTo_print htype (delimited_space _) (hmethod.gap (c := ' ') rfl)
    have hpublic := (hreturn.gap (c := ' ') rfl).fixed .publicWord rfl (delimited_space _)
    simpa [signature, Token.lexeme] using hpublic
  have hresult := lexesTo_linesUnder hm hheader h
  simpa [lines, lexemes] using hresult

end Method

theorem MainClass.lexesTo_lines {c : MainClass} {rest : List Char} {ls : List Lexeme}
    (hc : c.Legible) (h : LexesTo rest ls) :
    LexesTo ((renderAll c.lines).toList ++ rest) (c.lexemes ++ ls) := by
  obtain ⟨⟨-, hname⟩, -, hmethod⟩ := hc
  have hheader {rest : List Char} {ls : List Lexeme} (h : LexesTo (' ' :: rest) ls) :
      LexesTo (("public static " ++ c.mainMethod.returnType.print ++ " " ++
          c.mainMethod.name.text ++ "()").toList ++ ' ' :: rest)
        (TokenKind.publicWord.lexeme :: TokenKind.staticWord.lexeme ::
          (c.mainMethod.returnType.lexemes ++ [c.mainMethod.name.lexeme, TokenKind.lparen.lexeme,
            TokenKind.rparen.lexeme]) ++ ls) := by
    obtain ⟨⟨-, htype⟩, ⟨-, hname⟩, -⟩ := hmethod
    have hparens : LexesTo ('(' :: ')' :: _) (TokenKind.lparen.lexeme :: _ :: _) :=
      (h.mark rfl).mark rfl
    have hmain := hparens.spelled hname (delimited_cons (by decide) _)
    have hreturn := TypeRef.lexesTo_print htype (delimited_space _) (hmain.gap (c := ' ') rfl)
    have hstatic := (hreturn.gap (c := ' ') rfl).fixed .staticWord rfl (delimited_space _)
    have hpublic := (hstatic.gap (c := ' ') rfl).fixed .publicWord rfl (delimited_space _)
    simpa [Token.lexeme] using hpublic
  have hlast := h.closingLine 0
  have hbody := Method.lexesTo_linesUnder hmethod hheader hlast
  have hopen : LexesTo ('\x7b' :: '\n' :: _) (TokenKind.lbrace.lexeme :: _) :=
    (hbody.gap (c := '\n') rfl).mark rfl
  have hclass := (hopen.gap (c := ' ') rfl).spelled hname (delimited_space _)
  have hword := (hclass.gap (c := ' ') rfl).fixed .classWord rfl (delimited_space _)
  rw [lines, List.cons_append]
  apply LexesTo.line 0
  rw [toList_renderAll_append]
  simpa [lexemes, Method.mainLexemes, Token.lexeme] using hword

namespace ClassDecl

variable {rest : List Char} {ls : List Lexeme}

theorem lexesTo_blankLine {below : List PrintedLine}
    (h : LexesTo ((renderAll below).toList ++ rest) ls) :
    LexesTo ((renderAll (blankLine :: below)).toList ++ rest) ls :=
  LexesTo.line 0 (h.gap rfl)

theorem lexesTo_fields (h : LexesTo rest ls) :
    ∀ ds : List VarDecl, (∀ d ∈ ds, d.Legible NodeKind.typeStart) →
      LexesTo ((renderAll (ds.map fun d => ⟨1, d.print⟩)).toList ++ rest)
        (ds.flatMap (fun d => d.lexemes ++ [TokenKind.semicolon.lexeme]) ++ ls)
  | [], _ => h
  | d :: ds, hds => by
    obtain ⟨hd, hmore⟩ := List.forall_mem_cons.mp hds
    have hfields := lexesTo_fields h ds hmore
    have hline := VarDecl.lexesTo_print hd (hfields.gap (c := '\n') rfl)
    rw [List.map_cons]
    apply LexesTo.line 1
    simpa using hline

theorem lexesTo_spacedMethods (h : LexesTo rest ls) :
    ∀ ms : List Method, (∀ m ∈ ms, m.Legible) →
      LexesTo ((renderAll (spacedMethods ms)).toList ++ rest) (ms.flatMap (·.lexemes) ++ ls)
  | [], _ => h
  | m :: ms, hms => by
    obtain ⟨hm, hmore⟩ := List.forall_mem_cons.mp hms
    have hfirst := Method.lexesTo_lines hm (lexesTo_spacedMethods h ms hmore)
    rw [← toList_renderAll_append] at hfirst
    have hblank := lexesTo_blankLine hfirst
    simpa [spacedMethods] using hblank

theorem lexesTo_memberLines {c : ClassDecl} (hc : c.Legible) (h : LexesTo rest ls) :
    LexesTo ((renderAll c.memberLines).toList ++ rest)
      (c.fields.flatMap (fun d => d.lexemes ++ [TokenKind.semicolon.lexeme]) ++
        (c.methods.flatMap (·.lexemes) ++ ls)) := by
  obtain ⟨name, parent?, fields, methods⟩ := c
  obtain ⟨-, -, hfields, hmethods⟩ := hc
  -- Without fields there is no blank line before the first method.
  have hspaced : LexesTo ((renderAll (fields.map (fun d => ⟨1, d.print⟩) ++
      spacedMethods methods)).toList ++ rest)
      (fields.flatMap (fun d => d.lexemes ++ [TokenKind.semicolon.lexeme]) ++
        (methods.flatMap (·.lexemes) ++ ls)) := by
    rw [toList_renderAll_append]
    exact lexesTo_fields (lexesTo_spacedMethods h methods hmethods) fields hfields
  cases fields with
  | cons d ds => exact hspaced
  | nil =>
    cases methods with
    | nil => exact hspaced
    | cons m ms =>
      obtain ⟨hm, hmore⟩ := List.forall_mem_cons.mp hmethods
      have hfirst := Method.lexesTo_lines hm (lexesTo_spacedMethods h ms hmore)
      rw [memberLines, toList_renderAll_append]
      simpa using hfirst

theorem lexesTo_lines {c : ClassDecl} (hc : c.Legible) (h : LexesTo rest ls) :
    LexesTo ((renderAll c.lines).toList ++ rest) (c.lexemes ++ ls) := by
  have hlast := h.closingLine 0
  have hmembers := lexesTo_memberLines hc hlast
  have hopen : LexesTo ('\x7b' :: '\n' :: _) (TokenKind.lbrace.lexeme :: _) :=
    (hmembers.gap (c := '\n') rfl).mark rfl
  obtain ⟨⟨-, hname⟩, hparent, -⟩ := hc
  rw [lines, List.cons_append]
  apply LexesTo.line 0
  rw [toList_renderAll_append]
  cases hextends : c.parent? with
  | none =>
    have hclass := (hopen.gap (c := ' ') rfl).spelled hname (delimited_space _)
    have hword := (hclass.gap (c := ' ') rfl).fixed .classWord rfl (delimited_space _)
    simpa [heading, hextends, lexemes, parentLexemes, Token.lexeme] using hword
  | some parent =>
    have hparentName := (hopen.gap (c := ' ') rfl).spelled (hparent parent hextends).2
      (delimited_space _)
    have hextendsWord := (hparentName.gap (c := ' ') rfl).fixed .extendsWord rfl
      (delimited_space _)
    have hclass := (hextendsWord.gap (c := ' ') rfl).spelled hname (delimited_space _)
    have hword := (hclass.gap (c := ' ') rfl).fixed .classWord rfl (delimited_space _)
    simpa [heading, hextends, lexemes, parentLexemes, Token.lexeme] using hword

end ClassDecl

/-- The text of a legible program lexes to the lexemes of the program. -/
theorem Program.lexesTo_print {p : Program} (hp : p.Legible) :
    LexesTo p.print.toList p.lexemes := by
  -- Nothing is behind the last class, and an empty text has no lexemes.
  have hclasses : ∀ cs : List ClassDecl, (∀ c ∈ cs, c.Legible) →
      LexesTo ((renderAll (cs.flatMap fun c => ClassDecl.blankLine :: c.lines)).toList ++ [])
        (cs.flatMap (·.lexemes) ++ []) := by
    intro cs hcs
    induction cs with
    | nil => exact .nil
    | cons c cs ih =>
      obtain ⟨hc, hmore⟩ := List.forall_mem_cons.mp hcs
      have hfirst := ClassDecl.lexesTo_lines hc (ih hmore)
      rw [← toList_renderAll_append] at hfirst
      have hblank := ClassDecl.lexesTo_blankLine hfirst
      simpa using hblank
  have hresult := MainClass.lexesTo_lines hp.1 (hclasses p.classes hp.2)
  rw [← toList_renderAll_append] at hresult
  simpa [print, lines, lexemes] using hresult

end MiniJava
