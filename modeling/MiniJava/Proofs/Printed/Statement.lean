import MiniJava.Proofs.Printed.Expr

/-!
# Phrases of printed statements

Tokens with the lexemes of a legible statement are derived by a statement of the same shape. Every
`else` of the phrase belongs to the nearest open `if`, because no branch of the tree in front of one
ends open, and the phrase begins with names where the tree says so.
-/

namespace MiniJava

/-! ## Types and declarations -/

theorem TypeRef.exists_phrase {bases : List TokenKind} {t : TypeRef} {ts : List Token}
    (ht : t.base.IsA bases) (hts : ts.map (·.lexeme) = t.lexemes) :
    ∃ x : TypePhrase bases, x.tokens = ts ∧ x.tree.erase = t.erase := by
  obtain ⟨base, isArray⟩ := t
  obtain ⟨base', more, rfl, hbase, hmore⟩ := List.map_eq_cons_iff.mp hts
  have hshape : base'.erase = base.erase := Token.erase_eq_of_lexeme_eq hbase
  cases isArray with
  | false =>
    obtain rfl := List.map_eq_nil_iff.mp hmore
    exact ⟨⟨.ofToken ht base' hbase, none⟩, rfl, congrArg (TypeRef.mk · false) hshape⟩
  | true =>
    simp only [if_true, List.map_eq_cons_iff, List.map_eq_nil_iff] at hmore
    obtain ⟨opening, _, rfl, hopening, closing, _, rfl, hclosing, rfl⟩ := hmore
    exact ⟨⟨.ofToken ht base' hbase, some (.ofLexeme opening hopening, .ofLexeme closing hclosing)⟩,
      rfl, congrArg (TypeRef.mk · true) hshape⟩

namespace VarDecl

variable {bases : List TokenKind} {d : VarDecl} {ts : List Token}

theorem exists_pair (hd : d.Legible bases) (hts : ts.map (·.lexeme) = d.lexemes) :
    ∃ (type : TypePhrase bases) (name : Terminal [.identifier]),
      type.tokens ++ [name.token] = ts ∧ VarDecl.erase ⟨type.tree, name.token⟩ = d.erase := by
  obtain ⟨htype, hname⟩ := hd
  simp only [lexemes, List.map_eq_append_iff, List.map_eq_singleton_iff] at hts
  obtain ⟨ts₁, _, rfl, hts₁, name, rfl, hname'⟩ := hts
  obtain ⟨type, rfl, hshape⟩ := TypeRef.exists_phrase htype hts₁
  refine ⟨type, .ofToken hname name hname', rfl, ?_⟩
  rw [erase, hshape]
  exact congrArg (VarDecl.mk _) (Token.erase_eq_of_lexeme_eq hname')

theorem exists_decl (hd : d.Legible bases)
    (hts : ts.map (·.lexeme) = d.lexemes ++ [TokenKind.semicolon.lexeme]) :
    ∃ x : DeclPhrase bases, x.tokens = ts ∧ x.tree.erase = d.erase := by
  simp only [List.map_eq_append_iff, List.map_eq_singleton_iff] at hts
  obtain ⟨ts₁, _, rfl, hts₁, ending, rfl, hending⟩ := hts
  obtain ⟨type, name, rfl, hshape⟩ := exists_pair hd hts₁
  refine ⟨⟨type, name, .ofLexeme ending hending⟩, ?_, hshape⟩
  simp [DeclPhrase.tokens, Terminal.ofLexeme]

end VarDecl

/-! ## Statements -/

namespace Statement

/-- The statement derives the tokens, and what it stands for was printed as them. -/
structure Printed (s : Statement) (ts : List Token) (x : StatementPhrase) : Prop where
  tokens : x.tokens = ts
  shape : x.tree.erase = s.erase
  settled : x.Every StatementPhrase.Settled
  levels : x.levels = s.printedLevels
  endsOpen : x.endsOpen = s.endsOpen
  names : x.Every StatementPhrase.NameFirst ↔ s.BeginsWithNames

-- The same of statements one behind the other.
structure EachPrinted (ss : List Statement) (ts : List Token) (x : StatementsPhrase) : Prop where
  tokens : x.tokens = ts
  shape : eraseEach x.trees = eraseEach ss
  settled : x.Every StatementPhrase.Settled
  levels : x.levels = levelsEach ss
  names : x.Every StatementPhrase.NameFirst ↔ EachBeginsWithNames ss

mutual

/-- Tokens with the lexemes of a legible statement are derived by a statement. -/
theorem exists_printed : ∀ (s : Statement) {ts : List Token}, s.Legible →
    ts.map (·.lexeme) = s.lexemes → ∃ x, s.Printed ts x
  | block statements _, ts, hs, hts => by
    simp only [lexemes, List.map_eq_cons_iff, List.map_eq_append_iff, List.map_eq_nil_iff] at hts
    obtain ⟨opening, _, rfl, hopening, ts₁, _, rfl, hts₁, closing, _, rfl, hclosing, rfl⟩ := hts
    obtain ⟨x, hx⟩ := exists_eachPrinted statements hs hts₁
    refine ⟨.block (.ofLexeme opening hopening) x (.ofLexeme closing hclosing), ?_, ?_, ?_,
      hx.levels, rfl, ?_⟩
    · simp [StatementPhrase.tokens, hx.tokens, Terminal.ofLexeme]
    · simp [StatementPhrase.tree, erase, hx.shape]
    · exact ⟨⟨by simp [StatementPhrase.Grouped, StatementPhrase.exprs], trivial⟩, hx.settled⟩
    · exact (iff_of_eq (true_and _)).trans hx.names
  | varDecl d, ts, hs, hts => by
    obtain ⟨hd, hbare⟩ := hs
    obtain ⟨decl, rfl, hshape⟩ := VarDecl.exists_decl hd hts
    have htype : decl.type.tree.erase = d.type.erase := congrArg VarDecl.type hshape
    -- Brackets behind the type would make the printed type an array of a class.
    have hbare' (hkind : decl.type.base.token.kind = .identifier) : decl.type.suffix? = none := by
      have hbase : decl.type.base.token.kind = d.type.base.kind :=
        congrArg (fun t => t.base.kind) htype
      have hsuffix : decl.type.suffix?.isSome = d.type.isArray := congrArg TypeRef.isArray htype
      have hnamed : d.type.isNamed = true := by rw [TypeRef.isNamed, ← hbase, hkind]; rfl
      rw [hbare hnamed] at hsuffix
      simpa using hsuffix
    refine ⟨.varDecl decl hbare', rfl, congrArg varDecl hshape, ⟨?_, trivial⟩, rfl, rfl, Iff.rfl⟩
    simp [StatementPhrase.Grouped, StatementPhrase.exprs]
  | assignment target value _, ts, hs, hts => by
    obtain ⟨htarget, hvalue⟩ := hs
    simp only [lexemes, List.map_eq_cons_iff, List.map_eq_append_iff, List.map_eq_nil_iff] at hts
    obtain ⟨ts₁, _, rfl, hts₁, sign, _, rfl, hsign, ts₂, _, rfl, hts₂, ending, _, rfl, hending,
      rfl⟩ := hts
    obtain ⟨x, hx⟩ := Expr.exists_phrased htarget hts₁
    obtain ⟨y, hy⟩ := Expr.exists_phrased hvalue hts₂
    refine ⟨.assignment x (.ofLexeme sign hsign) y (.ofLexeme ending hending), ?_, ?_, ?_, ?_, rfl,
      hx.name⟩
    · simp [StatementPhrase.tokens, hx.tokens, hy.tokens, Terminal.ofLexeme]
    · simp [StatementPhrase.tree, erase, hx.shape, hy.shape]
    · refine ⟨?_, trivial⟩
      simp [StatementPhrase.Grouped, StatementPhrase.exprs, hx.grouped, hy.grouped]
    · simp [StatementPhrase.levels, printedLevels, hx.levels, hy.levels]
  | print value _, ts, hs, hts => by
    simp only [lexemes, List.map_eq_cons_iff, List.map_eq_append_iff, List.map_eq_nil_iff] at hts
    obtain ⟨word, _, rfl, hword, dot, _, rfl, hdot, out, _, rfl, hout, dot', _, rfl, hdot', println,
      _, rfl, hprintln, opening, _, rfl, hopening, ts₁, _, rfl, hts₁, closing, _, rfl, hclosing,
      ending, _, rfl, hending, rfl⟩ := hts
    obtain ⟨x, htokens, hx⟩ := Expr.exists_parens hs hopening hts₁ hclosing
    refine ⟨.print (.ofLexeme word hword) (.ofLexeme dot hdot) (.ofLexeme out hout)
      (.ofLexeme dot' hdot') (.ofLexeme println hprintln) x (.ofLexeme ending hending), ?_, ?_,
      ⟨?_, trivial⟩, ?_, rfl, Iff.rfl⟩
    · simp [StatementPhrase.tokens, htokens, Terminal.ofLexeme]
    · simp [StatementPhrase.tree, erase, hx.shape]
    · simp [StatementPhrase.Grouped, StatementPhrase.exprs, hx.grouped]
    · simp [StatementPhrase.levels, printedLevels, hx.levels]
  | assert condition _, ts, hs, hts => by
    simp only [lexemes, List.map_eq_cons_iff, List.map_eq_append_iff, List.map_eq_nil_iff] at hts
    obtain ⟨word, _, rfl, hword, opening, _, rfl, hopening, ts₁, _, rfl, hts₁, closing, _, rfl,
      hclosing, ending, _, rfl, hending, rfl⟩ := hts
    obtain ⟨x, htokens, hx⟩ := Expr.exists_parens hs hopening hts₁ hclosing
    refine ⟨.assert (.ofLexeme word hword) x (.ofLexeme ending hending), ?_, ?_, ⟨?_, trivial⟩, ?_,
      rfl, Iff.rfl⟩
    · simp [StatementPhrase.tokens, htokens, Terminal.ofLexeme]
    · simp [StatementPhrase.tree, erase, hx.shape]
    · simp [StatementPhrase.Grouped, StatementPhrase.exprs, hx.grouped]
    · simp [StatementPhrase.levels, printedLevels, hx.levels]
  | returnValue value _, ts, hs, hts => by
    simp only [lexemes, List.map_eq_cons_iff, List.map_eq_append_iff, List.map_eq_nil_iff] at hts
    obtain ⟨word, _, rfl, hword, ts₁, _, rfl, hts₁, ending, _, rfl, hending, rfl⟩ := hts
    obtain ⟨x, hx⟩ := Expr.exists_phrased hs hts₁
    refine ⟨.returnValue (.ofLexeme word hword) x (.ofLexeme ending hending), ?_, ?_, ⟨?_, trivial⟩,
      ?_, rfl, Iff.rfl⟩
    · simp [StatementPhrase.tokens, hx.tokens, Terminal.ofLexeme]
    · simp [StatementPhrase.tree, erase, hx.shape]
    · simp [StatementPhrase.Grouped, StatementPhrase.exprs, hx.grouped]
    · simp [StatementPhrase.levels, printedLevels, hx.levels]
  | call receiver method args, ts, hs, hts => by
    obtain ⟨hreceiver, hmethod, hargs⟩ := hs
    simp only [lexemes, Expr.lexemes, List.append_assoc, List.cons_append, List.nil_append,
      List.map_eq_cons_iff, List.map_eq_append_iff, List.map_eq_nil_iff] at hts
    obtain ⟨ts₁, _, rfl, hts₁, dot, _, rfl, hdot, name, _, rfl, hname, opening, _, rfl, hopening,
      ts₂, _, rfl, hts₂, closing, _, rfl, hclosing, ending, _, rfl, hending, rfl⟩ := hts
    obtain ⟨head, tails, hd⟩ := Expr.exists_printed receiver hreceiver hts₁
    obtain ⟨list, htokens, hshape, hgrouped, hlevels⟩ := Expr.exists_args args
      (.ofLexeme opening hopening) (.ofLexeme closing hclosing) hargs hts₂
    have hx := (hd.call (.ofLexeme dot hdot) (.ofToken hmethod name hname) hname htokens hshape
      hgrouped hlevels).phrased
    refine ⟨.call ⟨head, tails, .ofLexeme dot hdot, .ofToken hmethod name hname, list⟩
      (.ofLexeme ending hending), ?_, ?_, ⟨?_, trivial⟩, ?_, rfl, hx.name⟩
    · rw [StatementPhrase.tokens, CallPhrase.expr, hx.tokens]
      simp [Terminal.ofLexeme, Terminal.ofToken]
    · simp [StatementPhrase.tree, erase, hd.shape, hshape, Terminal.ofToken,
        Token.erase_eq_of_lexeme_eq hname]
    · simp [StatementPhrase.Grouped, StatementPhrase.exprs, CallPhrase.expr, hx.grouped]
    · rw [StatementPhrase.levels, CallPhrase.expr, hx.levels, printedLevels]
  | ifThen condition thenBranch _, ts, hs, hts => by
    obtain ⟨hcondition, hthen⟩ := hs
    simp only [lexemes, List.map_eq_cons_iff, List.map_eq_append_iff] at hts
    obtain ⟨word, _, rfl, hword, opening, _, rfl, hopening, ts₁, _, rfl, hts₁, closing, ts₂, rfl,
      hclosing, hts₂⟩ := hts
    obtain ⟨x, htokens, hx⟩ := Expr.exists_parens hcondition hopening hts₁ hclosing
    obtain ⟨y, hy⟩ := exists_printed thenBranch hthen hts₂
    refine ⟨.ifThen (.ofLexeme word hword) x y, ?_, ?_, ⟨⟨?_, trivial⟩, hy.settled⟩, ?_, rfl,
      (iff_of_eq (true_and _)).trans hy.names⟩
    · simp [StatementPhrase.tokens, htokens, hy.tokens, Terminal.ofLexeme]
    · simp [StatementPhrase.tree, erase, hx.shape, hy.shape]
    · simp [StatementPhrase.Grouped, StatementPhrase.exprs, hx.grouped]
    · simp [StatementPhrase.levels, printedLevels, hx.levels, hy.levels]
  | ifElse condition thenBranch elseBranch _, ts, hs, hts => by
    obtain ⟨hcondition, hthen, hclosed, helse⟩ := hs
    simp only [lexemes, List.map_eq_cons_iff, List.map_eq_append_iff] at hts
    obtain ⟨word, _, rfl, hword, opening, _, rfl, hopening, ts₁, _, rfl, hts₁, closing, _, rfl,
      hclosing, ts₂, _, rfl, hts₂, elseWord, ts₃, rfl, helseWord, hts₃⟩ := hts
    obtain ⟨x, htokens, hx⟩ := Expr.exists_parens hcondition hopening hts₁ hclosing
    obtain ⟨y, hy⟩ := exists_printed thenBranch hthen hts₂
    obtain ⟨z, hz⟩ := exists_printed elseBranch helse hts₃
    refine ⟨.ifElse (.ofLexeme word hword) x y (.ofLexeme elseWord helseWord) z, ?_, ?_,
      ⟨⟨?_, hy.endsOpen.trans hclosed⟩, hy.settled, hz.settled⟩, ?_, hz.endsOpen,
      (iff_of_eq (true_and _)).trans (and_congr hy.names hz.names)⟩
    · simp [StatementPhrase.tokens, htokens, hy.tokens, hz.tokens, Terminal.ofLexeme]
    · simp [StatementPhrase.tree, erase, hx.shape, hy.shape, hz.shape]
    · simp [StatementPhrase.Grouped, StatementPhrase.exprs, hx.grouped]
    · simp [StatementPhrase.levels, printedLevels, hx.levels, hy.levels, hz.levels]
  | loop condition body _, ts, hs, hts => by
    obtain ⟨hcondition, hbody⟩ := hs
    simp only [lexemes, List.map_eq_cons_iff, List.map_eq_append_iff] at hts
    obtain ⟨word, _, rfl, hword, opening, _, rfl, hopening, ts₁, _, rfl, hts₁, closing, ts₂, rfl,
      hclosing, hts₂⟩ := hts
    obtain ⟨x, htokens, hx⟩ := Expr.exists_parens hcondition hopening hts₁ hclosing
    obtain ⟨y, hy⟩ := exists_printed body hbody hts₂
    refine ⟨.loop (.ofLexeme word hword) x y, ?_, ?_, ⟨⟨?_, trivial⟩, hy.settled⟩, ?_, hy.endsOpen,
      (iff_of_eq (true_and _)).trans hy.names⟩
    · simp [StatementPhrase.tokens, htokens, hy.tokens, Terminal.ofLexeme]
    · simp [StatementPhrase.tree, erase, hx.shape, hy.shape]
    · simp [StatementPhrase.Grouped, StatementPhrase.exprs, hx.grouped]
    · simp [StatementPhrase.levels, printedLevels, hx.levels, hy.levels]

theorem exists_eachPrinted : ∀ (ss : List Statement) {ts : List Token}, EachLegible ss →
    ts.map (·.lexeme) = lexemesEach ss → ∃ x, EachPrinted ss ts x
  | [], ts, _, hts => by
    obtain rfl := List.map_eq_nil_iff.mp hts
    exact ⟨.nil, rfl, rfl, trivial, rfl, Iff.rfl⟩
  | s :: ss, ts, hss, hts => by
    obtain ⟨ts₁, ts₂, rfl, hts₁, hts₂⟩ := List.map_eq_append_iff.mp hts
    obtain ⟨x, hx⟩ := exists_printed s hss.1 hts₁
    obtain ⟨y, hy⟩ := exists_eachPrinted ss hss.2 hts₂
    refine ⟨.cons x y, ?_, ?_, ⟨hx.settled, hy.settled⟩, ?_, and_congr hx.names hy.names⟩
    · rw [StatementsPhrase.tokens, hx.tokens, hy.tokens]
    · rw [StatementsPhrase.trees, eraseEach, hx.shape, hy.shape, eraseEach]
    · rw [StatementsPhrase.levels, hx.levels, hy.levels, levelsEach]

end

end Statement

end MiniJava
