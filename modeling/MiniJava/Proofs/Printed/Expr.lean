import MiniJava.Proofs.Phrase.Expr
import MiniJava.Proofs.Phrase.Statement
import MiniJava.Proofs.Printing.Lexemes
import MiniJava.Proofs.Printing.Shape

/-!
# Phrases of printed expressions

Tokens with the lexemes of a legible expression are derived by an operand, and the tree of that
operand has the shape of the tree that was printed. The operand opens exactly as many levels as were
counted in advance, and its operators are grouped because each of them stands in parentheses.
-/

namespace MiniJava

-- Tokens of one kind and text differ only in their places.
theorem Token.erase_eq_of_lexeme_eq {t u : Token} (h : t.lexeme = u.lexeme) :
    t.erase = u.erase := by
  obtain ⟨kind, text, p⟩ := t
  obtain ⟨kind', text', p'⟩ := u
  cases h
  rfl

namespace Terminal

-- A token that stands for a kind with one spelling, as a leaf.
def ofLexeme {kind : TokenKind} (t : Token) (h : t.lexeme = kind.lexeme) : Terminal [kind] :=
  ⟨t, List.mem_singleton.mpr (congrArg Lexeme.kind h)⟩

-- A token that stands for another one, as a leaf.
def ofToken {kinds : List TokenKind} {u : Token} (hu : u.IsA kinds) (t : Token)
    (h : t.lexeme = u.lexeme) : Terminal kinds :=
  ⟨t, by rw [show t.kind = u.kind from congrArg Lexeme.kind h]; exact hu.1⟩

end Terminal

namespace Expr

/-- The operand derives the tokens, and what it stands for was printed as them. -/
structure Printed (e : Expr) (ts : List Token) (head : HeadPhrase) (tails : TailsPhrase) :
    Prop where
  tokens : head.tokens ++ tails.tokens = ts
  shape : (tails.extend head.tree).erase = e.erase
  grouped : head.Grouped ∧ tails.Grouped
  levels : max head.levels tails.levels = e.printedLevels
  tailless : e.hasTail = false → tails = .nil
  name : head.tokens.head?.map (·.kind) = some .identifier ↔ e.reachesName = true

namespace Printed

variable {e : Expr} {ts : List Token} {head : HeadPhrase} {tails : TailsPhrase}

-- A tail behind what was derived.
theorem tail (hd : e.Printed ts head tails) (tail : TailsPhrase) {more : List Token} {whole : Expr}
    (htokens : tail.tokens = more)
    (hshape : (tail.extend (tails.extend head.tree)).erase = whole.erase)
    (hgrouped : tail.Grouped) (hlevels : max e.printedLevels tail.levels = whole.printedLevels)
    (htail : whole.hasTail = true) (hname : whole.reachesName = e.reachesName) :
    whole.Printed (ts ++ more) head (tails.append tail) where
  tokens := by rw [TailsPhrase.tokens_append, ← List.append_assoc, hd.tokens, htokens]
  shape := by rw [TailsPhrase.extend_append, hshape]
  grouped := ⟨hd.grouped.1, (TailsPhrase.grouped_append _ _).mpr ⟨hd.grouped.2, hgrouped⟩⟩
  levels := by rw [TailsPhrase.levels_append, ← Nat.max_assoc, hd.levels, hlevels]
  tailless := fun h => by rw [htail] at h; cases h
  name := hname ▸ hd.name

-- A call behind what was derived.
theorem call {args : List Expr} {method : Token} {list : ArgsPhrase} {more : List Token}
    (hd : e.Printed ts head tails) (dot : Terminal [.dot]) (name : Terminal [.identifier])
    (hname : name.token.lexeme = method.lexeme) (htokens : list.tokens = more)
    (hshape : eraseEach list.trees = eraseEach args) (hgrouped : list.Grouped)
    (hlevels : list.levels = argLevels args) :
    (Expr.call e method args).Printed (ts ++ dot.token :: name.token :: more) head
      (tails.append (.call dot name list .nil)) := by
  refine hd.tail _ ?_ ?_ ⟨hgrouped, trivial⟩ ?_ rfl rfl
  · simp [TailsPhrase.tokens, htokens]
  · simp [TailsPhrase.extend, erase, hd.shape, hshape, Token.erase_eq_of_lexeme_eq hname]
  · simp [TailsPhrase.levels, printedLevels, hlevels]

-- A head alone.
theorem ofHead (htokens : head.tokens = ts) (hshape : head.tree.erase = e.erase)
    (hgrouped : head.Grouped) (hlevels : head.levels = e.printedLevels)
    (hname : head.tokens.head?.map (·.kind) = some .identifier ↔ e.reachesName = true) :
    e.Printed ts head .nil where
  tokens := (List.append_nil _).trans htokens
  shape := hshape
  grouped := ⟨hgrouped, trivial⟩
  levels := (Nat.max_zero _).trans hlevels
  tailless := fun _ => rfl
  name := hname

-- An expression in parentheses, which does not begin with a name.
theorem ofParens {opening closing : Token} {x : ExprPhrase}
    (hopening : opening.lexeme = TokenKind.lparen.lexeme)
    (hclosing : closing.lexeme = TokenKind.rparen.lexeme)
    (htokens : opening :: (x.tokens ++ [closing]) = ts) (hshape : x.tree.erase = e.erase)
    (hgrouped : x.Grouped) (hlevels : x.levels + 1 = e.printedLevels)
    (hname : e.reachesName = false) :
    e.Printed ts (.parens (.ofLexeme opening hopening) x (.ofLexeme closing hclosing)) .nil := by
  refine ofHead htokens hshape hgrouped hlevels ?_
  simp [HeadPhrase.tokens, hname, Terminal.kind_eq]

end Printed

mutual

/-- Tokens with the lexemes of a legible expression are derived by an operand. -/
theorem exists_printed : ∀ (e : Expr) {ts : List Token}, e.Legible →
    ts.map (·.lexeme) = e.lexemes → ∃ head tails, e.Printed ts head tails
  | binary left op right, ts, he, hts => by
    obtain ⟨hleft, hop, hright⟩ := he
    simp only [lexemes, List.map_eq_cons_iff, List.map_eq_append_iff, List.map_eq_nil_iff] at hts
    obtain ⟨opening, _, rfl, hopening, ts₁, _, rfl, hts₁, sign, _, rfl, hsign, ts₂, _, rfl, hts₂,
      closing, _, rfl, hclosing, rfl⟩ := hts
    obtain ⟨head₁, tails₁, hd₁⟩ := exists_printed left hleft hts₁
    obtain ⟨head₂, tails₂, hd₂⟩ := exists_printed right hright hts₂
    -- Operands bind tighter than any operator, so that both sides are grouped.
    have hbound : sign.kind.precedence < TokenKind.maxPrecedence + 1 :=
      Nat.lt_succ_of_le (TokenKind.precedence_le _)
    refine ⟨_, _, .ofParens (x := .binary (.operand head₁ tails₁) (.ofToken hop sign hsign)
      (.operand head₂ tails₂)) hopening hclosing ?_ ?_ ?_ ?_ rfl⟩
    · simp [ExprPhrase.tokens, hd₁.tokens, hd₂.tokens, Terminal.ofToken]
    · simp [ExprPhrase.tree, erase, hd₁.shape, hd₂.shape, Terminal.ofToken,
        Token.erase_eq_of_lexeme_eq hsign]
    · exact ⟨Nat.le_of_lt hbound, hbound, hd₁.grouped, hd₂.grouped⟩
    · simp only [ExprPhrase.levels, printedLevels, hd₁.levels, hd₂.levels]
  | unary op operand, ts, he, hts => by
    obtain ⟨hop, hoperand⟩ := he
    cases htail : operand.hasTail with
    | true =>
      rw [lexemes, if_pos htail] at hts
      simp only [List.map_eq_cons_iff, List.map_eq_append_iff, List.map_eq_nil_iff] at hts
      obtain ⟨opening, _, rfl, hopening, sign, _, rfl, hsign, opening', _, rfl, hopening', ts₁, _,
        rfl, hts₁, closing', _, rfl, hclosing', closing, _, rfl, hclosing, rfl⟩ := hts
      obtain ⟨head, tails, hd⟩ := exists_printed operand hoperand hts₁
      refine ⟨_, _, .ofParens (x := .operand (.not (.ofToken hop sign hsign)
        (.parens (.ofLexeme opening' hopening') (.operand head tails)
          (.ofLexeme closing' hclosing'))) .nil) hopening hclosing ?_ ?_ ?_ ?_ rfl⟩
      · simp [HeadPhrase.tokens, ExprPhrase.tokens, TailsPhrase.tokens, ← hd.tokens,
          Terminal.ofLexeme, Terminal.ofToken]
      · simp [HeadPhrase.tree, ExprPhrase.tree, TailsPhrase.extend, erase, hd.shape,
          Terminal.ofToken, Token.erase_eq_of_lexeme_eq hsign]
      · exact ⟨hd.grouped, trivial⟩
      · simp [HeadPhrase.levels, ExprPhrase.levels, TailsPhrase.levels, printedLevels, hd.levels,
          htail]
    | false =>
      rw [lexemes, if_neg (by rw [htail]; exact Bool.false_ne_true)] at hts
      simp only [List.map_eq_cons_iff, List.map_eq_append_iff, List.map_eq_nil_iff] at hts
      obtain ⟨opening, _, rfl, hopening, sign, _, rfl, hsign, ts₁, _, rfl, hts₁, closing, _, rfl,
        hclosing, rfl⟩ := hts
      obtain ⟨head, tails, hd⟩ := exists_printed operand hoperand hts₁
      -- Without a tail the operand is a head, which `!` can stand in front of.
      obtain rfl := hd.tailless htail
      have hhead : head.tokens = ts₁ := (List.append_nil _).symm.trans hd.tokens
      have hshape : head.tree.erase = operand.erase := hd.shape
      have hlevels : head.levels = operand.printedLevels := (Nat.max_zero _).symm.trans hd.levels
      refine ⟨_, _, .ofParens (x := .operand (.not (.ofToken hop sign hsign) head) .nil)
        hopening hclosing ?_ ?_ ?_ ?_ rfl⟩
      · simp [HeadPhrase.tokens, ExprPhrase.tokens, TailsPhrase.tokens, hhead, Terminal.ofToken]
      · simp [HeadPhrase.tree, ExprPhrase.tree, TailsPhrase.extend, erase, hshape,
          Terminal.ofToken, Token.erase_eq_of_lexeme_eq hsign]
      · exact ⟨hd.grouped.1, trivial⟩
      · simp [HeadPhrase.levels, ExprPhrase.levels, TailsPhrase.levels, printedLevels, hlevels,
          htail]
  | index array i, ts, he, hts => by
    obtain ⟨harray, hi⟩ := he
    simp only [lexemes, List.map_eq_cons_iff, List.map_eq_append_iff, List.map_eq_nil_iff] at hts
    obtain ⟨ts₁, _, rfl, hts₁, opening, _, rfl, hopening, ts₂, _, rfl, hts₂, closing, _, rfl,
      hclosing, rfl⟩ := hts
    obtain ⟨head, tails, hd⟩ := exists_printed array harray hts₁
    -- The index goes into a new tail behind those of the array.
    obtain ⟨head', tails', hd'⟩ := exists_printed i hi hts₂
    refine ⟨_, _, hd.tail (.index (.ofLexeme opening hopening) (.operand head' tails')
      (.ofLexeme closing hclosing) .nil) ?_ ?_ ⟨hd'.grouped, trivial⟩ ?_ rfl rfl⟩
    · simp [TailsPhrase.tokens, ExprPhrase.tokens, ← hd'.tokens, Terminal.ofLexeme]
    · simp [TailsPhrase.extend, ExprPhrase.tree, erase, hd.shape, hd'.shape]
    · simp [TailsPhrase.levels, ExprPhrase.levels, printedLevels, hd'.levels]
  | arrayLength array, ts, he, hts => by
    simp only [lexemes, List.map_eq_cons_iff, List.map_eq_append_iff, List.map_eq_nil_iff] at hts
    obtain ⟨ts₁, _, rfl, hts₁, dot, _, rfl, hdot, word, _, rfl, hword, rfl⟩ := hts
    obtain ⟨head, tails, hd⟩ := exists_printed array he hts₁
    refine ⟨_, _, hd.tail (.length (.ofLexeme dot hdot) (.ofLexeme word hword) .nil) rfl ?_ trivial
      (Nat.max_zero _) rfl rfl⟩
    simp [TailsPhrase.extend, erase, hd.shape]
  | newObject className _, ts, he, hts => by
    simp only [lexemes, List.map_eq_cons_iff, List.map_eq_nil_iff] at hts
    obtain ⟨word, _, rfl, hword, name, _, rfl, hname, opening, _, rfl, hopening, closing, _, rfl,
      hclosing, rfl⟩ := hts
    refine ⟨.newObject (.ofLexeme word hword) (.ofToken he name hname) (.ofLexeme opening hopening)
      (.ofLexeme closing hclosing), .nil, .ofHead rfl ?_ trivial rfl ?_⟩
    · simp [HeadPhrase.tree, erase, Terminal.ofToken, Token.erase_eq_of_lexeme_eq hname]
    · simp [HeadPhrase.tokens, reachesName, Terminal.kind_eq]
  | newArray elementType length _, ts, he, hts => by
    obtain ⟨hbase, harray, hlength⟩ := he
    simp only [lexemes, List.map_eq_cons_iff, List.map_eq_append_iff, List.map_eq_nil_iff] at hts
    obtain ⟨word, _, rfl, hword, base, _, rfl, hbase', opening, _, rfl, hopening, ts₁, _, rfl, hts₁,
      closing, _, rfl, hclosing, rfl⟩ := hts
    obtain ⟨head, tails, hd⟩ := exists_printed length hlength hts₁
    refine ⟨.newArray (.ofLexeme word hword) (.ofToken hbase base hbase')
      (.ofLexeme opening hopening) (.operand head tails) (.ofLexeme closing hclosing), .nil,
      .ofHead ?_ ?_ hd.grouped ?_ ?_⟩
    · simp [HeadPhrase.tokens, ExprPhrase.tokens, ← hd.tokens, Terminal.ofLexeme, Terminal.ofToken]
    · simp [HeadPhrase.tree, ExprPhrase.tree, erase, hd.shape, TypeRef.erase, harray,
        Terminal.ofToken, Token.erase_eq_of_lexeme_eq hbase']
    · simp [HeadPhrase.levels, ExprPhrase.levels, printedLevels, hd.levels]
    · simp [HeadPhrase.tokens, reachesName, Terminal.kind_eq]
  | call receiver method args, ts, he, hts => by
    obtain ⟨hreceiver, hmethod, hargs⟩ := he
    simp only [lexemes, List.map_eq_cons_iff, List.map_eq_append_iff, List.map_eq_nil_iff] at hts
    obtain ⟨ts₁, _, rfl, hts₁, dot, _, rfl, hdot, name, _, rfl, hname, opening, _, rfl, hopening,
      ts₂, _, rfl, hts₂, closing, _, rfl, hclosing, rfl⟩ := hts
    obtain ⟨head, tails, hd⟩ := exists_printed receiver hreceiver hts₁
    obtain ⟨list, htokens, hshape, hgrouped, hlevels⟩ := exists_args args
      (.ofLexeme opening hopening) (.ofLexeme closing hclosing) hargs hts₂
    exact ⟨_, _, hd.call (.ofLexeme dot hdot) (.ofToken hmethod name hname) hname htokens hshape
      hgrouped hlevels⟩
  | intLiteral t, ts, he, hts => by
    obtain ⟨u, rfl, hu⟩ := List.map_eq_singleton_iff.mp hts
    refine ⟨.intLiteral (.ofToken he u hu), .nil, .ofHead rfl ?_ trivial rfl ?_⟩
    · exact congrArg intLiteral (Token.erase_eq_of_lexeme_eq hu)
    · simp [HeadPhrase.tokens, reachesName, Terminal.kind_eq]
  | boolLiteral t, ts, he, hts => by
    obtain ⟨u, rfl, hu⟩ := List.map_eq_singleton_iff.mp hts
    refine ⟨.boolLiteral (.ofToken he u hu), .nil, .ofHead rfl ?_ trivial rfl ?_⟩
    · exact congrArg boolLiteral (Token.erase_eq_of_lexeme_eq hu)
    · simp [HeadPhrase.tokens, reachesName, Terminal.kind_eq]
  | identifier t, ts, he, hts => by
    obtain ⟨u, rfl, hu⟩ := List.map_eq_singleton_iff.mp hts
    refine ⟨.name (.ofToken he u hu), .nil, .ofHead rfl ?_ trivial rfl ?_⟩
    · exact congrArg identifier (Token.erase_eq_of_lexeme_eq hu)
    · simp [HeadPhrase.tokens, reachesName, Terminal.kind_eq]
  | this t, ts, he, hts => by
    obtain ⟨u, rfl, hu⟩ := List.map_eq_singleton_iff.mp hts
    refine ⟨.this (.ofToken he u hu), .nil, .ofHead rfl ?_ trivial rfl ?_⟩
    · exact congrArg this (Token.erase_eq_of_lexeme_eq hu)
    · simp [HeadPhrase.tokens, reachesName, Terminal.kind_eq]

theorem exists_args : ∀ (es : List Expr) {ts : List Token} (opening : Terminal [.lparen])
    (closing : Terminal [.rparen]), EachLegible es → ts.map (·.lexeme) = argLexemes es →
      ∃ args : ArgsPhrase, args.tokens = opening.token :: (ts ++ [closing.token]) ∧
        eraseEach args.trees = eraseEach es ∧ args.Grouped ∧ args.levels = argLevels es
  | [], ts, opening, closing, _, hts => by
    obtain rfl := List.map_eq_nil_iff.mp hts
    exact ⟨.none opening closing, rfl, rfl, trivial, rfl⟩
  | e :: es, ts, opening, closing, hes, hts => by
    obtain ⟨ts₁, ts₂, rfl, hts₁, hts₂⟩ := List.map_eq_append_iff.mp hts
    obtain ⟨head, tails, hd⟩ := exists_printed e hes.1 hts₁
    obtain ⟨more, htokens, hshape, hgrouped, hlevels⟩ := exists_moreArgs es hes.2 hts₂
    refine ⟨.some opening (.operand head tails) more closing, ?_, ?_, ⟨hd.grouped, hgrouped⟩, ?_⟩
    · simp [ArgsPhrase.tokens, ExprPhrase.tokens, ← hd.tokens, htokens]
    · simp [ArgsPhrase.trees, ExprPhrase.tree, eraseEach, hd.shape, hshape]
    · simp [ArgsPhrase.levels, ExprPhrase.levels, argLevels, hd.levels, hlevels]

theorem exists_moreArgs : ∀ (es : List Expr) {ts : List Token}, EachLegible es →
    ts.map (·.lexeme) = moreArgLexemes es →
      ∃ more : MoreArgsPhrase, more.tokens = ts ∧ eraseEach more.trees = eraseEach es ∧
        more.Grouped ∧ more.levels = argLevels es
  | [], ts, _, hts => by
    obtain rfl := List.map_eq_nil_iff.mp hts
    exact ⟨.nil, rfl, rfl, trivial, rfl⟩
  | e :: es, ts, hes, hts => by
    simp only [moreArgLexemes, List.map_eq_cons_iff, List.map_eq_append_iff] at hts
    obtain ⟨comma, _, rfl, hcomma, ts₁, ts₂, rfl, hts₁, hts₂⟩ := hts
    obtain ⟨head, tails, hd⟩ := exists_printed e hes.1 hts₁
    obtain ⟨more, htokens, hshape, hgrouped, hlevels⟩ := exists_moreArgs es hes.2 hts₂
    refine ⟨.cons (.ofLexeme comma hcomma) (.operand head tails) more, ?_, ?_,
      ⟨hd.grouped, hgrouped⟩, ?_⟩
    · simp [MoreArgsPhrase.tokens, ExprPhrase.tokens, ← hd.tokens, htokens, Terminal.ofLexeme]
    · simp [MoreArgsPhrase.trees, ExprPhrase.tree, eraseEach, hd.shape, hshape]
    · simp [MoreArgsPhrase.levels, ExprPhrase.levels, argLevels, hd.levels, hlevels]

end

/-- The expression derives the tokens, and what it stands for was printed as them. -/
structure Phrased (e : Expr) (ts : List Token) (x : ExprPhrase) : Prop where
  tokens : x.tokens = ts
  shape : x.tree.erase = e.erase
  grouped : x.Grouped
  levels : x.levels = e.printedLevels
  name : x.BeginsWithName ↔ e.reachesName = true

theorem Printed.phrased {e : Expr} {ts : List Token} {head : HeadPhrase} {tails : TailsPhrase}
    (hd : e.Printed ts head tails) : e.Phrased ts (.operand head tails) where
  tokens := hd.tokens
  shape := hd.shape
  grouped := hd.grouped
  levels := hd.levels
  name := by
    obtain ⟨t, more, hhead, -⟩ := head.exists_tokens_eq_cons
    rw [← hd.name, ExprPhrase.BeginsWithName, ExprPhrase.tokens, hhead]
    rfl

theorem exists_phrased {e : Expr} {ts : List Token} (he : e.Legible)
    (hts : ts.map (·.lexeme) = e.lexemes) : ∃ x, e.Phrased ts x := by
  obtain ⟨head, tails, hd⟩ := exists_printed e he hts
  exact ⟨_, hd.phrased⟩

theorem exists_parens {e : Expr} {ts : List Token} {opening closing : Token} (he : e.Legible)
    (hopening : opening.lexeme = TokenKind.lparen.lexeme) (hts : ts.map (·.lexeme) = e.lexemes)
    (hclosing : closing.lexeme = TokenKind.rparen.lexeme) :
    ∃ x : ParensPhrase, x.tokens = opening :: (ts ++ [closing]) ∧ e.Phrased ts x.inner := by
  obtain ⟨x, hx⟩ := exists_phrased he hts
  refine ⟨⟨.ofLexeme opening hopening, x, .ofLexeme closing hclosing⟩, ?_, hx⟩
  rw [ParensPhrase.tokens, hx.tokens]
  rfl

end Expr

end MiniJava
