import MiniJava.Proofs.Derivation.Statement
import MiniJava.Proofs.Storage.Program

/-!
# Where trees begin

The position of a statement is stored in some forms and found through its first expression in
others; that of an expression is found along its left sides, arrays and receivers, and parentheses
leave no trace. Whatever is read, under either policy and with any levels left, a statement begins
at the token the parser stood before, and an expression at the first one that is no opening
parenthesis; nothing that the tree of an expression keeps stands before it
(`trees_begin_where_they_are_read`).
-/

namespace MiniJava

open Parse

/-! ## Positions in a tree -/

namespace Kept

/-- The positions of the tokens and of the nodes that are kept. -/
def positions (k : Kept) : List Position := k.tokens.map (·.position) ++ k.nodes.map (·.2)

theorem mem_positions_append {k l : Kept} {p : Position} :
    p ∈ (k ++ l).positions ↔ p ∈ k.positions ∨ p ∈ l.positions := by
  simp only [positions, tokens_append, nodes_append, List.map_append, List.mem_append]
  tauto

end Kept

-- The position of an expression is one that its tree keeps.
theorem Expr.position_mem_kept : ∀ e : Expr, e.position ∈ e.kept.positions
  | binary left _ _ | index left _ | call left _ _ =>
    Kept.mem_positions_append.mpr (.inl left.position_mem_kept)
  | arrayLength array => array.position_mem_kept
  | unary _ _ | newObject _ _ | newArray _ _ _ =>
    Kept.mem_positions_append.mpr (.inl List.mem_cons_self)
  | intLiteral _ | boolLiteral _ | identifier _ | this _ => List.mem_cons_self

-- A node stands at one of the tokens, which is a brace or a word.
theorem exists_of_mem_nodeMarks {depth : Nat} {tokens : List Token} {kind : TokenKind}
    {p : Position} (h : (kind, p) ∈ nodeMarks depth tokens) :
    ∃ t ∈ tokens, t.kind = kind ∧ t.position = p ∧ kind ∈ .lbrace :: TokenKind.nodeWords := by
  -- A mark of the rest stands at a token of the rest.
  have behind {rest : List Token} (t : Token)
      (h : ∃ u ∈ rest, u.kind = kind ∧ u.position = p ∧ kind ∈ .lbrace :: TokenKind.nodeWords) :
      ∃ u ∈ t :: rest, u.kind = kind ∧ u.position = p ∧ kind ∈ .lbrace :: TokenKind.nodeWords := by
    obtain ⟨u, hu, hmark⟩ := h
    exact ⟨u, List.mem_cons_of_mem t hu, hmark⟩
  fun_induction nodeMarks depth tokens with
  | case1 => cases h
  | case2 depth t rest hbrace _ ih =>
    rcases List.mem_cons.mp h with heq | h
    · cases heq
      exact ⟨t, List.mem_cons_self, rfl, rfl, hbrace ▸ List.mem_cons_self⟩
    · exact behind t (ih h)
  | case3 depth t rest _ _ ih | case4 depth t rest _ _ ih | case6 depth t rest _ _ _ ih =>
    exact behind t (ih h)
  | case5 depth t rest _ _ hword ih =>
    rcases List.mem_cons.mp h with heq | h
    · cases heq
      exact ⟨t, List.mem_cons_self, rfl, rfl, List.mem_cons_of_mem _ hword⟩
    · exact behind t (ih h)

-- No parenthesis is kept.
theorem Faithful.exists_of_mem_positions {depth : Nat} {tokens : List Token} {k : Kept}
    (h : Faithful depth tokens k) {p : Position} (hp : p ∈ k.positions) :
    ∃ t ∈ tokens, t.kind ≠ .lparen ∧ t.position = p := by
  rcases List.mem_append.mp hp with hp | hp
  · obtain ⟨t, ht, rfl⟩ := List.mem_map.mp hp
    obtain ⟨hmem, hkept⟩ := List.mem_filter.mp (h.tokens_perm.mem_iff.mpr ht)
    refine ⟨t, hmem, fun hparen => ?_, rfl⟩
    rw [hparen] at hkept
    exact absurd hkept (by decide)
  · obtain ⟨⟨kind, q⟩, hmark, rfl⟩ := List.mem_map.mp hp
    have hnodes := h.nodes_perm []
    rw [nodeMarks, List.append_nil, List.append_nil] at hnodes
    obtain ⟨t, hmem, rfl, hposition, hkind⟩ := exists_of_mem_nodeMarks (hnodes.mem_iff.mpr hmark)
    refine ⟨t, hmem, fun hparen => ?_, hposition⟩
    rw [hparen] at hkind
    exact absurd hkind (by decide)

/-! ## Expressions -/

/-- The first of the tokens that is no opening parenthesis stands there. -/
def OpensAt (tokens : List Token) (p : Position) : Prop :=
  ∃ t, tokens.find? (·.kind != .lparen) = some t ∧ p = t.position

namespace OpensAt

variable {tokens : List Token} {p : Position} {t : Token}

theorem append_right (h : OpensAt tokens p) (behind : List Token) :
    OpensAt (tokens ++ behind) p := by
  obtain ⟨t, ht, hp⟩ := h
  exact ⟨t, by rw [List.find?_append, ht]; rfl, hp⟩

theorem cons_lparen (h : OpensAt tokens p) (opening : Terminal [.lparen]) :
    OpensAt (opening.token :: tokens) p := by
  obtain ⟨t, ht, hp⟩ := h
  exact ⟨t, by rw [List.find?_cons_of_neg (by simp [opening.kind_eq]), ht], hp⟩

theorem cons (ht : t.kind ≠ .lparen) : OpensAt (t :: tokens) t.position :=
  ⟨t, List.find?_cons_of_pos (by simpa using ht), rfl⟩

-- In tokens that are in order, all others that are no opening parentheses come behind it.
theorem notAfter (h : OpensAt tokens p) (hordered : tokens.Pairwise (·.position.Before ·.position))
    (ht : t ∈ tokens) (hkind : t.kind ≠ .lparen) : p.notAfter t.position := by
  obtain ⟨first, hfirst, rfl⟩ := h
  obtain ⟨-, opened, rest, rfl, hopened⟩ := List.find?_eq_some_iff_append.mp hfirst
  rcases List.mem_append.mp ht with ht | ht
  · exact absurd (hopened t ht) (by simpa using hkind)
  · rcases List.mem_cons.mp ht with rfl | ht
    · exact t.position.notAfter_refl
    · have hbefore := (List.pairwise_cons.mp (List.pairwise_append.mp hordered).2.1).1 t ht
      simp only [Position.Before] at hbefore
      simp only [Position.notAfter, Bool.or_eq_true, Bool.and_eq_true, decide_eq_true_eq,
        beq_iff_eq]
      omega

end OpensAt

mutual

/-- An expression begins at the first token that is no opening parenthesis. -/
theorem ExprPhrase.opensAt : ∀ x : ExprPhrase, OpensAt x.tokens x.tree.position
  | .operand head tails => by
    rw [ExprPhrase.tree, tails.position_extend]
    exact head.opensAt.append_right tails.tokens
  | .binary left op right => left.opensAt.append_right (op.token :: right.tokens)

theorem HeadPhrase.opensAt : ∀ x : HeadPhrase, OpensAt x.tokens x.tree.position
  | .parens opening inner closing =>
    (inner.opensAt.append_right [closing.token]).cons_lparen opening
  | .not leaf _ | .this leaf | .boolLiteral leaf | .intLiteral leaf | .name leaf
  | .newObject leaf _ _ _ | .newArray leaf _ _ _ _ =>
    .cons fun hparen => absurd (leaf.kind_eq.symm.trans hparen) (by decide)

end

/-! ## Statements -/

namespace Statement

variable {n : Nat} {c : ParseContext} {s s' : ParseState} {a : Statement} {t : Token}
  {expression : Parse Expr} {statement : Parse Statement}

/-- The statement begins at the token, which is of a kind that such statements begin with. -/
def BeginsAt (a : Statement) (t : Token) : Prop :=
  a.position = t.position ∧ t.kind ∈ a.kind.firstSet

-- What begins a statement of one kind begins a statement.
theorem firstSet_subset (a : Statement) : a.kind.firstSet ⊆ NodeKind.firstSet .statement := by
  cases a <;> (simp only [kind]; decide)

-- A statement that begins with the token that is expected first.
theorem beginsAt_of_expect {kinds : List TokenKind} {f : Token → Parse Statement}
    (h : (expect kinds >>= f) c s = (.ok a, s'))
    (hf : ∀ t u, t.kind ∈ kinds → f t c u = (.ok a, s') → a.BeginsAt t) :
    a.BeginsAt (s.ahead.headD c.ending) := by
  obtain ⟨t, u, ht, h⟩ := bind_eq_ok.mp h
  rw [expect_run] at ht
  split at ht
  next hmem =>
    cases ht
    exact hf _ _ (List.contains_iff_mem.mp hmem) h
  next => cases ht

theorem beginsAt_parseBlock (h : parseBlock statement c s = (.ok a, s')) :
    a.BeginsAt (s.ahead.headD c.ending) := by
  refine beginsAt_of_expect h fun t u ht h => ?_
  obtain ⟨_, _, _, h⟩ := bind_eq_ok.mp h
  cases h
  exact ⟨rfl, ht⟩

theorem beginsAt_parseReturn (h : parseReturn expression c s = (.ok a, s')) :
    a.BeginsAt (s.ahead.headD c.ending) := by
  refine beginsAt_of_expect h fun t u ht h => ?_
  obtain ⟨_, _, _, h⟩ := bind_eq_ok.mp h
  obtain ⟨_, _, _, h⟩ := bind_eq_ok.mp h
  cases h
  exact ⟨rfl, ht⟩

theorem beginsAt_parseAssert (h : parseAssert expression c s = (.ok a, s')) :
    a.BeginsAt (s.ahead.headD c.ending) := by
  refine beginsAt_of_expect h fun t u ht h => ?_
  obtain ⟨_, _, _, h⟩ := bind_eq_ok.mp h
  obtain ⟨_, _, _, h⟩ := bind_eq_ok.mp h
  cases h
  exact ⟨rfl, ht⟩

theorem beginsAt_parsePrint (h : parsePrint expression c s = (.ok a, s')) :
    a.BeginsAt (s.ahead.headD c.ending) := by
  refine beginsAt_of_expect h fun t u ht h => ?_
  -- The four tokens behind the word, the value and the semicolon.
  iterate 6 replace h := bind_eq_ok.mp h; obtain ⟨_, _, _, h⟩ := h
  cases h
  exact ⟨rfl, ht⟩

theorem beginsAt_parseConditional
    (h : parseConditional expression statement c s = (.ok a, s')) :
    a.BeginsAt (s.ahead.headD c.ending) := by
  refine beginsAt_of_expect h fun t u ht h => ?_
  obtain ⟨_, _, _, h⟩ := bind_eq_ok.mp h
  obtain ⟨_, _, _, h⟩ := bind_eq_ok.mp h
  obtain ⟨_ | _, _, _, h⟩ := bind_eq_ok.mp h
  · cases h
    exact ⟨rfl, ht⟩
  · obtain ⟨_, _, _, h⟩ := bind_eq_ok.mp h
    cases h
    exact ⟨rfl, ht⟩

theorem beginsAt_parseLoop (h : parseLoop expression statement c s = (.ok a, s')) :
    a.BeginsAt (s.ahead.headD c.ending) := by
  refine beginsAt_of_expect h fun t u ht h => ?_
  obtain ⟨_, _, _, h⟩ := bind_eq_ok.mp h
  obtain ⟨_, _, _, h⟩ := bind_eq_ok.mp h
  cases h
  exact ⟨rfl, ht⟩

theorem beginsAt_parseVarDecl (hending : c.ending.kind = .eof)
    (h : parseVarDecl c s = (.ok a, s')) : a.BeginsAt (s.ahead.headD c.ending) := by
  obtain ⟨_, _, hdecl, h⟩ := bind_eq_ok.mp h
  cases h
  obtain ⟨decl, rfl, rfl⟩ := VarDecl.derives_parse hending (by decide) hdecl
  exact ⟨rfl, decl.type.base.kind_mem⟩

-- What begins with an expression begins where the expression does, and the word before it shows
-- that no parentheses are around it.
theorem beginsAt_parseExpression (hexpression : Expr.DerivesExprs expression n)
    (hending : c.ending.kind = .eof) (hname : (s.ahead.headD c.ending).kind = .identifier)
    (h : parseExpression expression c s = (.ok a, s')) : a.BeginsAt (s.ahead.headD c.ending) := by
  obtain ⟨x, u, rfl, -, -, h⟩ := hexpression.bind_eq_ok hending h
  obtain ⟨first, rest, hfirst, -⟩ := x.exists_tokens_eq_cons
  obtain ⟨t, ht, hposition⟩ := x.opensAt
  rw [ParseState.ahead_before, hfirst, List.cons_append, List.headD_cons] at hname ⊢
  rw [hfirst, List.find?_cons_of_pos (by simp [hname])] at ht
  cases ht
  have hbegins {a : Statement} (hkind : a.kind.firstSet = [.identifier])
      (ha : a.position = x.tree.position) : a.BeginsAt first :=
    ⟨ha.trans hposition, by rw [hkind, hname]; exact List.mem_cons_self⟩
  obtain ⟨_ | _, _, _, h⟩ := bind_eq_ok.mp h
  · cases htree : x.tree
    case call receiver method args =>
      rw [htree] at h hbegins
      obtain ⟨_, _, _, h⟩ := bind_eq_ok.mp h
      cases h
      exact hbegins rfl rfl
    -- Nothing but a call is a statement by itself.
    all_goals
      rw [htree] at h
      cases h
  · obtain ⟨_, _, _, h⟩ := bind_eq_ok.mp h
    obtain ⟨_, _, _, h⟩ := bind_eq_ok.mp h
    cases h
    exact hbegins rfl rfl

/-- A statement begins at the token the parser stood before, whatever was recovered from inside. -/
theorem beginsAt_parse (hending : c.ending.kind = .eof) (h : parse n c s = (.ok a, s')) :
    a.BeginsAt (s.ahead.headD c.ending) := by
  cases n with
  | zero => cases h
  | succ n =>
    have hpeek : peek c s = (.ok (s.ahead.headD c.ending), s) := rfl
    replace h := (bind_of_ok hpeek).symm.trans h
    cases hkind : (s.ahead.headD c.ending).kind <;> simp only [hkind] at h
    case lbrace => exact beginsAt_parseBlock h
    case returnWord => exact beginsAt_parseReturn h
    case assertWord => exact beginsAt_parseAssert h
    case systemWord => exact beginsAt_parsePrint h
    case ifWord => exact beginsAt_parseConditional h
    case whileWord => exact beginsAt_parseLoop h
    case intWord | booleanWord => exact beginsAt_parseVarDecl hending h
    case identifier =>
      have hbehind : peekBehind c s = (.ok (s.ahead.tail.headD c.ending).kind, s) := rfl
      replace h := (bind_of_ok hbehind).symm.trans h
      split at h
      next => exact beginsAt_parseVarDecl hending h
      next => exact beginsAt_parseExpression (Expr.derives_parse n).1 hending hkind h
    -- No statement begins with any other kind.
    all_goals cases h

end Statement

/-! ## Texts -/

/-- Reading a statement or an expression from any token of a text, under either policy and with any
levels left and errors on record. The statement begins at this token, which is of a kind that its
kind of statement and statements in general begin with. The expression begins at the first token
from there on that is no opening parenthesis, and this position is the first of all that its tree
keeps. -/
theorem trees_begin_where_they_are_read (source : String) (place : Nat) (policy : ErrorPolicy)
    (levels : Nat) (recoveries : List Recovery) :
    let tokens := (tokenize source).tokens
    let stream := TokenStream.ofTokens (tokens.drop place)
    let c : ParseContext := ⟨policy, stream.ending⟩
    let s : ParseState := ⟨stream.ahead, recoveries⟩
    (∀ a s', Statement.parse levels c s = (.ok a, s') →
      ∃ t, tokens[place]? = some t ∧ a.position = t.position ∧ t.kind ∈ a.kind.firstSet ∧
        t.kind ∈ NodeKind.firstSet .statement) ∧
    ∀ e s', Expr.parse levels c s = (.ok e, s') →
      ∃ t, (tokens.drop place).find? (·.kind != .lparen) = some t ∧ e.position = t.position ∧
        e.position ∈ e.kept.positions ∧ ∀ p ∈ e.kept.positions, e.position.notAfter p := by
  intro tokens stream c s
  have hending : c.ending.kind = .eof := TokenStream.kind_ending_ofTokens _
  obtain ⟨behind, hbehind⟩ : stream.ahead <+: tokens.drop place := List.takeWhile_prefix _
  constructor
  · intro a s' h
    obtain ⟨hposition, hkind⟩ := Statement.beginsAt_parse hending h
    have hstatement := a.firstSet_subset hkind
    -- The end of file begins no statement, so that there is a token ahead.
    cases hahead : stream.ahead with
    | nil =>
      simp only [s, hahead, List.headD_nil, hending] at hstatement
      exact absurd hstatement (by decide)
    | cons t rest =>
      simp only [s, hahead, List.headD_cons] at hposition hkind hstatement
      refine ⟨t, ?_, hposition, hkind, hstatement⟩
      rw [hahead] at hbehind
      rw [← List.head?_drop, ← hbehind, List.cons_append, List.head?_cons]
  · intro e s' h
    obtain ⟨x, hs, rfl, -, -⟩ := (Expr.derives_parse levels).1 hending h
    have hahead : stream.ahead = x.tokens ++ s'.ahead := congrArg ParseState.ahead hs
    have hdrop : tokens.drop place = x.tokens ++ (s'.ahead ++ behind) := by
      rw [← hbehind, hahead, List.append_assoc]
    obtain ⟨t, ht, hposition⟩ := x.opensAt.append_right (s'.ahead ++ behind)
    refine ⟨t, hdrop ▸ ht, hposition, x.tree.position_mem_kept, fun p hp => ?_⟩
    have hordered : x.tokens.Pairwise (·.position.Before ·.position) := by
      have hall := (pairwise_tokens_tokenize source).sublist (List.drop_sublist place tokens)
      rw [hdrop] at hall
      exact (List.pairwise_append.mp hall).1
    obtain ⟨u, hu, hkind, rfl⟩ := (x.faithful 0).exists_of_mem_positions hp
    exact x.opensAt.notAfter hordered hu hkind

/-- The assignment in a block, and its value, which begins with two parentheses. -/
theorem trees_begin_in_block :
    let tokens := (tokenize "\x7b a = ((b)) + new A(); \x7d").tokens
    let stream := TokenStream.ofTokens (tokens.drop 1)
    let stream' := TokenStream.ofTokens (tokens.drop 3)
    (∃ a s', Statement.parse maxNesting ⟨.recover, stream.ending⟩ ⟨stream.ahead, []⟩ = (.ok a, s') ∧
      ∃ t, tokens[1]? = some t ∧ a.position = t.position ∧ t.kind ∈ a.kind.firstSet ∧
        t.kind ∈ NodeKind.firstSet .statement) ∧
    ∃ e s', Expr.parse maxNesting ⟨.failFast, stream'.ending⟩ ⟨stream'.ahead, []⟩ = (.ok e, s') ∧
      ∃ t, (tokens.drop 3).find? (·.kind != .lparen) = some t ∧ e.position = t.position ∧
        e.position ∈ e.kept.positions ∧ ∀ p ∈ e.kept.positions, e.position.notAfter p := by
  intro tokens stream stream'
  have hstatement : (Statement.parse maxNesting ⟨.recover, stream.ending⟩
      ⟨stream.ahead, []⟩).1.isOk = true := by decide +kernel
  have hexpression : (Expr.parse maxNesting ⟨.failFast, stream'.ending⟩
      ⟨stream'.ahead, []⟩).1.isOk = true := by decide +kernel
  constructor
  · rcases hparse : Statement.parse maxNesting ⟨.recover, stream.ending⟩ ⟨stream.ahead, []⟩
      with ⟨_ | a, s'⟩
    · rw [hparse] at hstatement
      cases hstatement
    · exact ⟨a, s', rfl,
        (trees_begin_where_they_are_read _ 1 .recover maxNesting []).1 a s' hparse⟩
  · rcases hparse : Expr.parse maxNesting ⟨.failFast, stream'.ending⟩ ⟨stream'.ahead, []⟩
      with ⟨_ | e, s'⟩
    · rw [hparse] at hexpression
      cases hexpression
    · exact ⟨e, s', rfl,
        (trees_begin_where_they_are_read _ 3 .failFast maxNesting []).2 e s' hparse⟩

end MiniJava
