import MiniJava.Proofs.Phrase.Program
import MiniJava.Proofs.Reading.Statement
import MiniJava.Proofs.Uniqueness.Expr

/-!
# One derivation — statements

Two settled statement phrases that derive the same tokens are the same phrase
(`uniqueStatements`): the operators leave one grouping, and an `else` has to belong to the nearest
`if`. No statement has to begin with a name for this.
-/

namespace MiniJava

variable {r r' : List Token}

/-! ## Declarations -/

theorem TypePhrase.unique {bases : List TokenKind} {x y : TypePhrase bases}
    {a b : Terminal [.identifier]} (h : x.tokens ++ a.token :: r = y.tokens ++ b.token :: r') :
    x = y ∧ a = b ∧ r = r' := by
  obtain ⟨base, suffix?⟩ := x
  obtain ⟨base', suffix?'⟩ := y
  replace h := Terminal.cons_inj h
  obtain ⟨rfl, h⟩ := h
  cases suffix? with
  | none =>
    cases suffix?' with
    | none =>
      replace h := Terminal.cons_inj h
      obtain ⟨rfl, rfl⟩ := h
      exact ⟨rfl, rfl, rfl⟩
    | some brackets => exact absurd (Terminal.kind_eq_of_cons a brackets.1 h) (by decide)
  | some brackets =>
    cases suffix?' with
    | none => exact absurd (Terminal.kind_eq_of_cons brackets.1 b h) (by decide)
    | some brackets' =>
      obtain ⟨opening, closing⟩ := brackets
      obtain ⟨opening', closing'⟩ := brackets'
      replace h := Terminal.cons_inj h
      obtain ⟨rfl, h⟩ := h
      replace h := Terminal.cons_inj h
      obtain ⟨rfl, h⟩ := h
      replace h := Terminal.cons_inj h
      obtain ⟨rfl, rfl⟩ := h
      exact ⟨rfl, rfl, rfl⟩

theorem DeclPhrase.unique {bases : List TokenKind} {x y : DeclPhrase bases}
    (h : x.tokens ++ r = y.tokens ++ r') : x = y ∧ r = r' := by
  obtain ⟨type, name, ending⟩ := x
  obtain ⟨type', name', ending'⟩ := y
  simp only [tokens, List.append_assoc, List.cons_append, List.nil_append] at h
  replace h := TypePhrase.unique h
  obtain ⟨rfl, rfl, h⟩ := h
  replace h := Terminal.cons_inj h
  obtain ⟨rfl, rfl⟩ := h
  exact ⟨rfl, rfl⟩

-- No declaration is an expression and something else than a name behind it.
theorem DeclPhrase.tokens_append_ne {x : DeclPhrase NodeKind.varDeclStart}
    (bare : x.type.base.token.kind = .identifier → x.type.suffix? = none) {e : ExprPhrase}
    {t : Token} {ts : List Token} (ht : t.kind ≠ .identifier) :
    x.tokens ++ r ≠ e.tokens ++ t :: ts := by
  intro h
  obtain ⟨u, us, heq, hkind⟩ := e.exists_tokens_eq_cons
  have hdecl : x.type.base.token :: (TypePhrase.suffixTokens x.type.suffix? ++
      x.name.token :: x.ending.token :: r) = u :: (us ++ t :: ts) := by
    rw [heq] at h
    simpa [tokens, TypePhrase.tokens] using h
  obtain ⟨rfl, hbehind⟩ := List.cons.inj hdecl
  have hname : x.type.base.token.kind = .identifier := by
    have hmem := x.type.base.kind_mem
    simp only [NodeKind.varDeclStart, List.mem_cons, List.not_mem_nil, or_false] at hmem
    rcases hmem with h | h | h
    · rw [h] at hkind
      exact absurd hkind (by decide)
    · rw [h] at hkind
      exact absurd hkind (by decide)
    · exact h
  have hnext : ParseContext.nextKind ⟨.failFast, t⟩ (ParseState.before ⟨[], []⟩ (us ++ t :: ts)) ≠
      .identifier := Statement.nextKind_behind_name e heq hname ht
  -- A name behind the type, but no name behind the first token of the expression.
  rw [bare hname] at hbehind
  rw [← hbehind] at hnext
  exact hnext x.name.kind_eq

namespace StatementPhrase

/-! ## First tokens -/

/-- The word or brace that a statement begins with, unless it begins with a type or an
expression. -/
def word? : StatementPhrase → Option TokenKind
  | block .. => some .lbrace
  | print .. => some .systemWord
  | assert .. => some .assertWord
  | returnValue .. => some .returnWord
  | ifThen .. | ifElse .. => some .ifWord
  | loop .. => some .whileWord
  | varDecl .. | assignment .. | call .. => none

-- The kinds that types and expressions begin with, in statements.
def wordlessStart : List TokenKind := NodeKind.varDeclStart ++ TokenKind.expressionStart

-- A statement begins with its word, or with a type or an expression.
theorem exists_first (x : StatementPhrase) :
    ∃ t ts, x.tokens = t :: ts ∧
      (x.word? = some t.kind ∨ x.word? = none ∧ t.kind ∈ wordlessStart) := by
  have hexpr (e : ExprPhrase) (ts : List Token) :
      ∃ t us, e.tokens ++ ts = t :: us ∧ t.kind ∈ wordlessStart := by
    obtain ⟨t, us, heq, hkind⟩ := e.exists_tokens_eq_cons
    exact ⟨t, us ++ ts, by rw [heq, List.cons_append], List.mem_append_right _ hkind⟩
  cases x with
  | varDecl decl =>
    exact ⟨decl.type.base.token, _, rfl, .inr ⟨rfl, List.mem_append_left _ decl.type.base.kind_mem⟩⟩
  | assignment target sign value ending =>
    obtain ⟨t, ts, heq, hkind⟩ := hexpr target (sign.token :: (value.tokens ++ [ending.token]))
    exact ⟨t, ts, heq, .inr ⟨rfl, hkind⟩⟩
  | call call ending =>
    obtain ⟨t, ts, heq, hkind⟩ := hexpr call.expr [ending.token]
    exact ⟨t, ts, heq, .inr ⟨rfl, hkind⟩⟩
  | block leaf | print leaf | assert leaf | returnValue leaf | ifThen leaf | ifElse leaf
  | loop leaf =>
    exact ⟨leaf.token, _, rfl, .inl (congrArg some leaf.kind_eq.symm)⟩

-- The words of statements begin neither types nor expressions.
theorem word?_ne_of_mem {x : StatementPhrase} {kind : TokenKind} (h : kind ∈ wordlessStart) :
    x.word? ≠ some kind := by
  intro hword
  cases x <;> cases hword <;> exact absurd h (by decide)

-- The first token decides which word a statement begins with.
theorem word?_eq {x y : StatementPhrase} (h : x.tokens ++ r = y.tokens ++ r') :
    x.word? = y.word? := by
  obtain ⟨t, ts, heq, hx⟩ := x.exists_first
  obtain ⟨u, us, heq', hy⟩ := y.exists_first
  rw [heq, heq', List.cons_append, List.cons_append] at h
  obtain ⟨rfl, -⟩ := List.cons.inj h
  rcases hx with hx | ⟨hx, hmem⟩
  · rcases hy with hy | ⟨-, hmem⟩
    · rw [hx, hy]
    · exact absurd hx (word?_ne_of_mem hmem)
  · rcases hy with hy | ⟨hy, -⟩
    · exact absurd hy (word?_ne_of_mem hmem)
    · rw [hx, hy]

-- No statement begins with a token of a kind that begins none.
theorem tokens_append_ne_cons {x : StatementPhrase} {t : Token} {ts us : List Token}
    (ht : t.kind ∉ NodeKind.statementStart ++ TokenKind.expressionStart) :
    x.tokens ++ ts ≠ t :: us := by
  obtain ⟨first, behind, heq, hfirst⟩ := x.exists_first
  rw [heq, List.cons_append]
  intro h
  obtain ⟨rfl, -⟩ := List.cons.inj h
  apply ht
  generalize first.kind = kind at hfirst
  rcases hfirst with hword | ⟨-, hmem⟩
  · cases x <;> cases hword <;> decide
  · revert hmem
    cases kind <;> decide

end StatementPhrase

/-! ## Parts of statements -/

/-- Settled statements with fewer than `n` levels inside are determined by their tokens, where no
`else` follows that they could take. -/
def UniqueStatements (n : Nat) : Prop :=
  ∀ {x y : StatementPhrase} {r r' : List Token}, x.levels < n → x.Every (·.Settled) →
    y.Every (·.Settled) → (x.endsOpen = true → NextKind (· ≠ .elseWord) r) →
    (y.endsOpen = true → NextKind (· ≠ .elseWord) r') → x.tokens ++ r = y.tokens ++ r' →
    x = y ∧ r = r'

theorem ParensPhrase.unique {x y : ParensPhrase} (hx : x.inner.Grouped) (hy : y.inner.Grouped)
    (h : x.tokens ++ r = y.tokens ++ r') : x = y ∧ r = r' := by
  obtain ⟨opening, inner, closing⟩ := x
  obtain ⟨opening', inner', closing'⟩ := y
  simp only [tokens, List.cons_append, List.append_assoc, List.nil_append] at h
  replace h := Terminal.cons_inj h
  obtain ⟨rfl, h⟩ := h
  replace h := ExprPhrase.enclosed_unique hx hy (by decide) h
  obtain ⟨rfl, rfl, rfl⟩ := h
  exact ⟨rfl, rfl⟩

-- A word and the parentheses that stand behind it.
theorem ParensPhrase.unique_behind {kind : TokenKind} {a b : Terminal [kind]} {x y : ParensPhrase}
    (hx : x.inner.Grouped) (hy : y.inner.Grouped)
    (h : a.token :: (x.tokens ++ r) = b.token :: (y.tokens ++ r')) :
    a = b ∧ x = y ∧ r = r' := by
  obtain ⟨rfl, hbehind⟩ := Terminal.cons_inj h
  obtain ⟨rfl, hrest⟩ := ParensPhrase.unique hx hy hbehind
  exact ⟨rfl, rfl, hrest⟩

-- No `else` stands before statements and the brace that closes them.
theorem StatementsPhrase.nextKind_tokens (x : StatementsPhrase) (closing : Terminal [.rbrace]) :
    NextKind (· ≠ .elseWord) (x.tokens ++ closing.token :: r) := by
  cases x with
  | nil =>
    rw [tokens, List.nil_append, nextKind_cons, closing.kind_eq]
    decide
  | cons first rest =>
    intro t ht hkind
    obtain ⟨ts, heq⟩ := List.head?_eq_some_iff.mp ht
    rw [tokens, List.append_assoc] at heq
    exact absurd heq (StatementPhrase.tokens_append_ne_cons (by rw [hkind]; decide))

theorem StatementsPhrase.unique_of_levels {n : Nat} (hstatements : UniqueStatements n)
    (x : StatementsPhrase) {a b : Terminal [.rbrace]} :
    ∀ {y : StatementsPhrase}, x.levels ≤ n → x.Every (·.Settled) → y.Every (·.Settled) →
      x.tokens ++ a.token :: r = y.tokens ++ b.token :: r' → x = y ∧ a = b ∧ r = r' := by
  have hbrace (leaf : Terminal [.rbrace]) :
      leaf.token.kind ∉ NodeKind.statementStart ++ TokenKind.expressionStart := by
    rw [leaf.kind_eq]
    decide
  induction x using StatementsPhrase.chain with
  | nil =>
    intro y _ _ _ h
    cases y with
    | nil =>
      replace h := Terminal.cons_inj h
      obtain ⟨rfl, rfl⟩ := h
      exact ⟨rfl, rfl, rfl⟩
    | cons first rest =>
      rw [tokens, tokens, List.append_assoc] at h
      exact absurd h.symm (StatementPhrase.tokens_append_ne_cons (hbrace a))
  | cons first rest ih =>
    intro y hlevels hx hy h
    cases y with
    | nil =>
      rw [tokens, tokens, List.append_assoc] at h
      exact absurd h (StatementPhrase.tokens_append_ne_cons (hbrace b))
    | cons first' rest' =>
      obtain ⟨hfirstLevels, hrestLevels⟩ := Nat.max_le.mp hlevels
      rw [tokens, tokens, List.append_assoc, List.append_assoc] at h
      replace h := hstatements hfirstLevels hx.1 hy.1 (fun _ => rest.nextKind_tokens a)
        (fun _ => rest'.nextKind_tokens b) h
      obtain ⟨rfl, h⟩ := h
      obtain ⟨rfl, rfl, rfl⟩ := ih hrestLevels hx.2 hy.2 h
      exact ⟨rfl, rfl, rfl⟩

/-! ## Statements -/

-- The tails of a call are determined by the tails with the call behind them.
theorem TailsPhrase.append_call_inj (x : TailsPhrase) {dot dot' : Terminal [.dot]}
    {method method' : Terminal [.identifier]} {args args' : ArgsPhrase} :
    ∀ {y : TailsPhrase},
      x.append (.call dot method args .nil) = y.append (.call dot' method' args' .nil) →
      x = y ∧ dot = dot' ∧ method = method' ∧ args = args' := by
  have hnil (z : TailsPhrase) (d : Terminal [.dot]) (m : Terminal [.identifier])
      (as : ArgsPhrase) : z.append (.call d m as .nil) ≠ .nil := by
    cases z <;> exact nofun
  induction x using TailsPhrase.chain with
  | nil =>
    intro y h
    cases y with
    | nil =>
      cases h
      exact ⟨rfl, rfl, rfl, rfl⟩
    | call d m as rest => exact absurd (TailsPhrase.call.inj h).2.2.2.symm (hnil _ _ _ _)
    | index | length => cases h
  | index opening i closing rest ih =>
    intro y h
    cases y with
    | index opening' i' closing' rest' =>
      obtain ⟨rfl, rfl, rfl, hrest⟩ := TailsPhrase.index.inj h
      obtain ⟨rfl, heq⟩ := ih hrest
      exact ⟨rfl, heq⟩
    | nil | length | call => cases h
  | length d word rest ih =>
    intro y h
    cases y with
    | length d' word' rest' =>
      obtain ⟨rfl, rfl, hrest⟩ := TailsPhrase.length.inj h
      obtain ⟨rfl, heq⟩ := ih hrest
      exact ⟨rfl, heq⟩
    | nil | index | call => cases h
  | call d m as rest ih =>
    intro y h
    cases y with
    | nil => exact absurd (TailsPhrase.call.inj h).2.2.2 (hnil _ _ _ _)
    | call d' m' as' rest' =>
      obtain ⟨rfl, rfl, rfl, hrest⟩ := TailsPhrase.call.inj h
      obtain ⟨rfl, heq⟩ := ih hrest
      exact ⟨rfl, heq⟩
    | index | length => cases h

theorem CallPhrase.expr_inj {x y : CallPhrase} (h : x.expr = y.expr) : x = y := by
  obtain ⟨head, tails, dot, method, args⟩ := x
  obtain ⟨head', tails', dot', method', args'⟩ := y
  obtain ⟨rfl, htails⟩ := ExprPhrase.operand.inj h
  obtain ⟨rfl, rfl, rfl, rfl⟩ := tails.append_call_inj htails
  rfl

namespace StatementPhrase

variable {n : Nat}

-- An assignment and a call are told apart by the token behind their first expression.
theorem assignment_ne_call {target value : ExprPhrase} {sign : Terminal [.assign]}
    {ending ending' : Terminal [.semicolon]} {call : CallPhrase} (htarget : target.Grouped)
    (hcall : call.expr.Grouped) :
    (assignment target sign value ending).tokens ++ r ≠
      (StatementPhrase.call call ending').tokens ++ r' := by
  intro h
  simp only [tokens, List.cons_append, List.append_assoc, List.nil_append] at h
  have hsign : NextKind TokenKind.EndsExpr (sign.token :: (value.tokens ++ ending.token :: r)) := by
    rw [nextKind_cons, sign.kind_eq]
    decide
  have hending : NextKind TokenKind.EndsExpr (ending'.token :: r') := by
    rw [nextKind_cons, ending'.kind_eq]
    decide
  obtain ⟨-, hbehind⟩ := ExprPhrase.unique htarget hcall hsign hending h
  exact absurd (Terminal.kind_eq_of_cons sign ending' hbehind) (by decide)

-- A conditional without `else`, where none follows.
theorem ifThen_unique (hstatements : UniqueStatements n) {word : Terminal [.ifWord]}
    {condition : ParensPhrase} {thenBranch y : StatementPhrase}
    (hlevels : (ifThen word condition thenBranch).levels ≤ n)
    (hx : (ifThen word condition thenBranch).Every (·.Settled)) (hy : y.Every (·.Settled))
    (hr : NextKind (· ≠ .elseWord) r) (hr' : y.endsOpen = true → NextKind (· ≠ .elseWord) r')
    (h : (ifThen word condition thenBranch).tokens ++ r = y.tokens ++ r') :
    ifThen word condition thenBranch = y ∧ r = r' := by
  have hword := word?_eq h
  have hgrouped := hx.self.1
  have hgrouped' := hy.self.1
  obtain ⟨-, hthenLevels⟩ := Nat.max_le.mp hlevels
  cases y with
  | ifThen b condition' thenBranch' =>
    simp only [tokens, List.cons_append, List.append_assoc] at h
    replace h := ParensPhrase.unique_behind (hgrouped _ (by simp [exprs]))
      (hgrouped' _ (by simp [exprs])) h
    obtain ⟨rfl, rfl, h⟩ := h
    obtain ⟨rfl, rfl⟩ := hstatements hthenLevels hx.2 hy.2 (fun _ => hr)
      (fun _ => hr' rfl) h
    exact ⟨rfl, rfl⟩
  | ifElse b condition' thenBranch' elseWord' elseBranch' =>
    simp only [tokens, List.cons_append, List.append_assoc] at h
    replace h := ParensPhrase.unique_behind (hgrouped _ (by simp [exprs]))
      (hgrouped' _ (by simp [exprs])) h
    obtain ⟨rfl, rfl, h⟩ := h
    -- The branches agree, so that one `else` would stand behind the other statement.
    have hclosed : thenBranch'.endsOpen = false := hy.self.2
    obtain ⟨-, hrest⟩ := hstatements hthenLevels hx.2 hy.2.1 (fun _ => hr)
      (fun hopen => absurd (hclosed.symm.trans hopen) (by decide)) h
    exact absurd hrest (hr.ne_cons elseWord' (by decide))
  | _ => cases hword

-- A conditional with an `else`.
theorem ifElse_unique (hstatements : UniqueStatements n) {word : Terminal [.ifWord]}
    {condition : ParensPhrase} {thenBranch : StatementPhrase} {elseWord : Terminal [.elseWord]}
    {elseBranch y : StatementPhrase}
    (hlevels : (ifElse word condition thenBranch elseWord elseBranch).levels ≤ n)
    (hx : (ifElse word condition thenBranch elseWord elseBranch).Every (·.Settled))
    (hy : y.Every (·.Settled)) (hr : elseBranch.endsOpen = true → NextKind (· ≠ .elseWord) r)
    (hr' : y.endsOpen = true → NextKind (· ≠ .elseWord) r')
    (h : (ifElse word condition thenBranch elseWord elseBranch).tokens ++ r = y.tokens ++ r') :
    ifElse word condition thenBranch elseWord elseBranch = y ∧ r = r' := by
  have hword := word?_eq h
  have hgrouped := hx.self.1
  have hgrouped' := hy.self.1
  obtain ⟨-, hbranches⟩ := Nat.max_le.mp hlevels
  obtain ⟨hthenLevels, helseLevels⟩ := Nat.max_le.mp hbranches
  have hclosed : thenBranch.endsOpen = false := hx.self.2
  cases y with
  | ifThen b condition' thenBranch' =>
    simp only [tokens, List.cons_append, List.append_assoc] at h
    replace h := ParensPhrase.unique_behind (hgrouped _ (by simp [exprs]))
      (hgrouped' _ (by simp [exprs])) h
    obtain ⟨rfl, rfl, h⟩ := h
    obtain ⟨-, hrest⟩ := hstatements hthenLevels hx.2.1 hy.2
      (fun hopen => absurd (hclosed.symm.trans hopen) (by decide)) (fun _ => hr' rfl) h
    exact absurd hrest.symm ((hr' rfl).ne_cons elseWord (by decide))
  | ifElse b condition' thenBranch' elseWord' elseBranch' =>
    simp only [tokens, List.cons_append, List.append_assoc] at h
    replace h := ParensPhrase.unique_behind (hgrouped _ (by simp [exprs]))
      (hgrouped' _ (by simp [exprs])) h
    obtain ⟨rfl, rfl, h⟩ := h
    -- No branch takes the `else` behind it, so that the branches are determined first.
    have hclosed' : thenBranch'.endsOpen = false := hy.self.2
    replace h := hstatements hthenLevels hx.2.1 hy.2.1
      (fun hopen => absurd (hclosed.symm.trans hopen) (by decide))
      (fun hopen => absurd (hclosed'.symm.trans hopen) (by decide)) h
    obtain ⟨rfl, h⟩ := h
    replace h := Terminal.cons_inj h
    obtain ⟨rfl, h⟩ := h
    obtain ⟨rfl, rfl⟩ := hstatements helseLevels hx.2.2 hy.2.2 hr hr' h
    exact ⟨rfl, rfl⟩
  | _ => cases hword

theorem unique_of_levels (hstatements : UniqueStatements n) {x y : StatementPhrase}
    (hlevels : x.levels ≤ n) (hx : x.Every (·.Settled)) (hy : y.Every (·.Settled))
    (hr : x.endsOpen = true → NextKind (· ≠ .elseWord) r)
    (hr' : y.endsOpen = true → NextKind (· ≠ .elseWord) r')
    (h : x.tokens ++ r = y.tokens ++ r') : x = y ∧ r = r' := by
  -- Statements with different words are told apart at once, in the cases that end with `hword`.
  have hword := word?_eq h
  have hgrouped := hx.self.1
  have hgrouped' := hy.self.1
  cases x with
  | block a statements closing =>
    cases y with
    | block b statements' closing' =>
      simp only [tokens, List.cons_append, List.append_assoc, List.nil_append] at h
      replace h := Terminal.cons_inj h
      obtain ⟨rfl, h⟩ := h
      replace h := statements.unique_of_levels hstatements hlevels hx.2 hy.2 h
      obtain ⟨rfl, rfl, rfl⟩ := h
      exact ⟨rfl, rfl⟩
    | _ => cases hword
  | varDecl decl bare =>
    cases y with
    | varDecl decl' bare' =>
      replace h := DeclPhrase.unique h
      obtain ⟨rfl, rfl⟩ := h
      exact ⟨rfl, rfl⟩
    | assignment target sign value ending =>
      simp only [tokens, List.cons_append, List.append_assoc] at h
      exact absurd h (DeclPhrase.tokens_append_ne bare (by rw [sign.kind_eq]; decide))
    | call call ending =>
      simp only [tokens, List.append_assoc, List.cons_append] at h
      exact absurd h (DeclPhrase.tokens_append_ne bare (by rw [ending.kind_eq]; decide))
    | _ => cases hword
  | assignment target sign value ending =>
    have htarget := hgrouped target (by simp [exprs])
    have hvalue := hgrouped value (by simp [exprs])
    cases y with
    | varDecl decl bare =>
      simp only [tokens, List.cons_append, List.append_assoc] at h
      exact absurd h.symm (DeclPhrase.tokens_append_ne bare (by rw [sign.kind_eq]; decide))
    | assignment target' sign' value' ending' =>
      have htarget' := hgrouped' target' (by simp [exprs])
      have hvalue' := hgrouped' value' (by simp [exprs])
      simp only [tokens, List.cons_append, List.append_assoc, List.nil_append] at h
      replace h := ExprPhrase.enclosed_unique htarget htarget' (by decide) h
      obtain ⟨rfl, rfl, h⟩ := h
      replace h := ExprPhrase.enclosed_unique hvalue hvalue' (by decide) h
      obtain ⟨rfl, rfl, rfl⟩ := h
      exact ⟨rfl, rfl⟩
    | call call ending' =>
      have hcall := hgrouped' call.expr (by simp [exprs])
      exact absurd h (assignment_ne_call htarget hcall)
    | _ => cases hword
  | call call ending =>
    have hcall := hgrouped call.expr (by simp [exprs])
    cases y with
    | varDecl decl bare =>
      simp only [tokens, List.cons_append, List.append_assoc] at h
      exact absurd h.symm (DeclPhrase.tokens_append_ne bare (by rw [ending.kind_eq]; decide))
    | assignment target sign value ending' =>
      have htarget := hgrouped' target (by simp [exprs])
      exact absurd h.symm (assignment_ne_call htarget hcall)
    | call call' ending' =>
      have hcall' := hgrouped' call'.expr (by simp [exprs])
      simp only [tokens, List.cons_append, List.append_assoc, List.nil_append] at h
      replace h := ExprPhrase.enclosed_unique hcall hcall' (by decide) h
      obtain ⟨hexpr, rfl, rfl⟩ := h
      rw [CallPhrase.expr_inj hexpr]
      exact ⟨rfl, rfl⟩
    | _ => cases hword
  | print a dot out dot₂ println value ending =>
    cases y with
    | print b dot' out' dot₂' println' value' ending' =>
      simp only [tokens, List.cons_append, List.append_assoc, List.nil_append] at h
      replace h := Terminal.cons_inj h
      obtain ⟨rfl, h⟩ := h
      replace h := Terminal.cons_inj h
      obtain ⟨rfl, h⟩ := h
      replace h := Terminal.cons_inj h
      obtain ⟨rfl, h⟩ := h
      replace h := Terminal.cons_inj h
      obtain ⟨rfl, h⟩ := h
      replace h := ParensPhrase.unique_behind (hgrouped _ (by simp [exprs]))
        (hgrouped' _ (by simp [exprs])) h
      obtain ⟨rfl, rfl, h⟩ := h
      replace h := Terminal.cons_inj h
      obtain ⟨rfl, rfl⟩ := h
      exact ⟨rfl, rfl⟩
    | _ => cases hword
  | assert a condition ending =>
    cases y with
    | assert b condition' ending' =>
      simp only [tokens, List.cons_append, List.append_assoc, List.nil_append] at h
      replace h := ParensPhrase.unique_behind (hgrouped _ (by simp [exprs]))
        (hgrouped' _ (by simp [exprs])) h
      obtain ⟨rfl, rfl, h⟩ := h
      replace h := Terminal.cons_inj h
      obtain ⟨rfl, rfl⟩ := h
      exact ⟨rfl, rfl⟩
    | _ => cases hword
  | returnValue a value ending =>
    cases y with
    | returnValue b value' ending' =>
      simp only [tokens, List.cons_append, List.append_assoc, List.nil_append] at h
      replace h := Terminal.cons_inj h
      obtain ⟨rfl, h⟩ := h
      replace h := ExprPhrase.enclosed_unique (hgrouped _ (by simp [exprs]))
        (hgrouped' _ (by simp [exprs])) (by decide) h
      obtain ⟨rfl, rfl, rfl⟩ := h
      exact ⟨rfl, rfl⟩
    | _ => cases hword
  | ifThen => exact ifThen_unique hstatements hlevels hx hy (hr rfl) hr' h
  | ifElse => exact ifElse_unique hstatements hlevels hx hy hr hr' h
  | loop a condition body =>
    obtain ⟨-, hbodyLevels⟩ := Nat.max_le.mp hlevels
    cases y with
    | loop b condition' body' =>
      simp only [tokens, List.cons_append, List.append_assoc] at h
      replace h := ParensPhrase.unique_behind (hgrouped _ (by simp [exprs]))
        (hgrouped' _ (by simp [exprs])) h
      obtain ⟨rfl, rfl, h⟩ := h
      obtain ⟨rfl, rfl⟩ := hstatements hbodyLevels hx.2 hy.2 hr hr' h
      exact ⟨rfl, rfl⟩
    | _ => cases hword

end StatementPhrase

/-- Settled statements are determined by their tokens. -/
theorem uniqueStatements (n : Nat) : UniqueStatements n := by
  induction n with
  | zero => exact fun h => absurd h (Nat.not_lt_zero _)
  | succ n ih =>
    intro x y r r' hlevels hx hy hr hr' h
    exact StatementPhrase.unique_of_levels ih (Nat.le_of_lt_succ hlevels) hx hy hr hr' h

end MiniJava
