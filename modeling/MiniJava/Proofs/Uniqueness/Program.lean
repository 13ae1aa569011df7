import MiniJava.Proofs.Uniqueness.Statement

/-!
# One derivation — programs

A program with settled statements has one derivation at most (`ProgramPhrase.unique`).
-/

namespace MiniJava

variable {r r' : List Token}

theorem BodyPhrase.unique {x y : BodyPhrase} (hx : x.statements.Every (·.Settled))
    (hy : y.statements.Every (·.Settled)) (h : x.tokens ++ r = y.tokens ++ r') :
    x = y ∧ r = r' := by
  obtain ⟨opening, statements, closing⟩ := x
  obtain ⟨opening', statements', closing'⟩ := y
  simp only [tokens, List.cons_append, List.append_assoc, List.nil_append] at h
  replace h := Terminal.cons_inj h
  obtain ⟨rfl, h⟩ := h
  replace h := statements.unique_of_levels (uniqueStatements _) (Nat.le_refl _) hx hy h
  obtain ⟨rfl, rfl, rfl⟩ := h
  exact ⟨rfl, rfl⟩

/-! ## Parameters -/

theorem ParamPhrase.unique {x y : ParamPhrase} (h : x.tokens ++ r = y.tokens ++ r') :
    x = y ∧ r = r' := by
  obtain ⟨type, name⟩ := x
  obtain ⟨type', name'⟩ := y
  simp only [tokens, List.append_assoc, List.cons_append, List.nil_append] at h
  replace h := TypePhrase.unique h
  obtain ⟨rfl, rfl, rfl⟩ := h
  exact ⟨rfl, rfl⟩

theorem ParamPhrase.moreTokens_unique (xs : List (Terminal [.comma] × ParamPhrase))
    {a b : Terminal [.rparen]} :
    ∀ {ys : List (Terminal [.comma] × ParamPhrase)},
      moreTokens xs ++ a.token :: r = moreTokens ys ++ b.token :: r' →
      xs = ys ∧ a = b ∧ r = r' := by
  induction xs with
  | nil =>
    intro ys h
    cases ys with
    | nil =>
      replace h := Terminal.cons_inj h
      obtain ⟨rfl, rfl⟩ := h
      exact ⟨rfl, rfl, rfl⟩
    | cons y ys => exact absurd (Terminal.kind_eq_of_cons a y.1 h) (by decide)
  | cons x xs ih =>
    intro ys h
    cases ys with
    | nil => exact absurd (Terminal.kind_eq_of_cons x.1 b h) (by decide)
    | cons y ys =>
      obtain ⟨comma, x⟩ := x
      obtain ⟨comma', y⟩ := y
      simp only [moreTokens, List.flatMap_cons, List.cons_append, List.append_assoc] at h
      replace h := Terminal.cons_inj h
      obtain ⟨rfl, h⟩ := h
      replace h := ParamPhrase.unique h
      obtain ⟨rfl, h⟩ := h
      replace h := ih h
      obtain ⟨rfl, rfl, rfl⟩ := h
      exact ⟨rfl, rfl, rfl⟩

-- The parenthesis behind no parameters begins no parameter.
theorem ParamPhrase.tokens_append_ne_cons {x : ParamPhrase} {closing : Terminal [.rparen]}
    {ts us : List Token} : x.tokens ++ ts ≠ closing.token :: us := by
  intro h
  have hbase : x.type.base.token = closing.token := (List.cons.inj h).1
  have hmem := x.type.base.kind_mem
  rw [hbase, closing.kind_eq] at hmem
  exact absurd hmem (by decide)

theorem ParamsPhrase.unique {x y : ParamsPhrase} {a b : Terminal [.rparen]}
    (h : x.tokens ++ a.token :: r = y.tokens ++ b.token :: r') : x = y ∧ a = b ∧ r = r' := by
  cases x with
  | none =>
    cases y with
    | none =>
      replace h := Terminal.cons_inj h
      obtain ⟨rfl, rfl⟩ := h
      exact ⟨rfl, rfl, rfl⟩
    | some first more =>
      rw [tokens, tokens, List.append_assoc] at h
      exact absurd h.symm ParamPhrase.tokens_append_ne_cons
  | some first more =>
    cases y with
    | none =>
      rw [tokens, tokens, List.append_assoc] at h
      exact absurd h ParamPhrase.tokens_append_ne_cons
    | some first' more' =>
      rw [tokens, tokens, List.append_assoc, List.append_assoc] at h
      replace h := ParamPhrase.unique h
      obtain ⟨rfl, h⟩ := h
      replace h := ParamPhrase.moreTokens_unique more h
      obtain ⟨rfl, rfl, rfl⟩ := h
      exact ⟨rfl, rfl, rfl⟩

/-! ## Methods -/

theorem MethodPhrase.unique {x y : MethodPhrase} (hx : x.body.statements.Every (·.Settled))
    (hy : y.body.statements.Every (·.Settled)) (h : x.tokens ++ r = y.tokens ++ r') :
    x = y ∧ r = r' := by
  obtain ⟨publicWord, returnType, name, opening, params, closing, body⟩ := x
  obtain ⟨publicWord', returnType', name', opening', params', closing', body'⟩ := y
  simp only [tokens, List.cons_append, List.append_assoc] at h
  replace h := Terminal.cons_inj h
  obtain ⟨rfl, h⟩ := h
  replace h := TypePhrase.unique h
  obtain ⟨rfl, rfl, h⟩ := h
  replace h := Terminal.cons_inj h
  obtain ⟨rfl, h⟩ := h
  replace h := ParamsPhrase.unique h
  obtain ⟨rfl, rfl, h⟩ := h
  replace h := BodyPhrase.unique hx hy h
  obtain ⟨rfl, rfl⟩ := h
  exact ⟨rfl, rfl⟩

theorem MainMethodPhrase.unique {x y : MainMethodPhrase}
    (hx : x.body.statements.Every (·.Settled)) (hy : y.body.statements.Every (·.Settled))
    (h : x.tokens ++ r = y.tokens ++ r') : x = y ∧ r = r' := by
  obtain ⟨publicWord, staticWord, returnType, name, opening, closing, body⟩ := x
  obtain ⟨publicWord', staticWord', returnType', name', opening', closing', body'⟩ := y
  simp only [tokens, List.cons_append, List.append_assoc] at h
  replace h := Terminal.cons_inj h
  obtain ⟨rfl, h⟩ := h
  replace h := Terminal.cons_inj h
  obtain ⟨rfl, h⟩ := h
  replace h := TypePhrase.unique h
  obtain ⟨rfl, rfl, h⟩ := h
  replace h := Terminal.cons_inj h
  obtain ⟨rfl, h⟩ := h
  replace h := Terminal.cons_inj h
  obtain ⟨rfl, h⟩ := h
  replace h := BodyPhrase.unique hx hy h
  obtain ⟨rfl, rfl⟩ := h
  exact ⟨rfl, rfl⟩

/-! ## Classes -/

theorem MainClassPhrase.unique {x y : MainClassPhrase}
    (hx : x.method.body.statements.Every (·.Settled))
    (hy : y.method.body.statements.Every (·.Settled)) (h : x.tokens ++ r = y.tokens ++ r') :
    x = y ∧ r = r' := by
  obtain ⟨classWord, name, opening, method, closing⟩ := x
  obtain ⟨classWord', name', opening', method', closing'⟩ := y
  simp only [tokens, List.cons_append, List.append_assoc, List.nil_append] at h
  replace h := Terminal.cons_inj h
  obtain ⟨rfl, h⟩ := h
  replace h := Terminal.cons_inj h
  obtain ⟨rfl, h⟩ := h
  replace h := Terminal.cons_inj h
  obtain ⟨rfl, h⟩ := h
  replace h := MainMethodPhrase.unique hx hy h
  obtain ⟨rfl, h⟩ := h
  replace h := Terminal.cons_inj h
  obtain ⟨rfl, rfl⟩ := h
  exact ⟨rfl, rfl⟩

-- The brace behind the members of a class begins no member.
theorem MemberPhrase.tokens_append_ne_cons {x : MemberPhrase} {closing : Terminal [.rbrace]}
    {ts us : List Token} : x.tokens ++ ts ≠ closing.token :: us := by
  intro h
  cases x with
  | field decl =>
    have hbase : decl.type.base.token = closing.token := (List.cons.inj h).1
    -- A field begins with a type.
    have hmem := decl.type.base.kind_mem
    rw [hbase, closing.kind_eq] at hmem
    exact absurd hmem (by decide)
  | method m => exact absurd (Terminal.kind_eq_of_cons m.publicWord closing h) (by decide)

-- No field is a method.
theorem MemberPhrase.field_tokens_ne {decl : DeclPhrase NodeKind.typeStart} {m : MethodPhrase} :
    decl.tokens ++ r ≠ m.tokens ++ r' := by
  intro h
  have hbase : decl.type.base.token = m.publicWord.token := (List.cons.inj h).1
  have hmem := decl.type.base.kind_mem
  rw [hbase, m.publicWord.kind_eq] at hmem
  exact absurd hmem (by decide)

theorem MemberPhrase.unique {x y : MemberPhrase}
    (hx : ∀ b ∈ x.bodies, b.statements.Every (·.Settled))
    (hy : ∀ b ∈ y.bodies, b.statements.Every (·.Settled)) (h : x.tokens ++ r = y.tokens ++ r') :
    x = y ∧ r = r' := by
  cases x with
  | field decl =>
    cases y with
    | field decl' =>
      obtain ⟨rfl, rfl⟩ := DeclPhrase.unique h
      exact ⟨rfl, rfl⟩
    | method m => exact absurd h field_tokens_ne
  | method m =>
    cases y with
    | field decl => exact absurd h.symm field_tokens_ne
    | method m' =>
      obtain ⟨rfl, rfl⟩ := MethodPhrase.unique (hx _ (List.mem_singleton_self _))
        (hy _ (List.mem_singleton_self _)) h
      exact ⟨rfl, rfl⟩

-- The members of a class and the brace that closes it.
theorem MemberPhrase.flatMap_unique (xs : List MemberPhrase) {a b : Terminal [.rbrace]} :
    ∀ {ys : List MemberPhrase}, (∀ b ∈ xs.flatMap (·.bodies), b.statements.Every (·.Settled)) →
      (∀ b ∈ ys.flatMap (·.bodies), b.statements.Every (·.Settled)) →
      xs.flatMap (·.tokens) ++ a.token :: r = ys.flatMap (·.tokens) ++ b.token :: r' →
      xs = ys ∧ a = b ∧ r = r' := by
  induction xs with
  | nil =>
    intro ys _ _ h
    cases ys with
    | nil =>
      replace h := Terminal.cons_inj h
      obtain ⟨rfl, rfl⟩ := h
      exact ⟨rfl, rfl, rfl⟩
    | cons y ys =>
      rw [List.flatMap_cons, List.append_assoc] at h
      exact absurd h.symm tokens_append_ne_cons
  | cons x xs ih =>
    intro ys hxs hys h
    cases ys with
    | nil =>
      rw [List.flatMap_cons, List.append_assoc] at h
      exact absurd h tokens_append_ne_cons
    | cons y ys =>
      simp only [List.flatMap_cons, List.append_assoc] at h hxs hys
      replace hxs := List.forall_mem_append.mp hxs
      replace hys := List.forall_mem_append.mp hys
      replace h := MemberPhrase.unique hxs.1 hys.1 h
      obtain ⟨rfl, h⟩ := h
      replace h := ih hxs.2 hys.2 h
      obtain ⟨rfl, rfl, rfl⟩ := h
      exact ⟨rfl, rfl, rfl⟩

-- The clause that names the class that is extended, and the brace behind it.
theorem ClassPhrase.parentTokens_unique
    {x y : Option (Terminal [.extendsWord] × Terminal [.identifier])} {a b : Terminal [.lbrace]}
    (h : parentTokens x ++ a.token :: r = parentTokens y ++ b.token :: r') :
    x = y ∧ a = b ∧ r = r' := by
  cases x with
  | none =>
    cases y with
    | none =>
      replace h := Terminal.cons_inj h
      obtain ⟨rfl, rfl⟩ := h
      exact ⟨rfl, rfl, rfl⟩
    | some parent => exact absurd (Terminal.kind_eq_of_cons a parent.1 h) (by decide)
  | some parent =>
    cases y with
    | none => exact absurd (Terminal.kind_eq_of_cons parent.1 b h) (by decide)
    | some parent' =>
      obtain ⟨word, name⟩ := parent
      obtain ⟨word', name'⟩ := parent'
      replace h := Terminal.cons_inj h
      obtain ⟨rfl, h⟩ := h
      replace h := Terminal.cons_inj h
      obtain ⟨rfl, h⟩ := h
      replace h := Terminal.cons_inj h
      obtain ⟨rfl, rfl⟩ := h
      exact ⟨rfl, rfl, rfl⟩

theorem ClassPhrase.unique {x y : ClassPhrase}
    (hx : ∀ b ∈ x.members.flatMap (·.bodies), b.statements.Every (·.Settled))
    (hy : ∀ b ∈ y.members.flatMap (·.bodies), b.statements.Every (·.Settled))
    (h : x.tokens ++ r = y.tokens ++ r') : x = y ∧ r = r' := by
  obtain ⟨classWord, name, parent?, opening, members, closing⟩ := x
  obtain ⟨classWord', name', parent?', opening', members', closing'⟩ := y
  simp only [tokens, List.cons_append, List.append_assoc, List.nil_append] at h
  replace h := Terminal.cons_inj h
  obtain ⟨rfl, h⟩ := h
  replace h := Terminal.cons_inj h
  obtain ⟨rfl, h⟩ := h
  replace h := parentTokens_unique h
  obtain ⟨rfl, rfl, h⟩ := h
  replace h := MemberPhrase.flatMap_unique members hx hy h
  obtain ⟨rfl, rfl, rfl⟩ := h
  exact ⟨rfl, rfl⟩

/-! ## Programs -/

-- Classes up to the end of the tokens.
theorem ClassPhrase.flatMap_unique (xs : List ClassPhrase) :
    ∀ {ys : List ClassPhrase},
      (∀ b ∈ xs.flatMap fun x => x.members.flatMap (·.bodies), b.statements.Every (·.Settled)) →
      (∀ b ∈ ys.flatMap fun x => x.members.flatMap (·.bodies), b.statements.Every (·.Settled)) →
      xs.flatMap (·.tokens) = ys.flatMap (·.tokens) → xs = ys := by
  induction xs with
  | nil =>
    intro ys _ _ h
    cases ys with
    | nil => rfl
    | cons y ys => cases h
  | cons x xs ih =>
    intro ys hxs hys h
    cases ys with
    | nil => cases h
    | cons y ys =>
      simp only [List.flatMap_cons] at h hxs hys
      replace hxs := List.forall_mem_append.mp hxs
      replace hys := List.forall_mem_append.mp hys
      replace h := ClassPhrase.unique hxs.1 hys.1 h
      obtain ⟨rfl, h⟩ := h
      rw [ih hxs.2 hys.2 h]

/-- Programs with settled statements are determined by their tokens. -/
theorem ProgramPhrase.unique {x y : ProgramPhrase} (hx : x.Every (·.Settled))
    (hy : y.Every (·.Settled)) (h : x.tokens = y.tokens) : x = y := by
  obtain ⟨mainClass, classes⟩ := x
  obtain ⟨mainClass', classes'⟩ := y
  replace hx := List.forall_mem_cons.mp hx
  replace hy := List.forall_mem_cons.mp hy
  -- The main class is determined without the classes behind it.
  obtain ⟨rfl, hclasses⟩ := MainClassPhrase.unique hx.1 hy.1 h
  rw [ClassPhrase.flatMap_unique classes hx.2 hy.2 hclasses]

end MiniJava
