import MiniJava.Proofs.Derivation.Expr
import MiniJava.Proofs.Uniqueness.Expr

/-!
# Grouping — the tree of a chain of operands

A chain is an operand and any number of links, each an operator and the operand behind it. Its tree
is told without a parser: a chain without links is its operand, and any other chain is cut at the
last of the operators that bind least, with the trees of the two parts on either side of it
(`Expr.grouped`).

The parser of expressions reads a chain as this tree (`Expr.parse_chain`), whatever its operands are
read as: an operand is any list of tokens that the parser of operands passes as a whole
(`SpelledOperand.ReadWith`).
-/

namespace MiniJava

open Parse

/-! ## The weakest operator -/

/-- The links before the last of the operators that bind least, its own link, and the links behind
it. -/
def weakestCut? {α : Type} :
    List (Token × α) → Option (List (Token × α) × (Token × α) × List (Token × α))
  | [] => none
  | link :: links =>
    match weakestCut? links with
    | none => some ([], link, [])
    | some (before, weakest, behind) =>
      if weakest.1.kind.precedence ≤ link.1.kind.precedence then
        some (link :: before, weakest, behind)
      else some ([], link, links)

/-- The links are cut at one whose operator binds no tighter than those before it, and less tightly
than those behind it. -/
structure WeakestCut {α : Type} (links before : List (Token × α)) (weakest : Token × α)
    (behind : List (Token × α)) : Prop where
  eq_append : links = before ++ weakest :: behind
  le_before : ∀ l ∈ before, weakest.1.kind.precedence ≤ l.1.kind.precedence
  lt_behind : ∀ l ∈ behind, weakest.1.kind.precedence < l.1.kind.precedence

namespace WeakestCut

variable {α : Type} {links before behind : List (Token × α)} {weakest : Token × α}

-- No operator binds less than the one at which the links are cut.
theorem le (h : WeakestCut links before weakest behind) {l : Token × α} (hl : l ∈ links) :
    weakest.1.kind.precedence ≤ l.1.kind.precedence := by
  rw [h.eq_append] at hl
  rcases List.mem_append.mp hl with hl | hl
  · exact h.le_before l hl
  · rcases List.mem_cons.mp hl with rfl | hl
    · exact Nat.le_refl _
    · exact Nat.le_of_lt (h.lt_behind l hl)

end WeakestCut

section Cuts

variable {α : Type} {links : List (Token × α)}

theorem eq_nil_of_weakestCut? (h : weakestCut? links = none) : links = [] := by
  cases links with
  | nil => rfl
  | cons link links =>
    rw [weakestCut?] at h
    split at h
    · cases h
    · split at h <;> cases h

theorem weakestCut_of_weakestCut? :
    ∀ {before behind : List (Token × α)} {weakest : Token × α},
      weakestCut? links = some (before, weakest, behind) →
      WeakestCut links before weakest behind := by
  induction links with
  | nil => exact nofun
  | cons link links ih =>
    intro before behind weakest h
    rw [weakestCut?] at h
    split at h
    · rename_i hnone
      cases h
      rw [eq_nil_of_weakestCut? hnone]
      exact ⟨rfl, nofun, nofun⟩
    · rename_i before' weakest' behind' hcut
      have hrest := ih hcut
      split at h
      · rename_i hle
        cases h
        refine ⟨?_, List.forall_mem_cons.mpr ⟨hle, hrest.le_before⟩, hrest.lt_behind⟩
        rw [hrest.eq_append, List.cons_append]
      · rename_i hlt
        cases h
        -- What stands in front binds less than the weakest of the others, and so than all of them.
        exact ⟨rfl, nofun, fun l hl => Nat.lt_of_lt_of_le (Nat.not_le.mp hlt) (hrest.le hl)⟩

end Cuts

namespace Expr

/-- The tree of a chain: its operand, or the trees of the two parts into which the last of the
operators that bind least cuts it. -/
def grouped (first : Expr) (links : List (Token × Expr)) : Expr :=
  match _h : weakestCut? links with
  | none => first
  | some (before, (op, operand), behind) =>
    .binary (grouped first before) op (grouped operand behind)
termination_by links.length
decreasing_by
  all_goals
    rw [(weakestCut_of_weakestCut? _h).eq_append, List.length_append, List.length_cons]
    omega

theorem grouped_nil (first : Expr) : grouped first [] = first := by
  rw [grouped]
  rfl

theorem grouped_of_weakestCut? {first operand : Expr} {op : Token}
    {links before behind : List (Token × Expr)}
    (h : weakestCut? links = some (before, (op, operand), behind)) :
    grouped first links = .binary (grouped first before) op (grouped operand behind) := by
  rw [grouped]
  split
  · rename_i hnone
    rw [hnone] at h
    cases h
  · rename_i hsome
    rw [hsome] at h
    cases h
    rfl

end Expr

/-! ## Chains of phrases -/

namespace ExprPhrase

/-- The tree of an operand. -/
def Operand.tree (x : Operand) : Expr := x.tails.extend x.head.tree

/-- Everything inside the operand is grouped. -/
def Operand.Grouped (x : Operand) : Prop := x.head.Grouped ∧ x.tails.Grouped

theorem Operand.Within.grouped {n : Nat} {x : Operand} (h : x.Within n) : x.Grouped :=
  ⟨h.1, h.2.1⟩

/-- The operator of a link and the tree of its operand. -/
def Link.tree (l : Link) : Token × Expr := (l.op.token, l.operand.tree)

-- An expression whose operators all bind so tightly holds together as tightly.
theorem le_tightness {p : Nat} (hp : p ≤ TokenKind.maxPrecedence + 1) (x : ExprPhrase)
    (h : ∀ l ∈ x.links, p ≤ l.op.token.kind.precedence) : p ≤ x.tightness := by
  cases x with
  | operand head tails => exact hp
  | binary left op right => exact h ⟨op, right.firstOperand⟩ (by simp [links])

-- No more levels are open in an expression than in one of its operands.
theorem levels_le_of_within {n : Nat} (x : ExprPhrase) :
    x.firstOperand.Within n → (∀ l ∈ x.links, l.operand.Within n) → x.levels ≤ n := by
  induction x using ExprPhrase.sides with
  | operand head tails =>
    rintro ⟨-, -, hhead, htails⟩ -
    exact Nat.max_le.mpr ⟨hhead, htails⟩
  | binary left op right ihleft ihright =>
    intro hfirst hlinks
    rw [links, List.forall_mem_append, List.forall_mem_cons] at hlinks
    obtain ⟨hleft, hoperand, hright⟩ := hlinks
    exact Nat.max_le.mpr ⟨ihleft hfirst hleft, ihright hoperand hright⟩

-- Where the trees of links are cut, the links are cut.
theorem exists_cut_of_map {ls : List Link} {before behind : List (Token × Expr)}
    {weakest : Token × Expr} (h : ls.map Link.tree = before ++ weakest :: behind) :
    ∃ front l back, ls = front ++ l :: back ∧ front.map Link.tree = before ∧ l.tree = weakest ∧
      back.map Link.tree = behind := by
  obtain ⟨front, more, rfl, hfront, hmore⟩ := List.map_eq_append_iff.mp h
  obtain ⟨l, back, rfl, hl, hback⟩ := List.map_eq_cons_iff.mp hmore
  exact ⟨front, l, back, rfl, hfront, hl, hback⟩

/-- Operands and operators make a grouped expression, whose tree is that of the chain. -/
theorem exists_of_links (k : Nat) :
    ∀ (first : Operand) (ls : List Link), ls.length < k → first.Grouped →
      (∀ l ∈ ls, l.operand.Grouped) →
      ∃ x : ExprPhrase, x.firstOperand = first ∧ x.links = ls ∧ x.Grouped ∧
        x.tree = Expr.grouped first.tree (ls.map Link.tree) := by
  induction k with
  | zero => exact fun _ _ hk => absurd hk (Nat.not_lt_zero _)
  | succ k ih =>
    intro first ls hk hfirst hls
    cases hcut : weakestCut? (ls.map Link.tree) with
    | none =>
      have hnil := List.map_eq_nil_iff.mp (eq_nil_of_weakestCut? hcut)
      refine ⟨.operand first.head first.tails, rfl, hnil.symm, hfirst, ?_⟩
      rw [hnil, List.map_nil, Expr.grouped_nil]
      rfl
    | some cut =>
      obtain ⟨beforeTrees, ⟨op, operandTree⟩, behindTrees⟩ := cut
      have hweakest := weakestCut_of_weakestCut? hcut
      obtain ⟨before, l, behind, rfl, rfl, hl, rfl⟩ := exists_cut_of_map hweakest.eq_append
      obtain ⟨rfl, rfl⟩ := Prod.mk.inj hl
      rw [List.length_append, List.length_cons] at hk
      rw [List.forall_mem_append, List.forall_mem_cons] at hls
      obtain ⟨hbefore, hoperand, hbehind⟩ := hls
      obtain ⟨left, hleftFirst, hleftLinks, hleft, hleftTree⟩ :=
        ih first before (by omega) hfirst hbefore
      obtain ⟨right, hrightFirst, hrightLinks, hright, hrightTree⟩ :=
        ih l.operand behind (by omega) hoperand hbehind
      have hprecedence := TokenKind.precedence_le l.op.token.kind
      refine ⟨.binary left l.op right, hleftFirst, ?_, ⟨?_, ?_, hleft, hright⟩, ?_⟩
      · rw [links, hleftLinks, hrightFirst, hrightLinks]
      · refine le_tightness (by omega) left ?_
        rw [hleftLinks]
        exact fun m hm => hweakest.le_before _ (List.mem_map_of_mem hm)
      · refine le_tightness (by omega) right ?_
        rw [hrightLinks]
        exact fun m hm => hweakest.lt_behind _ (List.mem_map_of_mem hm)
      · rw [Expr.grouped_of_weakestCut? hcut, tree, hleftTree, hrightTree]

end ExprPhrase

/-! ## Chains of operands -/

/-- The tokens of an operand and the tree they are read as. -/
structure SpelledOperand where
  tokens : List Token
  tree : Expr

/-- The parser of operands with `n` levels left passes the tokens, at some place in some text, and
gives the tree. -/
def SpelledOperand.ReadWith (n : Nat) (x : SpelledOperand) : Prop :=
  ∃ (c : ParseContext) (s : ParseState), c.ending.kind = .eof ∧
    Expr.parseOperand (Expr.parse n) (Expr.parseNegand n) c (s.before x.tokens) = (.ok x.tree, s)

/-- An operator and the operand behind it. -/
structure SpelledLink where
  op : Terminal TokenKind.binaryOperators
  operand : SpelledOperand

namespace SpelledLink

/-- The tokens of a link. -/
def tokens (l : SpelledLink) : List Token := l.op.token :: l.operand.tokens

/-- The operator of a link and the tree of its operand. -/
def tree (l : SpelledLink) : Token × Expr := (l.op.token, l.operand.tree)

end SpelledLink

-- What is read as an operand somewhere has one phrase, and is read wherever the levels are enough.
theorem SpelledOperand.exists_operand {x : SpelledOperand} (h : ∃ n, x.ReadWith n) :
    ∃ o : ExprPhrase.Operand, o.tokens = x.tokens ∧ o.tree = x.tree ∧ o.Grouped ∧
      ∀ n, x.ReadWith n ↔ o.Within n := by
  have derive {n : Nat} (h : x.ReadWith n) :
      ∃ o : ExprPhrase.Operand, o.tokens = x.tokens ∧ o.tree = x.tree ∧ o.Within n := by
    obtain ⟨c, s, hending, hread⟩ := h
    obtain ⟨head, tails, hs, htree, hwithin⟩ :=
      Expr.derives_parseOperand (Expr.derives_parse n).1 (Expr.derives_parse n).2 hending hread
    exact ⟨⟨head, tails⟩, (List.append_cancel_right (congrArg ParseState.ahead hs)).symm, htree,
      hwithin⟩
  obtain ⟨n, hn⟩ := h
  obtain ⟨o, htokens, htree, hwithin⟩ := derive hn
  have hgrouped := hwithin.grouped
  refine ⟨o, htokens, htree, hgrouped, fun m => ⟨fun hm => ?_, fun hm => ?_⟩⟩
  · -- Both readings derive the same tokens, and there is one derivation.
    obtain ⟨o', htokens', -, hwithin'⟩ := derive hm
    have hx : (ExprPhrase.operand o.head o.tails).Grouped := hgrouped
    have hy : (ExprPhrase.operand o'.head o'.tails).Grouped := hwithin'.grouped
    have htext : (ExprPhrase.operand o.head o.tails).tokens ++ [] =
        (ExprPhrase.operand o'.head o'.tails).tokens ++ [] :=
      congrArg (· ++ []) (htokens.trans htokens'.symm)
    obtain ⟨heq, -⟩ := ExprPhrase.unique hx hy (nextKind_nil _) (nextKind_nil _) htext
    obtain ⟨hhead, htails⟩ := ExprPhrase.operand.inj heq
    rw [ExprPhrase.Operand.Within, hhead, htails]
    exact hwithin'
  · refine ⟨⟨.failFast, .endOfFile .start⟩, ⟨[], []⟩, rfl, ?_⟩
    have hends : ¬ (ParseContext.nextKind ⟨.failFast, .endOfFile .start⟩ ⟨[], []⟩).opensTail := by
      decide
    have hread := Expr.parseOperand_before (Expr.parse_before m).1 (Expr.parse_before m).2 o.head
      o.tails hm.1 hm.2.1 hends
    rw [← htokens, ← htree]
    exact hread.1 (Nat.max_le.mpr ⟨hm.2.2.1, hm.2.2.2⟩)

-- The links of a chain have phrases, as their operands do.
theorem SpelledLink.exists_links {links : List SpelledLink}
    (h : ∀ l ∈ links, ∃ n, l.operand.ReadWith n) :
    ∃ ls : List ExprPhrase.Link, ls.flatMap (·.tokens) = links.flatMap (·.tokens) ∧
      ls.map ExprPhrase.Link.tree = links.map SpelledLink.tree ∧ (∀ l ∈ ls, l.operand.Grouped) ∧
      ∀ n, (∀ l ∈ links, l.operand.ReadWith n) ↔ ∀ l ∈ ls, l.operand.Within n := by
  induction links with
  | nil => exact ⟨[], rfl, rfl, nofun, fun n => ⟨nofun, nofun⟩⟩
  | cons l links ih =>
    obtain ⟨hl, hlinks⟩ := List.forall_mem_cons.mp h
    obtain ⟨o, htokens, htree, hgrouped, hread⟩ := SpelledOperand.exists_operand hl
    obtain ⟨ls, hlsTokens, hlsTrees, hlsGrouped, hlsRead⟩ := ih hlinks
    refine ⟨⟨l.op, o⟩ :: ls, ?_, ?_, List.forall_mem_cons.mpr ⟨hgrouped, hlsGrouped⟩, fun n => ?_⟩
    · rw [List.flatMap_cons, List.flatMap_cons, hlsTokens, ExprPhrase.Link.tokens, htokens,
        SpelledLink.tokens]
    · rw [List.map_cons, List.map_cons, hlsTrees, ExprPhrase.Link.tree, htree, SpelledLink.tree]
    · rw [List.forall_mem_cons, List.forall_mem_cons, hread n, hlsRead n]

/-- An expression of operands and operators is read as the tree of the chain, up to its end, and
fails for want of levels exactly if no level is left for it or one of its operands is not read with
those that are left inside. -/
theorem Expr.parse_chain (n : Nat) (c : ParseContext) (s : ParseState) (first : SpelledOperand)
    (links : List SpelledLink) (hfirst : ∃ m, first.ReadWith m)
    (hlinks : ∀ l ∈ links, ∃ m, l.operand.ReadWith m) (hends : (c.nextKind s).EndsExpr) :
    Reaches (parse n c (s.before (first.tokens ++ links.flatMap (·.tokens))))
      (.ok (grouped first.tree (links.map (·.tree))), s)
      (∃ m, n = m + 1 ∧ first.ReadWith m ∧ ∀ l ∈ links, l.operand.ReadWith m) := by
  obtain ⟨o, htokens, htree, hgrouped, hread⟩ := SpelledOperand.exists_operand hfirst
  obtain ⟨ls, hlsTokens, hlsTrees, hlsGrouped, hlsRead⟩ := SpelledLink.exists_links hlinks
  obtain ⟨x, rfl, rfl, hx, hxTree⟩ :=
    ExprPhrase.exists_of_links _ o ls (Nat.lt_succ_self _) hgrouped hlsGrouped
  have hxTokens : x.tokens = first.tokens ++ links.flatMap (·.tokens) := by
    rw [x.tokens_eq_links, htokens, hlsTokens]
  rw [← hxTokens, ← htree, ← hlsTrees, ← hxTree]
  refine ((Expr.parse_before n).1 c s x hx hends).congr ?_
  -- An expression opens as many levels inside as its operands do.
  constructor
  · intro hlevels
    obtain ⟨m, rfl⟩ := Nat.exists_eq_add_one.mpr (Nat.zero_lt_of_lt hlevels)
    obtain ⟨hfirst, hlinks⟩ := x.within_of_levels hx (Nat.le_of_lt_succ hlevels)
    exact ⟨m, rfl, (hread m).mpr hfirst, (hlsRead m).mpr hlinks⟩
  · rintro ⟨m, rfl, hfirst, hlinks⟩
    exact Nat.lt_succ_of_le
      (x.levels_le_of_within ((hread m).mp hfirst) ((hlsRead m).mp hlinks))

-- A mark or a name at the start of a text, as the chain below has them.
def leafToken (kind : TokenKind) : Token := ⟨kind, kind.spelling?.getD "a", .start⟩

def SpelledOperand.plain : SpelledOperand :=
  ⟨[leafToken .identifier], .identifier (leafToken .identifier)⟩

def SpelledOperand.plainIndex : SpelledOperand :=
  ⟨[leafToken .identifier, leafToken .lbracket, leafToken .identifier, leafToken .rbracket],
    .index plain.tree plain.tree⟩

/-- `a - a * a[a] - a` with two levels left: the product holds together, and the differences group
to the left. -/
theorem Expr.parse_chain_of_differences :
    let c : ParseContext := ⟨.failFast, .endOfFile .start⟩
    let s : ParseState := ⟨[], []⟩
    let links : List SpelledLink :=
      [⟨⟨leafToken .sub, by decide⟩, .plain⟩, ⟨⟨leafToken .mul, by decide⟩, .plainIndex⟩,
        ⟨⟨leafToken .sub, by decide⟩, .plain⟩]
    ((∃ m, SpelledOperand.plain.ReadWith m) ∧ (∀ l ∈ links, ∃ m, l.operand.ReadWith m) ∧
      (c.nextKind s).EndsExpr) ∧
    parse 2 c (s.before (SpelledOperand.plain.tokens ++ links.flatMap (·.tokens))) =
      (.ok (.binary
        (.binary SpelledOperand.plain.tree (leafToken .sub)
          (.binary SpelledOperand.plain.tree (leafToken .mul) SpelledOperand.plainIndex.tree))
        (leafToken .sub) SpelledOperand.plain.tree), s) := by
  intro c s links
  have hplain : SpelledOperand.plain.ReadWith 1 := ⟨c, s, rfl, rfl⟩
  have hindex : SpelledOperand.plainIndex.ReadWith 1 := ⟨c, s, rfl, rfl⟩
  have hlinks : ∀ l ∈ links, l.operand.ReadWith 1 := by
    simp only [links, List.forall_mem_cons]
    exact ⟨hplain, hindex, hplain, nofun⟩
  have hsome : ∀ l ∈ links, ∃ m, l.operand.ReadWith m := fun l hl => ⟨1, hlinks l hl⟩
  have hends : (c.nextKind s).EndsExpr := by decide
  refine ⟨⟨⟨1, hplain⟩, hsome, hends⟩, ?_⟩
  rw [(parse_chain 2 c s .plain links ⟨1, hplain⟩ hsome hends).1 ⟨1, rfl, hplain, hlinks⟩]
  -- The last of the two differences is at the root, and the first one below it.
  rw [grouped_of_weakestCut? rfl, grouped_of_weakestCut? rfl, grouped_nil,
    grouped_of_weakestCut? rfl, grouped_nil, grouped_nil]

end MiniJava
