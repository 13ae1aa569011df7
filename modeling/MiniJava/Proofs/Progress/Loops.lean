import MiniJava.Proofs.Progress.Forward

/-!
# Loops — rounds that are repeated without a bound

The loops of the parser are given here as what they do in one round, which either goes on to the
next round or stops with a value. `Repeats` runs such rounds one after the other, however many they
are, and asks of each round that goes on that it passes a token. Every loop of the parser gives what
its rounds give when they are repeated in this way: the bound with which the loop is run is never
reached.
-/

namespace MiniJava

/-- How a round of a loop ends: the loop goes on or stops. -/
inductive Round (σ α : Type) where
  | goOn (next : σ)
  | stop (value : α)

namespace Parse

variable {σ α β : Type}

/-- Rounds, repeated from a state until one stops or fails, give a result in the end. Every round
that goes on passes a token. -/
inductive Repeats (round : σ → Parse (Round σ α)) (c : ParseContext) :
    σ → ParseState → Except SyntaxError α × ParseState → Prop where
  | stop {x : σ} {s s' : ParseState} {a : α} (h : round x c s = (.ok (.stop a), s')) :
      Repeats round c x s (.ok a, s')
  | fail {x : σ} {s s' : ParseState} {e : SyntaxError} (h : round x c s = (.error e, s')) :
      Repeats round c x s (.error e, s')
  | goOn {x y : σ} {s s' : ParseState} {r : Except SyntaxError α × ParseState}
      (h : round x c s = (.ok (.goOn y), s')) (hlt : s'.ahead.length < s.ahead.length)
      (hrest : Repeats round c y s' r) : Repeats round c x s r

/-- Wherever the round goes on, it has passed a token. -/
def Advances (round : Parse (Round σ α)) : Prop :=
  ∀ c s, c.ending.kind = .eof → PassesIf (fun r => ∃ y, r = .goOn y) round c s

/-- A loop that is one round and then the loop with a bound lower by one gives what its rounds give,
if the bound is higher than the number of tokens ahead. -/
theorem repeats_of_unfold {round : σ → Parse (Round σ α)} (loop : Nat → σ → Parse α)
    (hunfold : ∀ n x, loop (n + 1) x = round x >>= fun r => match r with
      | .goOn y => loop n y
      | .stop a => pure a)
    (hround : ∀ x, (round x).Advances) {c : ParseContext} (hending : c.ending.kind = .eof) (n : Nat) :
    ∀ x s, s.ahead.length < n → Repeats round c x s (loop n x c s) := by
  induction n with
  | zero => exact fun _ _ hlt => absurd hlt (Nat.not_lt_zero _)
  | succ n ih =>
    intro x s hlt
    rw [hunfold]
    cases hrun : round x c s with
    | mk result s' =>
      cases result with
      | error e =>
        rw [bind_of_error hrun]
        exact .fail hrun
      | ok r =>
        rw [bind_of_ok hrun]
        cases r with
        | stop a => exact .stop hrun
        | goOn y =>
          have hpassed := hround x c s hending (.goOn y) s' hrun ⟨y, rfl⟩
          exact .goOn hrun hpassed (ih y s' (by omega))

-- A loop that collects what its rounds add to a list.
theorem repeats_of_unfold_list {round : List α → Parse (Round (List α) (List α))}
    (loop : Nat → Parse (List α))
    (hunfold : ∀ n as, (as ++ ·) <$> loop (n + 1) = round as >>= fun r => match r with
      | .goOn as' => (as' ++ ·) <$> loop n
      | .stop as' => pure as')
    (hround : ∀ as, (round as).Advances) {c : ParseContext} (hending : c.ending.kind = .eof) {n : Nat}
    {s : ParseState} (hn : s.ahead.length < n) : Repeats round c [] s (loop n c s) := by
  have hrepeats := repeats_of_unfold (fun n as => (as ++ ·) <$> loop n) (fun n as => ?_) hround
    hending n [] s hn
  · simpa using hrepeats
  · rw [hunfold]
    refine bind_congr fun r => ?_
    cases r <;> rfl

theorem advances_stop (a : α) : (pure (.stop a) : Parse (Round σ α)).Advances :=
  fun _ _ _ => passesIf_pure (by rintro ⟨_, h⟩; cases h)

-- A round that passes a token whenever it succeeds.
theorem Passes.advances {p : Parse (Round σ α)} (h : p.Passes) : p.Advances :=
  fun c s hending r s' hrun _ => h c s hending r s' hrun trivial

theorem Advances.of_bind {p : Parse β} {f : β → Parse (Round σ α)} (hp : p.Forward)
    (hf : ∀ b, (f b).Advances) : (p >>= f).Advances :=
  fun c _ hending => PassesIf.of_bind hp fun b u _ => hf b c u hending

theorem Advances.accept_or {kinds : List TokenKind} (heof : .eof ∉ kinds)
    {p : Token → Parse (Round σ α)} {q : Parse (Round σ α)} (hp : ∀ t, (p t).Forward)
    (hq : q.Advances) :
    (accept kinds >>= fun t? => match t? with | some t => p t | none => q).Advances :=
  fun c s hending => passesIf_accept_or hending heof hp (hq c s hending)

end Parse

open Parse

/-! ## Expressions -/

namespace Expr

/-- An argument; the loop goes on behind a comma. -/
def argsRound (expression : Parse Expr) (args : List Expr) :
    Parse (Round (List Expr) (List Expr)) := do
  let arg ← expression
  match ← accept [.comma] with
  | some _ => pure (.goOn (args ++ [arg]))
  | none => pure (.stop (args ++ [arg]))

/-- A tail; the loop stops where none follows. -/
def tailsRound (expression : Parse Expr) (e : Expr) : Parse (Round Expr Expr) := do
  match ← accept [.lbracket] with
  | some _ => do
    let index ← expression
    let _ ← expect [.rbracket]
    pure (.goOn (.index e index))
  | none =>
    match ← accept [.dot] with
    | some _ => do
      let member ← expect [.lengthWord, .identifier]
      if member.kind = .lengthWord then pure (.goOn (.arrayLength e))
      else do
        let args ← parseArgs expression
        pure (.goOn (.call e member args))
    | none => pure (.stop e)

/-- An operator and its right side; the loop stops before an operator that does not bind tighter
than `low`. -/
def infixRound (right : Nat → Parse Expr) (low : Nat) (left : Expr) : Parse (Round Expr Expr) := do
  let op ← peek
  if low < op.kind.precedence then do
    let _ ← accept [op.kind]
    let operand ← right op.kind.precedence
    pure (.goOn (.binary left op operand))
  else pure (.stop left)

theorem repeats_args {expression : Parse Expr} (hexpression : expression.Forward)
    {c : ParseContext} (hending : c.ending.kind = .eof) {n : Nat} {s : ParseState}
    (hn : s.ahead.length < n) :
    Repeats (argsRound expression) c [] s (parseMoreArgs expression n c s) := by
  have hround (args : List Expr) : (argsRound expression args).Advances :=
    .of_bind hexpression fun _ => .accept_or (by decide) (fun _ => lifts_forward.pure _)
      (advances_stop _)
  refine repeats_of_unfold_list (parseMoreArgs expression) (fun n args => ?_) hround hending hn
  simp only [parseMoreArgs, argsRound, map_bind, bind_assoc]
  refine bind_congr fun arg => bind_congr fun comma? => ?_
  cases comma? <;> simp

theorem repeats_tails {expression : Parse Expr} (hexpression : expression.Forward)
    {c : ParseContext} (hending : c.ending.kind = .eof) (e : Expr) {n : Nat} {s : ParseState}
    (hn : s.ahead.length < n) :
    Repeats (tailsRound expression) c e s (parseTails expression n e c s) := by
  have hround (e : Expr) : (tailsRound expression e).Advances := by
    refine .accept_or (by decide) (fun _ => ?_) (.accept_or (by decide) (fun _ => ?_) ?_)
    · exact lifts_forward.bind hexpression fun _ => lifts_forward.expect_bind fun _ =>
        lifts_forward.pure _
    · refine lifts_forward.expect_bind fun _ => Lifts.ite (lifts_forward.pure _) ?_
      exact lifts_forward.bind (lifts_forward.parseArgs hexpression) fun _ => lifts_forward.pure _
    · exact advances_stop e
  refine repeats_of_unfold (parseTails expression) (fun n e => ?_) hround hending n e s hn
  simp only [parseTails, tailsRound, bind_assoc]
  refine bind_congr fun bracket? => ?_
  cases bracket? with
  | some _ => simp
  | none =>
    simp only [bind_assoc]
    refine bind_congr fun dot? => ?_
    cases dot? with
    | some _ =>
      simp only [bind_assoc]
      refine bind_congr fun member => ?_
      split <;> simp
    | none => simp

theorem repeats_infix {right : Nat → Parse Expr} (hright : ∀ p, (right p).Forward) (low : Nat)
    {c : ParseContext} (hending : c.ending.kind = .eof) (left : Expr) {n : Nat} {s : ParseState}
    (hn : s.ahead.length < n) :
    Repeats (infixRound right low) c left s (parseInfix right low n left c s) := by
  have hround (left : Expr) : (infixRound right low left).Advances := by
    intro c s hending
    refine PassesIf.of_bind lifts_forward.peek fun op u hpeek => ?_
    cases hpeek
    by_cases hlow : low < (s.ahead.headD c.ending).kind.precedence
    · rw [if_pos hlow]
      have hnext : (s.ahead.headD c.ending).kind ≠ .eof := by
        intro heof
        rw [heof] at hlow
        exact absurd hlow (Nat.not_lt_zero _)
      exact (passesIf_accept_next hending hnext).bind fun _ =>
        lifts_forward.bind (hright _) fun _ => lifts_forward.pure _
    · rw [if_neg hlow]
      exact advances_stop left c s hending
  refine repeats_of_unfold (parseInfix right low) (fun n left => ?_) hround hending n left s hn
  simp only [parseInfix, infixRound, bind_assoc]
  refine bind_congr fun op => ?_
  split <;> simp

end Expr

/-! ## Statements -/

namespace Statement

/-- A statement, or what is skipped in its place; the loop stops before a closing brace and at the
end of file. -/
def manyRound (statement : Parse Statement) (statements : List Statement) :
    Parse (Round (List Statement) (List Statement)) := do
  let t ← peek
  if t.kind = .rbrace ∨ t.kind = .eof then pure (.stop statements)
  else do
    let first? ← recovering .statement statement
    pure (.goOn (statements ++ first?.toList))

theorem repeats_many {statement : Parse Statement} (hstatement : statement.Passes)
    (hforward : statement.Forward) {c : ParseContext} (hending : c.ending.kind = .eof) {n : Nat}
    {s : ParseState} (hn : s.ahead.length < n) :
    Repeats (manyRound statement) c [] s (parseMany statement n c s) := by
  have hround (statements : List Statement) : (manyRound statement statements).Advances := by
    intro c s hending
    refine PassesIf.of_bind lifts_forward.peek fun t u hpeek => ?_
    cases hpeek
    by_cases hstop : (s.ahead.headD c.ending).kind = .rbrace ∨ (s.ahead.headD c.ending).kind = .eof
    · rw [if_pos hstop]
      exact advances_stop statements c s hending
    · rw [if_neg hstop]
      have hnext : (s.ahead.headD c.ending).kind ≠ .eof := fun heof => hstop (.inr heof)
      exact (hstatement.recovering hforward .statement hending hnext).bind fun _ =>
        lifts_forward.pure _
  refine repeats_of_unfold_list (parseMany statement) (fun n statements => ?_) hround hending hn
  simp only [parseMany, manyRound, map_bind, bind_assoc]
  refine bind_congr fun t => ?_
  split <;> simp

end Statement

/-! ## Parameters, members and classes -/

namespace Method

/-- A comma and a parameter; the loop stops where no comma follows. -/
def paramsRound (params : List VarDecl) : Parse (Round (List VarDecl) (List VarDecl)) := do
  match ← accept [.comma] with
  | some _ => do
    let base ← expect (NodeKind.firstSet .param)
    let param ← parseParamBehind base
    pure (.goOn (params ++ [param]))
  | none => pure (.stop params)

theorem repeats_params {c : ParseContext} (hending : c.ending.kind = .eof) {n : Nat}
    {s : ParseState} (hn : s.ahead.length < n) :
    Repeats paramsRound c [] s (parseMoreParams n c s) := by
  have hround (params : List VarDecl) : (paramsRound params).Advances := by
    refine .accept_or (by decide) (fun _ => ?_) (advances_stop params)
    exact lifts_forward.expect_bind fun base =>
      lifts_forward.bind (lifts_forward.parseParamBehind base) fun _ => lifts_forward.pure _
  refine repeats_of_unfold_list parseMoreParams (fun n params => ?_) hround hending hn
  simp only [parseMoreParams, paramsRound, map_bind, bind_assoc]
  refine bind_congr fun comma? => ?_
  cases comma? <;> simp

end Method

namespace ClassDecl

/-- A field or a method; the loop stops before a closing brace and at the end of file. -/
def membersRound (members : List VarDecl × List Method) :
    Parse (Round (List VarDecl × List Method) (List VarDecl × List Method)) := do
  let t ← peek
  if t.kind = .rbrace ∨ t.kind = .eof then pure (.stop members)
  else if t.kind = .publicWord then do
    let method ← Method.parse
    pure (.goOn (members.1, members.2 ++ [method]))
  else do
    let field ← VarDecl.parse (NodeKind.firstSet .field)
    pure (.goOn (members.1 ++ [field], members.2))

theorem repeats_members {c : ParseContext} (hending : c.ending.kind = .eof) {n : Nat}
    {s : ParseState} (hn : s.ahead.length < n) :
    Repeats membersRound c ([], []) s (parseMembers n c s) := by
  have hround (members : List VarDecl × List Method) : (membersRound members).Advances := by
    refine .of_bind lifts_forward.peek fun t => ?_
    split
    · exact advances_stop members
    · split
      · exact (passes_method.bind fun _ => lifts_forward.pure _).advances
      · exact ((passes_varDecl (by decide)).bind fun _ => lifts_forward.pure _).advances
  have hrepeats := repeats_of_unfold
    (fun n members => (fun m => (members.1 ++ m.1, members.2 ++ m.2)) <$> parseMembers n)
    (fun n members => ?_) hround hending n ([], []) s hn
  · simpa using hrepeats
  · simp only [parseMembers, membersRound, map_bind, bind_assoc]
    refine bind_congr fun t => ?_
    split
    · simp
    · split <;> simp

/-- A class, or what is skipped in its place; the loop goes on as long as the word `class` comes. -/
def manyRound (classes : List ClassDecl) : Parse (Round (List ClassDecl) (List ClassDecl)) := do
  let t ← peek
  if t.kind = .classWord then do
    let first? ← recovering .classDecl parse
    pure (.goOn (classes ++ first?.toList))
  else pure (.stop classes)

theorem repeats_many {c : ParseContext} (hending : c.ending.kind = .eof) {n : Nat} {s : ParseState}
    (hn : s.ahead.length < n) : Repeats manyRound c [] s (parseMany n c s) := by
  have hround (classes : List ClassDecl) : (manyRound classes).Advances := by
    intro c s hending
    refine PassesIf.of_bind lifts_forward.peek fun t u hpeek => ?_
    cases hpeek
    by_cases hclass : (s.ahead.headD c.ending).kind = .classWord
    · rw [if_pos hclass]
      have hnext : (s.ahead.headD c.ending).kind ≠ .eof := by
        rw [hclass]
        decide
      exact (passes_class.recovering forward_class .classDecl hending hnext).bind fun _ =>
        lifts_forward.pure _
    · rw [if_neg hclass]
      exact advances_stop classes c s hending
  refine repeats_of_unfold_list parseMany (fun n classes => ?_) hround hending hn
  simp only [parseMany, manyRound, map_bind, bind_assoc]
  refine bind_congr fun t => ?_
  split <;> simp

end ClassDecl

end MiniJava
