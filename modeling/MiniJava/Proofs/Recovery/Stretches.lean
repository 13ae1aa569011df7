import MiniJava.Proofs.Recovery.Order

/-!
# Stretches — lists of statements with broken ones among them

A list of statements is cut into stretches: what is read as a statement, and runs of tokens up to a
semicolon in which reading fails. Recovering gives the statements that were read and puts one error
on record for each run, the very one with which it fails (`Statement.parseList_stretches`).

Two facts carry this. What is on record when a parser begins does not change what it does
(`Parse.Framed`). And a parser that stands inside a run puts nothing on record itself, or else it
gets past the whole run (`Parse.Confined`), because recovering skips to the end of the run.
-/

namespace MiniJava

open Parse

/-! ## Records -/

namespace Parse

variable {α β : Type}

/-- The parser does the same whatever is on record, and adds to it at the end. -/
def Framed (p : Parse α) : Prop :=
  ∀ c ahead recoveries, p c ⟨ahead, recoveries⟩ = ((p c ⟨ahead, []⟩).1,
    ⟨(p c ⟨ahead, []⟩).2.ahead, recoveries ++ (p c ⟨ahead, []⟩).2.recoveries⟩)

theorem framed_of_stay {p : Parse α}
    (h : ∀ c ahead recoveries, ∃ r ahead', p c ⟨ahead, recoveries⟩ = (r, ⟨ahead', recoveries⟩) ∧
      p c ⟨ahead, []⟩ = (r, ⟨ahead', []⟩)) : p.Framed := by
  intro c ahead recoveries
  obtain ⟨r, ahead', hrun, hfresh⟩ := h c ahead recoveries
  rw [hrun, hfresh, List.append_nil]

theorem Framed.bind {p : Parse α} {f : α → Parse β} (hp : p.Framed) (hf : ∀ a, (f a).Framed) :
    (p >>= f).Framed := by
  intro c ahead recoveries
  have hfirst := hp c ahead recoveries
  cases hfresh : p c ⟨ahead, []⟩ with
  | mk result u =>
    rw [hfresh] at hfirst
    cases result with
    | ok a =>
      have hsecond := hf a c u.ahead u.recoveries
      rw [bind_of_ok hfirst, bind_of_ok hfresh, hf a c u.ahead, hsecond, List.append_assoc]
    | error e => rw [bind_of_error hfirst, bind_of_error hfresh]

theorem lifts_framed : Lifts @Framed := by
  refine .of_fail (fun a => ?_) ?_ ?_ ?_ (fun kinds => ?_) (fun fault => ?_) Framed.bind
  · exact framed_of_stay fun _ ahead _ => ⟨_, ahead, rfl, rfl⟩
  · exact framed_of_stay fun _ ahead _ => ⟨_, ahead, rfl, rfl⟩
  · exact framed_of_stay fun _ ahead _ => ⟨_, ahead, rfl, rfl⟩
  · exact framed_of_stay fun _ ahead _ => ⟨_, ahead, rfl, rfl⟩
  · refine framed_of_stay fun c ahead recoveries => ?_
    by_cases hkind : kinds.contains (ahead.headD c.ending).kind = true
    · exact ⟨_, ahead.tail, if_pos hkind, if_pos hkind⟩
    · exact ⟨_, ahead, if_neg hkind, if_neg hkind⟩
  · exact framed_of_stay fun _ ahead _ => ⟨_, ahead, rfl, rfl⟩

theorem Framed.recovering {step : Parse α} (h : step.Framed) (boundary : Boundary) :
    (recovering boundary step).Framed := by
  intro c ahead recoveries
  have hstep := h c ahead recoveries
  cases hfresh : step c ⟨ahead, []⟩ with
  | mk result u =>
    rw [hfresh] at hstep
    cases result with
    | ok a => rw [recovering_of_ok boundary hstep, recovering_of_ok boundary hfresh]
    | error e =>
      cases hpolicy : c.policy with
      | failFast =>
        rw [recovering_of_failFast boundary hpolicy hstep,
          recovering_of_failFast boundary hpolicy hfresh]
      | recover =>
        rw [recovering_of_recover boundary hpolicy hstep,
          recovering_of_recover boundary hpolicy hfresh, List.append_assoc]

theorem framed_statement (n : Nat) : (Statement.parse n).Framed :=
  lifts_framed.statement_parse
    (fun _ => lifts_framed.parseList fun boundary _ hstep => hstep.recovering boundary) n

end Parse

/-! ## Runs of tokens -/

/-- The tokens end in their only semicolon, and reading goes on at none of them. -/
inductive Clear : List Token → Prop where
  | last {t : Token} (h : t.kind = .semicolon) : Clear [t]
  | cons {t : Token} {ts : List Token} (hsemicolon : t.kind ≠ .semicolon)
      (hresumes : t.kind.resumesStatement = false) (h : Clear ts) : Clear (t :: ts)

namespace Clear

variable {front inside behind ahead : List Token}

theorem of_append (h : Clear (front ++ inside)) (hne : inside ≠ []) : Clear inside := by
  induction front with
  | nil => exact h
  | cons t front ih =>
    generalize hts : front ++ inside = ts at ih
    rw [List.cons_append, hts] at h
    cases h with
    | last => exact absurd (List.append_eq_nil_iff.mp hts).2 hne
    | cons _ _ h => exact ih h

-- What is left of clear tokens is clear, until all of them are passed.
theorem or_of_suffix (h : Clear inside) (hahead : ahead <:+ inside ++ behind) :
    (∃ left, Clear left ∧ ahead = left ++ behind) ∨ ahead <:+ behind := by
  obtain ⟨front, hfront⟩ := hahead
  rcases List.append_eq_append_iff.mp hfront with ⟨left, rfl, rfl⟩ | ⟨passed, rfl, rfl⟩
  · by_cases hleft : left = []
    · subst hleft
      exact .inr (List.suffix_refl behind)
    · exact .inl ⟨left, h.of_append hleft, rfl⟩
  · exact .inr (List.suffix_append _ _)

theorem skip (h : Clear inside) (behind : List Token) (moved : Bool) :
    skipStatement moved (inside ++ behind) = behind := by
  induction h generalizing moved with
  | last h => exact if_pos h
  | cons hsemicolon hresumes _ ih =>
    rw [List.cons_append, skipStatement, if_neg hsemicolon, hresumes, Bool.and_false,
      if_neg Bool.false_ne_true]
    exact ih true

end Clear

namespace Parse

variable {α β : Type} {behind : List Token}

/-- The parser does not move back, and inside clear tokens it puts nothing on record unless it gets
past all of them. -/
def Confined (behind : List Token) (p : Parse α) : Prop :=
  p.Forward ∧ ∀ c inside recoveries, Clear inside →
    (p c ⟨inside ++ behind, recoveries⟩).2.recoveries = recoveries ∨
      (p c ⟨inside ++ behind, recoveries⟩).2.ahead <:+ behind

theorem Confined.bind {p : Parse α} {f : α → Parse β} (hp : p.Confined behind)
    (hf : ∀ a, (f a).Confined behind) : (p >>= f).Confined behind := by
  refine ⟨hp.1.bind fun a => (hf a).1, fun c inside recoveries hclear => ?_⟩
  have hforward := hp.1 c ⟨inside ++ behind, recoveries⟩
  have hfirst := hp.2 c inside recoveries hclear
  cases hrun : p c ⟨inside ++ behind, recoveries⟩ with
  | mk result u =>
    rw [hrun] at hforward hfirst
    cases result with
    | error e =>
      rw [bind_of_error hrun]
      exact hfirst
    | ok a =>
      rw [bind_of_ok hrun]
      have hsecond := (hf a).1 c u
      obtain ⟨ahead, record⟩ := u
      rcases hfirst with hrecord | hpast
      · obtain rfl : record = recoveries := hrecord
        rcases hclear.or_of_suffix hforward with ⟨left, hleft, hahead⟩ | hpast
        · obtain rfl : ahead = left ++ behind := hahead
          exact (hf a).2 c left record hleft
        · exact .inr (hsecond.trans hpast)
      · exact .inr (hsecond.trans hpast)

theorem lifts_confined (behind : List Token) : Lifts (fun p => Confined behind p) := by
  refine .of_fail (fun a => ?_) ?_ ?_ ?_ (fun kinds => ?_) (fun fault => ?_) Confined.bind
  · exact ⟨lifts_forward.pure a, fun _ _ _ _ => .inl rfl⟩
  · exact ⟨lifts_forward.peek, fun _ _ _ _ => .inl rfl⟩
  · exact ⟨lifts_forward.peekBehind, fun _ _ _ _ => .inl rfl⟩
  · exact ⟨lifts_forward.bound, fun _ _ _ _ => .inl rfl⟩
  · refine ⟨lifts_forward.accept kinds, fun c inside recoveries _ => .inl ?_⟩
    unfold accept
    dsimp only
    split
    · rfl
    · rfl
  · exact ⟨fun _ _ => List.suffix_refl _, fun _ _ _ _ => .inl rfl⟩

-- Recovering inside clear tokens goes on behind them.
theorem Confined.recovering {step : Parse α} (h : step.Confined behind) :
    (recovering .statement step).Confined behind := by
  refine ⟨h.1.recovering .statement, fun c inside recoveries hclear => ?_⟩
  have hforward := h.1 c ⟨inside ++ behind, recoveries⟩
  have hstep := h.2 c inside recoveries hclear
  cases hrun : step c ⟨inside ++ behind, recoveries⟩ with
  | mk result u =>
    rw [hrun] at hforward hstep
    cases result with
    | ok a =>
      rw [recovering_of_ok .statement hrun]
      exact hstep
    | error e =>
      cases hpolicy : c.policy with
      | failFast =>
        rw [recovering_of_failFast .statement hpolicy hrun]
        exact hstep
      | recover =>
        rw [recovering_of_recover .statement hpolicy hrun]
        rcases hclear.or_of_suffix hforward with ⟨left, hleft, hahead⟩ | hpast
        · have hskip := hleft.skip behind (decide (u.ahead.length < (inside ++ behind).length))
          rw [← hahead] at hskip
          exact .inr ⟨[], hskip⟩
        · exact .inr ((skipStatement_suffix _ _).trans hpast)

theorem confined_list {statement : Parse Statement} (h : statement.Confined behind) :
    (Statement.parseList statement).Confined behind :=
  (lifts_confined behind).parseList_of_recovering h.recovering

theorem confined_statement (behind : List Token) (n : Nat) :
    (Statement.parse n).Confined behind :=
  (lifts_confined behind).statement_parse (fun _ => confined_list) n

end Parse

/-- A run of tokens that ends in its only semicolon. It does not begin with a closing brace, and
reading goes on at none of the tokens behind the first. -/
structure IsRun (ts : List Token) : Prop where
  first : ∀ t ∈ ts.head?, t.kind ≠ .rbrace
  last : ts.getLast?.map (·.kind) = some .semicolon
  only : ∀ t ∈ ts.dropLast, t.kind ≠ .semicolon
  inside : ∀ t ∈ ts.tail, t.kind.resumesStatement = false

namespace IsRun

variable {t : Token} {inside ts left behind : List Token}

theorem ne_nil (h : IsRun ts) : ts ≠ [] := by
  rintro rfl
  exact absurd h.last nofun

theorem clear_of {front : List Token} {last : Token} (hlast : last.kind = .semicolon)
    (hfront : ∀ t ∈ front, t.kind ≠ .semicolon ∧ t.kind.resumesStatement = false) :
    Clear (front ++ [last]) := by
  induction front with
  | nil => exact .last hlast
  | cons t front ih =>
    obtain ⟨⟨hsemicolon, hresumes⟩, hrest⟩ := List.forall_mem_cons.mp hfront
    exact .cons hsemicolon hresumes (ih hrest)

-- The first token is the semicolon, or what is behind it is clear.
theorem cases_first (h : IsRun (t :: inside)) :
    (t.kind = .semicolon ∧ inside = []) ∨ (t.kind ≠ .semicolon ∧ Clear inside) := by
  obtain ⟨last, hget, hlast⟩ := Option.map_eq_some_iff.mp h.last
  obtain ⟨front, heq⟩ := List.getLast?_eq_some_iff.mp hget
  have hfront := h.only
  rw [heq, List.dropLast_concat] at hfront
  cases front with
  | nil =>
    obtain ⟨rfl, rfl⟩ := List.cons.inj heq
    exact .inl ⟨hlast, rfl⟩
  | cons u front =>
    obtain ⟨rfl, rfl⟩ := List.cons.inj heq
    obtain ⟨hfirst, hrest⟩ := List.forall_mem_cons.mp hfront
    refine .inr ⟨hfirst, clear_of hlast fun v hv => ⟨hrest v hv, ?_⟩⟩
    exact h.inside v (List.mem_append_left _ hv)

theorem clear (h : IsRun (t :: inside)) (hresumes : t.kind.resumesStatement = false) :
    Clear (t :: inside) := by
  rcases h.cases_first with ⟨hsemicolon, rfl⟩ | ⟨hsemicolon, hinside⟩
  · exact .last hsemicolon
  · exact .cons hsemicolon hresumes hinside

-- Wherever in a run reading fails, skipping ends right behind the run.
theorem skip (h : IsRun ts) (hleft : left <:+ ts) (hne : left ≠ []) (behind : List Token) :
    skipStatement (decide ((left ++ behind).length < (ts ++ behind).length)) (left ++ behind) =
      behind := by
  cases ts with
  | nil => exact absurd (List.suffix_nil.mp hleft) hne
  | cons t inside =>
    rcases List.suffix_cons_iff.mp hleft with rfl | hinner
    · rw [decide_eq_false (Nat.lt_irrefl _), List.cons_append, skipStatement]
      rcases h.cases_first with ⟨hsemicolon, rfl⟩ | ⟨hsemicolon, hinside⟩
      · exact if_pos hsemicolon
      · rw [if_neg hsemicolon, Bool.false_and, if_neg Bool.false_ne_true]
        exact hinside.skip behind true
    · rcases h.cases_first with ⟨-, rfl⟩ | ⟨-, hinside⟩
      · exact absurd (List.suffix_nil.mp hinner) hne
      · obtain ⟨front, rfl⟩ := hinner
        exact (hinside.of_append hne).skip behind _

-- Reading from the first token of a run puts nothing on record, or gets past the run.
theorem recoveries_eq (h : IsRun ts) {n : Nat} {c : ParseContext}
    {result : Except SyntaxError Statement} {u : ParseState}
    (hrun : Statement.parse n c ⟨ts ++ behind, []⟩ = (result, u)) :
    u.recoveries = [] ∨ u.ahead <:+ behind := by
  have hlifts := lifts_confined behind
  cases ts with
  | nil => exact absurd rfl h.ne_nil
  | cons t inside =>
    cases hresumes : t.kind.resumesStatement with
    | false =>
      have hconfined := (confined_statement behind n).2 c (t :: inside) [] (h.clear hresumes)
      rwa [hrun] at hconfined
    | true =>
      -- The first token is passed at once, and the rest of the run is clear.
      have hinside : Clear inside := by
        rcases h.cases_first with ⟨hsemicolon, -⟩ | ⟨-, hinside⟩
        · rw [hsemicolon] at hresumes
          exact absurd hresumes (by decide)
        · exact hinside
      cases n with
      | zero =>
        cases hrun
        exact .inl rfl
      | succ n =>
        have hstatement := confined_statement behind n
        obtain ⟨kinds, p, hkind, ⟨f, rfl, hf⟩, hform⟩ := hlifts.exists_form (hlifts.expr_parse n).1
          hstatement (confined_list hstatement) hresumes (h.first t rfl)
        have hexpect : expect kinds c ⟨t :: inside ++ behind, []⟩ =
            (.ok t, ⟨inside ++ behind, []⟩) := by
          rw [expect_run]
          exact if_pos (List.contains_iff_mem.mpr hkind)
        rw [Statement.parse_succ, hform c _ rfl, bind_of_ok hexpect] at hrun
        have hconfined := (hf t).2 c inside [] hinside
        rwa [hrun] at hconfined

end IsRun

/-! ## Stretches of a list -/

/-- An error in a list of statements on record: skipping begins at the token that it is about. -/
def Recovery.ofStatement (e : SyntaxError) : Recovery := ⟨e, .statement, e.position⟩

/-- A stretch of a list of statements, and what reading it gives. -/
structure Stretch where
  tokens : List Token
  outcome : Except SyntaxError Statement

namespace Stretch

/-- The statement that a stretch is. -/
def statement? (x : Stretch) : Option Statement := x.outcome.toOption

/-- The error for which a stretch is no statement. -/
def error? (x : Stretch) : Option SyntaxError :=
  match x.outcome with
  | .ok _ => none
  | .error e => some e

/-- Reading a statement from the first token either succeeds with nothing on record and ends with
the stretch, or fails at one of its tokens, where the stretch is a run up to a semicolon. -/
inductive Ends (n : Nat) (c : ParseContext) (behind : List Token) : Stretch → Prop where
  | read {ts : List Token} {a : Statement}
      (h : Statement.parse n c ⟨ts ++ behind, []⟩ = (.ok a, ⟨behind, []⟩)) :
      Ends n c behind ⟨ts, .ok a⟩
  | broken {ts : List Token} {e : SyntaxError} (hts : IsRun ts)
      (h : (Statement.parse n c ⟨ts ++ behind, []⟩).1 = .error e) (hfound : e.found ∈ ts) :
      Ends n c behind ⟨ts, .error e⟩

/-- Each of the stretches ends where the next one begins, and the last one before `behind`. -/
def Follow (n : Nat) (c : ParseContext) : List Stretch → List Token → Prop
  | [], _ => True
  | x :: xs, behind => x.Ends n c (xs.flatMap (·.tokens) ++ behind) ∧ Follow n c xs behind

end Stretch

-- A statement begins with a token of a kind that statements begin with.
theorem Statement.kind_of_parse_eq_ok {n : Nat} {c : ParseContext} {s s' : ParseState}
    {a : Statement} (h : Statement.parse n c s = (.ok a, s')) :
    (s.ahead.headD c.ending).kind ∈ NodeKind.firstSet .statement := by
  cases n with
  | zero => cases h
  | succ n =>
    have hpeek : peek c s = (.ok (s.ahead.headD c.ending), s) := rfl
    replace h := (bind_of_ok hpeek).symm.trans h
    cases hkind : (s.ahead.headD c.ending).kind
    case identifier | intWord | booleanWord => decide
    case lbrace | returnWord | assertWord | systemWord | ifWord | whileWord => decide
    -- Before a token of any other kind reading fails at once.
    all_goals
      simp only [hkind] at h
      cases h

namespace Settled

variable {tokens : List Token} {c : ParseContext} {front ahead : List Token}

-- With nothing on record, a state is settled wherever it stands in the text.
theorem fresh (hsuffix : ahead ++ [c.ending] <:+ tokens) (hkinds : ∀ t ∈ ahead, t.kind ≠ .eof) :
    Settled tokens c ⟨ahead, []⟩ :=
  ⟨hsuffix, hkinds, List.forall_mem_nil _, .nil, List.forall_mem_nil _⟩

theorem fresh_of_append (h : Settled tokens c ⟨front ++ ahead, []⟩) :
    Settled tokens c ⟨ahead, []⟩ := by
  refine fresh (List.IsSuffix.trans ⟨front, ?_⟩ h.suffix) fun t ht => ?_
  · exact (List.append_assoc _ _ _).symm
  · exact h.kind_ne_eof t (List.mem_append_right _ ht)

end Settled

section Lists

variable {tokens : List Token} (hordered : tokens.Pairwise (·.position.Before ·.position))
  {c : ParseContext} (hending : c.ending.kind = .eof) {n : Nat} {behind : List Token}
include hordered hending

-- Where reading fails at a token of a run, the rest of the run is still ahead.
theorem exists_left_of_found {ts : List Token} {e : SyntaxError} {u : ParseState}
    (hs : Settled tokens c ⟨ts ++ behind, []⟩)
    (hrun : Statement.parse n c ⟨ts ++ behind, []⟩ = (.error e, u)) (hfound : e.found ∈ ts) :
    ¬ u.ahead <:+ behind ∧ (u.ahead.headD c.ending).position = e.position ∧
      ∃ left, left <:+ ts ∧ left ≠ [] ∧ u.ahead = left ++ behind := by
  have hsound := (safe_statement hordered n).1 c _ hending hs
  have hforward := forward_statement n c ⟨ts ++ behind, []⟩
  rw [hrun] at hsound hforward
  obtain ⟨hnext, -⟩ := hsound.found e rfl
  -- Each token stands at one place, so the error is not behind the run.
  have hnot : ¬ u.ahead <:+ behind := by
    intro hpast
    have hmem : e.found ∈ behind ++ [c.ending] := by
      rw [hnext]
      dsimp only
      cases hahead : u.ahead with
      | nil => exact List.mem_append_right _ List.mem_cons_self
      | cons t rest =>
        rw [hahead] at hpast
        exact List.mem_append_left _ (hpast.subset List.mem_cons_self)
    have hpairwise := hordered.sublist hs.suffix.sublist
    rw [List.append_assoc] at hpairwise
    exact ((List.pairwise_append.mp hpairwise).2.2 _ hfound _ hmem).ne rfl
  refine ⟨hnot, congrArg Token.position hnext.symm, ?_⟩
  obtain ⟨front, hfront⟩ := hforward
  rcases List.append_eq_append_iff.mp hfront with ⟨left, hts, hahead⟩ | ⟨passed, -, hbehind⟩
  · refine ⟨left, ⟨front, hts.symm⟩, ?_, hahead⟩
    rintro rfl
    exact hnot ⟨[], hahead⟩
  · exact absurd ⟨passed, hbehind.symm⟩ hnot

omit hordered in
-- A statement that is read takes tokens, and the first of them does not end the list.
theorem step_of_read {ts : List Token} {a : Statement}
    (h : Statement.parse n c ⟨ts ++ behind, []⟩ = (.ok a, ⟨behind, []⟩)) :
    ts ≠ [] ∧
      ¬ (((ts ++ behind).headD c.ending).kind = .rbrace ∨
        ((ts ++ behind).headD c.ending).kind = .eof) ∧
      ∀ recoveries, recovering .statement (Statement.parse n) c ⟨ts ++ behind, recoveries⟩ =
        (.ok (some a), ⟨behind, recoveries ++ []⟩) := by
  have hkind := Statement.kind_of_parse_eq_ok h
  have hlength := passes_statement n c _ hending a _ h trivial
  refine ⟨?_, ?_, fun recoveries => ?_⟩
  · rintro rfl
    exact absurd hlength (Nat.lt_irrefl _)
  · rintro (hbrace | heof)
    · rw [hbrace] at hkind
      exact absurd hkind (by decide)
    · rw [heof] at hkind
      exact absurd hkind (by decide)
  · have hframed := framed_statement n c (ts ++ behind) recoveries
    rw [h] at hframed
    exact recovering_of_ok .statement hframed

-- A run in which reading fails is skipped, and its error is the one on record.
theorem recovering_of_broken (hc : c.policy = .recover) {ts : List Token} {e : SyntaxError}
    (hs : Settled tokens c ⟨ts ++ behind, []⟩) (hts : IsRun ts)
    (h : (Statement.parse n c ⟨ts ++ behind, []⟩).1 = .error e) (hfound : e.found ∈ ts)
    (recoveries : List Recovery) :
    recovering .statement (Statement.parse n) c ⟨ts ++ behind, recoveries⟩ =
      (.ok none, ⟨behind, recoveries ++ [Recovery.ofStatement e]⟩) := by
  have hrun : Statement.parse n c ⟨ts ++ behind, []⟩ =
      (.error e, (Statement.parse n c ⟨ts ++ behind, []⟩).2) := Prod.ext h rfl
  generalize (Statement.parse n c ⟨ts ++ behind, []⟩).2 = u at hrun
  obtain ⟨hnot, hposition, left, hleft, hne, hahead⟩ :=
    exists_left_of_found hordered hending hs hrun hfound
  obtain ⟨t, inside, rfl⟩ := List.exists_cons_of_ne_nil hts.ne_nil
  have hrecord := (hts.recoveries_eq hrun).resolve_right hnot
  have hskip := hts.skip hleft hne behind
  have hframed := framed_statement n c (t :: inside ++ behind) recoveries
  rw [hrun] at hframed
  dsimp only at hframed
  rw [hrecord, List.append_nil] at hframed
  rw [← hahead] at hskip
  rw [recovering_of_recover .statement hc hframed]
  dsimp only [Boundary.skip]
  rw [hskip, hposition]
  rfl

/-- One stretch of a list is read, or skipped with its error on record. -/
theorem Stretch.Ends.step (hc : c.policy = .recover) {x : Stretch} (h : x.Ends n c behind)
    (hs : Settled tokens c ⟨x.tokens ++ behind, []⟩) :
    x.tokens ≠ [] ∧
      ¬ (((x.tokens ++ behind).headD c.ending).kind = .rbrace ∨
        ((x.tokens ++ behind).headD c.ending).kind = .eof) ∧
      ∀ recoveries, recovering .statement (Statement.parse n) c ⟨x.tokens ++ behind, recoveries⟩ =
        (.ok x.statement?, ⟨behind, recoveries ++ x.error?.toList.map Recovery.ofStatement⟩) := by
  cases h with
  | read h => exact step_of_read hending h
  | @broken ts e hts h hfound =>
    obtain ⟨t, inside, rfl⟩ := List.exists_cons_of_ne_nil hts.ne_nil
    refine ⟨hts.ne_nil, ?_, recovering_of_broken hordered hending hc hs hts h hfound⟩
    rintro (hbrace | heof)
    · exact hts.first t rfl hbrace
    · exact hs.kind_ne_eof t List.mem_cons_self heof

omit hordered hending in
theorem filterMap_cons_eq {β : Type} (f : Stretch → Option β) (x : Stretch) (xs : List Stretch) :
    (x :: xs).filterMap f = (f x).toList ++ xs.filterMap f := by
  rw [List.filterMap_cons]
  cases f x <;> rfl

-- The stretches of a list, one after the other.
theorem parseMany_stretches (hc : c.policy = .recover) {closing : Token}
    (hclosing : closing.kind = .rbrace) {rest : List Token} {xs : List Stretch} :
    ∀ {k : Nat} (recoveries : List Recovery),
      Settled tokens c ⟨xs.flatMap (·.tokens) ++ closing :: rest, []⟩ →
      Stretch.Follow n c xs (closing :: rest) →
      (xs.flatMap (·.tokens) ++ closing :: rest).length < k →
      Statement.parseMany (Statement.parse n) k c
          ⟨xs.flatMap (·.tokens) ++ closing :: rest, recoveries⟩ =
        (.ok (xs.filterMap (·.statement?)), ⟨closing :: rest,
          recoveries ++ (xs.filterMap (·.error?)).map Recovery.ofStatement⟩) := by
  induction xs with
  | nil =>
    intro k recoveries _ _ hk
    cases k with
    | zero => exact absurd hk (Nat.not_lt_zero _)
    | succ k =>
      rw [Statement.parseMany]
      refine (bind_of_ok (show peek c _ = (.ok closing, _) from rfl)).trans ?_
      rw [if_pos (.inl hclosing)]
      simp only [List.filterMap_nil, List.map_nil, List.append_nil]
      rfl
  | cons x xs ih =>
    intro k recoveries hs hfollow hk
    rw [List.flatMap_cons, List.append_assoc] at hs hk ⊢
    obtain ⟨hne, hstop, hstep⟩ := hfollow.1.step hordered hending hc hs
    cases k with
    | zero => exact absurd hk (Nat.not_lt_zero _)
    | succ k =>
      have hlength : (xs.flatMap (·.tokens) ++ closing :: rest).length < k := by
        have hpos := List.length_pos_iff.mpr hne
        rw [List.length_append] at hk
        omega
      have hrest := ih (recoveries ++ x.error?.toList.map Recovery.ofStatement)
        hs.fresh_of_append hfollow.2 hlength
      rw [Statement.parseMany]
      refine (bind_of_ok (show peek c _ = (.ok _, _) from rfl)).trans ?_
      rw [if_neg hstop, bind_of_ok (hstep recoveries), bind_of_ok hrest, List.append_assoc,
        ← List.map_append, ← filterMap_cons_eq, ← filterMap_cons_eq]
      rfl

end Lists

/-! ## What is reported -/

-- Errors at different places are all kept.
theorem foldl_keepError_eq_append {es : List SyntaxError} :
    ∀ {kept : List SyntaxError}, es.Pairwise (·.position ≠ ·.position) →
      (∀ a ∈ kept, ∀ e ∈ es, a.position ≠ e.position) → es.foldl keepError kept = kept ++ es := by
  induction es with
  | nil => exact fun _ _ => (List.append_nil _).symm
  | cons e es ih =>
    intro kept hes hkept
    obtain ⟨he, hes⟩ := List.pairwise_cons.mp hes
    have hlast : kept.getLast?.any (·.position == e.position) = false := by
      cases hkeptLast : kept.getLast? with
      | none => rfl
      | some a => simpa using hkept a (List.mem_of_getLast? hkeptLast) e List.mem_cons_self
    rw [List.foldl_cons, keepError, if_neg (Bool.eq_false_iff.mp hlast), ih hes]
    · rw [List.append_assoc, List.singleton_append]
    · refine List.forall_mem_append.mpr ⟨fun a ha e' he' => ?_, List.forall_mem_singleton.mpr he⟩
      exact hkept a ha e' (List.mem_cons_of_mem e he')

namespace Stretch

variable {n : Nat} {c : ParseContext} {behind : List Token}

theorem Ends.found_mem {x : Stretch} (h : x.Ends n c behind) :
    ∀ e ∈ x.error?, e.found ∈ x.tokens := by
  cases h with
  | read => exact nofun
  | broken _ _ hfound =>
    intro e he
    cases he
    exact hfound

-- Each stretch has its error at a token of its own, so the errors stand one behind the other.
theorem Follow.errors {xs : List Stretch} (h : Follow n c xs behind)
    (hordered : (xs.flatMap (·.tokens)).Pairwise (·.position.Before ·.position)) :
    (∀ e ∈ xs.filterMap (·.error?), e.found ∈ xs.flatMap (·.tokens)) ∧
      (xs.filterMap (·.error?)).Pairwise (·.position.Before ·.position) := by
  induction xs with
  | nil => exact ⟨List.forall_mem_nil _, .nil⟩
  | cons x xs ih =>
    rw [List.flatMap_cons] at hordered ⊢
    obtain ⟨-, hrest, hacross⟩ := List.pairwise_append.mp hordered
    obtain ⟨hfound, hpairwise⟩ := ih h.2 hrest
    have hfirst (e : SyntaxError) (he : e ∈ x.error?.toList) : e.found ∈ x.tokens :=
      h.1.found_mem e (Option.mem_toList.mp he)
    rw [filterMap_cons_eq]
    refine ⟨List.forall_mem_append.mpr ⟨fun e he => ?_, fun e he => ?_⟩,
      List.pairwise_append.mpr ⟨?_, hpairwise, fun a ha e he => ?_⟩⟩
    · exact List.mem_append_left _ (hfirst e he)
    · exact List.mem_append_right _ (hfound e he)
    · cases x.error? with
      | none => exact .nil
      | some e => exact List.pairwise_singleton _ _
    · exact hacross _ (hfirst a ha) _ (hfound e he)

end Stretch

-- Where the tokens of a source end, there is the end of file, and none of the others is one.
theorem kind_ne_eof_of_suffix_tokenize {source : String} {ahead : List Token} {ending : Token}
    (h : ahead ++ [ending] <:+ (tokenize source).tokens) :
    ending.kind = .eof ∧ ∀ t ∈ ahead, t.kind ≠ .eof := by
  obtain ⟨front, htokens, htiled⟩ := exists_tiled_tokenize source
  obtain ⟨before, hbefore⟩ := h
  rw [htokens, ← List.append_assoc] at hbefore
  obtain ⟨rfl, hending⟩ := List.append_inj' hbefore rfl
  obtain rfl := List.singleton_inj.mp hending
  exact ⟨rfl, fun t ht => htiled.kind_ne_eof t (List.mem_append_right _ ht)⟩

/-- A list of statements in a source is recovered in stretch by stretch. It gives the statements of
the stretches that are read, in order, and ends behind its closing brace. On record, each stretch
that is broken adds the error with which reading it fails, and all of these errors are reported, in
order, where no error on record before stands at a token of the list (none does in a run, where what
is on record stands in front of what is ahead). -/
theorem Statement.parseList_stretches {source : String} {c : ParseContext}
    (hc : c.policy = .recover) (n : Nat) (xs : List Stretch) (closing : Terminal [.rbrace])
    (rest : List Token) (recoveries : List Recovery)
    (hsource : xs.flatMap (·.tokens) ++ closing.token :: rest ++ [c.ending] <:+
      (tokenize source).tokens)
    (hfollow : Stretch.Follow n c xs (closing.token :: rest))
    (hrecord : ∀ r ∈ recoveries, ∀ t ∈ xs.flatMap (·.tokens), r.error.position ≠ t.position) :
    let errors := xs.filterMap (·.error?)
    let final := recoveries ++ errors.map Recovery.ofStatement
    parseList (parse n) c ⟨xs.flatMap (·.tokens) ++ closing.token :: rest, recoveries⟩ =
        (.ok (xs.filterMap (·.statement?)), ⟨rest, final⟩) ∧
      recordedErrors final = recordedErrors recoveries ++ errors := by
  intro errors final
  have hordered := pairwise_tokens_tokenize source
  obtain ⟨hending, hkinds⟩ := kind_ne_eof_of_suffix_tokenize hsource
  constructor
  · have hmany := parseMany_stretches hordered hending hc closing.kind_eq recoveries
      (.fresh hsource hkinds) hfollow (Nat.lt_succ_self _)
    rw [parseList, bind_of_ok bound_run, bind_of_ok hmany]
    have hexpect : expect [.rbrace] c ⟨closing.token :: rest, final⟩ =
        (.ok closing.token, ⟨rest, final⟩) := by
      rw [expect_run]
      exact if_pos (List.contains_iff_mem.mpr closing.kind_mem)
    exact bind_of_ok hexpect
  · have hlist := hordered.sublist hsource.sublist
    rw [List.append_assoc] at hlist
    obtain ⟨hfound, hpairwise⟩ := hfollow.errors (List.pairwise_append.mp hlist).1
    have herrors : (errors.map Recovery.ofStatement).map (·.error) = errors := by
      rw [List.map_map]
      exact List.map_id _
    rw [recordedErrors, List.map_append, herrors, List.foldl_append]
    apply foldl_keepError_eq_append
    · exact hpairwise.imp fun hbefore => hbefore.ne
    · intro a ha e he
      obtain ⟨r, hr, rfl⟩ := exists_of_mem_recordedErrors ha
      exact hrecord r hr e.found (hfound e he)

-- A statement without a value, one that is read, and one that is none: `x = ; y = 2; ) ;`.
def mixedStretches : List Stretch :=
  [⟨[⟨.identifier, "x", ⟨1, 39⟩⟩, ⟨.assign, "=", ⟨1, 41⟩⟩, ⟨.semicolon, ";", ⟨1, 43⟩⟩],
      .error (missingValue 43)⟩,
    ⟨[⟨.identifier, "y", ⟨1, 45⟩⟩, ⟨.assign, "=", ⟨1, 47⟩⟩, ⟨.intLiteral, "2", ⟨1, 49⟩⟩,
        ⟨.semicolon, ";", ⟨1, 50⟩⟩],
      .ok (.assignment (.identifier ⟨.identifier, "y", ⟨1, 45⟩⟩)
        (.intLiteral ⟨.intLiteral, "2", ⟨1, 49⟩⟩) ⟨1, 45⟩)⟩,
    ⟨[⟨.rparen, ")", ⟨1, 52⟩⟩, ⟨.semicolon, ";", ⟨1, 54⟩⟩],
      .error ⟨.unexpected (NodeKind.firstSet .statement), ⟨.rparen, ")", ⟨1, 52⟩⟩⟩⟩]

/-- Of three stretches two are broken: there is one statement, and both errors are reported. -/
theorem Statement.parseList_stretches_of_mixed :
    let c : ParseContext := ⟨.recover, .endOfFile ⟨1, 59⟩⟩
    let closing : Terminal [.rbrace] := ⟨⟨.rbrace, "\x7d", ⟨1, 56⟩⟩, by decide⟩
    let rest : List Token := [⟨.rbrace, "\x7d", ⟨1, 58⟩⟩]
    let list := mixedStretches.flatMap (·.tokens) ++ closing.token :: rest
    list ++ [c.ending] <:+
        (tokenize "class M { public static void main() { x = ; y = 2; ) ; } }").tokens ∧
      Stretch.Follow maxNesting c mixedStretches (closing.token :: rest) ∧
      ∃ final, parseList (parse maxNesting) c ⟨list, []⟩ =
          (.ok (mixedStretches.filterMap (·.statement?)), ⟨rest, final⟩) ∧
        recordedErrors final = [missingValue 43,
          ⟨.unexpected (NodeKind.firstSet .statement), ⟨.rparen, ")", ⟨1, 52⟩⟩⟩] := by
  intro c closing rest list
  have hsource : list ++ [c.ending] <:+
      (tokenize "class M { public static void main() { x = ; y = 2; ) ; } }").tokens := by
    decide +kernel
  have hfollow : Stretch.Follow maxNesting c mixedStretches (closing.token :: rest) := by
    refine ⟨.broken ⟨by decide, by decide, by decide, by decide⟩ ?_ (by decide), .read ?_,
      .broken ⟨by decide, by decide, by decide, by decide⟩ ?_ (by decide), trivial⟩
    · decide +kernel
    · decide +kernel
    · decide +kernel
  obtain ⟨hlist, herrors⟩ := parseList_stretches rfl maxNesting mixedStretches closing rest []
    hsource hfollow (List.forall_mem_nil _)
  exact ⟨hsource, hfollow, _, hlist, herrors⟩

end MiniJava
