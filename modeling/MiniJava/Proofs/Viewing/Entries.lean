import Mathlib.Data.List.Nodup
import MiniJava.Proofs.Listings
import MiniJava.Proofs.Scanning

/-!
# Entries — what was wrong, in reading order

`Diagnostics.Lists d problems` says that some problems are the errors of both stages, each of them
once and those of a stage in the order in which they were found, by their positions and, at one
position, lexical ones first. There is one such list at most (`Diagnostics.Lists.unique`), and where
the errors of either stage stand one behind the other, as those of a text do, the entries of a
report are this list (`Diagnostics.lists_sorted`).
-/

namespace MiniJava

/-- An error of either stage. -/
inductive Problem where
  | lexical (e : LexicalError)
  | syntactic (e : SyntaxError)
deriving DecidableEq, Repr

namespace Problem

def position : Problem → Position
  | lexical e => e.position
  | syntactic e => e.position

/-- The problem in full with its position. -/
def entry : Problem → Position × String
  | lexical e => (e.position, e.rendered)
  | syntactic e => (e.position, e.rendered)

theorem entry_fst (p : Problem) : p.entry.1 = p.position := by cases p <;> rfl

def lexical? : Problem → Option LexicalError
  | lexical e => some e
  | syntactic _ => none

def syntactic? : Problem → Option SyntaxError
  | lexical _ => none
  | syntactic e => some e

/-- By position. -/
def notAfter (a b : Problem) : Bool := a.position.notAfter b.position

theorem notAfter_trans (a b c : Problem) (hab : a.notAfter b) (hbc : b.notAfter c) :
    a.notAfter c := Position.notAfter_trans hab hbc

theorem notAfter_total (a b : Problem) : a.notAfter b || b.notAfter a :=
  Position.notAfter_total _ _

/-- Reading order, in which at one position no syntax error comes before a lexical error. -/
def Leads (a b : Problem) : Prop :=
  a.notAfter b ∧ (a.position = b.position → b.lexical?.isSome → a.lexical?.isSome)

end Problem

theorem Position.notAfter_antisymm {p q : Position} (hpq : p.notAfter q) (hqp : q.notAfter p) :
    p = q := by
  obtain ⟨line, column⟩ := p
  obtain ⟨line', column'⟩ := q
  simp only [notAfter, Bool.or_eq_true, Bool.and_eq_true, decide_eq_true_eq, beq_iff_eq] at hpq hqp
  obtain ⟨rfl, rfl⟩ : line = line' ∧ column = column' := by omega
  rfl

theorem Position.Before.notAfter {p q : Position} (h : p.Before q) : p.notAfter q := by
  unfold Before at h
  simp only [Position.notAfter, Bool.or_eq_true, Bool.and_eq_true, decide_eq_true_eq, beq_iff_eq]
  omega

-- A lexical error and a syntax error are never both before each other.
theorem Problem.Leads.asymm {e : LexicalError} {e' : SyntaxError}
    (h : (lexical e).Leads (syntactic e')) : ¬ (syntactic e').Leads (lexical e) := by
  intro h'
  have hsame : e'.position = e.position := Position.notAfter_antisymm h'.1 h.1
  cases h'.2 hsame rfl

namespace Diagnostics

/-- What was wrong with a text, if anything was. -/
def ofResult? : Except Diagnostics Program → Option Diagnostics
  | .ok _ => none
  | .error d => some d

theorem eq_error_of_ofResult? {result : Except Diagnostics Program} {d : Diagnostics}
    (h : ofResult? result = some d) : result = .error d := by
  cases result with
  | ok p => cases h
  | error d' => rw [Option.some.inj h]

/-- The problems are all errors of both stages, in reading order. -/
structure Lists (d : Diagnostics) (problems : List Problem) : Prop where
  lexical : problems.filterMap Problem.lexical? = d.lexical
  syntactic : problems.filterMap Problem.syntactic? = d.syntactic
  ordered : problems.Pairwise Problem.Leads

/-- The errors of both stages, lexical ones first. -/
def found (d : Diagnostics) : List Problem :=
  d.lexical.map .lexical ++ d.syntactic.map .syntactic

section

variable {d : Diagnostics} {problems problems' : List Problem}

theorem filterMap_lexical?_map (es : List LexicalError) :
    (es.map Problem.lexical).filterMap Problem.lexical? = es := by
  rw [List.filterMap_map]
  exact List.filterMap_some

theorem filterMap_syntactic?_map (es : List SyntaxError) :
    (es.map Problem.syntactic).filterMap Problem.syntactic? = es := by
  rw [List.filterMap_map]
  exact List.filterMap_some

theorem filterMap_lexical?_found : d.found.filterMap Problem.lexical? = d.lexical := by
  have hother : (d.syntactic.map Problem.syntactic).filterMap Problem.lexical? = [] := by
    simp [Problem.lexical?]
  rw [found, List.filterMap_append, filterMap_lexical?_map, hother, List.append_nil]

theorem filterMap_syntactic?_found : d.found.filterMap Problem.syntactic? = d.syntactic := by
  have hother : (d.lexical.map Problem.lexical).filterMap Problem.syntactic? = [] := by
    simp [Problem.syntactic?]
  rw [found, List.filterMap_append, filterMap_syntactic?_map, hother, List.nil_append]

/-! ## At most one list -/

theorem mem_filterMap_lexical? {e : LexicalError} :
    e ∈ problems.filterMap Problem.lexical? ↔ .lexical e ∈ problems := by
  rw [List.mem_filterMap]
  constructor
  · rintro ⟨problem | problem, hmem, hsome⟩
    · exact Option.some.inj hsome ▸ hmem
    · cases hsome
  · exact fun hmem => ⟨_, hmem, rfl⟩

theorem mem_filterMap_syntactic? {e : SyntaxError} :
    e ∈ problems.filterMap Problem.syntactic? ↔ .syntactic e ∈ problems := by
  rw [List.mem_filterMap]
  constructor
  · rintro ⟨problem | problem, hmem, hsome⟩
    · cases hsome
    · exact Option.some.inj hsome ▸ hmem
  · exact fun hmem => ⟨_, hmem, rfl⟩

theorem Lists.mem_iff (h : d.Lists problems) {p : Problem} : p ∈ problems ↔ p ∈ d.found := by
  cases p with
  | lexical e =>
    rw [← mem_filterMap_lexical?, h.lexical, ← filterMap_lexical?_found, mem_filterMap_lexical?]
  | syntactic e =>
    rw [← mem_filterMap_syntactic?, h.syntactic, ← filterMap_syntactic?_found,
      mem_filterMap_syntactic?]

-- Two lists of the same errors do not begin with errors of different stages.
theorem Lists.not_both {e : LexicalError} {e' : SyntaxError}
    (h : d.Lists (.lexical e :: problems)) (h' : d.Lists (.syntactic e' :: problems')) : False := by
  have hbehind : .syntactic e' ∈ problems :=
    (List.mem_cons.mp (h.mem_iff.mpr (h'.mem_iff.mp List.mem_cons_self))).resolve_left nofun
  have hbehind' : .lexical e ∈ problems' :=
    (List.mem_cons.mp (h'.mem_iff.mpr (h.mem_iff.mp List.mem_cons_self))).resolve_left nofun
  have hleads := (List.pairwise_cons.mp h.ordered).1 _ hbehind
  exact hleads.asymm ((List.pairwise_cons.mp h'.ordered).1 _ hbehind')

theorem Lists.head_eq {p q : Problem} (h : d.Lists (p :: problems))
    (h' : d.Lists (q :: problems')) : p = q := by
  cases p with
  | lexical e =>
    cases q with
    | lexical e' => rw [(List.cons.inj (h.lexical.trans h'.lexical.symm)).1]
    | syntactic e' => exact (h.not_both h').elim
  | syntactic e =>
    cases q with
    | lexical e' => exact (h'.not_both h).elim
    | syntactic e' => rw [(List.cons.inj (h.syntactic.trans h'.syntactic.symm)).1]

-- Behind the same first problem the same errors are left.
theorem Lists.tail {p : Problem} (h : d.Lists (p :: problems)) (h' : d.Lists (p :: problems')) :
    ∃ d' : Diagnostics, d'.Lists problems ∧ d'.Lists problems' := by
  have hlexical := h.lexical.trans h'.lexical.symm
  have hsyntactic := h.syntactic.trans h'.syntactic.symm
  refine ⟨⟨_, _⟩, ⟨rfl, rfl, (List.pairwise_cons.mp h.ordered).2⟩,
    ?_, ?_, (List.pairwise_cons.mp h'.ordered).2⟩
  · cases p with
    | lexical e => exact (List.cons.inj hlexical).2.symm
    | syntactic e => exact hlexical.symm
  · cases p with
    | lexical e => exact hsyntactic.symm
    | syntactic e => exact (List.cons.inj hsyntactic).2.symm

/-- There is one list of the errors in reading order, at most. -/
theorem Lists.unique (h : d.Lists problems) (h' : d.Lists problems') : problems = problems' := by
  induction problems generalizing d problems' with
  | nil =>
    symm
    refine List.eq_nil_iff_forall_not_mem.mpr fun q hq => ?_
    exact List.not_mem_nil (h.mem_iff.mpr (h'.mem_iff.mp hq))
  | cons p problems ih =>
    cases problems' with
    | nil => exact absurd (h'.mem_iff.mpr (h.mem_iff.mp List.mem_cons_self)) List.not_mem_nil
    | cons q problems' =>
      obtain rfl := h.head_eq h'
      obtain ⟨d', htail, htail'⟩ := h.tail h'
      rw [ih htail htail']

/-! ## Entries -/

/-- The errors of both stages, sorted by position. -/
def sorted (d : Diagnostics) : List Problem := d.found.mergeSort Problem.notAfter

theorem entries_eq_map_sorted (d : Diagnostics) : d.entries = d.sorted.map Problem.entry := by
  have hfound : d.report.found = d.found.map Problem.entry := by
    simp only [found, report, Report.found, List.map_append, List.map_map]
    rfl
  have hentry : ∀ a ∈ d.found, ∀ b ∈ d.found, a.notAfter b = a.entry.1.notAfter b.entry.1 := by
    intro a _ b _
    cases a <;> cases b <;> rfl
  rw [entries, Report.entries, hfound, sorted]
  exact (List.map_mergeSort (s := fun a b => a.1.notAfter b.1) (f := Problem.entry) hentry).symm

theorem sorted_perm_found : d.sorted.Perm d.found := List.mergeSort_perm _ _

theorem mem_entries {entry : Position × String} :
    entry ∈ d.entries ↔ ∃ p ∈ d.found, p.entry = entry := by
  rw [entries_eq_map_sorted, List.mem_map]
  simp only [sorted_perm_found.mem_iff]

-- What stands in order before sorting stands in this order afterwards.
theorem sublist_sorted {problems : List Problem} (h : problems.Sublist d.found)
    (hordered : problems.Pairwise fun a b => a.notAfter b) : problems.Sublist d.sorted :=
  List.sublist_mergeSort Problem.notAfter_trans Problem.notAfter_total hordered h

-- What is found in order is found in the same order after sorting.
theorem filterMap_sorted {α : Type} {f : Problem → Option α} {problems : List Problem}
    (h : problems.Sublist d.found) (hordered : problems.Pairwise fun a b => a.notAfter b)
    (hall : problems.filterMap f = d.found.filterMap f) :
    d.sorted.filterMap f = d.found.filterMap f := by
  have hsublist : (d.found.filterMap f).Sublist (d.sorted.filterMap f) :=
    hall ▸ (sublist_sorted h hordered).filterMap f
  exact (hsublist.eq_of_length (sorted_perm_found.filterMap f).length_eq.symm).symm

-- In a list without repeats no two elements stand both ways around.
theorem not_sublist_of_nodup {α : Type} {as : List α} (h : as.Nodup) {a b : α}
    (hab : [a, b].Sublist as) : ¬ [b, a].Sublist as := by
  intro hba
  induction as with
  | nil => cases hab
  | cons c as ih =>
    obtain ⟨hc, hnodup⟩ := List.nodup_cons.mp h
    cases hab with
    | cons_cons _ hb =>
      -- The first one would have to come again behind the second one.
      cases hba with
      | cons_cons _ ha => exact hc (ha.subset List.mem_cons_self)
      | cons _ hba => exact hc (hba.subset (List.mem_cons_of_mem b List.mem_cons_self))
    | cons _ hab =>
      cases hba with
      | cons_cons _ _ => exact hc (hab.subset (List.mem_cons_of_mem a List.mem_cons_self))
      | cons _ hba => exact ih hnodup hab hba

variable (hlexical : d.lexical.Pairwise (·.position.Before ·.position))
  (hsyntactic : d.syntactic.Pairwise (·.position.Before ·.position))

include hlexical hsyntactic in
theorem nodup_sorted : d.sorted.Nodup := by
  refine sorted_perm_found.nodup_iff.mpr (List.Nodup.append ?_ ?_ ?_)
  · have hnodup : d.lexical.Nodup := hlexical.imp fun h heq => h.ne (congrArg _ heq)
    exact hnodup.map fun _ _ => Problem.lexical.inj
  · have hnodup : d.syntactic.Nodup := hsyntactic.imp fun h heq => h.ne (congrArg _ heq)
    exact hnodup.map fun _ _ => Problem.syntactic.inj
  · simp [List.disjoint_left]

include hlexical hsyntactic in
/-- Where the errors of either stage stand one behind the other, sorting lists them. -/
theorem lists_sorted : d.Lists d.sorted where
  lexical := by
    have hordered : (d.lexical.map Problem.lexical).Pairwise fun a b => a.notAfter b :=
      List.pairwise_map.mpr (hlexical.imp fun h => h.notAfter)
    have hall := (filterMap_lexical?_map d.lexical).trans filterMap_lexical?_found.symm
    rw [filterMap_sorted (List.sublist_append_left _ _) hordered hall, filterMap_lexical?_found]
  syntactic := by
    have hordered : (d.syntactic.map Problem.syntactic).Pairwise fun a b => a.notAfter b :=
      List.pairwise_map.mpr (hsyntactic.imp fun h => h.notAfter)
    have hall := (filterMap_syntactic?_map d.syntactic).trans filterMap_syntactic?_found.symm
    rw [filterMap_sorted (List.sublist_append_right _ _) hordered hall,
      filterMap_syntactic?_found]
  ordered := by
    have hordered : d.sorted.Pairwise fun a b => a.notAfter b :=
      List.pairwise_mergeSort Problem.notAfter_trans Problem.notAfter_total _
    refine List.pairwise_iff_forall_sublist.mpr fun {a b} hab => ?_
    have hle := List.pairwise_iff_forall_sublist.mp hordered hab
    refine ⟨hle, fun hsame hb => ?_⟩
    cases a with
    | lexical e => rfl
    | syntactic e =>
      cases b with
      | syntactic e' => cases hb
      | lexical e' =>
        -- Before sorting they stand the other way around, and sorting has no reason to turn them.
        have hlater : (Problem.lexical e').notAfter (.syntactic e) := by
          unfold Problem.notAfter
          rw [hsame]
          exact Position.notAfter_refl _
        have hmem : e ∈ d.syntactic := by
          rw [← filterMap_syntactic?_found, mem_filterMap_syntactic?]
          exact sorted_perm_found.subset (hab.subset List.mem_cons_self)
        have hmem' : e' ∈ d.lexical := by
          rw [← filterMap_lexical?_found, mem_filterMap_lexical?]
          exact sorted_perm_found.subset (hab.subset (List.mem_cons_of_mem _ List.mem_cons_self))
        have hfound : [Problem.lexical e', .syntactic e].Sublist d.found :=
          (List.singleton_sublist.mpr (List.mem_map_of_mem hmem')).append
            (List.singleton_sublist.mpr (List.mem_map_of_mem hmem))
        have hsorted := sublist_sorted hfound (List.pairwise_pair.mpr hlater)
        exact absurd hab (not_sublist_of_nodup (nodup_sorted hlexical hsyntactic) hsorted)

end

end Diagnostics

/-! ## Texts -/

-- The errors of a text stand one behind the other.
theorem Lexed.pairwise_errors (p : Position) (text : List Char) :
    (ofChars p text).errors.Pairwise (·.position.Before ·.position) := by
  fun_induction segments text generalizing p with
  | case1 =>
    rw [ofChars_nil]
    exact .nil
  | case2 c rest ih =>
    rw [errors_ofChars_cons]
    cases herror : (Segment.first c rest).1.error? p with
    | none => exact ih _
    | some e =>
      obtain ⟨fault, -, rfl⟩ := Option.map_eq_some_iff.mp herror
      have hfirst := Position.before_past p (Segment.first_text_ne_nil c rest)
      refine List.pairwise_cons.mpr ⟨fun e' he' => ?_, ih _⟩
      exact hfirst.trans_not (before_of_mem_errors _ _ e' he').1

section

variable {source : String} {policy : ErrorPolicy} {d : Diagnostics}

theorem pairwise_lexical_of_parse (h : parse source policy = .error d) :
    d.lexical.Pairwise (·.position.Before ·.position) := by
  rw [(found_of_parse_eq_error h).1]
  exact Lexed.pairwise_errors _ _

theorem pairwise_syntactic_of_parse (h : parse source policy = .error d) :
    d.syntactic.Pairwise (·.position.Before ·.position) := by
  have hrecover {d' : Diagnostics} (h' : parse source .recover = .error d') :
      d'.syntactic.Pairwise (·.position.Before ·.position) := by
    have hsound := sound_source source .recover
    cases hrun : Program.parse ⟨.recover, (sourceStream source).ending⟩
        ⟨(sourceStream source).ahead, []⟩ with
    | mk value final =>
      dsimp only at hsound
      rw [sourceStream] at hrun
      rw [hrun] at hsound
      rw [parse_eq, Outcome.result_ofStream hrun] at h'
      exact (pairwise_and_real_of_error rfl (TokenStream.kind_ending_ofTokens _) hrun hsound h').1
  rcases parse_agrees source with ⟨p, hearly, hfull⟩ | ⟨lexical, es, -, hearly, hfull⟩
  · cases policy with
    | failFast => cases hearly.symm.trans h
    | recover => cases hfull.symm.trans h
  · have hes : es.Pairwise (·.position.Before ·.position) := hrecover hfull
    cases policy with
    | failFast =>
      obtain rfl := Except.error.inj (hearly.symm.trans h)
      exact hes.sublist (List.take_sublist 1 es)
    | recover =>
      obtain rfl := Except.error.inj (hfull.symm.trans h)
      exact hes

end

end MiniJava
