import Mathlib.Algebra.BigOperators.Group.List.Lemmas
import Mathlib.Algebra.GroupWithZero.Nat
import MiniJava.Proofs.Layout
import MiniJava.Proofs.Viewing.Entries
import MiniJava.Proofs.Viewing.Lines

/-!
# Problems — what the viewer says is wrong

The viewer says nothing if the text was read, and otherwise tells of every error of either stage, in
reading order. Each line on which something is wrong is counted with all that is wrong on it
(`Viewer.mem_countByLine`, `Viewer.sum_countByLine`), and the first of these lines is the current
one (`Viewer.currentLine_least`). Neither keys nor renderings change any of it
(`Viewer.run_reports`).
-/

namespace MiniJava

-- Where duplicates are erased, none is left.
theorem nodup_eraseDups {α : Type} [BEq α] [LawfulBEq α] : ∀ as : List α, as.eraseDups.Nodup
  | [] => by simp
  | a :: as => by
    rw [List.eraseDups_cons, List.nodup_cons]
    exact ⟨by simp, nodup_eraseDups _⟩
termination_by as => as.length
decreasing_by exact Nat.lt_succ_of_le (List.length_filter_le _ _)

namespace Viewer

/-! ## Lines -/

section

variable (entries : List (Position × String))

theorem map_fst_countByLine : (countByLine entries).map (·.1) =
    (entries.map (·.1.line)).eraseDups := by
  simp only [countByLine, List.map_map, Function.comp_def, List.map_id']

theorem mem_map_fst_countByLine {line : Nat} :
    line ∈ (countByLine entries).map (·.1) ↔ ∃ entry ∈ entries, entry.1.line = line := by
  rw [map_fst_countByLine, List.mem_eraseDups, List.mem_map]

/-- A line is counted with the entries that lie on it, if there are any. -/
theorem mem_countByLine {line count : Nat} : (line, count) ∈ countByLine entries ↔
    0 < count ∧ entries.countP (·.1.line == line) = count := by
  have hcount : (entries.map (·.1.line)).count line = entries.countP (·.1.line == line) :=
    List.countP_map
  simp only [countByLine, List.mem_map, List.mem_eraseDups, Prod.mk.injEq]
  constructor
  · rintro ⟨_, hmem, rfl, rfl⟩
    exact ⟨List.count_pos_iff.mpr (List.mem_map.mpr hmem), hcount.symm⟩
  · rintro ⟨hpos, rfl⟩
    exact ⟨line, List.mem_map.mp (List.count_pos_iff.mp (hcount ▸ hpos)), rfl, hcount⟩

/-- The counts of all lines add up to the entries. -/
theorem sum_countByLine : ((countByLine entries).map (·.2)).sum = entries.length := by
  have hperm : (entries.map (·.1.line)).eraseDups.Perm (entries.map (·.1.line)).dedup := by
    refine (List.perm_ext_iff_of_nodup (nodup_eraseDups _) (List.nodup_dedup _)).mpr fun line => ?_
    rw [List.mem_eraseDups, List.mem_dedup]
  have hcounts : (countByLine entries).map (·.2) = (entries.map (·.1.line)).eraseDups.map
      fun line => (entries.map (·.1.line)).count line := by
    simp only [countByLine, List.map_map, Function.comp_def]
  rw [hcounts, (hperm.map _).sum_nat, List.sum_map_count_dedup_eq_length, List.length_map]

end

/-! ## The viewer of a text -/

section

variable {source : String} {policy : ErrorPolicy} {d : Diagnostics}

-- A text that was not read has no outline, and entries for all that is wrong with it.
theorem diagnostics_run (h : parse source policy = .error d) (events : List Event) :
    ((ofSource source policy).run events).diagnostics = d.entries := by
  have hviews := views_run source policy events
  rw [h] at hviews
  exact (congrArg Prod.snd hviews).symm

theorem diagnostics_eq_nil_iff (events : List Event) :
    ((ofSource source policy).run events).diagnostics = [] ↔
      ∃ p, parse source policy = .ok p := by
  cases h : parse source policy with
  | ok p =>
    have hviews := views_run source policy events
    rw [h] at hviews
    exact iff_of_true (congrArg Prod.snd hviews).symm ⟨p, rfl⟩
  | error d =>
    rw [diagnostics_run h]
    refine iff_of_false (entries_ne_nil_of_parse h) ?_
    rintro ⟨p, hp⟩
    cases hp

/-- Where anything is wrong, the first line on which it is stays the current one. -/
theorem currentLine_least (events : List Event)
    (hne : ((ofSource source policy).run events).diagnostics ≠ []) :
    (∃ entry ∈ ((ofSource source policy).run events).diagnostics,
      entry.1.line = ((ofSource source policy).run events).currentLine) ∧
    ∀ entry ∈ ((ofSource source policy).run events).diagnostics,
      ((ofSource source policy).run events).currentLine ≤ entry.1.line := by
  have hsound := (sound_ofSource source policy).run events
  have hordered : ((ofSource source policy).run events).diagnostics.Pairwise
      fun a b => a.1.notAfter b.1 := by
    cases h : parse source policy with
    | ok p => exact absurd ((diagnostics_eq_nil_iff events).mpr ⟨p, h⟩) hne
    | error d =>
      rw [diagnostics_run h]
      exact Report.pairwise_entries _
  generalize (ofSource source policy).run events = v at hne hsound hordered ⊢
  rcases currentLine_eq hsound with ⟨r, hr, -⟩ | ⟨first, hfirst, hline⟩
  · rw [hsound.exclusive.mpr hne] at hr
    cases hr
  · obtain ⟨rest, hrest⟩ := List.head?_eq_some_iff.mp hfirst
    rw [hrest] at hordered ⊢
    rw [hline]
    refine ⟨⟨first, List.mem_cons_self, rfl⟩, List.forall_mem_cons.mpr ⟨Nat.le_refl _, ?_⟩⟩
    intro entry hentry
    have hle := (List.pairwise_cons.mp hordered).1 entry hentry
    simp only [Position.notAfter, Bool.or_eq_true, Bool.and_eq_true, decide_eq_true_eq,
      beq_iff_eq] at hle
    omega

end

-- A session that reads a text gives what reading the text gives, and keeps its tokens.
theorem readWithLexical_ofText (source : String) (policy : ErrorPolicy) :
    (((Session.ofText source).withPolicy policy).readWithLexical).1 = parse source policy ∧
      (((Session.ofText source).withPolicy policy).readWithLexical).2.tokens =
        (tokenize source).tokens := by
  have hclosed : ((Session.ofText source).withPolicy policy).tokens = (tokenize source).tokens :=
    Session.closed_tokenize source
  refine ⟨?_, hclosed⟩
  show withLexical _ (Outcome.ofStream policy (TokenStream.ofTokens _)).result = _
  rw [hclosed]
  rfl

/-- Whatever keys and renderings come, the viewer reports what was wrong with its text. It has no
entries exactly if the text was read. Otherwise the entries are the one list of all errors of both
stages in reading order, in full; those of a stage are in the order in which they were found, and at
one position lexical errors come first. Each line is counted once, with the entries that lie on it,
if there are any, and all counts add up to the entries. The current line is then the first on which
an entry lies. The tokens are those of the text, as the session that read it holds them. -/
theorem run_reports (source : String) (policy : ErrorPolicy) (events : List Event) :
    let v := (ofSource source policy).run events
    let reading := ((Session.ofText source).withPolicy policy).readWithLexical
    (v.diagnostics = [] ↔ ∃ p, parse source policy = .ok p) ∧
      (∀ d, parse source policy = .error d → ∀ entries, entries = v.diagnostics ↔
        ∃ problems, d.Lists problems ∧ entries = problems.map Problem.entry) ∧
      (∀ line count, (line, count) ∈ v.problemLines ↔
        0 < count ∧ v.diagnostics.countP (·.1.line == line) = count) ∧
      (v.problemLines.map (·.1)).Nodup ∧
      (v.problemLines.map (·.2)).sum = v.diagnostics.length ∧
      (v.diagnostics ≠ [] → (∃ entry ∈ v.diagnostics, entry.1.line = v.currentLine) ∧
        ∀ entry ∈ v.diagnostics, v.currentLine ≤ entry.1.line) ∧
      v.tokens = (tokenize source).tokens ∧ reading.1 = parse source policy ∧
      reading.2.tokens = v.tokens := by
  intro v reading
  obtain ⟨hread, htokens⟩ := readWithLexical_ofText source policy
  have hshown : v.tokens = (tokenize source).tokens := (continues_run _ events).tokens
  refine ⟨diagnostics_eq_nil_iff events, fun d hd entries => ?_,
    fun line count => mem_countByLine v.diagnostics, ?_, sum_countByLine v.diagnostics,
    currentLine_least events, hshown, hread, htokens.trans hshown.symm⟩
  · have hlists : d.Lists d.sorted :=
      d.lists_sorted (pairwise_lexical_of_parse hd) (pairwise_syntactic_of_parse hd)
    have hentries : v.diagnostics = d.sorted.map Problem.entry :=
      (diagnostics_run hd events).trans d.entries_eq_map_sorted
    rw [hentries]
    constructor
    · rintro rfl
      exact ⟨_, hlists, rfl⟩
    · rintro ⟨problems, hproblems, rfl⟩
      rw [hproblems.unique hlists]
  · rw [problemLines, map_fst_countByLine]
    exact nodup_eraseDups _

-- A stray character where a semicolon is missing, in a class that is not closed.
def strayedSource : String := "class M \x7b public static void main() \x7b\n x = 1 # 2; \x7d\n\n"

/-- Both stages find fault with the stray character, and a third error lies two lines further down;
nothing is wrong before the line of the stray character. -/
theorem run_reports_of_strayed :
    let v := (ofSource strayedSource .recover).run [.press .down, .render 20 10]
    ∃ d, parse strayedSource .recover = .error d ∧ d.lexical.map (·.position) = [⟨2, 8⟩] ∧
      d.syntactic.map (·.position) = [⟨2, 8⟩, ⟨4, 1⟩] ∧
      (∃ problems, d.Lists problems ∧ v.diagnostics = problems.map Problem.entry) ∧
      v.diagnostics ≠ [] ∧ ∀ entry ∈ v.diagnostics, v.currentLine ≤ entry.1.line := by
  intro v
  have hfaults : (Diagnostics.ofResult? (parse strayedSource .recover)).map (fun d =>
      (d.lexical.map (·.position), d.syntactic.map (·.position))) =
      some ([⟨2, 8⟩], [⟨2, 8⟩, ⟨4, 1⟩]) := by decide +kernel
  obtain ⟨d, hsome, hpositions⟩ := Option.map_eq_some_iff.mp hfaults
  obtain ⟨hlexical, hsyntactic⟩ := Prod.mk.inj hpositions
  have hd := Diagnostics.eq_error_of_ofResult? hsome
  obtain ⟨hnone, hlisted, -, -, -, hleast, -⟩ :=
    run_reports strayedSource .recover [.press .down, .render 20 10]
  have hne : v.diagnostics ≠ [] := by
    intro hnil
    obtain ⟨p, hp⟩ := hnone.mp hnil
    cases hd.symm.trans hp
  exact ⟨d, hd, hlexical, hsyntactic, (hlisted d hd _).mp rfl, hne, (hleast hne).2⟩

end Viewer

end MiniJava
