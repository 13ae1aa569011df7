import MiniJava.Proofs.Acceptance
import MiniJava.Proofs.Printed.Legible
import MiniJava.Proofs.Printed.Program
import MiniJava.Proofs.Printing.Text

/-!
# Round trips — reading what was printed

Printing a legible program whose assignments and calls begin with names is undone by reading, up to
the nesting limit: the text has no lexical errors, and it is read as a program of the same shape
unless it opens more than `maxNesting` levels.

A program that was read is legible, but its printed text need not be readable. An assignment to an
operation is printed with a parenthesis first, which no statement begins with, and a chain of
operators that opened no level in the source opens one for each operator when it is printed. These
are the only two reasons.
-/

namespace MiniJava

-- The spelling of what was read without lexical errors.
theorem allSpelled_ahead {source : String} (h : (tokenize source).errors = []) :
    AllSpelled (TokenStream.ofTokens (tokenize source).tokens).ahead := by
  have hlexes := (lexesTo_iff source _).mpr ⟨h, rfl⟩
  exact fun t ht => hlexes.forall_spelled _ (List.mem_map_of_mem ht)

-- A program that was read is legible.
theorem legible_of_parse {source : String} {p : Program} (h : parse source .failFast = .ok p) :
    p.Legible := by
  obtain ⟨hlexical, d, htokens, hregular, -, rfl⟩ := (parse_eq_ok_iff source p).mp h
  -- The parser attaches every `else` to the nearest `if`.
  refine d.legible ?_ (hregular.imp fun _ hx => hx.1.2)
  rw [htokens]
  exact allSpelled_ahead hlexical

variable {p : Program}

-- The text of a legible program has no lexical errors, and its tokens are derived.
theorem exists_printed_print (hp : p.Legible) :
    (tokenize p.print).errors = [] ∧
      ∃ x, p.Printed (TokenStream.ofTokens (tokenize p.print).tokens).ahead x := by
  obtain ⟨hlexical, hlexemes⟩ := (lexesTo_iff p.print p.lexemes).mp (Program.lexesTo_print hp)
  exact ⟨hlexical, Program.exists_printed hp hlexemes⟩

-- A printed program whose statements begin with names is read within the limit.
theorem exists_parse_print (hp : p.Legible) (hnames : p.BeginsWithNames)
    (hwithin : p.PrintsWithin maxNesting) :
    ∃ q, parse p.print .failFast = .ok q ∧ q.erase = p.erase := by
  obtain ⟨hlexical, x, hx⟩ := exists_printed_print hp
  have hregular : x.Every (·.Regular) := hx.settled.and (hx.names.mpr hnames)
  refine ⟨x.tree, (parse_eq_ok_iff p.print x.tree).mpr ⟨hlexical, x, hx.tokens, hregular, ?_, rfl⟩,
    hx.shape⟩
  exact (hx.within_iff _).mpr hwithin

-- A printed program whose statements begin with names gives one error beyond the limit.
theorem exists_parse_print_tooDeep (hp : p.Legible) (hnames : p.BeginsWithNames)
    (hbeyond : ¬ p.PrintsWithin maxNesting) :
    ∃ e, parse p.print .failFast = .error ⟨[], [e]⟩ ∧ e.fault = .tooDeep := by
  obtain ⟨hlexical, x, hx⟩ := exists_printed_print hp
  have hregular : x.Every (·.Regular) := hx.settled.and (hx.names.mpr hnames)
  obtain ⟨e, hresult, hfault⟩ := Outcome.ofStream_of_not_within
    (TokenStream.kind_ending_ofTokens _) hx.tokens hregular ((hx.within_iff _).not.mpr hbeyond)
  refine ⟨e, ?_, hfault⟩
  rw [parse_eq, hresult, withLexical, hlexical]

-- A printed program that is read begins its statements with names and stays within the limit.
theorem of_parse_print (hp : p.Legible) {q : Program} (hq : parse p.print .failFast = .ok q) :
    p.BeginsWithNames ∧ p.PrintsWithin maxNesting := by
  obtain ⟨-, x, hx⟩ := exists_printed_print hp
  obtain ⟨-, d, htokens, hregular, hwithin, -⟩ := (parse_eq_ok_iff p.print q).mp hq
  -- There is one settled derivation, so that what is read is what was printed.
  obtain rfl : d = x := ProgramPhrase.unique (hregular.imp fun _ h => h.1) hx.settled
    (htokens.trans hx.tokens.symm)
  exact ⟨hx.names.mp (hregular.imp fun _ h => h.2), (hx.within_iff _).mp hwithin⟩

/-- The text of a legible program whose statements begin with names has no lexical errors. It is
read as a program of the same shape within the limit, and gives one error beyond it, which says
so. -/
theorem parse_print_of_legible (hp : p.Legible) (hnames : p.BeginsWithNames) :
    (tokenize p.print).errors = [] ∧
      ((p.PrintsWithin maxNesting ∧ ∃ q, parse p.print .failFast = .ok q ∧ q.erase = p.erase) ∨
        (¬ p.PrintsWithin maxNesting ∧
          ∃ e, parse p.print .failFast = .error ⟨[], [e]⟩ ∧ e.fault = .tooDeep)) := by
  refine ⟨(exists_printed_print hp).1, ?_⟩
  by_cases hwithin : p.PrintsWithin maxNesting
  · exact .inl ⟨hwithin, exists_parse_print hp hnames hwithin⟩
  · exact .inr ⟨hwithin, exists_parse_print_tooDeep hp hnames hwithin⟩

/-- A main class around one statement, with the places it has on the first line of a text. -/
def Program.around (s : Statement) : Program :=
  ⟨⟨⟨.identifier, "M", ⟨1, 7⟩⟩, ⟨⟨⟨.voidWord, "void", ⟨1, 25⟩⟩, false⟩,
    ⟨.identifier, "main", ⟨1, 30⟩⟩, [], [s]⟩⟩, []⟩

/-- The assignment of a negated call, which is printed as `a = (!(b.f()));`. -/
def Statement.negatedCall : Statement :=
  .assignment (.identifier ⟨.identifier, "a", .start⟩)
    (.unary ⟨.not, "!", .start⟩
      (.call (.identifier ⟨.identifier, "b", .start⟩) ⟨.identifier, "f", .start⟩ []))
    .start

/-- A tree that was not read from a text is read when it is printed. -/
theorem parse_print_of_negatedCall :
    (tokenize (Program.around .negatedCall).print).errors = [] ∧
      ∃ q, parse (Program.around .negatedCall).print .failFast = .ok q ∧
        q.erase = (Program.around .negatedCall).erase := by
  have hname (w : String) (p : Position) (hw : w ∈ ["M", "main", "a", "b", "f"]) :
      Token.IsA [.identifier] ⟨.identifier, w, p⟩ := by
    have hlegal : ∀ w ∈ ["M", "main", "a", "b", "f"],
        Segment.isLegalName w.toList = true ∧ TokenKind.ofWord? w = none := by decide +kernel
    exact ⟨List.mem_singleton_self _, hlegal w hw⟩
  have hnegation : (Expr.unary ⟨.not, "!", .start⟩
      (.call (.identifier ⟨.identifier, "b", .start⟩) ⟨.identifier, "f", .start⟩ [])).Legible :=
    ⟨⟨List.mem_singleton_self _, rfl⟩, hname "b" _ (by simp), hname "f" _ (by simp), trivial⟩
  have hmethod : (Program.around .negatedCall).mainClass.mainMethod.Legible :=
    ⟨⟨by decide, rfl⟩, hname "main" _ (by simp), List.forall_mem_nil _,
      ⟨hname "a" _ (by simp), hnegation⟩, trivial⟩
  have hlegible : (Program.around .negatedCall).Legible :=
    ⟨⟨hname "M" _ (by simp), rfl, hmethod⟩, List.forall_mem_nil _⟩
  have hwithin : (Program.around .negatedCall).PrintsWithin maxNesting := by
    unfold Program.PrintsWithin
    decide
  have hnames : (Program.around .negatedCall).BeginsWithNames :=
    List.forall_mem_singleton.mpr ⟨rfl, trivial⟩
  obtain ⟨hlexical, hread | hbeyond⟩ := parse_print_of_legible hlegible hnames
  · exact ⟨hlexical, hread.2⟩
  · exact absurd hwithin hbeyond.1

/-- A program that was read is read again when it is printed, as one of the same shape that is
printed alike, exactly if its statements begin with names and its text stays within the limit. -/
theorem parse_print_of_parse {source : String} (h : parse source .failFast = .ok p) :
    (∃ q, parse p.print .failFast = .ok q ∧ q.erase = p.erase ∧ q.print = p.print) ↔
      p.BeginsWithNames ∧ p.PrintsWithin maxNesting := by
  have hp := legible_of_parse h
  constructor
  · rintro ⟨q, hq, -⟩
    exact of_parse_print hp hq
  · rintro ⟨hnames, hwithin⟩
    obtain ⟨q, hq, hshape⟩ := exists_parse_print hp hnames hwithin
    exact ⟨q, hq, hshape, Program.print_eq_of_erase_eq hshape⟩

/-- The assignment of a sum, which is printed as `a = (b + 3);`. -/
def Statement.sum : Statement :=
  .assignment (.identifier ⟨.identifier, "a", ⟨1, 39⟩⟩)
    (.binary (.identifier ⟨.identifier, "b", ⟨1, 43⟩⟩) ⟨.add, "+", ⟨1, 45⟩⟩
      (.intLiteral ⟨.intLiteral, "3", ⟨1, 47⟩⟩))
    ⟨1, 39⟩

/-- A text with the assignment of a sum is read again when it is printed. -/
theorem parse_print_of_sum :
    parse "class M \x7b public static void main() \x7b a = b + 3; \x7d \x7d" .failFast =
        .ok (.around .sum) ∧
      ∃ q, parse (Program.around .sum).print .failFast = .ok q ∧
        q.erase = (Program.around .sum).erase ∧ q.print = (Program.around .sum).print := by
  have hread : parse "class M \x7b public static void main() \x7b a = b + 3; \x7d \x7d" .failFast =
      .ok (.around .sum) := by decide +kernel
  have hwithin : (Program.around .sum).PrintsWithin maxNesting := by
    unfold Program.PrintsWithin
    decide
  have hnames : (Program.around .sum).BeginsWithNames :=
    List.forall_mem_singleton.mpr ⟨rfl, trivial⟩
  exact ⟨hread, (parse_print_of_parse hread).mpr ⟨hnames, hwithin⟩⟩

/-- The assignment to a sum, which is printed as `(a + b) = 3;`. -/
def Statement.assignmentToSum : Statement :=
  .assignment
    (.binary (.identifier ⟨.identifier, "a", ⟨1, 39⟩⟩) ⟨.add, "+", ⟨1, 41⟩⟩
      (.identifier ⟨.identifier, "b", ⟨1, 43⟩⟩))
    (.intLiteral ⟨.intLiteral, "3", ⟨1, 47⟩⟩) ⟨1, 39⟩

/-- A text with an assignment to a sum is read, but not what it is printed as. -/
theorem not_parse_print_of_parse :
    parse "class M \x7b public static void main() \x7b a + b = 3; \x7d \x7d" .failFast =
        .ok (.around .assignmentToSum) ∧
      ¬ ∃ q, parse (Program.around .assignmentToSum).print .failFast = .ok q := by
  constructor
  · decide +kernel
  · rintro ⟨q, hq⟩
    -- The printed statement begins with a parenthesis.
    have hfails : (parse (Program.around .assignmentToSum).print .failFast).isOk = false := by
      decide +kernel
    rw [hq] at hfails
    cases hfails

end MiniJava
