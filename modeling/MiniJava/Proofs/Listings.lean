import MiniJava.CommandLine
import MiniJava.Proofs.Recovery.Order
import MiniJava.Proofs.Tiling.Faults

/-!
# Listings — what a run prints

A run prints its outputs line by line: no token and no message has a newline of its own, because a
listing escapes the text of its token and no token reaches past the end of its line. What the lines
are, and when the run succeeds, is told by the tokens, the lexical errors and the outcome of reading
the text (`Options.run_lists`).

Recovering from errors may only put more lines into the second output. The flag that asks for it may
stand anywhere before a `--`.
-/

namespace MiniJava

/-! ## Lines -/

/-- The text stays on one line. -/
def OneLine (s : String) : Prop := '\n' ∉ s.toList

instance (s : String) : Decidable (OneLine s) := inferInstanceAs (Decidable (_ ∉ _))

/-- The text is made up of these lines, with a newline behind each. -/
def HasLines (text : String) (lines : List String) : Prop :=
  text = CommandLine.unlines lines ∧ ∀ line ∈ lines, OneLine line

theorem oneLine_append {s t : String} : OneLine (s ++ t) ↔ OneLine s ∧ OneLine t := by
  simp [OneLine]

theorem oneLine_ofList {cs : List Char} : OneLine (String.ofList cs) ↔ '\n' ∉ cs := by
  rw [OneLine, String.toList_ofList]

theorem oneLine_singleton {c : Char} : OneLine (String.singleton c) ↔ c ≠ '\n' := by
  simp [OneLine, eq_comm]

theorem oneLine_join {texts : List String} (h : ∀ t ∈ texts, OneLine t) :
    OneLine (String.join texts) := by
  induction texts with
  | nil => decide
  | cons t texts ih =>
    obtain ⟨ht, htexts⟩ := List.forall_mem_cons.mp h
    rw [String.join_cons]
    exact oneLine_append.mpr ⟨ht, ih htexts⟩

theorem oneLine_intercalate {separator : String} (hseparator : OneLine separator)
    {texts : List String} (h : ∀ t ∈ texts, OneLine t) :
    OneLine (separator.intercalate texts) := by
  induction texts with
  | nil => exact oneLine_ofList.mpr List.not_mem_nil
  | cons t texts ih =>
    obtain ⟨ht, htexts⟩ := List.forall_mem_cons.mp h
    cases texts with
    | nil => rwa [String.intercalate_singleton]
    | cons u texts =>
      rw [String.intercalate_cons_cons]
      exact oneLine_append.mpr ⟨oneLine_append.mpr ⟨ht, hseparator⟩, ih htexts⟩

/-! ## Numbers and escapes -/

theorem digitChar_ne_newline : ∀ n < 16, Nat.digitChar n ≠ '\n' := by decide

-- The digits of a number, last one first, are no newlines.
theorem newline_notMem_toDigits {base : Nat} (hbase : 1 < base) (hle : base ≤ 16) (n : Nat) :
    '\n' ∉ Nat.toDigits base n := by
  induction n using Nat.strongRecOn with
  | ind n ih =>
    rw [Nat.toDigits_eq_if hbase]
    split
    · rename_i hlt
      rw [List.mem_singleton]
      exact (digitChar_ne_newline n (by omega)).symm
    · have hlt : n / base < n := Nat.div_lt_self (by omega) hbase
      have hmod : n % base < base := Nat.mod_lt n (by omega)
      rw [List.mem_append, List.mem_singleton, not_or]
      exact ⟨ih _ hlt, (digitChar_ne_newline _ (by omega)).symm⟩

theorem oneLine_toString_nat (n : Nat) : OneLine (toString n) := by
  rw [Nat.toString_eq_ofList_toDigits, oneLine_ofList]
  exact newline_notMem_toDigits (by decide) (by decide) n

namespace Text

theorem oneLine_escapeWith (isQuote : Char → Bool) (c : Char) :
    OneLine (escapeWith isQuote c) := by
  unfold escapeWith
  split
  case h_6 _ _ _ hc _ =>
    split
    · exact oneLine_append.mpr ⟨by decide, oneLine_singleton.mpr hc⟩
    · split
      · exact oneLine_singleton.mpr hc
      · refine oneLine_append.mpr ⟨oneLine_append.mpr ⟨by decide, ?_⟩, by decide⟩
        exact oneLine_ofList.mpr (newline_notMem_toDigits (by decide) (by decide) _)
  all_goals decide

theorem oneLine_quoted (s : String) : OneLine (quoted s) := by
  refine oneLine_append.mpr ⟨oneLine_append.mpr ⟨by decide, oneLine_join fun t ht => ?_⟩, by decide⟩
  obtain ⟨c, -, rfl⟩ := List.mem_map.mp ht
  exact oneLine_escapeWith _ c

end Text

/-! ## Messages -/

theorem TokenKind.oneLine_describe (kind : TokenKind) : OneLine kind.describe := by
  cases kind <;> decide

theorem oneLine_describeKinds (kinds : List TokenKind) : OneLine (describeKinds kinds) := by
  unfold describeKinds
  split
  · decide
  · exact TokenKind.oneLine_describe _
  · refine oneLine_append.mpr ⟨oneLine_append.mpr ⟨?_, by decide⟩, ?_⟩
    · refine oneLine_intercalate (by decide) fun t ht => ?_
      obtain ⟨kind, -, rfl⟩ := List.mem_map.mp ht
      exact kind.oneLine_describe
    · cases kinds.getLast? with
      | none => decide
      | some kind => exact kind.oneLine_describe

theorem Notice.oneLine_rendered {stage : String} {n : Notice} (hstage : OneLine stage)
    (h : OneLine n.message) : OneLine (n.rendered stage) := by
  simp only [Notice.rendered, oneLine_append]
  exact ⟨⟨⟨⟨⟨⟨hstage, by decide⟩, oneLine_toString_nat _⟩, by decide⟩, oneLine_toString_nat _⟩,
    by decide⟩, h⟩

namespace Token

variable {t : Token}

-- A listing is one line, whatever the text of the token is.
theorem oneLine_listing (t : Token) : OneLine t.listing := by
  have hname : OneLine t.kind.name := by cases t.kind <;> decide
  simp only [listing, oneLine_append]
  exact ⟨⟨⟨⟨⟨⟨oneLine_toString_nat _, by decide⟩, oneLine_toString_nat _⟩, by decide⟩, hname⟩,
    by decide⟩, Text.oneLine_quoted _⟩

theorem oneLine_describe (h : OneLine t.text) : OneLine t.describe := by
  unfold describe
  split
  · exact oneLine_append.mpr ⟨oneLine_append.mpr ⟨by decide, h⟩, by decide⟩
  · exact oneLine_append.mpr ⟨by decide, h⟩
  · exact oneLine_append.mpr ⟨by decide, h⟩
  · exact TokenKind.oneLine_describe _

end Token

theorem SyntaxFault.oneLine_message {found : Token} (h : OneLine found.text) (fault : SyntaxFault) :
    OneLine (fault.message found) := by
  have hfound := Token.oneLine_describe h
  cases fault with
  | unexpected kinds =>
    refine oneLine_append.mpr ⟨oneLine_append.mpr ⟨oneLine_append.mpr ⟨?_, ?_⟩, ?_⟩, hfound⟩
    · decide
    · exact oneLine_describeKinds kinds
    · decide
  | invalidStatement => exact oneLine_append.mpr ⟨by decide, hfound⟩
  | tooDeep =>
    refine oneLine_append.mpr ⟨oneLine_append.mpr ⟨oneLine_append.mpr ⟨?_, ?_⟩, ?_⟩, hfound⟩
    · decide
    · exact oneLine_toString_nat maxNesting
    · decide

theorem SyntaxError.oneLine_rendered {e : SyntaxError} (h : OneLine e.found.text) :
    OneLine e.rendered :=
  Notice.oneLine_rendered (by decide) (e.fault.oneLine_message h)

/-! ## The tokens and the errors of a source -/

section Sources

variable {source : String}

theorem oneLine_text_of_mem_tokenize {t : Token} (ht : t ∈ (tokenize source).tokens) :
    OneLine t.text := by
  obtain ⟨front, htokens, htiled⟩ := exists_tiled_tokenize source
  rw [htokens] at ht
  rcases List.mem_append.mp ht with ht | ht
  · -- No blank is part of a token.
    exact fun hmem => absurd ((htiled.isLexeme t ht).not_gap _ hmem) (by decide)
  · rw [List.mem_singleton.mp ht]
    exact List.not_mem_nil

-- What is wrong with a token on one line is said on one line.
theorem Token.oneLine_lexicalError {t : Token} {e : LexicalError} (ht : OneLine t.text)
    (h : t.lexicalError? = some e) : OneLine e.rendered := by
  obtain ⟨fault, hfault, rfl⟩ := Option.map_eq_some_iff.mp h
  refine Notice.oneLine_rendered (by decide) ?_
  show OneLine fault.message
  by_cases hkind : t.kind = .identifier
  · generalize htext : t.text.toList = chars at hfault
    rw [hkind] at hfault
    cases chars with
    | nil => cases hfault
    | cons c cs =>
      rw [lexicalFault?] at hfault
      split at hfault
      · split at hfault
        · cases hfault
        · obtain rfl := Option.some.inj hfault
          rw [← htext, String.ofList_toList]
          exact oneLine_append.mpr ⟨by decide, ht⟩
      · split at hfault
        · rename_i hpair
          obtain rfl := Option.some.inj hfault
          rcases hpair with rfl | rfl <;> decide
        · obtain rfl := Option.some.inj hfault
          refine oneLine_append.mpr ⟨oneLine_append.mpr ⟨by decide, ?_⟩, by decide⟩
          exact Text.oneLine_escapeWith _ c
  · rw [lexicalFault?_of_ne hkind] at hfault
    cases hfault

theorem oneLine_of_mem_errors {e : LexicalError} (he : e ∈ (tokenize source).errors) :
    OneLine e.rendered := by
  obtain ⟨front, htokens, htiled⟩ := exists_tiled_tokenize source
  obtain ⟨read, tail, -, -, hlast, herrors⟩ := htiled.errors
  rw [show (tokenize source).errors = _ from herrors] at he
  rcases List.mem_append.mp he with hfront | htail
  · obtain ⟨t, ht, hsome⟩ := List.mem_filterMap.mp hfront
    have hmem : t ∈ (tokenize source).tokens := htokens ▸ List.mem_append_left _ ht
    exact t.oneLine_lexicalError (oneLine_text_of_mem_tokenize hmem) hsome
  · -- Only a comment that is left open is an error behind the last token.
    obtain ⟨gap, rest, hstripped⟩ := exists_stripped hlast
    rw [hstripped.errors hlast] at htail
    split at htail
    · rw [List.mem_singleton.mp htail]
      have hmessage : OneLine LexicalFault.unterminatedComment.message := by decide
      exact Notice.oneLine_rendered (by decide) hmessage
    · cases htail

-- What is reported are the lexical errors, and syntax errors at tokens of the source.
theorem found_of_parse_eq_error {policy : ErrorPolicy} {d : Diagnostics}
    (h : parse source policy = .error d) : d.lexical = (tokenize source).errors ∧
      ∀ e ∈ d.syntactic, e.found ∈ (tokenize source).tokens := by
  have hsound := sound_source source policy
  rw [parse_eq] at h
  constructor
  · unfold withLexical at h
    split at h
    · split at h
      · cases h
      · cases h
        rfl
    · cases h
      rfl
  · cases hrun : Program.parse ⟨policy, (TokenStream.ofTokens (tokenize source).tokens).ending⟩
        ⟨(TokenStream.ofTokens (tokenize source).tokens).ahead, []⟩ with
    | mk value final =>
      dsimp only at hsound
      rw [hrun] at hsound
      rw [Outcome.result_ofStream hrun] at h
      have hrecorded : ∀ e ∈ recordedErrors final.recoveries,
          e.found ∈ (tokenize source).tokens := by
        intro e he
        obtain ⟨r, hr, rfl⟩ := exists_of_mem_recordedErrors he
        exact (hsound.settled.real r hr).1
      rcases errors_of_withLexical_eq_error h with hnil | hsyntactic | ⟨e, rfl, hsyntactic⟩
      · rw [hnil]
        exact List.forall_mem_nil _
      · rw [hsyntactic]
        exact hrecorded
      · rw [hsyntactic]
        refine List.forall_mem_append.mpr ⟨hrecorded, List.forall_mem_singleton.mpr ?_⟩
        rw [(hsound.found e rfl).1]
        exact hsound.settled.next_mem

-- Every entry of a report is one line.
theorem oneLine_of_mem_entries {policy : ErrorPolicy} {d : Diagnostics}
    (h : parse source policy = .error d) : ∀ entry ∈ d.entries, OneLine entry.2 := by
  intro entry hentry
  obtain ⟨hlexical, hsyntactic⟩ := found_of_parse_eq_error h
  rcases List.mem_append.mp ((Report.entries_perm_found d.report).mem_iff.mp hentry) with he | he
  · obtain ⟨n, hn, rfl⟩ := List.mem_map.mp he
    obtain ⟨e, hmem, rfl⟩ := List.mem_map.mp hn
    rw [hlexical] at hmem
    exact oneLine_of_mem_errors hmem
  · obtain ⟨n, hn, rfl⟩ := List.mem_map.mp he
    obtain ⟨e, hmem, rfl⟩ := List.mem_map.mp hn
    exact SyntaxError.oneLine_rendered (oneLine_text_of_mem_tokenize (hsyntactic e hmem))

end Sources

namespace CommandLine

/-! ## The flag for recovering -/

namespace Reading

variable {r r' : Reading} {o : Options} {arg : String}

-- An argument that is taken without asking for recovering is taken as well when it was asked for.
theorem takeFile_recover (h : r.takeFile arg = some r') : r'.recover = r.recover ∧
    { r with recover := true }.takeFile arg = some { r' with recover := true } := by
  unfold takeFile at h ⊢
  split at h
  · cases h
  · rename_i hfree
    cases h
    exact ⟨rfl, if_neg hfree⟩

theorem takeFlag_recover (h : r.takeFlag arg = some r') (hoff : r'.recover = false) :
    r.recover = false ∧
      { r with recover := true }.takeFlag arg = some { r' with recover := true } := by
  unfold takeFlag at h ⊢
  split at h
  case h_4 => cases h
  all_goals
    split at h
    · cases h
    · rename_i hfree
      cases h
      first
        | exact ⟨hoff, if_neg hfree⟩
        | cases hoff

theorem finish_recover (h : r.finish = .run o) (hoff : o.recover = false) :
    r.recover = false ∧
      { r with recover := true }.finish = .run { o with recover := true } := by
  unfold finish at h ⊢
  cases hfile : r.file? with
  | none =>
    rw [hfile] at h
    cases h
  | some file =>
    rw [hfile] at h
    cases h
    exact ⟨hoff, rfl⟩

theorem readFiles_recover {args : List String} (h : r.readFiles args = .run o)
    (hoff : o.recover = false) : r.recover = false ∧
      { r with recover := true }.readFiles args = .run { o with recover := true } := by
  induction args generalizing r with
  | nil => exact finish_recover h hoff
  | cons arg args ih =>
    rw [readFiles] at h ⊢
    split at h
    · rename_i r' htake
      obtain ⟨hrest, hread⟩ := ih h
      obtain ⟨hsame, htaken⟩ := takeFile_recover htake
      rw [htaken]
      exact ⟨hsame ▸ hrest, hread⟩
    · cases h

-- The rest of the arguments is read in the same way behind the flag.
theorem read_recover {args : List String} (h : r.read args = .run o) (hoff : o.recover = false) :
    r.recover = false ∧
      { r with recover := true }.read args = .run { o with recover := true } := by
  induction args generalizing r with
  | nil => exact finish_recover h hoff
  | cons arg args ih =>
    rw [read] at h ⊢
    split at h
    · rename_i hfiles
      rw [if_pos hfiles]
      exact readFiles_recover h hoff
    · rename_i hfiles
      rw [if_neg hfiles]
      split at h
      · cases h
      · rename_i hhelp
        rw [if_neg hhelp]
        split at h
        · cases h
        · rename_i hversion
          rw [if_neg hversion]
          split at h
          · rename_i r' htake
            obtain ⟨hrest, hread⟩ := ih h
            split at htake
            · rename_i hflag
              obtain ⟨hfirst, htaken⟩ := takeFlag_recover htake hrest
              rw [if_pos hflag, htaken]
              exact ⟨hfirst, hread⟩
            · rename_i hflag
              obtain ⟨hsame, htaken⟩ := takeFile_recover htake
              rw [if_neg hflag, htaken]
              exact ⟨hsame ▸ hrest, hread⟩
          · cases h

-- The flag may stand anywhere before a `--`.
theorem read_insert_recover {front back : List String} (hfront : "--" ∉ front)
    (h : r.read (front ++ back) = .run o) (hoff : o.recover = false) :
    r.read (front ++ "--recover" :: back) = .run { o with recover := true } := by
  induction front generalizing r with
  | nil =>
    obtain ⟨hfirst, hread⟩ := read_recover h hoff
    have hflag : r.takeFlag "--recover" = some { r with recover := true } := by
      simp [takeFlag, hfirst]
    rw [List.nil_append, read, if_neg (by simp), if_neg (by simp), if_neg (by simp),
      if_pos (by simp), hflag]
    exact hread
  | cons arg front ih =>
    rw [List.mem_cons, not_or] at hfront
    rw [List.cons_append, read] at h ⊢
    rw [if_neg (Ne.symm hfront.1)] at h ⊢
    split at h
    · cases h
    · rename_i hhelp
      rw [if_neg hhelp]
      split at h
      · cases h
      · rename_i hversion
        rw [if_neg hversion]
        split at h
        · exact ih hfront.2 h
        · cases h

end Reading

/-! ## Runs -/

theorem unlines_append (front back : List String) :
    unlines (front ++ back) = unlines front ++ unlines back := by
  simp [unlines, String.join_append]

theorem hasLines_append {s t : String} {front back : List String} (hs : HasLines s front)
    (ht : HasLines t back) : HasLines (s ++ t) (front ++ back) :=
  ⟨by rw [unlines_append, ← hs.1, ← ht.1], List.forall_mem_append.mpr ⟨hs.2, ht.2⟩⟩

theorem hasLines_nil : HasLines "" [] := ⟨rfl, List.forall_mem_nil _⟩

section Runs

variable {source : String}

theorem hasLines_tokenListing (source : String) :
    HasLines (tokenListing source).stdout ((tokenize source).tokens.map Token.listing) ∧
      HasLines (tokenListing source).stderr
        ((tokenize source).errors.map LexicalError.rendered) := by
  refine ⟨⟨rfl, fun line hline => ?_⟩, ⟨rfl, fun line hline => ?_⟩⟩
  · obtain ⟨t, -, rfl⟩ := List.mem_map.mp hline
    exact t.oneLine_listing
  · obtain ⟨e, he, rfl⟩ := List.mem_map.mp hline
    exact oneLine_of_mem_errors he

theorem programListing_of_ok {policy : ErrorPolicy} {p : Program}
    (h : parse source policy = .ok p) : programListing source policy = ⟨p.print, "", true⟩ := by
  unfold programListing
  rw [h]

theorem programListing_of_error {policy : ErrorPolicy} {d : Diagnostics}
    (h : parse source policy = .error d) :
    programListing source policy = ⟨"", unlines (d.entries.map (·.2)), false⟩ := by
  unfold programListing
  rw [h]

theorem hasLines_entries {policy : ErrorPolicy} {d : Diagnostics}
    (h : parse source policy = .error d) :
    HasLines (unlines (d.entries.map (·.2))) (d.entries.map (·.2)) := by
  refine ⟨rfl, fun line hline => ?_⟩
  obtain ⟨entry, hentry, rfl⟩ := List.mem_map.mp hline
  exact oneLine_of_mem_entries h entry hentry

-- A listing of the program succeeds exactly if there is a program.
theorem programListing_success {policy : ErrorPolicy} :
    (programListing source policy).success = true ↔ ∃ p, parse source policy = .ok p := by
  cases h : parse source policy with
  | ok p => simp [programListing_of_ok h]
  | error d => simp [programListing_of_error h]

-- The text of a file is read back.
theorem text_bytes (name source : String) :
    (FileContent.bytes source.toUTF8).text name = .ok source := by
  simp [FileContent.text, String.fromUTF8?, String.fromUTF8, source.isValidUTF8]

namespace Options

theorem run_bytes (o : Options) (source : String) :
    o.run (.bytes source.toUTF8) = o.output source := by
  rw [run, text_bytes]

/-- The output of a run over a text with these tokens and lexical errors that was read with this
result: what was asked for, in full, and nothing else. -/
structure Lists (o : Options) (lexed : Lexed) (result : Except Diagnostics Program)
    (out : Output) : Prop where
  exitCode : out.exitCode = 0 ↔ lexed.errors = [] ∧ (o.print = true → ∃ p, result = .ok p)
  stdout : ∃ dump tree, out.stdout = dump ++ tree ∧
    HasLines dump (if o.tokens then lexed.tokens.map Token.listing else []) ∧
    (∀ p, o.print = true → result = .ok p → tree = p.print) ∧
    ((o.print = true → ∃ d, result = .error d) → tree = "")
  stderr : ∃ found, HasLines out.stderr
      ((if o.tokens then lexed.errors.map LexicalError.rendered else []) ++ found) ∧
    (∀ d, o.print = true → result = .error d → found = d.entries.map (·.2)) ∧
    ((o.print = true → ∃ p, result = .ok p) → found = [])

-- A run that prints anything succeeds if nothing that it printed had errors.
theorem exitCode_output {o : Options} (h : o.interactive = false) :
    (o.output source).exitCode = 0 ↔
      (tokenize source).errors = [] ∧ (o.print = true → ∃ p, parse source o.policy = .ok p) := by
  have herrors : (∃ p, parse source o.policy = .ok p) → (tokenize source).errors = [] := by
    rintro ⟨p, hp⟩
    exact (mem_tokenize_of_mem_kept hp).1
  have htokens : (tokenListing source).success = true ↔ (tokenize source).errors = [] := by
    rw [tokenListing, List.isEmpty_iff]
  rw [Output.exitCode_eq_zero_iff, output, Output.append, Bool.and_eq_true]
  cases hprint : o.print with
  | true =>
    rw [if_pos rfl, programListing_success]
    cases o.tokens with
    | true =>
      rw [if_pos rfl, htokens]
      exact and_congr_right fun _ => ⟨fun hp _ => hp, fun hp => hp rfl⟩
    | false =>
      exact ⟨fun ⟨_, hp⟩ => ⟨herrors hp, fun _ => hp⟩, fun ⟨_, hp⟩ => ⟨rfl, hp rfl⟩⟩
  | false =>
    cases htoken : o.tokens with
    | true =>
      rw [if_pos rfl, htokens]
      exact and_congr_right fun _ => ⟨fun _ => nofun, fun _ => rfl⟩
    | false =>
      rw [interactive, htoken, hprint] at h
      cases h

-- The dump of the tokens, and the program behind it.
theorem stdout_output (o : Options) (source : String) :
    ∃ dump tree, (o.output source).stdout = dump ++ tree ∧
      HasLines dump (if o.tokens then (tokenize source).tokens.map Token.listing else []) ∧
      (∀ p, o.print = true → parse source o.policy = .ok p → tree = p.print) ∧
      ((o.print = true → ∃ d, parse source o.policy = .error d) → tree = "") := by
  have hdump : HasLines (if o.tokens then tokenListing source else .none).stdout
      (if o.tokens then (tokenize source).tokens.map Token.listing else []) := by
    split
    · exact (hasLines_tokenListing source).1
    · exact hasLines_nil
  refine ⟨_, _, rfl, hdump, ?_, ?_⟩
  · intro p hprint hp
    rw [if_pos hprint, programListing_of_ok hp]
  · intro hfail
    split
    · rename_i hprint
      obtain ⟨d, hd⟩ := hfail hprint
      rw [programListing_of_error hd]
    · rfl

-- The lexical errors, and what was found in a text that is rejected behind them.
theorem stderr_output (o : Options) (source : String) :
    ∃ found, HasLines (o.output source).stderr
        ((if o.tokens then (tokenize source).errors.map LexicalError.rendered else []) ++ found) ∧
      (∀ d, o.print = true → parse source o.policy = .error d → found = d.entries.map (·.2)) ∧
      ((o.print = true → ∃ p, parse source o.policy = .ok p) → found = []) := by
  have hlexical : HasLines (if o.tokens then tokenListing source else .none).stderr
      (if o.tokens then (tokenize source).errors.map LexicalError.rendered else []) := by
    split
    · exact (hasLines_tokenListing source).2
    · exact hasLines_nil
  cases hprint : o.print with
  | false =>
    refine ⟨[], ?_, nofun, fun _ => rfl⟩
    rw [output, hprint]
    exact hasLines_append hlexical hasLines_nil
  | true =>
    rw [output, hprint, if_pos rfl]
    cases hresult : parse source o.policy with
    | ok p =>
      refine ⟨[], ?_, nofun, fun _ => rfl⟩
      rw [programListing_of_ok hresult]
      exact hasLines_append hlexical hasLines_nil
    | error d =>
      refine ⟨d.entries.map (·.2), ?_, ?_, ?_⟩
      · rw [programListing_of_error hresult]
        exact hasLines_append hlexical (hasLines_entries hresult)
      · intro d' _ heq
        cases heq
        rfl
      · intro hok
        obtain ⟨p, hp⟩ := hok rfl
        cases hp

theorem lists_output {o : Options} (h : o.interactive = false) :
    o.Lists (tokenize source) (parse source o.policy) (o.output source) :=
  ⟨exitCode_output h, stdout_output o source, stderr_output o source⟩

-- Recovering finds out more about a text that is rejected, and about no other text.
theorem programListing_policies (source : String) :
    (programListing source .recover).stdout = (programListing source .failFast).stdout ∧
      (programListing source .recover).success = (programListing source .failFast).success ∧
      ∃ fewer more, HasLines (programListing source .failFast).stderr fewer ∧
        HasLines (programListing source .recover).stderr more ∧ fewer.Sublist more := by
  rcases parse_agrees source with ⟨p, hearly, hfull⟩ | ⟨lexical, es, -, hearly, hfull⟩
  · rw [programListing_of_ok hearly, programListing_of_ok hfull]
    exact ⟨rfl, rfl, [], [], hasLines_nil, hasLines_nil, .slnil⟩
  · rw [programListing_of_error hearly, programListing_of_error hfull]
    refine ⟨rfl, rfl, _, _, hasLines_entries hearly, hasLines_entries hfull, ?_⟩
    exact (Diagnostics.entries_sublist lexical (List.take_sublist 1 es)).map _

theorem output_recover {o : Options} (hoff : o.recover = false) (source : String) :
    let full := { o with recover := true }.output source
    full.stdout = (o.output source).stdout ∧ full.exitCode = (o.output source).exitCode ∧
      ∃ fewer more, HasLines (o.output source).stderr fewer ∧ HasLines full.stderr more ∧
        fewer.Sublist more := by
  obtain ⟨hstdout, hsuccess, fewer, more, hfewer, hmore, hsublist⟩ := programListing_policies source
  obtain ⟨lexical, hlexical⟩ : ∃ lexical,
      HasLines (if o.tokens then tokenListing source else .none).stderr lexical := by
    split
    · exact ⟨_, (hasLines_tokenListing source).2⟩
    · exact ⟨[], hasLines_nil⟩
  have hpolicy : o.policy = .failFast := by rw [policy, hoff, if_neg Bool.false_ne_true]
  have hfull : ({ o with recover := true } : Options).policy = .recover := if_pos rfl
  simp only [output, hpolicy, hfull]
  generalize (if o.tokens then tokenListing source else Output.none) = dump at hlexical ⊢
  cases o.print with
  | true =>
    simp only [if_true, Output.append, Output.exitCode, hstdout, hsuccess, true_and]
    exact ⟨_, _, hasLines_append hlexical hfewer, hasLines_append hlexical hmore,
      (List.Sublist.refl lexical).append hsublist⟩
  | false =>
    simp only [Bool.false_eq_true, if_false, true_and]
    exact ⟨_, _, hasLines_append hlexical hasLines_nil,
      hasLines_append hlexical hasLines_nil, List.Sublist.refl _⟩

/-- A run that is asked for the tokens, for the program or for both of a text prints just these. It
exits with 0 exactly if the text has no lexical errors and, where the program is asked for, could be
read. Asking it to recover as well, anywhere in front of a `--`, leaves the first output and the
exit code as they are, and the lines of the second one in place. -/
theorem run_lists (o : Options) (source : String) (h : o.interactive = false) :
    let run (o : Options) := o.run (.bytes source.toUTF8)
    let recovering := { o with recover := true }
    o.Lists (tokenize source) (parse source o.policy) (run o) ∧
      (o.recover = false → ∀ front back, "--" ∉ front → request (front ++ back) = .run o →
        request (front ++ "--recover" :: back) = .run recovering) ∧
      (run recovering).stdout = (run o).stdout ∧ (run recovering).exitCode = (run o).exitCode ∧
      ∃ fewer more, HasLines (run o).stderr fewer ∧ HasLines (run recovering).stderr more ∧
        fewer.Sublist more := by
  intro run recovering
  have hrun (o : Options) : run o = o.output source := o.run_bytes source
  rw [hrun, hrun]
  refine ⟨lists_output h, fun hoff front back hfront hrequest => ?_, ?_⟩
  · exact Reading.read_insert_recover hfront hrequest hoff
  · cases hrecover : o.recover with
    | false => exact output_recover hrecover source
    | true =>
      have hsame : recovering = o := by
        rw [show recovering = { o with recover := true } from rfl, ← hrecover]
      rw [hsame]
      obtain ⟨lines, hlines, -⟩ := (lists_output h).stderr
      exact ⟨rfl, rfl, _, _, hlines, hlines, List.Sublist.refl _⟩

/-- Over a text with two broken statements, recovering turns one line of errors into two. -/
theorem run_lists_of_two_errors :
    let o : Options := ⟨"M.java", true, true, false⟩
    let source := "class M { public static void main() { x = ; y = ; } }"
    let run (o : Options) := o.run (.bytes source.toUTF8)
    o.interactive = false ∧ request ["--tokens", "--print", "M.java"] = .run o ∧
      request ["--tokens", "--recover", "--print", "M.java"] = .run { o with recover := true } ∧
      o.Lists (tokenize source) (.error ⟨[], [missingValue 43]⟩) (run o) ∧
      (run { o with recover := true }).stdout = (run o).stdout := by
  intro o source run
  have hrequest : request ["--tokens", "--print", "M.java"] = .run o := by decide +kernel
  have hresult : parse source .failFast = .error ⟨[], [missingValue 43]⟩ := by decide +kernel
  obtain ⟨hlists, hinsert, hstdout, -⟩ := o.run_lists source rfl
  rw [show parse source o.policy = _ from hresult] at hlists
  exact ⟨rfl, hrequest, hinsert rfl ["--tokens"] _ (by decide) hrequest, hlists, hstdout⟩

end Options

end Runs

end CommandLine

end MiniJava
