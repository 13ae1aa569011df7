import MiniJava.Viewer.Highlight

/-!
# Bisection — the tokens of a line

Bisection narrows the places of an array down to one: the last at which the predicate holds, or the
first of all (`Highlight.bisect_spec`). So where the elements with the predicate come first, it
finds how many there are (`Highlight.countLeading_append`), and the tokens between two such counts
are all those that begin on a line (`Highlight.lineTokens_toArray`).
-/

namespace MiniJava

namespace Highlight

section

variable {α : Type} {p : α → Bool}

/-- The place that is left is the first, or one with the predicate, and none behind it has it. The
range keeps both ends of this: its first place is such a place, and no place behind it has the
predicate. -/
theorem bisect_spec {xs : Array α} {count base size : Nat}
    (hcount : ∀ i, xs[i]?.any p = true ↔ i < count) (hbase : base = 0 ∨ base < count)
    (hsize : count ≤ base + size) :
    (bisect p xs base size = 0 ∨ bisect p xs base size < count) ∧
      count ≤ bisect p xs base size + 1 := by
  fun_induction bisect p xs base size with
  | case1 base size hlarge half mid ih =>
    have hhalf : half = size / 2 := rfl
    have hmid : mid = base + half := rfl
    simp only [dite_eq_ite] at ih
    split at ih
    next hholds =>
      have hlt := (hcount mid).mp hholds
      rw [if_pos hholds]
      exact ih (.inr hlt) (by omega)
    next hholds =>
      have hle := mt (hcount mid).mpr hholds
      rw [if_neg hholds]
      exact ih hbase (by omega)
  | case2 base size hsmall => exact ⟨hbase, by omega⟩

/-- How many elements come first that have the predicate, where none behind them has it. -/
theorem countLeading_append {front behind : List α} (hfront : ∀ a ∈ front, p a = true)
    (hbehind : ∀ a ∈ behind, p a = false) :
    countLeading p (front ++ behind).toArray = front.length := by
  have hcount (i : Nat) : (front ++ behind).toArray[i]?.any p = true ↔ i < front.length := by
    rw [List.getElem?_toArray]
    rcases Nat.lt_or_ge i front.length with hi | hi
    · rw [List.getElem?_append_left hi, List.getElem?_eq_getElem hi]
      exact iff_of_true (hfront _ (List.getElem_mem hi)) hi
    · rw [List.getElem?_append_right hi]
      refine iff_of_false ?_ (Nat.not_lt_of_le hi)
      cases hb : behind[i - front.length]? with
      | none => exact Bool.false_ne_true
      | some b => simp [hbehind b (List.mem_of_getElem? hb)]
  have hsize : front.length ≤ 0 + (front ++ behind).toArray.size := by simp
  obtain ⟨hplace, hlast⟩ := bisect_spec hcount (.inl rfl) hsize
  rw [countLeading]
  split
  next h =>
    have hlt := (hcount _).mp h
    omega
  next h =>
    have hle := mt (hcount _).mpr h
    omega

-- Where the elements with a predicate come first, they can be taken out in front.
theorem filter_append_filter_not {as : List α}
    (h : as.Pairwise fun a b => p b = true → p a = true) :
    as.filter p ++ as.filter (!p ·) = as := by
  induction as with
  | nil => rfl
  | cons a as ih =>
    obtain ⟨ha, has⟩ := List.pairwise_cons.mp h
    by_cases hp : p a = true
    · simp [hp, ih has]
    · have hnone : ∀ b ∈ as, ¬ p b = true := fun b hb hpb => hp (ha b hb hpb)
      rw [List.filter_cons_of_neg hp, List.filter_cons_of_pos (by simpa using hp),
        List.filter_eq_nil_iff.mpr hnone, List.nil_append,
        List.filter_eq_self.mpr fun b hb => by simpa using hnone b hb]

end

/-- Between tokens in the order of their lines, the two searches find those of a line. -/
theorem lineTokens_toArray {tokens : List Token}
    (h : tokens.Pairwise fun a b => a.position.line ≤ b.position.line) (line : Nat) :
    lineTokens tokens.toArray line =
      tokens.filter fun t => t.kind != .eof && t.position.line == line := by
  let upTo := tokens.filter (·.position.line ≤ line)
  let before := upTo.filter (·.position.line < line)
  let on := upTo.filter fun t => !decide (t.position.line < line)
  let behind := tokens.filter fun t => !decide (t.position.line ≤ line)
  have hupTo : before ++ on = upTo := by
    refine filter_append_filter_not ((h.sublist List.filter_sublist).imp fun hle => ?_)
    simp only [decide_eq_true_eq]
    omega
  have htokens : before ++ on ++ behind = tokens := by
    rw [hupTo]
    refine filter_append_filter_not (h.imp fun hle => ?_)
    simp only [decide_eq_true_eq]
    omega
  have hbefore : countLeading (fun t => decide (t.position.line < line)) tokens.toArray =
      before.length := by
    rw [← htokens, List.append_assoc]
    refine countLeading_append (fun t ht => (List.mem_filter.mp ht).2) fun t ht => ?_
    rcases List.mem_append.mp ht with ht | ht
    · simpa using (List.mem_filter.mp ht).2
    · have hline := (List.mem_filter.mp ht).2
      simp at hline ⊢
      omega
  have hbehind : countLeading (fun t => decide (t.position.line ≤ line)) tokens.toArray =
      (before ++ on).length := by
    rw [← htokens]
    refine countLeading_append (fun t ht => ?_) fun t ht => ?_
    · rw [hupTo] at ht
      exact (List.mem_filter.mp ht).2
    · simpa using (List.mem_filter.mp ht).2
  have hextract : (tokens.toArray.extract before.length (before ++ on).length).toList = on := by
    rw [← htokens, Array.toList_extract, List.extract_eq_take_drop]
    simp
  rw [lineTokens, hbefore, hbehind, hextract, List.filter_filter, List.filter_filter]
  refine List.filter_congr fun t _ => ?_
  have hline : (!decide (t.position.line < line) && decide (t.position.line ≤ line)) =
      (t.position.line == line) := by
    rw [Bool.eq_iff_iff]
    simp only [Bool.and_eq_true, Bool.not_eq_true', decide_eq_false_iff_not, decide_eq_true_eq,
      beq_iff_eq]
    omega
  rw [Bool.and_assoc, hline]

end Highlight

end MiniJava
