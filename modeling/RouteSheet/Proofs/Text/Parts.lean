import RouteSheet.Proofs.Text.Index
import RouteSheet.Proofs.Text.Split

/-!
# Parts between separators at the top

A text is cut at the separators that stand at its top and nowhere else. A cut leads back to the
place that a text begins at, so what stands behind it is read like a text of its own: the parts
behind the first are the parts of the rest, and a part by itself has no cut. The finders stop at
the first cut.
-/

namespace RouteSheet.Text

open Nesting

/-- A character behind a text stands at the top: the place in front of it and the one behind it
are both outside quotes and at depth zero. A quote or a parenthesis never does. -/
def StandsAtTop (before : List Char) (c : Char) : Prop :=
  top.run before = top ∧ top.run (before ++ [c]) = top

section

variable {sep c : Char} {s before after part : List Char} {parts front back : List (List Char)}

/-- Only plain characters stay at the top. -/
theorem next_top_eq_top_iff : top.next c = top ↔ isPlain c = true := by
  constructor
  · intro h
    by_cases hquote : isQuote c = true
    · simp [next, top, hquote] at h
    · by_cases hopen : c = '('
      · rw [hopen] at h
        cases h
      · by_cases hclose : c = ')'
        · rw [hclose] at h
          cases h
        · simp [isPlain, hquote, hopen, hclose]
  · intro h
    exact next_of_isPlain h top rfl

/-- What stands at the top is what separates. -/
theorem standsAtTop_iff : StandsAtTop before c ↔ (top.run before).separates c = true := by
  rw [StandsAtTop, separates_iff, run_append, run_cons, run_nil]
  refine and_congr_right fun hbefore => ?_
  rw [hbefore, next_top_eq_top_iff]

/-- A text is clear of the separator and a single part, or its first part ends at the first
separator at the top and the others are the parts of the rest. -/
theorem splitTop_cases (sep : Char) (s : List Char) :
    (cutTop? sep s = none ∧ clear sep top s = true ∧ splitTop sep s = [s]) ∨
    ∃ before after, cutTop? sep s = some (before, after) ∧ s = before ++ sep :: after ∧
      clear sep top before = true ∧ (top.run before).separates sep = true ∧
      splitTop sep s = before :: splitTop sep after := by
  cases hcut : cutTop? sep s with
  | none =>
    have hclear := cutFrom?_eq_none.mp hcut
    exact Or.inl ⟨rfl, hclear, splitFrom_of_clear hclear⟩
  | some cut =>
    obtain ⟨before, after⟩ := cut
    obtain ⟨hs, hclear, hsep⟩ := cutFrom?_eq_some.mp hcut
    exact Or.inr ⟨before, after, rfl, hs, hclear, hsep, splitFrom_of_cut hcut⟩

/-- There is always at least one part. -/
theorem splitTop_ne_nil (sep : Char) (s : List Char) : splitTop sep s ≠ [] := by
  rcases splitTop_cases sep s with ⟨-, -, hs⟩ | ⟨before, after, -, -, -, -, hs⟩
  · exact hs ▸ List.cons_ne_nil s []
  · exact hs ▸ List.cons_ne_nil before _

/-- The parts, joined by separators, are the text. -/
theorem intercalate_splitTop (sep : Char) (s : List Char) :
    [sep].intercalate (splitTop sep s) = s := by
  obtain ⟨part, rest, hs⟩ := exists_splitFrom sep top s
  rw [splitTop, hs, intercalate_cons_eq, join_splitFrom hs]

/-- No separator stands at the top of a part. -/
theorem clear_of_mem_splitTop (h : part ∈ splitTop sep s) : clear sep top part = true := by
  generalize hparts : splitTop sep s = parts at h
  induction parts generalizing s with
  | nil => cases h
  | cons first rest ih =>
    rcases splitTop_cases sep s with ⟨-, hclear, hs⟩ | ⟨before, after, -, -, hclear, -, hs⟩
    · rw [← hparts, hs, List.mem_singleton] at h
      exact h ▸ hclear
    · obtain ⟨rfl, hrest⟩ := List.cons.inj (hs.symm.trans hparts)
      rcases List.mem_cons.mp h with rfl | hmem
      · exact hclear
      · exact ih hrest hmem

/-- Where parts are told apart, a separator stands at the top. -/
theorem separates_of_splitTop (h : splitTop sep s = front ++ back) (hfront : front ≠ [])
    (hback : back ≠ []) : (top.run ([sep].intercalate front)).separates sep = true := by
  induction front generalizing s with
  | nil => exact absurd rfl hfront
  | cons first front ih =>
    rw [List.cons_append] at h
    have hrest : front ++ back ≠ [] := List.append_ne_nil_of_right_ne_nil front hback
    rcases splitTop_cases sep s with ⟨-, -, hs⟩ | ⟨before, after, -, -, -, hsep, hs⟩
    · exact absurd (List.cons.inj (h.symm.trans hs)).2 hrest
    · obtain ⟨rfl, hafter⟩ := List.cons.inj (h.symm.trans hs)
      cases front with
      | nil => rwa [List.intercalate_singleton]
      | cons next front =>
        have hnext := ih hafter.symm (List.cons_ne_nil next front)
        rwa [List.intercalate_cons_cons, List.append_assoc, run_append, List.singleton_append,
          run_cons, next_of_separates hsep]

/-- The cuts are the separators at the top: in front of one stand the first parts, joined, and
behind it the others. Neither group is empty, since the other would then be the whole text. -/
theorem standsAtTop_iff_cut : StandsAtTop before sep ↔
    ∃ front back, splitTop sep (before ++ sep :: after) = front ++ back ∧
      [sep].intercalate front = before ∧ [sep].intercalate back = after := by
  constructor
  · rintro ⟨hbefore, hbehind⟩
    have hsep : isPlain sep = true := by
      rwa [run_append, hbefore, run_cons, run_nil, next_top_eq_top_iff] at hbehind
    exact ⟨splitTop sep before, splitTop sep after, splitTop_append hbefore hsep after,
      intercalate_splitTop sep before, intercalate_splitTop sep after⟩
  · rintro ⟨front, back, hparts, hfront, hback⟩
    have hjoin := intercalate_splitTop sep (before ++ sep :: after)
    have hlength : (before ++ sep :: after).length = before.length + (after.length + 1) :=
      List.length_append
    rw [hparts] at hjoin
    have hfrontNe : front ≠ [] := by
      rintro rfl
      rw [List.nil_append, hback] at hjoin
      rw [← hjoin] at hlength
      omega
    have hbackNe : back ≠ [] := by
      rintro rfl
      rw [List.append_nil, hfront] at hjoin
      rw [← hjoin] at hlength
      omega
    exact standsAtTop_iff.mpr (hfront ▸ separates_of_splitTop hparts hfrontNe hbackNe)

/-- The finder of separators gives the size of the first of several parts. -/
theorem topOffset?_eq_some_iff {i : Nat} : topOffset? sep s = some i ↔
    ∃ part next rest, splitTop sep s = part :: next :: rest ∧ byteSize part = i := by
  rw [topOffset?]
  rcases splitTop_cases sep s with ⟨hcut, -, hs⟩ | ⟨before, after, hcut, -, -, -, hs⟩
  · simp [hcut, hs]
  · obtain ⟨next, rest, hrest⟩ := List.exists_cons_of_ne_nil (splitTop_ne_nil sep after)
    simp [hcut, hs, hrest]

/-- The finder of separators gives nothing for a single part. -/
theorem topOffset?_eq_none_iff : topOffset? sep s = none ↔ (splitTop sep s).length = 1 := by
  rw [topOffset?]
  rcases splitTop_cases sep s with ⟨hcut, -, hs⟩ | ⟨before, after, hcut, -, -, -, hs⟩
  · simp [hcut, hs]
  · simp [hcut, hs, splitTop_ne_nil]

/-- A plain bracket is found where it is found as a separator. -/
theorem openingOffset?_of_isPlain (h : isPlain sep = true) (s : List Char) :
    openingOffset? sep s = topOffset? sep s := by
  rw [openingOffset?, topOffset?, cutOpening?, cutTop?, cutOpeningFrom?_of_isPlain h]

end

/-- The parts of a text joined by the separator are the text, and each is cut out of it at the byte
offsets where it stands. The cuts between them are the separators that stand at the top, and a part
by itself is a single part. The finder of separators gives the size of the first part exactly if
there is another one, and nothing exactly if there is none; the finder of brackets gives the same
for every character that is neither a quote nor a parenthesis. -/
theorem splitTop_exact (sep : Char) (s : List Char) :
    [sep].intercalate (splitTop sep s) = s ∧
    splitSlices? sep s = some (placed sep 0 (splitTop sep s)) ∧
    (∀ before after, s = before ++ sep :: after →
      (StandsAtTop before sep ↔ ∃ front back, splitTop sep s = front ++ back ∧
        [sep].intercalate front = before ∧ [sep].intercalate back = after)) ∧
    (∀ part ∈ splitTop sep s, splitTop sep part = [part]) ∧
    (∀ i, topOffset? sep s = some i ↔
      ∃ part next rest, splitTop sep s = part :: next :: rest ∧ byteSize part = i) ∧
    (topOffset? sep s = none ↔ (splitTop sep s).length = 1) ∧
    (isQuote sep = false → sep ≠ '(' → sep ≠ ')' → openingOffset? sep s = topOffset? sep s) := by
  refine ⟨intercalate_splitTop sep s, splitSlices?_eq sep s, ?_, ?_,
    fun i => topOffset?_eq_some_iff, topOffset?_eq_none_iff, ?_⟩
  · rintro before after rfl
    exact standsAtTop_iff_cut
  · intro part hpart
    exact splitFrom_of_clear (clear_of_mem_splitTop hpart)
  · intro hquote hopen hclose
    have hplain : isPlain sep = true := by simp [isPlain, hquote, hopen, hclose]
    exact openingOffset?_of_isPlain hplain s

/-- Arrows between parentheses, in quotes and below depth zero cut nothing. -/
theorem splitTop_exact_arrow :
    splitTop '→' "(a→b)→é'→'→)→c".toList = ["(a→b)", "é'→'", ")→c"].map String.toList ∧
    StandsAtTop "(a→b)".toList '→' ∧ splitTop '→' ")→c".toList = [")→c".toList] ∧
    openingOffset? '→' "(a→b)→é'→'→)→c".toList = some 7 := by
  have hparts : splitTop '→' "(a→b)→é'→'→)→c".toList =
      ["(a→b)", "é'→'", ")→c"].map String.toList := by decide +kernel
  obtain ⟨-, -, hcuts, hsingle, hfinder, -, hopening⟩ :=
    splitTop_exact '→' "(a→b)→é'→'→)→c".toList
  have hlast : ")→c".toList ∈ splitTop '→' "(a→b)→é'→'→)→c".toList := by
    rw [hparts]
    decide
  have hfirst : topOffset? '→' "(a→b)→é'→'→)→c".toList = some 7 :=
    (hfinder 7).mpr ⟨_, _, _, hparts, by decide⟩
  refine ⟨hparts, ?_, hsingle _ hlast, ?_⟩
  · exact (hcuts "(a→b)".toList "é'→'→)→c".toList (by decide)).mpr
      ⟨["(a→b)".toList], ["é'→'".toList, ")→c".toList], hparts, by decide, by decide⟩
  · exact (hopening (by decide) (by decide) (by decide)).trans hfirst

end RouteSheet.Text
