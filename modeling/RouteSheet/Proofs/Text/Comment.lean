import RouteSheet.Proofs.Text.Block
import RouteSheet.Text.Nesting

/-!
# Blanking out comments piece by piece

Comments are blanked out from left to right, so a text may be cut anywhere but in
the middle of an opening mark, and its pieces blanked one after the other. What is
left has as many characters and the same line feeds, and in it the scanner's quotes
are where the comment reader saw them.
-/

namespace RouteSheet.Text

open Nesting

/-- The passage that a text leads to. -/
def passageAfter : Passage → List Char → Passage
  | p, [] => p
  | .code, '/' :: '*' :: s => passageAfter (.comment false) s
  | .code, c :: s => passageAfter (if isQuote c then .quoted c else .code) s
  | .quoted q, c :: s => passageAfter (if c = q then .code else .quoted q) s
  | .comment afterStar, c :: s =>
    if afterStar && c == '/' then passageAfter .code s else passageAfter (.comment (c == '*')) s

variable {p : Passage} {s t : List Char}

private theorem not_opening {c : Char} (h : ∀ s', c = '/' → s = '*' :: s' → False) :
    ¬(c = '/' ∧ s.head? = some '*') := by
  rintro ⟨hc, hs⟩
  obtain ⟨s', hs'⟩ := List.head?_eq_some_iff.mp hs
  exact h s' hc hs'

/-- A character of code that opens no comment stays. -/
theorem blankCommentsFrom_code_cons {c : Char} (h : ¬(c = '/' ∧ s.head? = some '*')) :
    blankCommentsFrom .code (c :: s) =
      c :: blankCommentsFrom (if isQuote c then .quoted c else .code) s := by
  rw [blankCommentsFrom]
  rintro s' rfl rfl
  exact h ⟨rfl, rfl⟩

/-- Behind a character of code that opens no comment the passage is code or a quote. -/
theorem passageAfter_code_cons {c : Char} (h : ¬(c = '/' ∧ s.head? = some '*')) :
    passageAfter .code (c :: s) = passageAfter (if isQuote c then .quoted c else .code) s := by
  rw [passageAfter]
  rintro s' rfl rfl
  exact h ⟨rfl, rfl⟩

/-- The cut between two texts splits an opening mark of a comment. -/
def SplitsMark (p : Passage) (s t : List Char) : Prop :=
  ∃ s', s = s' ++ ['/'] ∧ passageAfter p s' = .code ∧ t.head? = some '*'

/-- A mark that is split behind a beginning is split behind the whole. -/
private theorem SplitsMark.of_behind {q : Passage} {u : List Char}
    (hu : ∀ s', s' <+: s → passageAfter p (u ++ s') = passageAfter q s') (h : SplitsMark q s t) :
    SplitsMark p (u ++ s) t := by
  obtain ⟨s', rfl, hcode, hstar⟩ := h
  refine ⟨u ++ s', (List.append_assoc ..).symm, ?_, hstar⟩
  rw [hu s' (List.prefix_append _ _), hcode]

/-- Pieces are blanked out one after the other, and passed one after the other. -/
theorem blankCommentsFrom_append_of_not_splitsMark (h : ¬SplitsMark p s t) :
    blankCommentsFrom p (s ++ t) =
      blankCommentsFrom p s ++ blankCommentsFrom (passageAfter p s) t ∧
    passageAfter p (s ++ t) = passageAfter (passageAfter p s) t := by
  fun_induction blankCommentsFrom p s with
  | case1 => exact ⟨rfl, rfl⟩
  | case2 s ih =>
    have hs := ih fun hs => h (hs.of_behind (u := ['/', '*']) fun _ _ => rfl)
    simp only [List.cons_append, blankCommentsFrom, passageAfter, hs.1, hs.2, and_self]
  | case3 c s hs ih =>
    have hcode := not_opening hs
    have hcode' : ¬(c = '/' ∧ (s ++ t).head? = some '*') := by
      rintro ⟨rfl, hstar⟩
      cases s with
      | nil => exact h ⟨[], rfl, rfl, hstar⟩
      | cons d s => exact hcode ⟨rfl, hstar⟩
    have hbehind : ∀ s', s' <+: s → passageAfter .code (c :: s') =
        passageAfter (if isQuote c then .quoted c else .code) s' := by
      intro s' hprefix
      refine passageAfter_code_cons ?_
      rintro ⟨rfl, hstar⟩
      obtain ⟨rest, rfl⟩ := List.head?_eq_some_iff.mp hstar
      obtain ⟨more, rfl⟩ := hprefix
      exact hcode ⟨rfl, rfl⟩
    have hrest := ih fun hs => h (hs.of_behind (u := [c]) hbehind)
    rw [List.cons_append, blankCommentsFrom_code_cons hcode', passageAfter_code_cons hcode',
      passageAfter_code_cons hcode, hrest.1, hrest.2, List.cons_append]
    exact ⟨rfl, rfl⟩
  | case4 q c s ih =>
    have hs := ih fun hs => h (hs.of_behind (u := [c]) fun _ _ => by
      rw [List.singleton_append, passageAfter])
    simp only [List.cons_append, blankCommentsFrom, passageAfter, hs.1, hs.2, and_self]
  | case5 b c s hc ih =>
    have hs := ih fun hs => h (hs.of_behind (u := [c]) fun _ _ => by
      rw [List.singleton_append, passageAfter, if_pos hc])
    simp only [List.cons_append, blankCommentsFrom, passageAfter, hc, ite_true, hs.1, hs.2,
      and_self]
  | case6 b c s hc ih =>
    have hs := ih fun hs => h (hs.of_behind (u := [c]) fun _ _ => by
      rw [List.singleton_append, passageAfter, if_neg hc])
    simp only [List.cons_append, blankCommentsFrom, passageAfter, hc, ite_false, hs.1, hs.2,
      Bool.false_eq_true, and_self]

/-- The cut between two texts splits no opening mark: what is left of the first does not end in
a slash, or the second does not begin with a star. -/
def cutsNoMark (p : Passage) (s t : List Char) : Prop :=
  (blankCommentsFrom p s).getLast? = some '/' → t.head? ≠ some '*'

/-- Pieces are blanked out one after the other. -/
theorem blankCommentsFrom_append (h : cutsNoMark p s t) :
    blankCommentsFrom p (s ++ t) =
      blankCommentsFrom p s ++ blankCommentsFrom (passageAfter p s) t := by
  refine (blankCommentsFrom_append_of_not_splitsMark ?_).1
  rintro ⟨s', rfl, hcode, hstar⟩
  have hslash : ¬SplitsMark p s' ['/'] := by
    rintro ⟨-, -, -, hhead⟩
    exact absurd hhead (by decide)
  refine h ?_ hstar
  rw [(blankCommentsFrom_append_of_not_splitsMark hslash).1, hcode]
  exact List.getLast?_concat

/-- The line feeds of two texts add up. -/
theorem lineFeeds_append (s t : List Char) : lineFeeds (s ++ t) = lineFeeds s + lineFeeds t :=
  List.count_append

/-- Line feeds are counted by the places where they stand. -/
theorem lineFeeds_eq_countP (s : List Char) :
    lineFeeds s = (s.map (· == '\n')).countP id := by
  rw [List.countP_map]
  rfl

/-- Blanking out leaves line feeds, and no others, where they were. -/
theorem map_lineFeed_blankCommentsFrom (p : Passage) (s : List Char) :
    (blankCommentsFrom p s).map (· == '\n') = s.map (· == '\n') := by
  fun_induction blankCommentsFrom p s with
  | case1 => rfl
  | case2 s ih => simp [ih]
  | case3 c s _ ih => simp [ih]
  | case4 q c s ih => simp [ih]
  | case5 b c s hc ih =>
    obtain ⟨-, rfl⟩ : b = true ∧ c = '/' := by simpa using hc
    simp [ih]
  | case6 b c s _ ih =>
    have hc : (blankedOut c == '\n') = (c == '\n') := by
      unfold blankedOut
      split
      · next h => rw [h]
      · next h => simp [h]
    simp [ih, hc]

/-- Blanking out keeps every line feed. -/
theorem lineFeeds_blankCommentsFrom (p : Passage) (s : List Char) :
    lineFeeds (blankCommentsFrom p s) = lineFeeds s := by
  rw [lineFeeds_eq_countP, map_lineFeed_blankCommentsFrom, ← lineFeeds_eq_countP]

/-- The quote that is open in a passage. -/
def Passage.quote : Passage → Option Char
  | .quoted q => some q
  | _ => none

/-- Nothing that is blanked out is a quote. -/
theorem isQuote_blankedOut (c : Char) : isQuote (blankedOut c) = false := by
  unfold blankedOut
  split <;> rfl

/-- Behind a character of code the scanner has the quote open that the comment reader has. -/
theorem quoteNext_code (c : Char) :
    quoteNext Passage.code.quote c = (if isQuote c then Passage.quoted c else .code).quote := by
  simp only [Passage.quote, quoteNext]
  split <;> rfl

/-- Behind a quoted character likewise. -/
theorem quoteNext_quoted (q c : Char) :
    quoteNext (Passage.quoted q).quote c = (if c = q then Passage.code else .quoted q).quote := by
  simp only [Passage.quote, quoteNext]
  split <;> rfl

/-- What a comment leaves behind opens no quote. -/
theorem quoteNext_comment (afterStar afterStar' : Bool) (c : Char) :
    quoteNext (Passage.comment afterStar).quote (blankedOut c) =
      (Passage.comment afterStar').quote := by
  simp only [Passage.quote, quoteNext, isQuote_blankedOut, Bool.false_eq_true, ite_false]

/-- The scanner finds in what is left the quotes that the comment reader saw. -/
theorem foldl_quoteNext_blankCommentsFrom (p : Passage) (s : List Char) :
    (blankCommentsFrom p s).foldl quoteNext p.quote = (passageAfter p s).quote := by
  fun_induction blankCommentsFrom p s with
  | case1 => rfl
  | case2 s ih => exact ih
  | case3 c s hs ih =>
    rw [passageAfter_code_cons (not_opening hs), ← ih, List.foldl_cons, quoteNext_code]
  | case4 q c s ih => rw [passageAfter, ← ih, List.foldl_cons, quoteNext_quoted]
  | case5 b c s hc ih =>
    rw [passageAfter, if_pos hc]
    exact ih
  | case6 b c s hc ih =>
    rw [passageAfter, if_neg hc, ← ih, List.foldl_cons, quoteNext_comment b (c == '*')]

end RouteSheet.Text
