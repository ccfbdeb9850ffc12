import RouteSheet.Proofs.Text.Comment
import RouteSheet.Proofs.Text.Trim

/-!
# Places in a sheet

A place is a number of characters in front of it. Blanking out moves no character, so a place of
what is left is one of the text as written: what shows there stands outside comments, and as many
line feeds stand in front of it as were written.
-/

namespace RouteSheet.Text

/-- Which characters belong to a comment, from a passage on. -/
def commented : Passage → List Char → List Bool
  | _, [] => []
  | .code, '/' :: '*' :: s => true :: true :: commented (.comment false) s
  | .code, c :: s => false :: commented (if isQuote c then .quoted c else .code) s
  | .quoted q, c :: s => false :: commented (if c = q then .code else .quoted q) s
  | .comment afterStar, c :: s =>
    true :: commented (if afterStar && c == '/' then .code else .comment (c == '*')) s

/-- A character that is not blank and belongs to no comment stands at the place. -/
def Shown (text : List Char) (i : Nat) : Prop :=
  ∃ c, text[i]? = some c ∧ (commented .code text)[i]? = some false ∧ isBlank c = false

/-- The place is the first one that shows a character, from another place on. -/
structure FirstShown (text : List Char) (p q : Nat) : Prop where
  le : p ≤ q
  shown : Shown text q
  hidden (i : Nat) (hp : p ≤ i) (hq : i < q) : ¬Shown text i

/-- The line of a place: one more than the line feeds in front of it. -/
def lineOf (text : List Char) (i : Nat) : Nat := 1 + lineFeeds (text.take i)

section Comments

/-- The characters of comments are blanked out, and the others stay. -/
theorem blankCommentsFrom_eq_zipWith (p : Passage) (s : List Char) :
    blankCommentsFrom p s =
      List.zipWith (fun inside c => if inside then blankedOut c else c) (commented p s) s := by
  fun_induction blankCommentsFrom p s with
  | case1 => simp
  | case2 s ih => simp [commented, ih, blankedOut]
  | case3 c s hs ih => simp [commented, ih]
  | case4 q c s ih => simp [commented, ih]
  | case5 b c s hc ih =>
    obtain ⟨rfl, rfl⟩ : b = true ∧ c = '/' := by simpa using hc
    simp [commented, ih, blankedOut]
  | case6 b c s hc ih => simp [commented, ih, hc]

/-- What is blanked out is blank. -/
theorem isBlank_blankedOut (c : Char) : isBlank (blankedOut c) = true := by
  unfold blankedOut
  split <;> rfl

/-- A place shows a character exactly if one is left there that is not blank. -/
theorem shown_iff {text : List Char} {i : Nat} :
    Shown text i ↔ ∃ c, (blankComments text)[i]? = some c ∧ isBlank c = false := by
  rw [blankComments, blankCommentsFrom_eq_zipWith, List.getElem?_zipWith]
  constructor
  · rintro ⟨c, hc, hmask, hblank⟩
    exact ⟨c, by simp [hc, hmask], hblank⟩
  · rintro ⟨d, hd, hblank⟩
    split at hd
    · next inside c hmask hc =>
      cases inside with
      | true =>
        obtain rfl : blankedOut c = d := by simpa using hd
        exact absurd (isBlank_blankedOut c) (by simp [hblank])
      | false =>
        obtain rfl : c = d := by simpa using hd
        exact ⟨c, hc, hmask, hblank⟩
    · cases hd

/-- Blanking out keeps the line feeds in front of every place. -/
theorem lineFeeds_take_blankComments (text : List Char) (i : Nat) :
    lineFeeds ((blankComments text).take i) = lineFeeds (text.take i) := by
  rw [lineFeeds_eq_countP, lineFeeds_eq_countP, List.map_take, List.map_take, blankComments,
    map_lineFeed_blankCommentsFrom]

end Comments

section Left

variable {text : List Char} {p : Nat}

/-- What stands behind a part of a text stands at the place behind it. -/
theorem drop_add {s t : List Char} (h : text.drop p = s ++ t) : text.drop (p + s.length) = t := by
  rw [← List.drop_drop, h, List.drop_left]

/-- Behind the first part of what stands at a place stands the second part. -/
theorem prefix_drop_add {s t : List Char} (h : s ++ t <+: text.drop p) :
    t <+: text.drop (p + s.length) := by
  obtain ⟨u, hu⟩ := h
  rw [List.append_assoc] at hu
  exact ⟨u, (drop_add hu.symm).symm⟩

/-- The line of a place behind a text that is left at another place. -/
theorem lineOf_add {s : List Char} (h : s <+: (blankComments text).drop p) :
    lineOf text (p + s.length) = lineOf text p + lineFeeds s := by
  obtain ⟨t, ht⟩ := h
  have htake : (blankComments text).take (p + s.length) = (blankComments text).take p ++ s := by
    rw [List.take_add, ← ht, List.take_left]
  rw [lineOf, ← lineFeeds_take_blankComments, htake, lineFeeds_append,
    lineFeeds_take_blankComments, lineOf, Nat.add_assoc]

/-- Blanks show nothing. -/
theorem not_shown_of_blank {b : List Char} (h : b <+: (blankComments text).drop p)
    (hb : isBlankText b = true) (i : Nat) (hp : p ≤ i) (hi : i < p + b.length) :
    ¬Shown text i := by
  rw [shown_iff]
  rintro ⟨c, hc, hblank⟩
  obtain ⟨t, ht⟩ := h
  have hmem : c ∈ b := by
    have hdrop : ((blankComments text).drop p)[i - p]? = some c := by
      rw [List.getElem?_drop, Nat.add_sub_cancel' hp, hc]
    rw [← ht, List.getElem?_append_left (by omega)] at hdrop
    exact List.mem_of_getElem? hdrop
  exact Bool.false_ne_true (hblank.symm.trans (isBlank_of_mem hb hmem))

/-- Where nothing but blanks is left, nothing shows. -/
theorem not_shown_of_blank_rest (hb : isBlankText ((blankComments text).drop p) = true) (i : Nat)
    (hp : p ≤ i) : ¬Shown text i := by
  intro h
  obtain ⟨c, hc, -⟩ := shown_iff.mp h
  obtain ⟨hi, -⟩ := List.getElem?_eq_some_iff.mp hc
  refine not_shown_of_blank (List.prefix_refl _) hb i hp ?_ h
  rw [List.length_drop]
  omega

/-- Where a text is left that is not blank, what shows first stands behind its leading blanks. -/
theorem firstShown_of_not_blank {s : List Char} (h : s <+: (blankComments text).drop p)
    (hs : isBlankText s = false) : FirstShown text p (p + (s.takeWhile isBlank).length) := by
  have hsplit := takeWhile_append_trimStart s
  obtain ⟨c, rest, hrest⟩ := List.exists_cons_of_ne_nil (trimStart_ne_nil.mpr hs)
  refine ⟨Nat.le_add_right p _, ?_, ?_⟩
  · obtain ⟨t, ht⟩ := h
    rw [← hsplit, hrest, List.append_assoc] at ht
    refine shown_iff.mpr ⟨c, ?_, isBlank_head_trimStart hrest⟩
    have hdrop := drop_add ht.symm
    rw [← Nat.add_zero (p + _), ← List.getElem?_drop, hdrop]
    rfl
  · exact not_shown_of_blank ((List.takeWhile_prefix _).trans h) (isBlankText_takeWhile s)

end Left

end RouteSheet.Text
