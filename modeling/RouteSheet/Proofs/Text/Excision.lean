import RouteSheet.Proofs.Text.Place

/-!
# Taking a piece out of a text

Whether a text is read as code, as quoted or as a comment depends on all that stands before it.
Where a character shows, what is left of the text before it tells which: no comment is open there,
and the open quote is the one that is left open. So a piece that begins and ends where a character
shows, with all quotes closed, can be taken out, and the comments of the rest are the same.
-/

namespace RouteSheet.Text

open Nesting

/-- Blanking out keeps the length. -/
theorem length_blankCommentsFrom (p : Passage) (s : List Char) :
    (blankCommentsFrom p s).length = s.length := by
  have hlength := congrArg List.length (map_lineFeed_blankCommentsFrom p s)
  rwa [List.length_map, List.length_map] at hlength

/-- The passage lies outside comments. -/
def Passage.Outside (p : Passage) : Prop := ∀ afterStar, p ≠ .comment afterStar

/-- Outside comments and without an open quote a place lies in code. -/
theorem Passage.eq_code {p : Passage} (h : p.Outside) (hquote : p.quote = none) : p = .code := by
  cases p with
  | code => rfl
  | quoted q => cases hquote
  | comment afterStar => exact absurd rfl (h afterStar)

/-- A character of code that opens no comment leads into none. -/
theorem Passage.outside_behind_code (c : Char) :
    (if isQuote c then Passage.quoted c else .code).Outside := by
  intro afterStar
  split <;> rintro ⟨⟩

/-- A character of a quoted run leads into no comment. -/
theorem Passage.outside_behind_quoted (q c : Char) :
    (if c = q then Passage.code else .quoted q).Outside := by
  intro afterStar
  split <;> rintro ⟨⟩

section

variable {p : Passage} {before behind left : List Char} {c d : Char}

/-- In a comment nothing shows. -/
theorem outside_of_head (h : blankCommentsFrom p behind = c :: left) (hc : isBlank c = false) :
    p.Outside := by
  rintro afterStar rfl
  cases behind with
  | nil => cases h
  | cons d behind =>
    rw [blankCommentsFrom] at h
    split at h
    · rw [← (List.cons.inj h).1] at hc
      exact absurd hc (by decide)
    · rw [← (List.cons.inj h).1, isBlank_blankedOut] at hc
      exact absurd hc (by decide)

/-- A character that shows is left, and behind it the quotes are as the scanner sees them. -/
theorem exists_passage_behind (h : blankCommentsFrom p (d :: behind) = c :: left)
    (hc : isBlank c = false) :
    d = c ∧ ∃ q : Passage, q.Outside ∧ q.quote = quoteNext p.quote c ∧
      left = blankCommentsFrom q behind := by
  have hp := outside_of_head h hc
  cases p with
  | code =>
    by_cases hmark : d = '/' ∧ behind.head? = some '*'
    · obtain ⟨rfl, hstar⟩ := hmark
      obtain ⟨rest, rfl⟩ := List.head?_eq_some_iff.mp hstar
      rw [blankCommentsFrom] at h
      rw [← (List.cons.inj h).1] at hc
      exact absurd hc (by decide)
    · rw [blankCommentsFrom_code_cons hmark] at h
      obtain ⟨rfl, rfl⟩ := List.cons.inj h
      exact ⟨rfl, _, Passage.outside_behind_code d, (quoteNext_code d).symm, rfl⟩
  | quoted q =>
    rw [blankCommentsFrom] at h
    obtain ⟨rfl, rfl⟩ := List.cons.inj h
    exact ⟨rfl, _, Passage.outside_behind_quoted q d, (quoteNext_quoted q d).symm, rfl⟩
  | comment afterStar => exact absurd rfl (hp afterStar)

/-- A text is blanked out piece by piece where a character shows. The second character of a mark of
a comment is blanked out, so no mark is split there. -/
theorem blankComments_append_of_shown
    (h : (blankComments (before ++ behind))[before.length]? = some c) (hc : isBlank c = false) :
    blankComments (before ++ behind) =
      blankComments before ++ blankCommentsFrom (passageAfter .code before) behind := by
  refine (blankCommentsFrom_append_of_not_splitsMark ?_).1
  rintro ⟨s, rfl, hcode, hstar⟩
  obtain ⟨rest, rfl⟩ := List.head?_eq_some_iff.mp hstar
  have hslash : ¬SplitsMark .code s ('/' :: '*' :: rest) := by
    rintro ⟨-, -, -, hhead⟩
    exact absurd (Option.some.inj hhead) (by decide)
  have hmark : blankComments (s ++ ['/'] ++ '*' :: rest) =
      blankComments s ++ ' ' :: ' ' :: blankCommentsFrom (.comment false) rest := by
    rw [List.append_assoc, List.singleton_append, blankComments,
      (blankCommentsFrom_append_of_not_splitsMark hslash).1, hcode, blankCommentsFrom]
    rfl
  rw [hmark, List.length_append, List.getElem?_append_right (by
    rw [blankComments, length_blankCommentsFrom]; exact Nat.le_add_right _ _), blankComments,
    length_blankCommentsFrom, Nat.add_sub_cancel_left] at h
  rw [← Option.some.inj h] at hc
  exact absurd hc (by decide)

/-- Where a character shows behind closed quotes, the text before it is left by itself, and so is
the text behind it. -/
theorem blankComments_of_append {rest : List Char} (hlength : left.length = before.length)
    (h : blankComments (before ++ behind) = left ++ c :: rest) (hc : isBlank c = false)
    (hclosed : left.foldl quoteNext none = none) :
    passageAfter .code before = .code ∧ blankComments before = left ∧
      blankComments behind = c :: rest := by
  have hshown : (blankComments (before ++ behind))[before.length]? = some c := by
    rw [h, ← hlength, List.getElem?_append_right (Nat.le_refl _), Nat.sub_self]
    rfl
  have hcut := (blankComments_append_of_shown hshown hc).symm.trans h
  obtain ⟨hbefore, hbehind⟩ := List.append_inj hcut (by
    rw [blankComments, length_blankCommentsFrom, hlength])
  have hquote : (blankComments before).foldl quoteNext none = (passageAfter .code before).quote :=
    foldl_quoteNext_blankCommentsFrom .code before
  rw [hbefore, hclosed] at hquote
  have hcode := Passage.eq_code (outside_of_head hbehind hc) hquote.symm
  rw [hcode] at hbehind
  exact ⟨hcode, hbefore, hbehind⟩

/-- Behind a character that shows, with the quotes closed, the text is left by itself. -/
theorem blankComments_behind {rest : List Char} (hlength : left.length = before.length)
    (h : blankComments (before ++ d :: behind) = left ++ c :: rest) (hc : isBlank c = false)
    (hclosed : (left ++ [c]).foldl quoteNext none = none) : blankComments behind = rest := by
  have hshown : (blankComments (before ++ d :: behind))[before.length]? = some c := by
    rw [h, ← hlength, List.getElem?_append_right (Nat.le_refl _), Nat.sub_self]
    rfl
  have hcut := (blankComments_append_of_shown hshown hc).symm.trans h
  obtain ⟨hbefore, hbehind⟩ := List.append_inj hcut (by
    rw [blankComments, length_blankCommentsFrom, hlength])
  obtain ⟨-, q, hq, hquote, hrest⟩ := exists_passage_behind hbehind hc
  have hpassage : (blankComments before).foldl quoteNext none = (passageAfter .code before).quote :=
    foldl_quoteNext_blankCommentsFrom .code before
  rw [hbefore] at hpassage
  rw [List.foldl_append, hpassage, List.foldl_cons, List.foldl_nil, ← hquote] at hclosed
  rw [hrest, Passage.eq_code hq hclosed]
  rfl

end

/-- A piece that begins where a character shows, and ends with one or with the text, can be taken
out if quotes are closed on both sides of it and no slash stands in front. -/
theorem blankComments_excise {before piece behind left taken rest : List Char}
    (hbefore : left.length = before.length) (hpiece : taken.length = piece.length)
    (h : blankComments (before ++ (piece ++ behind)) = left ++ (taken ++ rest))
    (hfirst : ∃ c, taken.head? = some c ∧ isBlank c = false)
    (hleft : left.foldl quoteNext none = none) (hslash : left.getLast? ≠ some '/')
    (hlast : behind = [] ∨ ∃ init c, taken = init ++ [c] ∧ isBlank c = false ∧
      taken.foldl quoteNext none = none) :
    blankComments before = left ∧ blankComments behind = rest ∧
      blankComments (before ++ behind) = left ++ rest := by
  obtain ⟨c, hhead, hc⟩ := hfirst
  obtain ⟨taken', htaken⟩ := List.head?_eq_some_iff.mp hhead
  have hsplit : blankComments (before ++ (piece ++ behind)) = left ++ c :: (taken' ++ rest) := by
    rw [h, htaken, List.cons_append]
  obtain ⟨hcode, hleftOf, hpieceOf⟩ := blankComments_of_append hbefore hsplit hc hleft
  rw [← List.cons_append, ← htaken] at hpieceOf
  have hbehind : blankComments behind = rest := by
    rcases hlast with rfl | ⟨init, d, hinit, hd, hclosed⟩
    · rw [List.append_nil] at hpieceOf
      have hlength := congrArg List.length hpieceOf
      rw [blankComments, length_blankCommentsFrom, List.length_append] at hlength
      rw [List.eq_nil_of_length_eq_zero (by omega : rest.length = 0)]
      rfl
    · have hne : piece ≠ [] := by
        rintro rfl
        rw [hinit, List.length_append] at hpiece
        exact absurd hpiece (Nat.succ_ne_zero _)
      obtain ⟨init', d', rfl⟩ := (List.eq_nil_or_concat piece).resolve_left hne
      rw [hinit, List.concat_eq_append, List.length_append, List.length_append] at hpiece
      rw [hinit, List.concat_eq_append, List.append_assoc, List.append_assoc, List.singleton_append,
        List.singleton_append] at hpieceOf
      rw [hinit] at hclosed
      exact blankComments_behind (Nat.add_right_cancel hpiece) hpieceOf hd hclosed
  refine ⟨hleftOf, hbehind, ?_⟩
  rw [blankComments, blankCommentsFrom_append fun hl => absurd (hleftOf ▸ hl) hslash, hcode,
    ← blankComments, ← blankComments, hleftOf, hbehind]

end RouteSheet.Text
