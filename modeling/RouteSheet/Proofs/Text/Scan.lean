import RouteSheet.Text.Nesting

/-!
# Scanning for separators

A text is clear of a separator, from a place on, when the separator never counts
inside it. The first cut of a text is at the end of its longest clear beginning, so
a cut does not depend on what stands behind it, and a clear text is a single part.
-/

namespace RouteSheet.Text

namespace Nesting

@[simp] theorem run_nil (n : Nesting) : n.run [] = n := rfl

@[simp] theorem run_cons (n : Nesting) (c : Char) (s : List Char) :
    n.run (c :: s) = (n.next c).run s := rfl

@[simp] theorem run_append (n : Nesting) (s t : List Char) : n.run (s ++ t) = (n.run s).run t :=
  List.foldl_append

/-- Only one place is at the top. -/
theorem atTop_iff {n : Nesting} : n.atTop = true ↔ n = top := by
  obtain ⟨depth, quote⟩ := n
  simp only [atTop, top, Bool.and_eq_true, beq_iff_eq, Option.isNone_iff_eq_none, mk.injEq]

/-- Neither quotes nor parentheses have anything to do with the character. -/
def isPlain (c : Char) : Bool := !isQuote c && c != '(' && c != ')'

/-- Blanks are plain. -/
theorem isPlain_of_isBlank {c : Char} (h : isBlank c = true) : isPlain c = true := by
  have hne : ∀ d : Char, isBlank d = false → c ≠ d := by
    rintro d hd rfl
    exact Bool.false_ne_true (hd.symm.trans h)
  simp only [isPlain, isQuote, beq_eq_false_iff_ne.mpr (hne '"' rfl),
    beq_eq_false_iff_ne.mpr (hne '\'' rfl), bne,
    beq_eq_false_iff_ne.mpr (hne '(' rfl), beq_eq_false_iff_ne.mpr (hne ')' rfl),
    Bool.or_self, Bool.not_false, Bool.and_self]

/-- A character separates exactly if it is plain and stands at the top. -/
theorem separates_iff {n : Nesting} {c : Char} :
    n.separates c = true ↔ n = top ∧ isPlain c = true := by
  simp only [separates, isPlain, Bool.and_eq_true, atTop_iff, and_assoc]

/-- A plain character leaves the place as it is. -/
theorem next_of_isPlain {c : Char} (h : isPlain c = true) (n : Nesting)
    (hq : n.quote = none) : n.next c = n := by
  simp only [isPlain, Bool.and_eq_true, Bool.not_eq_true', bne_iff_ne, ne_eq] at h
  simp only [next, hq, h.1.1, h.1.2, h.2, ite_false, Bool.false_eq_true]

/-- Behind a separator is the top again. -/
theorem next_of_separates {n : Nesting} {c : Char} (h : n.separates c = true) :
    n.next c = top := by
  obtain ⟨rfl, hc⟩ := separates_iff.mp h
  exact next_of_isPlain hc top rfl

end Nesting

open Nesting

/-- A separator never stands at the top of the text, from a place on. -/
def clear (sep : Char) : Nesting → List Char → Bool
  | _, [] => true
  | n, c :: s => !(n.separates c && c == sep) && clear sep (n.next c) s

variable {sep : Char} {n : Nesting} {s t before after : List Char}

@[simp] theorem clear_nil : clear sep n [] = true := rfl

/-- A text is clear exactly if its first character is no separator at the top and the others are
clear. -/
theorem clear_cons {c : Char} :
    clear sep n (c :: s) = true ↔
      ¬(n.separates c = true ∧ c = sep) ∧ clear sep (n.next c) s = true := by
  rw [clear, Bool.and_eq_true, Bool.not_eq_true', ← Bool.not_eq_true, Bool.and_eq_true, beq_iff_eq]

/-- A text is clear when its two parts are. -/
theorem clear_append :
    clear sep n (s ++ t) = true ↔ clear sep n s = true ∧ clear sep (n.run s) t = true := by
  induction s generalizing n with
  | nil => simp only [List.nil_append, clear_nil, run_nil, true_and]
  | cons c s ih => rw [List.cons_append, clear_cons, ih, clear_cons, run_cons, and_assoc]

/-- A text without the character is clear of it. -/
theorem clear_of_not_mem (h : sep ∉ s) : clear sep n s = true := by
  induction s generalizing n with
  | nil => rfl
  | cons c s ih =>
    rw [List.mem_cons, not_or] at h
    exact clear_cons.mpr ⟨fun hc => h.1 hc.2.symm, ih h.2⟩

/-- A clear text has no cut, and no other text lacks one. -/
theorem cutFrom?_eq_none : cutFrom? sep n s = none ↔ clear sep n s = true := by
  induction s generalizing n with
  | nil => exact iff_of_true rfl rfl
  | cons c s ih =>
    rw [cutFrom?, clear]
    cases n.separates c && c == sep with
    | true => simp only [ite_true, Bool.not_true, Bool.false_and, reduceCtorEq, Bool.false_eq_true]
    | false =>
      simp only [ite_false, Bool.false_eq_true, Option.map_eq_none_iff, ih, Bool.not_false,
        Bool.true_and]

/-- A cut ends the longest clear beginning. -/
theorem cutFrom?_eq_some :
    cutFrom? sep n s = some (before, after) ↔
      s = before ++ sep :: after ∧ clear sep n before = true ∧
        (n.run before).separates sep = true := by
  induction s generalizing n before with
  | nil =>
    refine iff_of_false (by rw [cutFrom?]; exact nofun) ?_
    rintro ⟨h, -⟩
    exact List.append_ne_nil_of_right_ne_nil _ (List.cons_ne_nil _ _) h.symm
  | cons c s ih =>
    rw [cutFrom?]
    by_cases hc : n.separates c = true ∧ c = sep
    · obtain ⟨hs, rfl⟩ := hc
      simp only [hs, beq_self_eq_true, Bool.and_self, ite_true, Option.some.injEq, Prod.mk.injEq]
      constructor
      · rintro ⟨rfl, rfl⟩
        exact ⟨rfl, rfl, hs⟩
      · rintro ⟨he, hb, -⟩
        cases before with
        | nil => exact ⟨rfl, (List.cons.inj he).2⟩
        | cons d before =>
          obtain ⟨rfl, -⟩ := List.cons.inj he
          exact absurd ⟨hs, rfl⟩ (clear_cons.mp hb).1
    · rw [if_neg (by simpa only [Bool.and_eq_true, beq_iff_eq] using hc), Option.map_eq_some_iff]
      constructor
      · rintro ⟨⟨b, a⟩, hcut, he⟩
        obtain ⟨rfl, rfl⟩ := Prod.mk.inj he
        obtain ⟨rfl, hb, hsep⟩ := ih.mp hcut
        exact ⟨rfl, clear_cons.mpr ⟨hc, hb⟩, hsep⟩
      · rintro ⟨he, hb, hsep⟩
        cases before with
        | nil =>
          obtain ⟨rfl, -⟩ := List.cons.inj he
          exact absurd ⟨hsep, rfl⟩ hc
        | cons d before =>
          obtain ⟨rfl, rfl⟩ := List.cons.inj he
          exact ⟨(before, after), ih.mpr ⟨rfl, (clear_cons.mp hb).2, hsep⟩, rfl⟩

/-- A cut does not depend on what stands behind it. -/
theorem cutFrom?_append (h : cutFrom? sep n s = some (before, after)) (t : List Char) :
    cutFrom? sep n (s ++ t) = some (before, after ++ t) := by
  obtain ⟨rfl, hb, hsep⟩ := cutFrom?_eq_some.mp h
  rw [List.append_assoc, List.cons_append]
  exact cutFrom?_eq_some.mpr ⟨rfl, hb, hsep⟩

/-- A clear text in front only makes longer what stands before the cut. -/
theorem cutFrom?_append_of_clear (h : clear sep n s = true) (t : List Char) :
    cutFrom? sep n (s ++ t) =
      (cutFrom? sep (n.run s) t).map fun cut => (s ++ cut.1, cut.2) := by
  cases ht : cutFrom? sep (n.run s) t with
  | none => exact cutFrom?_eq_none.mpr (clear_append.mpr ⟨h, cutFrom?_eq_none.mp ht⟩)
  | some cut =>
    obtain ⟨before, after⟩ := cut
    obtain ⟨rfl, hb, hsep⟩ := cutFrom?_eq_some.mp ht
    refine cutFrom?_eq_some.mpr ⟨(List.append_assoc ..).symm, clear_append.mpr ⟨h, hb⟩, ?_⟩
    rwa [run_append]

/-- Brackets that are plain are found where separators are. -/
theorem cutOpeningFrom?_of_isPlain (h : isPlain sep = true) :
    cutOpeningFrom? sep n s = cutFrom? sep n s := by
  induction s generalizing n with
  | nil => rfl
  | cons c s ih =>
    rw [cutOpeningFrom?, cutFrom?, ih]
    by_cases hc : c = sep
    · subst hc
      have hsep : n.separates c = n.atTop := by
        rw [Bool.eq_iff_iff, separates_iff, atTop_iff, and_iff_left h]
      rw [hsep, Bool.and_comm]
    · have hne : (c == sep) = false := beq_eq_false_iff_ne.mpr hc
      rw [hne, Bool.false_and, Bool.and_false]

/-- Putting characters before a part one by one puts the text before it. -/
theorem foldr_extendFirst (s part : List Char) (rest : List (List Char)) :
    s.foldr extendFirst (part :: rest) = (s ++ part) :: rest := by
  induction s with
  | nil => rfl
  | cons c s ih => rw [List.foldr_cons, ih, extendFirst, List.cons_append]

/-- A clear text in front only makes the first part longer. -/
theorem splitFrom_append (h : clear sep n s = true) (t : List Char) :
    splitFrom sep n (s ++ t) = s.foldr extendFirst (splitFrom sep (n.run s) t) := by
  induction s generalizing n with
  | nil => rfl
  | cons c s ih =>
    obtain ⟨hc, hs⟩ := clear_cons.mp h
    rw [List.cons_append, splitFrom, if_neg (by simpa only [Bool.and_eq_true, beq_iff_eq] using hc),
      ih hs, run_cons, List.foldr_cons]

/-- A clear text is a single part. -/
theorem splitFrom_of_clear (h : clear sep n s = true) : splitFrom sep n s = [s] := by
  have hs := splitFrom_append h []
  rwa [List.append_nil, splitFrom, foldr_extendFirst, List.append_nil] at hs

/-- A clear text up to a separator is the first part. -/
theorem splitFrom_cut (h : clear sep n s = true) (hsep : (n.run s).separates sep = true)
    (t : List Char) : splitFrom sep n (s ++ sep :: t) = s :: splitTop sep t := by
  rw [splitFrom_append h, splitFrom, hsep, beq_self_eq_true, Bool.and_self, if_pos rfl,
    foldr_extendFirst, List.append_nil, next_of_separates hsep, splitTop]

/-- Behind the first separator the parts are those of the rest. -/
theorem splitFrom_of_cut (h : cutFrom? sep n s = some (before, after)) :
    splitFrom sep n s = before :: splitTop sep after := by
  obtain ⟨rfl, hb, hsep⟩ := cutFrom?_eq_some.mp h
  exact splitFrom_cut hb hsep after

/-- There is a first part. -/
theorem exists_splitFrom (sep : Char) (n : Nesting) (s : List Char) :
    ∃ part rest, splitFrom sep n s = part :: rest := by
  cases h : cutFrom? sep n s with
  | none => exact ⟨s, [], splitFrom_of_clear (cutFrom?_eq_none.mp h)⟩
  | some cut => exact ⟨cut.1, splitTop sep cut.2, splitFrom_of_cut h⟩

/-- More text changes no part but the last one. -/
theorem splitFrom_append_last {init : List (List Char)} {last : List Char}
    (h : splitFrom sep n s = init ++ [last]) (t : List Char) :
    splitFrom sep n (s ++ t) = init ++ last.foldr extendFirst (splitFrom sep (n.run s) t) := by
  induction s generalizing n init last with
  | nil =>
    have hnil : [] ++ [[]] = init ++ [last] := h
    obtain ⟨rfl, hl⟩ := List.append_inj' hnil rfl
    obtain rfl := (List.cons.inj hl).1
    rfl
  | cons c s ih =>
    obtain ⟨part, rest, hs⟩ := exists_splitFrom sep (n.next c) s
    rw [List.cons_append, splitFrom, run_cons]
    rw [splitFrom] at h
    split
    · next hc =>
      rw [if_pos hc] at h
      cases init with
      | nil =>
        rw [hs] at h
        exact absurd (List.cons.inj h).2 (List.cons_ne_nil _ _)
      | cons first init =>
        obtain ⟨rfl, hi⟩ := List.cons.inj h
        rw [ih hi, List.cons_append]
    · next hc =>
      rw [if_neg hc, hs, extendFirst] at h
      cases init with
      | nil =>
        obtain ⟨rfl, rfl⟩ := List.cons.inj h
        have hs' : splitFrom sep (n.next c) s = [] ++ [part] := hs
        rw [ih hs']
        rfl
      | cons first init =>
        obtain ⟨rfl, rfl⟩ := List.cons.inj h
        have hs' : splitFrom sep (n.next c) s = (part :: init) ++ [last] := hs
        rw [ih hs']
        rfl

/-- The parts and the separators between them are the text. -/
theorem join_splitFrom {part : List Char} {rest : List (List Char)}
    (h : splitFrom sep n s = part :: rest) : part ++ rest.flatMap (sep :: ·) = s := by
  induction s generalizing n part rest with
  | nil =>
    obtain ⟨rfl, rfl⟩ := List.cons.inj h
    rfl
  | cons c s ih =>
    obtain ⟨next, others, hs⟩ := exists_splitFrom sep (n.next c) s
    have hjoin := ih hs
    rw [splitFrom, hs] at h
    split at h
    · next hc =>
      rw [Bool.and_eq_true, beq_iff_eq] at hc
      obtain ⟨rfl, rfl⟩ := List.cons.inj h
      rw [List.nil_append, List.flatMap_cons, List.cons_append, hjoin, hc.2]
    · obtain ⟨rfl, rfl⟩ := List.cons.inj h
      rw [List.cons_append, hjoin]

/-- A separator at the top keeps the parts before and behind it apart. -/
theorem splitTop_append (h : top.run s = top) (hsep : isPlain sep = true) (t : List Char) :
    splitTop sep (s ++ sep :: t) = splitTop sep s ++ splitTop sep t := by
  obtain ⟨part, rest, hs⟩ := exists_splitFrom sep top s
  have hne : part :: rest ≠ [] := List.cons_ne_nil part rest
  have hlast := (List.dropLast_concat_getLast hne).symm
  have hparts : splitTop sep s = (part :: rest).dropLast ++ [(part :: rest).getLast hne] :=
    hs.trans hlast
  have hcut : splitFrom sep top (sep :: t) = [] :: splitTop sep t :=
    splitFrom_cut (s := []) rfl (separates_iff.mpr ⟨rfl, hsep⟩) t
  rw [splitTop, splitFrom_append_last hparts, h, hcut, foldr_extendFirst, List.append_nil, hparts,
    List.append_assoc, List.singleton_append]

end RouteSheet.Text
