import RouteSheet.Proofs.Text.Phrase

/-!
# Parts of a text

A text is cut at a character into parts that do not hold it, and joining the parts gives
the text back. The first occurrence alone cuts off what stands before it. Taking the
characters of a class off both ends leaves a text that neither begins nor ends with one.
-/

namespace RouteSheet.Text

section

variable {sep : Char} {s before after : List Char} {parts : List (List Char)}

/-- There is always at least one part. -/
theorem splitWhere_ne_nil (p : Char → Bool) (s : List Char) : splitWhere p s ≠ [] := by
  cases s with
  | nil => exact List.cons_ne_nil _ _
  | cons c s =>
    rw [splitWhere, List.foldr_cons]
    split
    · exact List.cons_ne_nil _ _
    · unfold extendFirst
      split <;> exact List.cons_ne_nil _ _

/-- Cutting at a class of characters is the cut of the library. -/
theorem splitWhere_eq_splitOnP (p : Char → Bool) (s : List Char) :
    splitWhere p s = s.splitOnP p := by
  induction s with
  | nil => exact List.splitOnP_nil.symm
  | cons c s ih =>
    have hcons : splitWhere p (c :: s) =
        if p c then [] :: splitWhere p s else extendFirst c (splitWhere p s) := rfl
    rw [List.splitOnP_cons_eq_if_modifyHead, hcons, ← ih]
    cases hparts : splitWhere p s with
    | nil => exact absurd hparts (splitWhere_ne_nil p s)
    | cons part rest => rfl

/-- A text is its first part with every other part behind a separator. -/
theorem intercalate_cons_eq (sep : Char) (part : List Char) (rest : List (List Char)) :
    [sep].intercalate (part :: rest) = part ++ rest.flatMap (sep :: ·) := by
  induction rest generalizing part with
  | nil => rw [List.intercalate_singleton, List.flatMap_nil, List.append_nil]
  | cons next rest ih =>
    rw [List.intercalate_cons_cons, ih, List.flatMap_cons, List.append_assoc, List.cons_append,
      List.nil_append, List.cons_append]

/-- Joining the parts gives the text back. -/
theorem intercalate_splitAtChar (sep : Char) (s : List Char) :
    [sep].intercalate (splitAtChar sep s) = s := by
  rw [splitAtChar, splitWhere_eq_splitOnP, ← List.splitOn_eq_splitOnP]
  exact List.intercalate_splitOn sep

/-- Parts that do not hold the character come back from the text that joins them. -/
theorem splitAtChar_intercalate (h : ∀ part ∈ parts, sep ∉ part) (hne : parts ≠ []) :
    splitAtChar sep ([sep].intercalate parts) = parts := by
  rw [splitAtChar, splitWhere_eq_splitOnP, ← List.splitOn_eq_splitOnP]
  exact List.splitOn_intercalate sep h hne

/-- No part holds the character. -/
theorem not_mem_of_mem_splitAtChar {part : List Char} (h : part ∈ splitAtChar sep s) :
    sep ∉ part := by
  induction s generalizing part with
  | nil =>
    rw [List.mem_singleton.mp h]
    exact List.not_mem_nil
  | cons c s ih =>
    have hcons : splitAtChar sep (c :: s) =
        if c == sep then [] :: splitAtChar sep s else extendFirst c (splitAtChar sep s) := rfl
    rw [hcons] at h
    split at h
    · rcases List.mem_cons.mp h with rfl | h
      · exact List.not_mem_nil
      · exact ih h
    · next hc =>
      cases hparts : splitAtChar sep s with
      | nil => exact absurd hparts (splitWhere_ne_nil _ s)
      | cons first rest =>
        rw [hparts] at h ih
        rcases List.mem_cons.mp h with rfl | h
        · have hne : sep ≠ c := fun he => hc (beq_iff_eq.mpr he.symm)
          exact List.not_mem_cons_of_ne_of_not_mem hne (ih List.mem_cons_self)
        · exact ih (List.mem_cons_of_mem _ h)

/-- The text before the first occurrence of a character is cut off. -/
theorem cutAtChar?_append (h : sep ∉ before) (after : List Char) :
    cutAtChar? sep (before ++ sep :: after) = some (before, after) := by
  have hall : before.all (· != sep) = true :=
    List.all_eq_true.mpr fun c hc => bne_iff_ne.mpr fun he => h (he ▸ hc)
  have hstop : ∀ c, (sep :: after).head? = some c → (c != sep) = false := by
    intro c hc
    rw [← Option.some.inj hc, bne_self_eq_false]
  rw [cutAtChar?, takeRun_append_of_all hall hstop]

/-- A cut takes the character out of the text at its first occurrence. -/
theorem of_cutAtChar? (h : cutAtChar? sep s = some (before, after)) :
    s = before ++ sep :: after ∧ sep ∉ before := by
  rw [cutAtChar?, takeRun] at h
  split at h
  · next first c rest hrun =>
    obtain ⟨rfl, rfl⟩ : first = before ∧ rest = after := by simpa using h
    obtain ⟨hfirst, hrest⟩ := Prod.mk.inj hrun
    have hc : (c != sep) = false := by
      have hhead := List.head?_dropWhile_not (· != sep) s
      rwa [hrest] at hhead
    obtain rfl : c = sep := by simpa using hc
    refine ⟨?_, fun hmem => ?_⟩
    · rw [← hfirst, ← hrest, List.takeWhile_append_dropWhile]
    · rw [← hfirst] at hmem
      exact absurd (List.all_eq_true.mp List.all_takeWhile c hmem) (by simp)
  · cases h

/-- Without the character a text is not cut. -/
theorem cutAtChar?_eq_none (h : sep ∉ s) : cutAtChar? sep s = none := by
  have hall : s.all (· != sep) = true :=
    List.all_eq_true.mpr fun c hc => bne_iff_ne.mpr fun he => h (he ▸ hc)
  have hrun := takeRun_append_of_all hall (t := []) nofun
  rw [List.append_nil] at hrun
  rw [cutAtChar?, hrun]

end

section

variable {p : Char → Bool} {s before after : List Char}

/-- What is left behind a run does not begin with a character of the class. -/
theorem head?_dropWhile {c : Char} (h : (s.dropWhile p).head? = some c) : p c = false := by
  have hhead := List.head?_dropWhile_not p s
  rwa [h] at hhead

/-- A text that does not begin with a character of the class is left as it is. -/
theorem dropWhile_of_head? (h : ∀ c, s.head? = some c → p c = false) : s.dropWhile p = s := by
  cases s with
  | nil => rfl
  | cons c s => exact List.dropWhile_cons_of_neg (by rw [h c rfl]; exact Bool.false_ne_true)

/-- A text whose ends are outside the class is what is left of it between runs of the class. -/
theorem trimMatches_padded (hbefore : before.all p = true) (hafter : after.all p = true)
    (hfirst : ∀ c, s.head? = some c → p c = false)
    (hlast : ∀ c, s.getLast? = some c → p c = false) :
    trimMatches p (before ++ (s ++ after)) = s := by
  rw [trimMatches, List.dropWhile_append_of_pos (List.all_eq_true.mp hbefore)]
  cases s with
  | nil =>
    rw [List.nil_append, ← List.append_nil after,
      List.dropWhile_append_of_pos (List.all_eq_true.mp hafter)]
    rfl
  | cons c s =>
    have hrest : (c :: s ++ after).dropWhile p = c :: s ++ after := dropWhile_of_head? hfirst
    have hall : ∀ d ∈ after.reverse, p d = true := by
      intro d hd
      exact List.all_eq_true.mp hafter d (List.mem_reverse.mp hd)
    have hend : (c :: s).reverse.dropWhile p = (c :: s).reverse := by
      refine dropWhile_of_head? fun d hd => hlast d ?_
      rwa [List.head?_reverse] at hd
    rw [hrest, List.reverse_append, List.dropWhile_append_of_pos hall, hend, List.reverse_reverse]

/-- Behind the first run of the class stand what is left and the last run. -/
theorem exists_dropWhile_eq (p : Char → Bool) (s : List Char) :
    ∃ after, after.all p = true ∧ s.dropWhile p = trimMatches p s ++ after := by
  refine ⟨((s.dropWhile p).reverse.takeWhile p).reverse, ?_, ?_⟩
  · rw [List.all_reverse]
    exact List.all_takeWhile
  · rw [trimMatches, ← List.reverse_append, List.takeWhile_append_dropWhile, List.reverse_reverse]

/-- Every text is what is left of it between two runs of the class. -/
theorem exists_trimMatches (p : Char → Bool) (s : List Char) :
    ∃ before after, before.all p = true ∧ after.all p = true ∧
      s = before ++ (trimMatches p s ++ after) := by
  obtain ⟨after, hafter, hs⟩ := exists_dropWhile_eq p s
  refine ⟨s.takeWhile p, after, List.all_takeWhile, hafter, ?_⟩
  rw [← hs, List.takeWhile_append_dropWhile]

/-- What is left does not end in the class. -/
theorem getLast?_trimMatches {c : Char} (h : (trimMatches p s).getLast? = some c) :
    p c = false := by
  rw [trimMatches, List.getLast?_reverse] at h
  exact head?_dropWhile h

/-- What is left does not begin with the class. -/
theorem head?_trimMatches {c : Char} (h : (trimMatches p s).head? = some c) : p c = false := by
  obtain ⟨after, -, hs⟩ := exists_dropWhile_eq p s
  refine head?_dropWhile (s := s) ?_
  rw [hs, List.head?_append, h, Option.some_or]

end

end RouteSheet.Text
