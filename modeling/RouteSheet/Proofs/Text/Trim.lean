import RouteSheet.Text.Basic

/-!
# What trimming leaves

Blanks around a text are invisible once it is trimmed, and a text whose first and
last characters are not blank is its own trimming. Every text is its trimming
between two runs of blanks.
-/

namespace RouteSheet.Text

/-- Two texts are blank exactly if both are. -/
theorem isBlankText_append {s t : List Char} :
    isBlankText (s ++ t) = (isBlankText s && isBlankText t) := List.all_append

/-- The empty text is blank. -/
theorem isBlankText_nil : isBlankText [] = true := rfl

/-- The characters of a blank text are blank. -/
theorem isBlank_of_mem {s : List Char} (h : isBlankText s = true) {c : Char} (hc : c ∈ s) :
    isBlank c = true := List.all_eq_true.mp h c hc

/-- Blanks in front are dropped. -/
theorem trimStart_append_of_blank {b : List Char} (h : isBlankText b = true) (s : List Char) :
    trimStart (b ++ s) = trimStart s :=
  List.dropWhile_append_of_pos fun _ hc => isBlank_of_mem h hc

/-- The blanks in front and what follows them are the text. -/
theorem takeWhile_append_trimStart (s : List Char) : s.takeWhile isBlank ++ trimStart s = s :=
  List.takeWhile_append_dropWhile

/-- The leading blanks are blank. -/
theorem isBlankText_takeWhile (s : List Char) : isBlankText (s.takeWhile isBlank) = true :=
  List.all_takeWhile

/-- A character that is not blank stays where it is. -/
theorem trimStart_cons {c : Char} (h : isBlank c = false) (s : List Char) :
    trimStart (c :: s) = c :: s := by
  simp only [trimStart, List.dropWhile_cons, h, Bool.false_eq_true, ite_false]

/-- Trimming leaves nothing exactly of a blank text. -/
theorem trimStart_eq_nil {s : List Char} : trimStart s = [] ↔ isBlankText s = true := by
  rw [trimStart, isBlankText, List.all_eq_true]
  constructor
  · intro h c hc
    rw [← List.takeWhile_append_dropWhile (p := isBlank) (l := s), h, List.append_nil] at hc
    exact isBlank_of_mem (List.all_takeWhile (l := s)) hc
  · intro h
    rw [← List.append_nil s, List.dropWhile_append_of_pos h]
    rfl

/-- Trimming leaves something exactly of a text that is not blank. -/
theorem trimStart_ne_nil {s : List Char} : trimStart s ≠ [] ↔ isBlankText s = false := by
  rw [ne_eq, trimStart_eq_nil, Bool.not_eq_true]

/-- The leading blanks of a text that is not blank are not all of it. -/
theorem length_takeWhile_isBlank_lt {s : List Char} (h : isBlankText s = false) :
    (s.takeWhile isBlank).length < s.length := by
  have hpos := List.length_pos_iff.mpr (trimStart_ne_nil.mpr h)
  have hsplit := congrArg List.length (takeWhile_append_trimStart s)
  rw [List.length_append] at hsplit
  omega

/-- What is left begins with a character that is not blank. -/
theorem isBlank_head_trimStart {s rest : List Char} {c : Char} (h : trimStart s = c :: rest) :
    isBlank c = false := by
  have hne : s.dropWhile isBlank ≠ [] := by
    rw [show s.dropWhile isBlank = c :: rest from h]
    exact List.cons_ne_nil c rest
  have hhead := List.head_dropWhile_not isBlank hne
  simpa only [show s.dropWhile isBlank = c :: rest from h, List.head_cons] using hhead

/-- What is left has no leading blanks. -/
theorem trimStart_trimStart (s : List Char) : trimStart (trimStart s) = trimStart s := by
  cases h : trimStart s with
  | nil => rfl
  | cons c rest => exact trimStart_cons (isBlank_head_trimStart h) rest

/-- More text behind a text that is not blank stands behind what is left of it. -/
theorem trimStart_append {s : List Char} (h : trimStart s ≠ []) (t : List Char) :
    trimStart (s ++ t) = trimStart s ++ t := by
  cases hs : trimStart s with
  | nil => exact absurd hs h
  | cons c rest =>
    have hc := isBlank_head_trimStart hs
    have hst : s ++ t = s.takeWhile isBlank ++ (c :: (rest ++ t)) := by
      rw [← List.cons_append, ← hs, ← List.append_assoc, takeWhile_append_trimStart]
    rw [hst, trimStart_append_of_blank (isBlankText_takeWhile s), trimStart_cons hc,
      List.cons_append]

/-- Blanks in front belong to the leading blanks. -/
theorem takeWhile_isBlank_of_blank {b : List Char} (h : isBlankText b = true) (s : List Char) :
    (b ++ s).takeWhile isBlank = b ++ s.takeWhile isBlank :=
  List.takeWhile_append_of_pos fun _ hc => isBlank_of_mem h hc

/-- Blanks at the end are dropped. -/
theorem trimEnd_append_of_blank {b : List Char} (h : isBlankText b = true) (s : List Char) :
    trimEnd (s ++ b) = trimEnd s := by
  have hb : isBlankText b.reverse = true := by
    simpa only [isBlankText, List.all_reverse] using h
  have hrev := trimStart_append_of_blank hb s.reverse
  rw [trimEnd, List.reverse_append]
  exact congrArg List.reverse hrev

/-- What is left and the blanks behind it are the text. -/
theorem exists_append_trimEnd (s : List Char) :
    ∃ b, isBlankText b = true ∧ trimEnd s ++ b = s := by
  refine ⟨(s.reverse.takeWhile isBlank).reverse, ?_, ?_⟩
  · simpa only [isBlankText, List.all_reverse] using isBlankText_takeWhile s.reverse
  · rw [trimEnd, ← List.reverse_append, List.takeWhile_append_dropWhile, List.reverse_reverse]

/-- A character that is not blank stays at the end. -/
theorem trimEnd_concat {c : Char} (h : isBlank c = false) (s : List Char) :
    trimEnd (s ++ [c]) = s ++ [c] := by
  rw [trimEnd, List.reverse_append, List.reverse_singleton, List.singleton_append,
    List.dropWhile_cons_of_neg (by rw [h]; exact Bool.false_ne_true), List.reverse_cons,
    List.reverse_reverse]

/-- Behind a text that ends in a character that is not blank, all is trimmed as it is alone. -/
theorem trimEnd_append {s : List Char} (h : ∀ c, s.getLast? = some c → isBlank c = false)
    (t : List Char) : trimEnd (s ++ t) = s ++ trimEnd t := by
  have hs : s.reverse.dropWhile isBlank = s.reverse := by
    cases hr : s.reverse with
    | nil => rfl
    | cons c rest =>
      have hc : isBlank c = false := h c (by rw [← List.head?_reverse, hr]; rfl)
      rw [List.dropWhile_cons_of_neg (by rw [hc]; exact Bool.false_ne_true)]
  rw [trimEnd, trimEnd, List.reverse_append, List.dropWhile_append]
  split
  · next hnil =>
    rw [hs, List.reverse_reverse, List.isEmpty_iff.mp hnil, List.reverse_nil, List.append_nil]
  · rw [List.reverse_append, List.reverse_reverse]

/-- Blanks on both sides are invisible. -/
theorem trim_padded {b₁ b₂ : List Char} (h₁ : isBlankText b₁ = true) (h₂ : isBlankText b₂ = true)
    (s : List Char) : trim (b₁ ++ s ++ b₂) = trim s := by
  rw [List.append_assoc, trim, trimStart_append_of_blank h₁, trim]
  by_cases hs : trimStart s = []
  · have hs' : isBlankText s = true := trimStart_eq_nil.mp hs
    rw [trimStart_append_of_blank hs', hs, trimStart_eq_nil.mpr h₂]
  · rw [trimStart_append hs, trimEnd_append_of_blank h₂]

/-- Of a blank text nothing is left. -/
theorem trim_eq_nil {s : List Char} (h : isBlankText s = true) : trim s = [] := by
  rw [trim, trimStart_eq_nil.mpr h]
  rfl

/-- Every text is its trimming between blanks. -/
theorem exists_trim (s : List Char) : ∃ b₁ b₂, isBlankText b₁ = true ∧ isBlankText b₂ = true ∧
    s = b₁ ++ trim s ++ b₂ := by
  obtain ⟨b, hb, hs⟩ := exists_append_trimEnd (trimStart s)
  refine ⟨s.takeWhile isBlank, b, isBlankText_takeWhile s, hb, ?_⟩
  rw [List.append_assoc, trim, hs, takeWhile_append_trimStart]

/-- Trimming takes away nothing but blanks. -/
theorem mem_trim_iff {c : Char} (h : isBlank c = false) {s : List Char} : c ∈ trim s ↔ c ∈ s := by
  obtain ⟨b₁, b₂, hb₁, hb₂, hs⟩ := exists_trim s
  have hnot : ∀ b, isBlankText b = true → c ∉ b := fun b hb hc =>
    Bool.false_ne_true (h.symm.trans (isBlank_of_mem hb hc))
  have hmem : c ∈ s ↔ c ∈ b₁ ++ trim s ++ b₂ := by rw [← hs]
  simp [hmem, hnot b₁ hb₁, hnot b₂ hb₂]

/-- The text begins and ends with characters that are not blank. -/
def isTrimmed (s : List Char) : Bool :=
  s.head?.any (!isBlank ·) && s.getLast?.any (!isBlank ·)

/-- A text is trimmed exactly if it has a first and a last character and both are no blanks. -/
theorem isTrimmed_iff {s : List Char} : isTrimmed s = true ↔
    (∃ c, s.head? = some c ∧ isBlank c = false) ∧ ∃ c, s.getLast? = some c ∧ isBlank c = false := by
  simp only [isTrimmed, Bool.and_eq_true, Option.any_eq_true, Bool.not_eq_true']

/-- A trimmed text is not empty. -/
theorem ne_nil_of_isTrimmed {s : List Char} (h : isTrimmed s = true) : s ≠ [] := by
  rintro rfl
  exact absurd h (by decide)

/-- Only the ends matter. -/
theorem isTrimmed_append {s t : List Char} (hs : isTrimmed s = true) (ht : isTrimmed t = true)
    (u : List Char) : isTrimmed (s ++ (u ++ t)) = true := by
  obtain ⟨⟨c, hc, hcb⟩, -⟩ := isTrimmed_iff.mp hs
  obtain ⟨-, d, hd, hdb⟩ := isTrimmed_iff.mp ht
  refine isTrimmed_iff.mpr ⟨⟨c, ?_, hcb⟩, d, ?_, hdb⟩
  · rw [List.head?_append, hc, Option.some_or]
  · rw [← List.append_assoc, List.getLast?_append, hd, Option.some_or]

/-- Trimming leaves a trimmed text alone. -/
theorem trim_of_isTrimmed {s : List Char} (h : isTrimmed s = true) : trim s = s := by
  obtain ⟨⟨c, hc, hcb⟩, d, hd, hdb⟩ := isTrimmed_iff.mp h
  obtain ⟨rest, rfl⟩ := List.head?_eq_some_iff.mp hc
  obtain ⟨init, hinit⟩ := List.getLast?_eq_some_iff.mp hd
  rw [trim, trimStart_cons hcb, hinit, trimEnd_concat hdb]

/-- A text that begins with a trimmed one has no leading blanks. -/
theorem trimStart_append_of_isTrimmed {s : List Char} (h : isTrimmed s = true) (t : List Char) :
    trimStart (s ++ t) = s ++ t := by
  obtain ⟨⟨c, hc, hcb⟩, -⟩ := isTrimmed_iff.mp h
  obtain ⟨rest, rfl⟩ := List.head?_eq_some_iff.mp hc
  rw [List.cons_append, trimStart_cons hcb]

/-- A text that is not blank is trimmed once its blanks are gone. -/
theorem isTrimmed_trim {s : List Char} (h : isBlankText s = false) : isTrimmed (trim s) = true := by
  have hne : trimStart s ≠ [] := by
    intro he
    rw [trimStart_eq_nil.mp he] at h
    exact absurd h (by decide)
  cases hs : trimStart s with
  | nil => exact absurd hs hne
  | cons c rest =>
    have hc := isBlank_head_trimStart hs
    obtain ⟨b, hb, ht⟩ := exists_append_trimEnd (c :: rest)
    cases he : trimEnd (c :: rest) with
    | nil =>
      rw [he, List.nil_append] at ht
      rw [ht] at hb
      rw [isBlank_of_mem hb (List.mem_cons_self ..)] at hc
      exact absurd hc (by decide)
    | cons d t =>
      rw [he, List.cons_append, List.cons.injEq] at ht
      have hlast : ∃ e, (trimEnd (c :: rest)).getLast? = some e ∧ isBlank e = false := by
        cases hr : (c :: rest).reverse.dropWhile isBlank with
        | nil => simp only [trimEnd, hr, List.reverse_nil, reduceCtorEq] at he
        | cons e u =>
          refine ⟨e, ?_, isBlank_head_trimStart hr⟩
          rw [trimEnd, hr, List.reverse_cons, List.getLast?_append]
          rfl
      rw [trim, hs]
      exact isTrimmed_iff.mpr ⟨⟨c, by rw [he, ht.1]; rfl, hc⟩, hlast⟩

/-- Blanks stand outside the ranges of visible ASCII characters. -/
theorem not_isBlank_between {a b c : Char} (ha : 0x21 ≤ a.toNat) (hb : b.toNat < 0x85)
    (hc : isBlank c = true) : (decide (a ≤ c) && decide (c ≤ b)) = false := by
  by_cases hac : a ≤ c
  · by_cases hcb : c ≤ b
    · have h₁ : a.toNat ≤ c.toNat := UInt32.le_iff_toNat_le.mp (Char.le_def.mp hac)
      have h₂ : c.toNat ≤ b.toNat := UInt32.le_iff_toNat_le.mp (Char.le_def.mp hcb)
      simp only [isBlank, inRanges, blankRanges, List.any_cons, List.any_nil, Bool.or_false,
        Bool.or_eq_true, Bool.and_eq_true, decide_eq_true_eq] at hc
      omega
    · rw [decide_eq_false hcb, Bool.and_false]
  · rw [decide_eq_false hac, Bool.false_and]

/-- No letter is blank. -/
theorem isLetter_of_isBlank {c : Char} (hc : isBlank c = true) : isLetter c = false := by
  rw [isLetter, isUpper, isLower, not_isBlank_between (by decide) (by decide) hc,
    not_isBlank_between (by decide) (by decide) hc, Bool.or_self]

end RouteSheet.Text
