import RouteSheet.Expr.Reader
import RouteSheet.Proofs.Text.Balanced
import RouteSheet.Proofs.Text.Phrase
import RouteSheet.Text.Basic

/-!
# Tokens of the surface syntax

Names, quoted texts and numerals as an author writes them, with blanks between them.
A token carries the proof that it is well formed, so that every value of these types
is a text that the language documents.
-/

namespace RouteSheet.Surface

open Text Nesting

/-- The characters of names are ASCII. -/
theorem toNat_lt_of_isNameChar {c : Char} (h : Condition.isNameChar c = true) : c.toNat < 128 := by
  simp only [Condition.isNameChar, isLetter, Bool.or_eq_true, beq_iff_eq] at h
  rcases h with (((h | h) | h) | rfl) | rfl
  · exact toNat_lt_of_isUpper h
  · exact toNat_lt_of_isLower h
  · exact toNat_lt_of_isDigit h
  · decide
  · decide

/-- A run of blanks, or nothing. -/
abbrev Blanks := { b : List Char // isBlankText b = true }

/-- The name of a variable, a parameter, a field or a header. -/
structure Name where
  chars : List Char
  ne_nil : chars ≠ []
  isName : chars.all Condition.isNameChar = true

/-- A text between two quotes of one kind, without that quote in it. -/
structure Quoted where
  quote : Char
  contents : List Char
  isQuote : Text.isQuote quote = true
  free : quote ∉ contents

/-- Decimal digits, with a minus sign or a fraction or without. -/
structure Numeral where
  negative : Bool
  whole : List Char
  fraction : List Char
  ne_nil : whole ≠ []
  isWhole : whole.all isDigit = true
  isFraction : fraction.all isDigit = true

/-- A character that separates the parts of a call. -/
def isSeparator (c : Char) : Bool := c == ';' || c == ',' || c == ':'

/-- A character with nothing to it: plain, not blank and no separator. -/
def isTame (c : Char) : Bool := isPlain c && !isBlank c && !isSeparator c

/-- The characters of names are tame. -/
theorem isTame_of_isNameChar {c : Char} (h : Condition.isNameChar c = true) : isTame c = true := by
  have hall : ∀ n < 128, Condition.isNameChar (Char.ofNat n) = true →
      isTame (Char.ofNat n) = true := by decide
  exact of_ascii (P := fun c => Condition.isNameChar c = true → isTame c = true) hall
    (toNat_lt_of_isNameChar h) h

/-- Digits may stand in names. -/
theorem isNameChar_of_isDigit {c : Char} (h : isDigit c = true) :
    Condition.isNameChar c = true := by
  simp only [Condition.isNameChar, h, Bool.or_true, Bool.true_or]

/-- A tame character is plain, no blank and no separator. -/
theorem isTame_iff {c : Char} : isTame c = true ↔
    isPlain c = true ∧ isBlank c = false ∧ isSeparator c = false := by
  simp only [isTame, Bool.and_eq_true, Bool.not_eq_true', and_assoc]

variable {s : List Char}

/-- Tame texts are balanced, and clear of separators. -/
theorem balanced_of_tame (h : s.all isTame = true) : Balanced isSeparator s :=
  Balanced.of_plain fun c hc =>
    have ht := isTame_iff.mp (List.all_eq_true.mp h c hc)
    ⟨ht.1, ht.2.2⟩

/-- Blanks are balanced, and clear of separators. -/
theorem balanced_of_blank (hs : isBlankText s = true) : Balanced isSeparator s := by
  refine Balanced.of_blank hs fun c hc => ?_
  by_cases h : isSeparator c = true
  · simp only [isSeparator, Bool.or_eq_true, beq_iff_eq] at h
    rcases h with (rfl | rfl) | rfl <;> exact absurd hc (by decide)
  · exact Bool.eq_false_iff.mpr h

/-- What is clear of all separators is clear of each. -/
theorem balanced_of_separator {d : Char} (h : Balanced isSeparator s) (hd : isSeparator d = true) :
    Balanced (· == d) s :=
  h.mono fun c hc => by
    refine beq_eq_false_iff_ne.mpr ?_
    rintro rfl
    exact Bool.false_ne_true (hc.symm.trans hd)

/-- Trimming leaves tame texts alone. -/
theorem isTrimmed_of_tame (h : s.all isTame = true) (hne : s ≠ []) : isTrimmed s = true := by
  have hblank : ∀ c ∈ s, isBlank c = false := fun c hc =>
    (isTame_iff.mp (List.all_eq_true.mp h c hc)).2.1
  refine isTrimmed_iff.mpr ⟨⟨s.head hne, List.head?_eq_some_head hne, ?_⟩,
    s.getLast hne, List.getLast?_eq_some_getLast hne, ?_⟩
  · exact hblank _ (List.head_mem hne)
  · exact hblank _ (List.getLast_mem hne)

/-- Nothing else than a minus sign or a digit begins a numeral. -/
theorem ofNumeral?_eq_none {c : Char} (hminus : c ≠ '-') (hdigit : isDecimalDigit c = false)
    (s : List Char) : Number.ofNumeral? (c :: s) = none := by
  have hrun : takeRun isDecimalDigit (c :: s) = ([], c :: s) := by
    simp only [takeRun, List.takeWhile_cons, List.dropWhile_cons, hdigit, Bool.false_eq_true,
      ite_false]
  have hnumeral : isNumeral (c :: s) = false := by
    unfold isNumeral
    split
    · next h => exact absurd (List.cons.inj h).1 hminus
    · rw [isUnsignedNumeral, hrun]
  rw [Number.ofNumeral?, hnumeral, if_neg Bool.false_ne_true]

namespace Name

variable (n : Name)

/-- The characters of a name are tame. -/
theorem isTame_chars : n.chars.all isTame = true :=
  List.all_eq_true.mpr fun c hc => isTame_of_isNameChar (List.all_eq_true.mp n.isName c hc)

/-- A name is balanced. -/
theorem balanced : Balanced isSeparator n.chars := balanced_of_tame n.isTame_chars

end Name

namespace Quoted

variable (q : Quoted)

/-- The text with its quotes. -/
def text : List Char := q.quote :: (q.contents ++ [q.quote])

/-- A quoted text is balanced, whatever separates. -/
theorem balanced {p : Char → Bool} : Balanced p q.text := .quoted q.isQuote q.free

/-- A quote is one of two characters. -/
theorem quote_eq : q.quote = '"' ∨ q.quote = '\'' := by
  simpa only [Text.isQuote, Bool.or_eq_true, beq_iff_eq] using q.isQuote

/-- A quote is no blank. -/
theorem isBlank_quote : isBlank q.quote = false := by
  rcases q.quote_eq with h | h <;> rw [h] <;> rfl

/-- A quoted text is no numeral. -/
theorem ofNumeral?_text : Number.ofNumeral? q.text = none := by
  refine ofNumeral?_eq_none ?_ ?_ _ <;> rcases q.quote_eq with h | h <;> rw [h] <;> decide

/-- A quoted text has no blanks at its ends. -/
theorem isTrimmed_text : isTrimmed q.text = true := by
  refine isTrimmed_iff.mpr ⟨⟨q.quote, rfl, q.isBlank_quote⟩, q.quote, ?_, q.isBlank_quote⟩
  rw [text, ← List.cons_append, List.getLast?_concat]

/-- Only the one layer of quotes is taken off. -/
theorem stripQuotes_text : stripQuotes q.text = q.contents :=
  stripQuotes_quoted q.isQuote q.contents

end Quoted

namespace Numeral

variable (n : Numeral)

/-- The digits with the sign and the point. -/
def text : List Char :=
  (if n.negative then ['-'] else []) ++
    (n.whole ++ if n.fraction = [] then [] else '.' :: n.fraction)

/-- The number that the digits write. -/
def value : Number :=
  .ofDecimal n.negative (natOfDigits (n.whole ++ n.fraction)) (-(n.fraction.length : Int))

/-- The characters of a numeral are tame. -/
theorem isTame_text : n.text.all isTame = true := by
  have hdigits : ∀ ds : List Char, ds.all isDigit = true → ds.all isTame = true := fun ds hds =>
    List.all_eq_true.mpr fun c hc =>
      isTame_of_isNameChar (isNameChar_of_isDigit (List.all_eq_true.mp hds c hc))
  have hsign : (if n.negative then ['-'] else []).all isTame = true := by
    split <;> decide
  have hpoint : (if n.fraction = [] then [] else '.' :: n.fraction).all isTame = true := by
    split
    · rfl
    · rw [List.all_cons, hdigits _ n.isFraction]
      decide
  rw [text, List.all_append, List.all_append, hsign, hdigits _ n.isWhole, hpoint]
  rfl

/-- A numeral begins with a character of a name that is no letter. -/
theorem exists_text :
    ∃ c s, n.text = c :: s ∧ Condition.isNameChar c = true ∧ isLetter c = false := by
  obtain ⟨d, ds, hw⟩ := List.exists_cons_of_ne_nil n.ne_nil
  have hd : isDigit d = true := List.all_eq_true.mp n.isWhole d (hw ▸ List.mem_cons_self ..)
  have hletter : isLetter d = false := by
    have hall : ∀ n < 128, isDigit (Char.ofNat n) = true → isLetter (Char.ofNat n) = false := by
      decide
    exact of_ascii (P := fun c => isDigit c = true → isLetter c = false) hall
      (toNat_lt_of_isDigit hd) hd
  rw [text, hw]
  cases n.negative with
  | true => exact ⟨'-', _, rfl, rfl, rfl⟩
  | false => exact ⟨d, _, rfl, isNameChar_of_isDigit hd, hletter⟩

/-- A numeral takes at least one character. -/
theorem text_ne_nil : n.text ≠ [] :=
  List.append_ne_nil_of_right_ne_nil _ (List.append_ne_nil_of_left_ne_nil n.ne_nil _)

/-- The text without the sign. -/
private def unsigned : List Char :=
  n.whole ++ if n.fraction = [] then [] else '.' :: n.fraction

private theorem digit_facts {c : Char} (h : isDigit c = true) : isDecimalDigit c = true ∧
    c ≠ '-' ∧ c ≠ '+' ∧ lowerChar c ≠ 'i' ∧ lowerChar c ≠ 'n' := by
  have hall : ∀ n < 128, isDigit (Char.ofNat n) = true → isDecimalDigit (Char.ofNat n) = true ∧
      Char.ofNat n ≠ '-' ∧ Char.ofNat n ≠ '+' ∧ lowerChar (Char.ofNat n) ≠ 'i' ∧
        lowerChar (Char.ofNat n) ≠ 'n' := by decide
  exact of_ascii (P := fun c => isDigit c = true → isDecimalDigit c = true ∧ c ≠ '-' ∧ c ≠ '+' ∧
    lowerChar c ≠ 'i' ∧ lowerChar c ≠ 'n') hall (toNat_lt_of_isDigit h) h

private theorem takeRun_unsigned {p : Char → Bool} (hp : ∀ c, isDigit c = true → p c = true)
    (hpoint : p '.' = false) : takeRun p n.unsigned =
      (n.whole, if n.fraction = [] then [] else '.' :: n.fraction) := by
  refine takeRun_append_of_all ?_ ?_
  · exact List.all_eq_true.mpr fun c hc => hp c (List.all_eq_true.mp n.isWhole c hc)
  · intro c hc
    split at hc
    · exact absurd hc nofun
    · rw [← Option.some.inj hc]
      exact hpoint

private theorem isUnsignedNumeral_unsigned : isUnsignedNumeral n.unsigned = true := by
  have hdecimal : ∀ c, isDigit c = true → isDecimalDigit c = true := fun c hc => (digit_facts hc).1
  obtain ⟨d, ds, hw⟩ := List.exists_cons_of_ne_nil n.ne_nil
  unfold isUnsignedNumeral
  rw [n.takeRun_unsigned hdecimal rfl, hw]
  by_cases hf : n.fraction = []
  · rw [if_pos hf]
  · rw [if_neg hf]
    have hall : n.fraction.all isDecimalDigit = true :=
      List.all_eq_true.mpr fun c hc => hdecimal c (List.all_eq_true.mp n.isFraction c hc)
    simp only [hall, Bool.and_true, Bool.not_eq_true', List.isEmpty_eq_false_iff, ne_eq, hf,
      not_false_eq_true]

private theorem decimal?_unsigned : decimal? n.unsigned =
    some (natOfDigits (n.whole ++ n.fraction), -(n.fraction.length : Int)) := by
  have hwhole : n.whole.isEmpty = false := List.isEmpty_eq_false_iff.mpr n.ne_nil
  unfold decimal?
  rw [n.takeRun_unsigned (fun c hc => hc) rfl]
  by_cases hf : n.fraction = []
  · simp only [hf, ite_true, hwhole, Bool.false_and, Bool.false_eq_true, ite_false, exponentPart?]
    rfl
  · have hrun : takeRun isDigit n.fraction = (n.fraction, []) := by
      have h := takeRun_append_of_all (t := []) n.isFraction nofun
      rwa [List.append_nil] at h
    simp only [if_neg hf, hrun, hwhole, Bool.false_and, Bool.false_eq_true, ite_false,
      exponentPart?, Option.bind_eq_bind, Option.bind_some, Int.zero_sub]

/-- A numeral is read as the number that its digits write. -/
theorem ofNumeral?_text : Number.ofNumeral? n.text = some n.value := by
  obtain ⟨d, ds, hw⟩ := List.exists_cons_of_ne_nil n.ne_nil
  have hd : isDigit d = true := List.all_eq_true.mp n.isWhole d (hw ▸ List.mem_cons_self ..)
  obtain ⟨-, hminus, hplus, hi, hn⟩ := digit_facts hd
  have hunsigned : n.unsigned = d :: (ds ++ if n.fraction = [] then [] else '.' :: n.fraction) := by
    rw [unsigned, hw, List.cons_append]
  have hsign : takeSign n.text = (n.negative, n.unsigned) := by
    cases hneg : n.negative with
    | true =>
      rw [text, hneg, if_pos rfl, List.singleton_append]
      rfl
    | false =>
      rw [text, hneg, if_neg Bool.false_ne_true, List.nil_append, ← unsigned, hunsigned]
      unfold takeSign
      split
      · next h => exact absurd (List.cons.inj h).1 hminus
      · next h => exact absurd (List.cons.inj h).1 hplus
      · rfl
  have hnumeral : isNumeral n.text = true := by
    cases hneg : n.negative with
    | true =>
      rw [text, hneg, if_pos rfl, List.singleton_append]
      exact n.isUnsignedNumeral_unsigned
    | false =>
      rw [text, hneg, if_neg Bool.false_ne_true, List.nil_append, ← unsigned, hunsigned]
      unfold isNumeral
      split
      · next h => exact absurd (List.cons.inj h).1 hminus
      · rw [← hunsigned]
        exact n.isUnsignedNumeral_unsigned
  have hword : ∀ w : List Char, w.head? ≠ some (lowerChar d) → (lower n.unsigned == w) = false := by
    intro w hne
    refine beq_eq_false_iff_ne.mpr ?_
    rintro rfl
    rw [hunsigned] at hne
    exact hne rfl
  rw [Number.ofNumeral?, if_pos hnumeral, Number.ofText?, hsign]
  simp only [hword "inf".toList (by intro h; exact hi (Option.some.inj h).symm),
    hword "infinity".toList (by intro h; exact hi (Option.some.inj h).symm),
    hword "nan".toList (by intro h; exact hn (Option.some.inj h).symm), Bool.or_self,
    Bool.false_eq_true, ite_false, decimal?_unsigned, Option.map_some, value]

end Numeral

end RouteSheet.Surface
