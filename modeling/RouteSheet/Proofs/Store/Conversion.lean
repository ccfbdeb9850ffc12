import RouteSheet.Proofs.Number.Integral
import RouteSheet.Proofs.Text.Utf8
import RouteSheet.Store.Cell

/-!
# Values in cells and back

A number is bound as an integer where it is whole and below the number nearest to the largest
word, which is 2 ^ 63 and no word itself. That bound is the right one: the integer is the number
and fits, so a finite number comes back as it was. The other way around an integer comes back
unless it lies between two numbers or is the least word.
-/

namespace RouteSheet

namespace Number

open RouteSheet.Finite

/-- The largest word is rounded up: the number nearest to it is 2 ^ 63. -/
theorem position?_ofInt_largestWord :
    (Number.ofInt largestWord).position? = some ((wordBound : Int) * one) := by
  have hscaled : (⟨false, normalMantissa, 1085, by decide, by decide, by decide⟩ : Finite).scaled =
      wordBound * one := by
    decide +kernel
  have hnearest : Number.ofInt largestWord =
      .finite ⟨false, normalMantissa, 1085, by decide, by decide, by decide⟩ := by
    decide +kernel
  rw [hnearest, position?, hscaled]

/-- A finite number is bound as an integer exactly when it is one below 2 ^ 63 in magnitude. -/
theorem isWord_iff {x : Finite} :
    (Number.finite x).isWord = true ↔ ∃ i, x.scaled = i * one ∧ i.natAbs < wordBound := by
  have hlt : ((Number.finite x).abs.compare? (.ofInt largestWord) == some .lt) = true ↔
      x.magnitude < wordBound * one := by
    have habs : (Number.finite x).abs.position? = some (x.magnitude : Int) := rfl
    rw [compare?, habs, position?_ofInt_largestWord]
    simp only [Option.bind_eq_bind, Option.bind_some, beq_iff_eq, Option.some.injEq,
      Int.compare_eq_lt]
    omega
  rw [isWord, Bool.and_eq_true, hlt, Option.isSome_iff_exists]
  constructor
  · rintro ⟨⟨i, hi⟩, hmagnitude⟩
    rw [toInt?_eq_some_iff] at hi
    refine ⟨i, hi, ?_⟩
    rw [← natAbs_scaled, hi, Int.natAbs_mul, Int.natAbs_natCast] at hmagnitude
    exact Nat.lt_of_mul_lt_mul_right hmagnitude
  · rintro ⟨i, hi, hword⟩
    refine ⟨⟨i, toInt?_eq_some_iff.mpr hi⟩, ?_⟩
    rw [← natAbs_scaled, hi, Int.natAbs_mul, Int.natAbs_natCast]
    exact Nat.mul_lt_mul_of_pos_right hword Finite.one_pos

/-- What is bound as a real is no zero, so it keeps its sign. -/
theorem canonical_of_not_isWord {x : Finite} (h : (Number.finite x).isWord ≠ true) :
    x.canonical = x := by
  refine x.canonical_of_ne (fun hzero => h ?_)
  refine isWord_iff.mpr ⟨0, ?_, by decide⟩
  rw [x.scaled_eq_zero_iff.mpr hzero, Int.zero_mul]

/-- Cutting a number that is a word to a word leaves it as it is. -/
theorem clampToWord_of_scaled {x : Finite} {i : Int} (h : x.scaled = i * one)
    (hi : i.natAbs < wordBound) : (Number.finite x).clampToWord = i := by
  have htrunc : x.trunc = i := by
    rw [trunc, h, Int.mul_tdiv_cancel _ (Int.natCast_ne_zero.mpr (Nat.ne_of_gt Finite.one_pos))]
  rw [clampToWord, htrunc, largestWord]
  omega

end Number

namespace Cell

open RouteSheet.Finite

/-- A number that is a word is bound as that word. -/
theorem ofValue_of_scaled {x : Finite} {i : Int} (h : x.scaled = i * one)
    (hi : i.natAbs < wordBound) : ofValue (.number (.finite x)) = .integer i := by
  rw [ofValue, if_pos (Number.isWord_iff.mpr ⟨i, h, hi⟩), Number.clampToWord_of_scaled h hi]

/-- Where a finite number is bound as an integer, the integer is the number and fits. -/
theorem scaled_of_ofValue {x : Finite} {i : Int} (h : ofValue (.number (.finite x)) = .integer i) :
    x.scaled = i * one ∧ i.natAbs < wordBound := by
  rw [ofValue] at h
  by_cases hword : (Number.finite x).isWord = true
  · obtain ⟨j, hj, hlt⟩ := Number.isWord_iff.mp hword
    rw [if_pos hword, Number.clampToWord_of_scaled hj hlt] at h
    cases h
    exact ⟨hj, hlt⟩
  · rw [if_neg hword] at h
    cases h

/-- A finite number comes back from its cell, a zero without its sign. -/
theorem toValue_ofValue_finite (x : Finite) :
    (ofValue (.number (.finite x))).toValue = .number (.finite x.canonical) := by
  by_cases hword : (Number.finite x).isWord = true
  · obtain ⟨i, hi, hlt⟩ := Number.isWord_iff.mp hword
    rw [ofValue_of_scaled hi hlt, toValue, Number.ofInt_of_scaled hi]
  · rw [ofValue, if_neg hword, toValue, Number.canonical_of_not_isWord hword]

/-- What is bound once and fetched is bound as the same cell again. -/
theorem ofValue_toValue_ofValue (v : Value) : ofValue (ofValue v).toValue = ofValue v := by
  cases v with
  | bool b => cases b <;> decide +kernel
  | number x =>
    cases x with
    | finite x =>
      rw [toValue_ofValue_finite]
      by_cases hword : (Number.finite x).isWord = true
      · obtain ⟨i, hi, hlt⟩ := Number.isWord_iff.mp hword
        rw [ofValue_of_scaled hi hlt, ofValue_of_scaled (x.scaled_canonical.trans hi) hlt]
      · rw [Number.canonical_of_not_isWord hword]
    | _ => rfl
  | _ => rfl

/-- An integer of 64 bits is bound as itself after it was fetched exactly when it is a finite
number and not the least word. -/
theorem ofValue_toValue_integer_iff {i : Int} (hlow : -(wordBound : Int) ≤ i)
    (hhigh : i < wordBound) : ofValue (integer i).toValue = .integer i ↔
      (∃ x : Finite, x.scaled = i * one) ∧ i ≠ -(wordBound : Int) := by
  rw [toValue]
  constructor
  · intro h
    obtain ⟨y, hy, -⟩ := Number.exists_ofInt (i := i) (by omega)
    rw [hy] at h
    obtain ⟨hscaled, hlt⟩ := scaled_of_ofValue h
    exact ⟨⟨y, hscaled⟩, by omega⟩
  · rintro ⟨⟨x, hx⟩, hne⟩
    rw [Number.ofInt_of_scaled hx]
    exact ofValue_of_scaled (x.scaled_canonical.trans hx) (by omega)

/-- The bytes of a text are fetched as the text. -/
theorem toValue_blob_bytesOf (s : String) : (blob (Text.bytesOf s.toList)).toValue = .string s := by
  rw [toValue, Text.ofBytesLossy_bytesOf, String.ofList_toList]

/-- Binding and fetching lose nothing but the sign of a zero. A finite number comes back, and where
it is bound as an integer it is that integer and fits; texts, their bytes and null come back; and a
second time changes nothing more. An integer of 64 bits is bound as it was fetched exactly when it
is a finite number and not the least word. -/
theorem conversion_roundTrip :
    (∀ x : Finite, (ofValue (.number (.finite x))).toValue = .number (.finite x.canonical) ∧
      ∀ i, ofValue (.number (.finite x)) = .integer i →
        x.scaled = i * one ∧ -(wordBound : Int) < i ∧ i < wordBound) ∧
    (∀ s, (ofValue (.string s)).toValue = .string s ∧
      (blob (Text.bytesOf s.toList)).toValue = .string s) ∧
    (ofValue .null).toValue = .null ∧
    (∀ v, (ofValue (ofValue v).toValue).toValue = (ofValue v).toValue) ∧
    ∀ i, -(wordBound : Int) ≤ i → i < wordBound →
      (ofValue (integer i).toValue = .integer i ↔
        (∃ x : Finite, x.scaled = i * one) ∧ i ≠ -(wordBound : Int)) := by
  refine ⟨?_, ?_, rfl, ?_, ?_⟩
  · intro x
    refine ⟨toValue_ofValue_finite x, fun i h => ?_⟩
    obtain ⟨hscaled, hlt⟩ := scaled_of_ofValue h
    exact ⟨hscaled, by omega, by omega⟩
  · intro s
    exact ⟨rfl, toValue_blob_bytesOf s⟩
  · intro v
    rw [ofValue_toValue_ofValue]
  · intro i hlow hhigh
    exact ofValue_toValue_integer_iff hlow hhigh

/-- The largest number below 2 ^ 63. -/
def largestBelow : Finite :=
  ⟨false, 0x1FFFFFFFFFFFFF, 1084, by decide, by decide, by decide⟩

/-- The largest number below 2 ^ 63 is bound as an integer and stays one; the least word and an
integer between two numbers do not. -/
theorem conversion_roundTrip_ends :
    largestBelow.scaled = (0x7FFFFFFFFFFFFC00 : Int) * one ∧
    ofValue (integer 0x7FFFFFFFFFFFFC00).toValue = .integer 0x7FFFFFFFFFFFFC00 ∧
    ofValue (integer (-0x8000000000000000)).toValue ≠ .integer (-0x8000000000000000) ∧
    ofValue (integer 0x20000000000001).toValue = .integer 0x20000000000000 ∧
    ¬ ∃ x : Finite, x.scaled = (0x20000000000001 : Int) * one := by
  obtain ⟨hfinite, -, -, -, hinteger⟩ := conversion_roundTrip
  have hlargest : ofValue (.number (.finite largestBelow)) = .integer 0x7FFFFFFFFFFFFC00 := by
    decide +kernel
  have hbetween : ofValue (integer 0x20000000000001).toValue = .integer 0x20000000000000 := by
    decide +kernel
  have hscaled := ((hfinite largestBelow).2 _ hlargest).1
  refine ⟨hscaled, ?_, ?_, hbetween, ?_⟩
  · exact (hinteger _ (by decide) (by decide)).mpr ⟨⟨largestBelow, hscaled⟩, by decide⟩
  · intro h
    exact ((hinteger _ (by decide) (by decide)).mp h).2 rfl
  · intro h
    have hback := (hinteger _ (by decide) (by decide)).mpr ⟨h, by decide⟩
    rw [hbetween] at hback
    exact absurd hback (by decide)

end Cell

end RouteSheet
