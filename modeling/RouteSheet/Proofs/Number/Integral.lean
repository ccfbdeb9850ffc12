import Mathlib.Algebra.Group.Nat.Defs
import RouteSheet.Number.Basic

/-!
# Integers among the numbers

A finite value that is an integer is the number nearest to that integer, so reading a whole
number as an integer and turning the integer back into a number gives the same value, and
only the sign of a zero is lost. Every integer of at most 53 bits is a value, and every
integer of 64 bits has a finite value nearest to it.
-/

namespace RouteSheet

/-- A whole quotient is rounded to itself. -/
theorem roundedQuotient_mul (q : Nat) {den : Nat} (h : 0 < den) :
    roundedQuotient (q * den) den = q := by
  simp only [roundedQuotient, Nat.mul_mod_left, Nat.mul_div_cancel q h, Nat.mul_zero, h, if_true]

/-- Rounding takes the quotient that is cut off or the next one. -/
theorem roundedQuotient_cases (num den : Nat) :
    roundedQuotient num den = num / den ∨ roundedQuotient num den = num / den + 1 := by
  simp only [roundedQuotient]
  split
  · exact Or.inl rfl
  · split
    · exact Or.inr rfl
    · split
      · exact Or.inl rfl
      · exact Or.inr rfl

/-- A power of two as a factor adds to the binary logarithm. -/
theorem log2_mul_two_pow {n : Nat} (h : n ≠ 0) (k : Nat) : (n * 2 ^ k).log2 = n.log2 + k := by
  have hne : n * 2 ^ k ≠ 0 := Nat.mul_ne_zero h (Nat.ne_of_gt (Nat.two_pow_pos k))
  rw [Nat.log2_eq_iff hne, pow_add, Nat.add_right_comm, pow_add _ _ k]
  exact ⟨Nat.mul_le_mul_right _ (Nat.log2_self_le h),
    Nat.mul_lt_mul_of_pos_right Nat.lt_log2_self (Nat.two_pow_pos k)⟩

namespace Finite

/-- One counts two to the power 1074 units. -/
theorem one_eq : one = 2 ^ 1074 := by
  have hshift : ∀ k, 1 <<< k = 2 ^ k := Nat.one_shiftLeft
  exact hshift 1074

/-- One counts at least one unit. -/
theorem one_pos : 0 < one := by
  have hpos : ∀ k, 0 < 1 <<< k := fun k => Nat.one_shiftLeft k ▸ Nat.two_pow_pos k
  exact hpos 1074

/-- The logarithm of a whole number of units is 1074 more than that of the number. -/
theorem log2_mul_one {n : Nat} (h : n ≠ 0) : (n * one).log2 = n.log2 + 1074 := by
  rw [one_eq]
  exact log2_mul_two_pow h 1074

/-- A form within the bounds is the form of a value. -/
theorem make?_eq_some {negative : Bool} {mantissa power : Nat} (hm : mantissa < mantissaBound)
    (hp : power ≤ 2045) (hn : normalMantissa ≤ mantissa ∨ power = 0) :
    make? negative mantissa power = some ⟨negative, mantissa, power, hm, hp, hn⟩ :=
  dif_pos ⟨hm, hp, hn⟩

variable (x : Finite)

/-- The magnitude is the mantissa times its power of two. -/
theorem magnitude_eq : x.magnitude = x.mantissa * 2 ^ x.power := Nat.shiftLeft_eq ..

/-- The value in units has the magnitude. -/
theorem natAbs_scaled : x.scaled.natAbs = x.magnitude := by
  rw [scaled]
  split
  · rw [Int.natAbs_neg, Int.natAbs_natCast]
  · exact Int.natAbs_natCast _

/-- A value is zero exactly when its mantissa is. -/
theorem scaled_eq_zero_iff : x.scaled = 0 ↔ x.mantissa = 0 := by
  rw [← Int.natAbs_eq_zero, natAbs_scaled, magnitude_eq, Nat.mul_eq_zero]
  refine or_iff_left ?_
  exact Nat.ne_of_gt (Nat.two_pow_pos x.power)

/-- The value with the zero that has no sign. -/
def canonical : Finite := if x.mantissa = 0 then zero false else x

/-- A value that is not zero is canonical. -/
theorem canonical_of_ne (h : x.mantissa ≠ 0) : x.canonical = x := if_neg h

/-- The canonical zero has no sign. -/
theorem canonical_of_eq (h : x.mantissa = 0) : x.canonical = zero false := if_pos h

/-- The canonical form of a value is canonical. -/
theorem canonical_canonical : x.canonical.canonical = x.canonical := by
  by_cases h : x.mantissa = 0
  · rw [x.canonical_of_eq h]
    rfl
  · rw [x.canonical_of_ne h, x.canonical_of_ne h]

/-- The canonical form has the same value in units. -/
theorem scaled_canonical : x.canonical.scaled = x.scaled := by
  by_cases h : x.mantissa = 0
  · rw [x.canonical_of_eq h, x.scaled_eq_zero_iff.mpr h]
    rfl
  · rw [x.canonical_of_ne h]

end Finite

namespace Number

open RouteSheet.Finite

/-- The scale at which a value is rounded is its own. -/
private theorem log2_magnitude (x : Finite) : x.magnitude.log2 - 52 = x.power := by
  rw [magnitude_eq]
  by_cases hzero : x.mantissa = 0
  · have hpower : x.power = 0 := by
      rcases x.normal with h | h
      · rw [hzero] at h
        exact absurd h (by decide)
      · exact h
    rw [hzero, hpower]
    rfl
  · have hupper : x.mantissa.log2 < 53 := (Nat.log2_lt hzero).mpr x.mantissa_lt
    rw [log2_mul_two_pow hzero]
    rcases x.normal with h | h
    · have hlower : 52 ≤ x.mantissa.log2 := (Nat.le_log2 hzero).mpr h
      omega
    · omega

section Nearest

variable {negative : Bool} {num den mantissa power : Nat}
  (hpower : (num / den).log2 - 52 = power)

include hpower

/-- The number nearest to a ratio, where the mantissa is rounded without a carry. -/
theorem nearest_of_rounded (hround : roundedQuotient num (den <<< power) = mantissa)
    (hm : mantissa < mantissaBound) (hp : power ≤ 2045)
    (hn : normalMantissa ≤ mantissa ∨ power = 0) :
    nearest negative num den = .finite ⟨negative, mantissa, power, hm, hp, hn⟩ := by
  have hne : mantissa ≠ mantissaBound := Nat.ne_of_lt hm
  unfold nearest
  simp only [hpower, hround, if_neg hne, make?_eq_some hm hp hn]

/-- The number nearest to a ratio, where rounding carries into the power. -/
theorem nearest_of_carry (hround : roundedQuotient num (den <<< power) = mantissaBound)
    (hp : power + 1 ≤ 2045) : nearest negative num den =
      .finite ⟨negative, normalMantissa, power + 1, by decide, hp, Or.inl (Nat.le_refl _)⟩ := by
  have hmake : make? negative normalMantissa (power + 1) = some _ :=
    make?_eq_some (by decide) hp (Or.inl (Nat.le_refl _))
  unfold nearest
  simp only [hpower, hround, if_true, hmake]

end Nearest

/-- A value is the number nearest to itself. -/
theorem nearest_magnitude (x : Finite) : nearest x.negative x.magnitude 1 = .finite x := by
  refine nearest_of_rounded ?_ ?_ x.mantissa_lt x.power_le x.normal
  · rw [Nat.div_one, log2_magnitude]
  · rw [magnitude_eq, Nat.shiftLeft_eq, Nat.one_mul]
    exact roundedQuotient_mul _ (Nat.two_pow_pos _)

/-- At the scale of a ratio its quotient has 53 bits, or fewer at the lowest scale. -/
private theorem quotient_bounds (num : Nat) : num / 2 ^ (num.log2 - 52) < mantissaBound ∧
    (normalMantissa ≤ num / 2 ^ (num.log2 - 52) ∨ num.log2 - 52 = 0) := by
  constructor
  · have hpow : 2 ^ (num.log2 + 1) ≤ mantissaBound * 2 ^ (num.log2 - 52) := by
      rw [show mantissaBound = 2 ^ 53 from rfl, ← pow_add]
      exact Nat.pow_le_pow_right (by decide) (by omega)
    rw [Nat.div_lt_iff_lt_mul (Nat.two_pow_pos _)]
    exact Nat.lt_of_lt_of_le Nat.lt_log2_self hpow
  · by_cases hlow : num.log2 - 52 = 0
    · exact Or.inr hlow
    · refine Or.inl ?_
      have hne : num ≠ 0 := by
        rintro rfl
        exact hlow rfl
      rw [Nat.le_div_iff_mul_le (Nat.two_pow_pos _), show normalMantissa = 2 ^ 52 from rfl,
        ← pow_add, show 52 + (num.log2 - 52) = num.log2 by omega]
      exact Nat.log2_self_le hne

/-- Well below the overflow the nearest number is finite, and only zero is rounded to zero. -/
theorem exists_nearest (negative : Bool) {num : Nat} (h : num.log2 ≤ 2096) :
    ∃ x, nearest negative num 1 = .finite x ∧ (x.mantissa = 0 → num = 0) := by
  obtain ⟨hupper, hlower⟩ := quotient_bounds num
  obtain ⟨mantissa, hround⟩ :
      ∃ mantissa, roundedQuotient num (1 <<< (num.log2 - 52)) = mantissa := ⟨_, rfl⟩
  have hcases := roundedQuotient_cases num (1 <<< (num.log2 - 52))
  rw [hround, Nat.shiftLeft_eq, Nat.one_mul] at hcases
  have hpower : (num / 1).log2 - 52 = num.log2 - 52 := by rw [Nat.div_one]
  by_cases hcarry : mantissa = mantissaBound
  · subst hcarry
    have hne : normalMantissa ≠ 0 := by decide
    exact ⟨_, nearest_of_carry hpower hround (by omega), fun hzero => absurd hzero hne⟩
  · refine ⟨_, nearest_of_rounded hpower hround (by omega) (by omega) (by omega), ?_⟩
    intro hzero
    simp only at hzero
    have hlow : num.log2 - 52 = 0 := by
      simp only [normalMantissa] at hlower
      omega
    rw [hlow, Nat.pow_zero, Nat.div_one] at hcases
    omega

/-- A value that is an integer is the number nearest to that integer, up to the sign of a zero. -/
theorem ofInt_of_scaled {x : Finite} {i : Int} (h : x.scaled = i * one) :
    ofInt i = .finite x.canonical := by
  have hmagnitude : i.natAbs * one = x.canonical.magnitude := by
    rw [← natAbs_scaled, scaled_canonical, h, Int.natAbs_mul, Int.natAbs_natCast]
  have hpos : (0 : Int) < one := Int.natCast_pos.mpr Finite.one_pos
  have hsign : decide (i < 0) = x.canonical.negative := by
    by_cases hzero : x.mantissa = 0
    · have hi : i = 0 := by
        rw [x.scaled_eq_zero_iff.mpr hzero] at h
        exact (Int.mul_eq_zero.mp h.symm).resolve_right (Int.ne_of_gt hpos)
      rw [x.canonical_of_eq hzero, hi]
      rfl
    · have hne : x.scaled ≠ 0 := fun h => hzero (x.scaled_eq_zero_iff.mp h)
      have hnegative : i < 0 ↔ x.scaled < 0 := by
        rw [h]
        constructor
        · intro hi
          exact Int.mul_neg_of_neg_of_pos hi hpos
        · intro hlt
          rcases Int.lt_or_le i 0 with hi | hi
          · exact hi
          · have := Int.mul_nonneg hi (Int.le_of_lt hpos)
            omega
      rw [x.canonical_of_ne hzero]
      cases hx : x.negative with
      | true =>
        refine decide_eq_true (hnegative.mpr ?_)
        simp only [scaled, hx, if_true] at hne ⊢
        omega
      | false =>
        refine decide_eq_false (fun hi => ?_)
        have hlt := hnegative.mp hi
        simp only [scaled, hx, Bool.false_eq_true, if_false] at hlt
        omega
  rw [ofInt, hmagnitude, hsign, nearest_magnitude]

/-- A finite number reads as an integer exactly when it is one. -/
theorem toInt?_eq_some_iff {x : Finite} {i : Int} :
    (Number.finite x).toInt? = some i ↔ x.scaled = i * one := by
  have hne : (one : Int) ≠ 0 := Int.natCast_ne_zero.mpr (Nat.ne_of_gt Finite.one_pos)
  have hwhole : x.isWhole = true ↔ (one : Int) ∣ x.scaled := by
    rw [isWhole, beq_iff_eq, ← Nat.dvd_iff_mod_eq_zero, Int.ofNat_dvd_left, natAbs_scaled]
  rw [toInt?]
  constructor
  · intro h
    by_cases hw : x.isWhole = true
    · rw [if_pos hw] at h
      rw [← Option.some.inj h, trunc, Int.tdiv_mul_cancel (hwhole.mp hw)]
    · rw [if_neg hw] at h
      exact absurd h nofun
  · intro h
    rw [if_pos (hwhole.mpr ⟨i, by rw [h, Int.mul_comm]⟩), trunc, h, Int.mul_tdiv_cancel _ hne]

/-- A finite number is a safe integer exactly when it is one of at most 53 bits. -/
theorem toSafeInt?_eq_some_iff {x : Finite} {i : Int} :
    (Number.finite x).toSafeInt? = some i ↔ x.scaled = i * one ∧ i.natAbs < mantissaBound := by
  rw [← toInt?_eq_some_iff, toSafeInt?]
  cases hx : (Number.finite x).toInt? with
  | none => simp only [reduceCtorEq, false_and]
  | some j =>
    by_cases hj : j.natAbs < mantissaBound
    · simp only [hj, if_true, Option.some.injEq]
      exact ⟨fun h => ⟨h, h ▸ hj⟩, And.left⟩
    · simp only [hj, if_false, reduceCtorEq, Option.some.injEq, false_iff]
      rintro ⟨rfl, h⟩
      exact hj h

/-- The canonical form is the same safe integer, if it is one. -/
theorem toSafeInt?_canonical (x : Finite) :
    (Number.finite x.canonical).toSafeInt? = (Number.finite x).toSafeInt? := by
  refine Option.ext fun i => ?_
  rw [toSafeInt?_eq_some_iff, toSafeInt?_eq_some_iff, scaled_canonical]

/-- What is no safe integer is no zero, so it has its sign in its canonical form. -/
theorem canonical_of_toSafeInt? {x : Finite} (h : (Number.finite x).toSafeInt? = none) :
    x.canonical = x := by
  by_cases hzero : x.mantissa = 0
  · have hsafe : (Number.finite x).toSafeInt? = some 0 := by
      rw [toSafeInt?_eq_some_iff, x.scaled_eq_zero_iff.mpr hzero, Int.zero_mul]
      exact ⟨rfl, by decide⟩
    rw [h] at hsafe
    cases hsafe
  · exact x.canonical_of_ne hzero

/-- Every integer of at most 53 bits is a value. -/
theorem exists_scaled_eq {i : Int} (h : i.natAbs < mantissaBound) :
    ∃ x : Finite, x.scaled = i * one := by
  by_cases hzero : i = 0
  · exact ⟨Finite.zero false, by rw [hzero, Int.zero_mul]; rfl⟩
  · have hne : i.natAbs ≠ 0 := Int.natAbs_ne_zero.mpr hzero
    have hlog : i.natAbs.log2 < 53 := (Nat.log2_lt hne).mpr h
    have hlower : normalMantissa ≤ i.natAbs * 2 ^ (52 - i.natAbs.log2) := by
      have hbits : i.natAbs.log2 + (52 - i.natAbs.log2) = 52 := by omega
      calc normalMantissa = 2 ^ 52 := rfl
        _ = 2 ^ i.natAbs.log2 * 2 ^ (52 - i.natAbs.log2) := by rw [← pow_add, hbits]
        _ ≤ i.natAbs * 2 ^ (52 - i.natAbs.log2) :=
          Nat.mul_le_mul_right _ (Nat.log2_self_le hne)
    have hupper : i.natAbs * 2 ^ (52 - i.natAbs.log2) < mantissaBound := by
      refine Nat.lt_of_lt_of_eq
        (Nat.mul_lt_mul_of_pos_right Nat.lt_log2_self (Nat.two_pow_pos _)) ?_
      rw [← pow_add, show i.natAbs.log2 + 1 + (52 - i.natAbs.log2) = 53 by omega]
      rfl
    let x : Finite := ⟨decide (i < 0), i.natAbs * 2 ^ (52 - i.natAbs.log2), 1022 + i.natAbs.log2,
      hupper, by omega, Or.inl hlower⟩
    have hmagnitude : x.magnitude = i.natAbs * one := by
      rw [magnitude_eq, one_eq]
      change i.natAbs * 2 ^ (52 - i.natAbs.log2) * 2 ^ (1022 + i.natAbs.log2) = _
      rw [Nat.mul_assoc, ← pow_add,
        show 52 - i.natAbs.log2 + (1022 + i.natAbs.log2) = 1074 by omega]
    refine ⟨x, ?_⟩
    rw [scaled, hmagnitude, Int.natCast_mul, ← Int.neg_mul]
    rcases Int.lt_or_le i 0 with hi | hi
    · have hx : x.negative = true := decide_eq_true hi
      rw [if_pos hx, Int.ofNat_natAbs_of_nonpos (Int.le_of_lt hi), Int.neg_neg]
    · have hx : x.negative = false := decide_eq_false (Int.not_lt.mpr hi)
      rw [hx, if_neg Bool.false_ne_true, Int.natAbs_of_nonneg hi]

/-- An integer of 64 bits has a finite number nearest to it, and where that is zero it has no
sign. -/
theorem exists_ofInt {i : Int} (h : i.natAbs < 2 * wordBound) :
    ∃ x, ofInt i = .finite x ∧ x.canonical = x := by
  have hlog : (i.natAbs * one).log2 ≤ 2096 := by
    by_cases hzero : i.natAbs = 0
    · rw [hzero, Nat.zero_mul]
      decide
    · have hword : i.natAbs.log2 < 64 := (Nat.log2_lt hzero).mpr h
      rw [log2_mul_one hzero]
      omega
  obtain ⟨x, hx, hzero⟩ := exists_nearest (decide (i < 0)) hlog
  refine ⟨x, hx, ?_⟩
  by_cases hm : x.mantissa = 0
  · have hi : i.natAbs = 0 :=
      (Nat.mul_eq_zero.mp (hzero hm)).resolve_right (Nat.ne_of_gt Finite.one_pos)
    rw [Int.natAbs_eq_zero.mp hi] at hx
    rw [x.canonical_of_eq hm]
    exact Number.finite.inj hx
  · exact x.canonical_of_ne hm

end Number

end RouteSheet
