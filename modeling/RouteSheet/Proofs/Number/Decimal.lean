import RouteSheet.Number.Numeral
import RouteSheet.Proofs.Number.Integral

/-!
# Where the quicker reading of decimals is right

The quicker reading rounds the significand, a power of ten, and their product or quotient. Every
significand of at most 53 bits is a value, and so is every power of ten up to the twenty-second,
so for these decimals only the last of the three roundings counts. It rounds the decimal itself,
as the correct reading does.
-/

namespace RouteSheet

/-- Rounding depends on the ratio alone. -/
theorem roundedQuotient_mul_right (num den : Nat) {k : Nat} (hk : 0 < k) :
    roundedQuotient (num * k) (den * k) = roundedQuotient num den := by
  have hquotient : num * k / (den * k) = num / den := Nat.mul_div_mul_right _ _ hk
  have hrest : 2 * (num * k % (den * k)) = 2 * (num % den) * k := by
    rw [Nat.mul_mod_mul_right, Nat.mul_assoc]
  simp only [roundedQuotient, hquotient, hrest, Nat.mul_lt_mul_right hk]

/-- Whether a mantissa and a power are the form of a value does not depend on the sign. -/
theorem Finite.make?_signed (negative : Bool) (mantissa power : Nat) :
    make? negative mantissa power = (make? false mantissa power).map ({ · with negative }) := by
  unfold make?
  by_cases h : mantissa < mantissaBound ∧ power ≤ 2045 ∧ (normalMantissa ≤ mantissa ∨ power = 0)
  · rw [dif_pos h, dif_pos h, Option.map_some]
  · rw [dif_neg h, dif_neg h, Option.map_none]

namespace Number

variable (negative : Bool)

/-- The nearest number depends on the ratio alone. -/
theorem nearest_mul_right (num den : Nat) {k : Nat} (hk : 0 < k) :
    nearest negative (num * k) (den * k) = nearest negative num den := by
  have hquotient : num * k / (den * k) = num / den := Nat.mul_div_mul_right _ _ hk
  have hround : ∀ power, roundedQuotient (num * k) ((den * k) <<< power) =
      roundedQuotient num (den <<< power) := by
    intro power
    rw [Nat.shiftLeft_eq, Nat.shiftLeft_eq, Nat.mul_right_comm, roundedQuotient_mul_right _ _ hk]
  unfold nearest
  rw [hquotient]
  simp only [hround]

/-- The finite value nearest to a ratio is the same for both signs, apart from the sign. -/
theorem finite?_nearest (num den : Nat) :
    (nearest negative num den).finite? = (Finite.nearest? num den).map ({ · with negative }) := by
  unfold Finite.nearest? nearest
  dsimp only
  rw [Finite.make?_signed negative]
  cases Finite.make? false _ _ <;> rfl

/-- The number nearest to zero is zero. -/
theorem nearest_zero (den : Nat) : nearest negative 0 den = .finite (Finite.zero negative) := by
  have hround : roundedQuotient 0 (den <<< 0) = 0 := by
    simp [roundedQuotient]
  exact nearest_of_rounded (by rw [Nat.zero_div]; rfl) hround (by decide) (by decide) (.inr rfl)

end Number

namespace Finite

open RouteSheet.Number

variable {x : Finite} {n places : Nat}

/-- A significand of at most 53 bits is a value. -/
theorem nearest?_significand (h : n < mantissaBound) :
    ∃ x, nearest? (n * one) 1 = some x ∧ x.magnitude = n * one := by
  obtain ⟨y, hy⟩ := exists_scaled_eq (i := n) h
  have hmagnitude : y.magnitude = n * one := by
    rw [← natAbs_scaled, hy, Int.natAbs_mul, Int.natAbs_natCast, Int.natAbs_natCast]
  have hnearest := finite?_nearest y.negative y.magnitude 1
  rw [nearest_magnitude, hmagnitude] at hnearest
  obtain ⟨x, hx, hxy⟩ := Option.map_eq_some_iff.mp hnearest.symm
  have hsame : x.magnitude = y.magnitude := by
    rw [← hxy]
    rfl
  exact ⟨x, hx, hsame.trans hmagnitude⟩

/-- A power of ten up to the twenty-second is a value. -/
theorem exists_tenTo? (h : places ≤ 22) :
    ∃ x, tenTo? places = some x ∧ x.magnitude = RouteSheet.tenTo places * one := by
  have hall : ∀ places ≤ 22,
      (tenTo? places).map magnitude = some (RouteSheet.tenTo places * one) := by
    decide +kernel
  exact Option.map_eq_some_iff.mp (hall places h)

/-- The product of exact factors is the decimal, rounded once. -/
theorem shiftedUp?_exact (hx : x.magnitude = n * one) (h : places ≤ 22) :
    x.shiftedUp? places = nearest? (n * RouteSheet.tenTo places * one) 1 := by
  obtain ⟨y, hy, hmagnitude⟩ := exists_tenTo? h
  have hfinite : places ≤ maxPlaces := Nat.le_trans h (by decide)
  have hproduct : x.magnitude * y.magnitude = n * RouteSheet.tenTo places * one * one := by
    rw [hx, hmagnitude, Nat.mul_mul_mul_comm, Nat.mul_assoc _ one one]
  have hratio := nearest_mul_right false (n * RouteSheet.tenTo places * one) 1 one_pos
  rw [Nat.one_mul] at hratio
  rw [shiftedUp?, if_pos hfinite, hy, Option.bind_some, times?, hproduct, nearest?, hratio,
    nearest?]

/-- The quotient of exact terms is the decimal, rounded once. -/
theorem shiftedDown?_exact (hx : x.magnitude = n * one) (h : places ≤ 22) :
    x.shiftedDown? places = nearest? (n * one) (RouteSheet.tenTo places) := by
  obtain ⟨y, hy, hmagnitude⟩ := exists_tenTo? h
  have hfinite : places ≤ maxPlaces := Nat.le_trans h (by decide)
  rw [shiftedDown?, if_pos hfinite, hy, Option.bind_some, over?, hx, hmagnitude, nearest?,
    nearest_mul_right false _ _ one_pos, nearest?]

/-- More digits make no number smaller. -/
theorem le_foldl_digits (n : Nat) (ds : List Char) :
    n ≤ ds.foldl (fun n d => 10 * n + Text.digitValue d) n := by
  induction ds generalizing n with
  | nil => exact Nat.le_refl n
  | cons d ds ih =>
    have hstep := ih (10 * n + Text.digitValue d)
    rw [List.foldl_cons]
    omega

/-- A significand that fits a word takes in all digits. -/
theorem takeSignificand_eq {ds : List Char}
    (h : ds.foldl (fun n d => 10 * n + Text.digitValue d) n < 2 * wordBound) :
    takeSignificand n ds = (ds.foldl (fun n d => 10 * n + Text.digitValue d) n, []) := by
  induction ds generalizing n with
  | nil => rfl
  | cons d ds ih =>
    rw [List.foldl_cons] at h
    have hfits : 10 * n + Text.digitValue d < 2 * wordBound :=
      Nat.lt_of_le_of_lt (le_foldl_digits _ ds) h
    rw [takeSignificand, if_pos hfits, ih h, List.foldl_cons]

/-- The correct reading of a decimal with few places rounds once. -/
theorem finite?_ofDecimal (negative : Bool) (n : Nat) {exponent : Int} (h : exponent.natAbs ≤ 22) :
    (Number.ofDecimal negative n exponent).finite? =
      (if 0 ≤ exponent then nearest? (n * RouteSheet.tenTo exponent.toNat * one) 1
        else nearest? (n * one) (RouteSheet.tenTo (-exponent).toNat)).map
          ({ · with negative }) := by
  have hpositive : ¬310 < exponent := by omega
  have hnegative : ¬n.log2 + 1077 < 3 * (-exponent).toNat := by omega
  rw [Number.ofDecimal]
  by_cases hzero : n = 0
  · have hnearest : ∀ den, nearest? 0 den = some (zero false) := by
      intro den
      rw [nearest?, nearest_zero]
      rfl
    rw [if_pos hzero, hzero, Nat.zero_mul, Nat.zero_mul, hnearest, hnearest, ite_self]
    rfl
  · rw [if_neg hzero]
    by_cases hsign : 0 ≤ exponent
    · rw [if_pos hsign, if_pos hsign, if_neg hpositive, finite?_nearest]
    · rw [if_neg hsign, if_neg hsign, if_neg hnegative, finite?_nearest]

/-- A decimal with a significand of at most 53 bits and at most twenty-two places is read as it
should be: as the finite value nearest to it. -/
theorem ofDecimal?_eq_ofDecimal (negative : Bool) {whole fraction : List Char} {exponent : Int}
    (hdigits : Text.natOfDigits (whole ++ fraction) < mantissaBound)
    (hplaces : (exponent - fraction.length).natAbs ≤ 22) :
    ofDecimal? negative whole fraction exponent =
      (Number.ofDecimal negative (Text.natOfDigits (whole ++ fraction))
        (exponent - fraction.length)).finite? := by
  have hsplit : Text.natOfDigits (whole ++ fraction) =
      fraction.foldl (fun n d => 10 * n + Text.digitValue d) (Text.natOfDigits whole) :=
    List.foldl_append
  have hbound : mantissaBound < 2 * wordBound := by decide
  have hall := Nat.lt_trans hdigits hbound
  have hwhole : takeSignificand 0 whole = (Text.natOfDigits whole, []) := by
    refine takeSignificand_eq (Nat.lt_of_le_of_lt ?_ (hsplit ▸ hall))
    exact le_foldl_digits (Text.natOfDigits whole) fraction
  have hfraction : takeSignificand (Text.natOfDigits whole) fraction =
      (Text.natOfDigits (whole ++ fraction), []) := by
    rw [takeSignificand_eq (hsplit ▸ hall), hsplit]
  obtain ⟨x, hx, hmagnitude⟩ := nearest?_significand hdigits
  rw [finite?_ofDecimal negative _ hplaces, ofDecimal?]
  simp only [hwhole, hfraction, hx, List.length_nil, Int.natCast_zero, Int.add_zero, Nat.sub_zero,
    Option.bind_eq_bind, Option.bind_some]
  by_cases hsign : 0 ≤ exponent - fraction.length
  · rw [if_pos hsign, if_pos hsign, shiftedUp?_exact hmagnitude (by omega)]
    cases nearest? _ _ <;> rfl
  · rw [if_neg hsign, if_neg hsign, shiftedDown?_exact hmagnitude (by omega)]
    cases nearest? _ _ <;> rfl

/-- With one place more the power of ten is no value, and the last digit can be off. -/
example : ofDecimal? false ['3'] [] 23 ≠ (Number.ofDecimal false 3 23).finite? := by
  decide +kernel

end Finite

end RouteSheet
