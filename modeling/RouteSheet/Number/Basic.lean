/-!
# Numbers of double precision

A number is a binary64 value: not a number, an infinity, or a finite value. A
finite value counts units of 2 ^ -1074, the least positive one, so it is an
integer, and comparing, cutting off and testing for whole numbers are exact
integer arithmetic. Rounding takes a ratio of such units to the nearest finite
value, ties to the even mantissa, and overflows to infinity.
-/

namespace RouteSheet

/-- Ten to a power. -/
def tenTo (n : Nat) : Nat := Nat.pow 10 n

/-- The least mantissa of a normal form, 2 ^ 52. -/
abbrev normalMantissa : Nat := 0x10000000000000

/-- The bound of all mantissas, 2 ^ 53. -/
abbrev mantissaBound : Nat := 0x20000000000000

/-- The bound of the words of 63 bits, 2 ^ 63. -/
abbrev wordBound : Nat := 0x8000000000000000

/-- A finite binary64 value, mantissa × 2 ^ power units with a sign. Each value has one such
form, apart from zero, which has two signs. -/
structure Finite where
  negative : Bool
  mantissa : Nat
  power : Nat
  mantissa_lt : mantissa < mantissaBound
  power_le : power ≤ 2045
  normal : normalMantissa ≤ mantissa ∨ power = 0
  deriving Repr, DecidableEq

namespace Finite

/-- How many units make one. -/
def one : Nat := 1 <<< 1074

/-- The magnitude in units. -/
def magnitude (x : Finite) : Nat := x.mantissa <<< x.power

/-- The value in units. -/
def scaled (x : Finite) : Int := if x.negative then -(x.magnitude : Int) else x.magnitude

/-- The finite value of a form, if it is the form of one. -/
def make? (negative : Bool) (mantissa power : Nat) : Option Finite :=
  if h : mantissa < mantissaBound ∧ power ≤ 2045 ∧ (normalMantissa ≤ mantissa ∨ power = 0) then
    some ⟨negative, mantissa, power, h.1, h.2.1, h.2.2⟩
  else none

/-- Zero with a sign. -/
def zero (negative : Bool) : Finite :=
  ⟨negative, 0, 0, by decide, by decide, Or.inr rfl⟩

/-- The value is a whole number. -/
def isWhole (x : Finite) : Bool := x.magnitude % one == 0

/-- The value with its fraction cut off. -/
def trunc (x : Finite) : Int := x.scaled.tdiv one

end Finite

/-- A binary64 value. -/
inductive Number where
  | nan
  | infinite (negative : Bool)
  | finite (x : Finite)
  deriving Repr, DecidableEq

/-- The quotient rounded to the nearest natural number, ties to the even one. -/
def roundedQuotient (num den : Nat) : Nat :=
  let q := num / den
  let r := num % den
  if 2 * r < den then q
  else if den < 2 * r then q + 1
  else if q % 2 = 0 then q else q + 1

namespace Number

/-- Zero. -/
def zero : Number := .finite (.zero false)

/-- The finite value nearest to a ratio of units, ties to the even mantissa; an infinity where
the mantissa would need too high a power. -/
def nearest (negative : Bool) (num den : Nat) : Number :=
  let power := (num / den).log2 - 52
  let mantissa := roundedQuotient num (den <<< power)
  let form := if mantissa = mantissaBound then (normalMantissa, power + 1) else (mantissa, power)
  match Finite.make? negative form.1 form.2 with
  | some x => .finite x
  | none => .infinite negative

/-- The number nearest to an integer. -/
def ofInt (i : Int) : Number := nearest (i < 0) (i.natAbs * Finite.one) 1

/-- The number nearest to digits × 10 ^ exponent. Far beyond the range the answer is known
without the power: 10 ^ 310 overflows, and below a quarter of a unit all is zero. -/
def ofDecimal (negative : Bool) (digits : Nat) (exponent : Int) : Number :=
  if digits = 0 then .finite (.zero negative)
  else if 0 ≤ exponent then
    if 310 < exponent then .infinite negative
    else nearest negative (digits * tenTo exponent.toNat * Finite.one) 1
  else
    let places := (-exponent).toNat
    if digits.log2 + 1077 < 3 * places then .finite (.zero negative)
    else nearest negative (digits * Finite.one) (tenTo places)

/-- The finite value that the number is. -/
def finite? : Number → Option Finite
  | .finite x => some x
  | _ => none

/-- A place beyond every finite value. -/
def infinitePosition : Nat := 1 <<< 2100

/-- The place on the line of units, where an infinity lies beyond every finite value. -/
def position? : Number → Option Int
  | .nan => none
  | .infinite negative => some (if negative then -(infinitePosition : Int) else infinitePosition)
  | .finite x => some x.scaled

/-- How two numbers compare; NaN compares with nothing. -/
def compare? (x y : Number) : Option Ordering := do
  let a ← x.position?
  let b ← y.position?
  some (compare a b)

/-- The numbers are equal: both zeros are, and NaN is unequal even to itself. -/
def equals (x y : Number) : Bool := x.compare? y == some .eq

/-- The integer that the number is. -/
def toInt? : Number → Option Int
  | .finite x => if x.isWhole then some x.trunc else none
  | _ => none

/-- The integer that the number is, within the range in which every integer is a number:
at most 2 ^ 53 - 1 in magnitude. -/
def toSafeInt? (x : Number) : Option Int :=
  match x.toInt? with
  | some i => if i.natAbs < mantissaBound then some i else none
  | none => none

/-- The interchange word of a number: sign, exponent field, fraction. -/
def toBits : Number → UInt64
  | .nan => 0x7FF8000000000000
  | .infinite negative =>
    UInt64.ofNat ((if negative then wordBound else 0) + 0x7FF * normalMantissa)
  | .finite x =>
    let word := if x.mantissa < normalMantissa then x.mantissa
      else x.power * normalMantissa + x.mantissa
    UInt64.ofNat ((if x.negative then wordBound else 0) + word)

/-- The number of an interchange word. -/
def ofBits (word : UInt64) : Number :=
  let bits := word.toNat
  let negative := bits / wordBound == 1
  let field := bits / normalMantissa % 0x800
  let fraction := bits % normalMantissa
  let form := if field = 0 then (fraction, 0) else (normalMantissa + fraction, field - 1)
  match Finite.make? negative form.1 form.2 with
  | some x => .finite x
  | none => if fraction = 0 then .infinite negative else .nan

end Number

end RouteSheet
