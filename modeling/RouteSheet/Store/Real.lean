import RouteSheet.Number.Basic
import RouteSheet.Number.Notation
import RouteSheet.Text.Basic

/-!
# Reals of a store

A pair of numbers stands for their sum, where the second one holds what the first one
has no digits for. The product of two pairs is made of sums and products of numbers,
each of them rounded once, so that only the last of about a hundred binary digits is
uncertain. Numbers are counted in units here, and what lies beyond the range of
double precision is nothing.

A store reads decimals and writes reals by steps of powers of ten in this twofold
precision. Reading takes about the first nineteen digits, and steps of 10 ^ 100,
10 ^ 10 and 10 lead to the exponent; far from one the last digit of the value can be
off. Writing steps until the value has eighteen or nineteen digits in front of the
point, and rounds these to fifteen.
-/

namespace RouteSheet

/-- The units of the finite value nearest to a ratio of units, ties to the even mantissa. -/
def roundedUnits? (num : Int) (den : Nat) : Option Int :=
  match Number.nearest (num < 0) num.natAbs den with
  | .finite x => some x.scaled
  | _ => none

/-- The sum of two values, rounded. -/
def roundedSum? (a b : Int) : Option Int := roundedUnits? (a + b) 1

/-- The product of two values, rounded. -/
def roundedProduct? (a b : Int) : Option Int := roundedUnits? (a * b) Finite.one

/-- The value with the lower 26 digits of its mantissa cut off. The rest of the mantissa and what
is cut off are short enough for their products to be exact. -/
def upperPart (a : Int) : Int :=
  let cut := (a.natAbs.log2 - 52) + 26
  let kept := (a.natAbs >>> cut) <<< cut
  if a < 0 then -(kept : Int) else kept

/-- Two values, in units, that stand for their sum. -/
structure Twofold where
  high : Int
  low : Int
  deriving Repr, DecidableEq

namespace Twofold

/-- The pair nearest to a ratio of units: the nearest value and the value nearest to the rest. -/
def nearest? (num : Int) (den : Nat) : Option Twofold := do
  let high ← roundedUnits? num den
  return ⟨high, ← roundedUnits? (num - high * den) den⟩

/-- The pair nearest to a power of ten. -/
def tenTo? (k : Int) : Option Twofold :=
  nearest? (tenTo k.toNat * Finite.one : Nat) (tenTo (-k).toNat)

/-- The product of two pairs. The first values are split into upper parts and rests; the sum of
the four products has a part that is a value, and the error of that part is known. -/
def times? (x y : Twofold) : Option Twofold := do
  let (upperX, upperY) := (upperPart x.high, upperPart y.high)
  let (restX, restY) := (x.high - upperX, y.high - upperY)
  let upper ← roundedProduct? upperX upperY
  let mixed ← roundedSum? (← roundedProduct? upperX restY) (← roundedProduct? restX upperY)
  let main ← roundedSum? upper mixed
  let error ← roundedSum? (← roundedSum? (← roundedSum? upper (-main)) mixed)
    (← roundedProduct? restX restY)
  let lows ← roundedSum? (← roundedProduct? x.high y.low) (← roundedProduct? x.low y.high)
  let error ← roundedSum? lows error
  let high ← roundedSum? main error
  return ⟨high, ← roundedSum? (← roundedSum? main (-high)) error⟩

end Twofold

namespace StoreReal

/-! ### Reading -/

/-- As soon as the leading digits reach this bound, no more are taken. -/
def digitBound : Nat := 1844674407370955160

/-- The decimal cut to its leading digits. -/
def leading : Nat → Decimal → Decimal
  | 0, d => d
  | fuel + 1, d =>
    if digitBound ≤ d.digits / 10 then leading fuel ⟨d.digits / 10, d.exponent + 1⟩ else d

/-- The decimal with its exponent brought toward zero as long as the digits stay within 64 bits. -/
def spread : Nat → Decimal → Decimal
  | 0, d => d
  | fuel + 1, d =>
    if 0 < d.exponent && d.digits < 1844674407370954956 then
      spread fuel ⟨d.digits * 10, d.exponent - 1⟩
    else d

/-- The decimal that is read in place of another one: leading digits, and an exponent as near to
zero as they allow. Beyond 10000 the exponent makes no difference. -/
def prepared (d : Decimal) : Decimal :=
  let d := leading d.digits.log2 d
  let d : Decimal := ⟨d.digits, max (-10000) (min 10000 d.exponent)⟩
  if 0 ≤ d.exponent then spread 20 d else d.stripZeros (-d.exponent).toNat

/-- Digits of at most 64 bits as a pair. Where they round to 2 ^ 64 the rest is dropped. -/
def ofDigits? (digits : Nat) : Option Twofold := do
  let x ← Twofold.nearest? (digits * Finite.one : Nat) 1
  return if x.high ≤ 0xFFFFFFFFFFFFF800 * (Finite.one : Int) then x else ⟨x.high, 0⟩

/-- The powers of ten whose product is ten to an exponent. -/
def steps (exponent : Int) : List Int :=
  let n := exponent.natAbs
  let toward (k : Int) : Int := if exponent < 0 then -k else k
  List.replicate (n / 100) (toward 100) ++ List.replicate (n % 100 / 10) (toward 10) ++
    List.replicate (n % 10) (toward 1)

/-- A decimal in twofold precision, if it is within the range. -/
def scaled? (d : Decimal) : Option Twofold := do
  (steps d.exponent).foldlM (fun x k => do x.times? (← Twofold.tenTo? k)) (← ofDigits? d.digits)

/-- The real that a store reads from digits × 10 ^ exponent. -/
def ofDecimal (negative : Bool) (digits : Nat) (exponent : Int) : Number :=
  if digits = 0 then .finite (.zero negative)
  else
    match scaled? (prepared ⟨digits, exponent⟩) with
    | some x => .nearest negative (x.high + x.low).natAbs 1
    | none => .infinite negative

/-! ### Writing -/

/-- The value nearest to (2 ^ 63 - 1024) × 10 ^ k, in units. -/
def bound (k : Int) : Int :=
  (roundedUnits? (9223372036854774784 * tenTo k.toNat * Finite.one : Nat)
    (tenTo (-k).toNat)).getD 0

/-- Steps of 10 ^ k as long as the value asks for them; the exponent keeps the product the same. -/
def stepWhile (asks : Int → Bool) (k : Int) : Nat → Twofold × Int → Twofold × Int
  | 0, s => s
  | fuel + 1, (x, exponent) =>
    if asks x.high then
      match (Twofold.tenTo? k).bind x.times? with
      | some y => stepWhile asks k fuel (y, exponent - k)
      | none => (x, exponent)
    else (x, exponent)

/-- A positive magnitude in units as eighteen or nineteen digits with an exponent. Twelve steps of
each size cover the range. -/
def longDigits (magnitude : Nat) : Decimal :=
  let start : Twofold × Int := (⟨magnitude, 0⟩, 0)
  let (x, exponent) :=
    if bound 0 < magnitude then
      stepWhile (bound 0 < ·) (-1) 12 (stepWhile (bound 10 < ·) (-10) 12
        (stepWhile (bound 100 < ·) (-100) 12 start))
    else
      stepWhile (· < bound (-1)) 1 12 (stepWhile (· < bound (-11)) 10 12
        (stepWhile (· < bound (-101)) 100 12 start))
  ⟨(x.high.tdiv Finite.one + x.low.tdiv Finite.one).toNat, exponent⟩

/-- The digits of a positive magnitude in units rounded to so many, a half up, without zeros at
the end. -/
def roundedDigits (count magnitude : Nat) : Decimal :=
  let d := longDigits magnitude
  let dropped := (Text.natDigits d.digits).length - count
  let digits := (2 * d.digits + tenTo dropped) / (2 * tenTo dropped)
  Decimal.stripZeros count ⟨digits, d.exponent + dropped⟩

/-- The text of a real in a column of texts: fifteen digits, always with a point, no sign of
zero, and an exponent of at least two digits below 1e-4 and from 1e15 on. -/
def text : Number → String
  | .nan => ""
  | .infinite negative => if negative then "-Inf" else "Inf"
  | .finite x =>
    if x.mantissa = 0 then "0.0"
    else
      let d := roundedDigits 15 x.magnitude
      let e := d.leadingExponent
      if -4 ≤ e && e < 15 then
        x.sign ++ (if 0 ≤ d.exponent then d.plain ++ ".0" else d.plain)
      else
        let ds := Text.natDigits d.digits
        let fraction := if ds.length ≤ 1 then ['0'] else ds.drop 1
        let places := Text.natDigits e.natAbs
        let exponent := (if e < 0 then '-' else '+') ::
          (List.replicate (2 - places.length) '0' ++ places)
        x.sign ++ String.ofList (ds.take 1 ++ '.' :: fraction ++ 'e' :: exponent)

end StoreReal

end RouteSheet
