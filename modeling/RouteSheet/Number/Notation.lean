import RouteSheet.Number.Basic
import RouteSheet.Text.Basic

/-!
# How numbers are written

Every decimal inside the rounding interval of a finite value reads back as that
value. The interval reaches half the gap to each neighbour, and its ends belong
to it exactly when the mantissa is even. The written form takes the coarsest
decimal grid that has a point in the interval, and the nearest such point; where
two points are equally near, the two ways to decide are a parameter.

A whole number of at most 2 ^ 53 - 1 in magnitude is written as an integer, and
so zero has no sign. Any other number has its shortest digits. As text it stands
without an exponent, however long that gets; in JSON it is plain when its leading
digit has an exponent from -5 to 15 and scientific otherwise, and what is not
finite becomes null.
-/

namespace RouteSheet

/-- The decimal digits × 10 ^ exponent. -/
structure Decimal where
  digits : Nat
  exponent : Int
  deriving Repr, DecidableEq

/-- Which of two equally near decimals is taken. -/
inductive Tie where
  | even
  | away
  deriving Repr, DecidableEq

namespace Decimal

/-- Numerator and denominator that compare digits × 10 ^ exponent, in units, as a fraction. -/
def ratio (d : Decimal) : Nat × Nat :=
  (d.digits * tenTo d.exponent.toNat * Finite.one, tenTo (-d.exponent).toNat)

/-- The decimal lies in the rounding interval of a value. Below a power of two the gap is half
as wide as above. -/
def readsBack (d : Decimal) (x : Finite) : Bool :=
  let (num, den) := d.ratio
  let gap := if x.mantissa = normalMantissa && 0 < x.power then 1 else 2
  let low := (4 * x.mantissa - gap) <<< x.power * den
  let high := (4 * x.mantissa + 2) <<< x.power * den
  if x.mantissa % 2 = 0 then low ≤ 4 * num && 4 * num ≤ high
  else low < 4 * num && 4 * num < high

/-- The decimal without trailing zeros among its digits, dropping at most as many as allowed. -/
def stripZeros : Nat → Decimal → Decimal
  | 0, d => d
  | fuel + 1, d =>
    if d.digits % 10 = 0 then stripZeros fuel ⟨d.digits / 10, d.exponent + 1⟩ else d

end Decimal

namespace Finite

/-- The least power of ten above a value that is not zero. The binary logarithm gives it up to
two steps. -/
def decimalScale (x : Finite) : Int :=
  let estimate := ((x.magnitude.log2 : Int) - 1074) * 30103 / 100000
  let below (k : Int) : Bool :=
    x.magnitude * tenTo (-k).toNat < tenTo k.toNat * one
  if below estimate then estimate
  else if below (estimate + 1) then estimate + 1
  else estimate + 2

/-- The point of the grid of 10 ^ exponent that reads back as the value and is nearest to it. -/
def onGrid? (tie : Tie) (x : Finite) (exponent : Int) : Option Decimal :=
  let num := x.magnitude * tenTo (-exponent).toNat
  let den := tenTo exponent.toNat * one
  let lower : Decimal := ⟨num / den, exponent⟩
  let upper : Decimal := ⟨num / den + 1, exponent⟩
  let twice := 2 * (num % den)
  match lower.readsBack x, upper.readsBack x with
  | true, true =>
    if twice < den then some lower
    else if den < twice then some upper
    else match tie with
      | .even => if lower.digits % 2 = 0 then some lower else some upper
      | .away => some upper
  | true, false => some lower
  | false, true => some upper
  | false, false => none

/-- The decimal with the fewest digits that reads back as a value that is not zero: seventeen
always suffice. -/
def shortest (tie : Tie) (x : Finite) : Decimal :=
  let scale := x.decimalScale
  let found := (List.range 17).findSome? fun (n : Nat) => x.onGrid? tie (scale - 1 - (n : Int))
  (found.getD ⟨x.magnitude * Nat.pow 5 1074, -1074⟩).stripZeros 17

end Finite

namespace Decimal

/-- Without an exponent, and without a fraction where there is none. -/
def plain (d : Decimal) : String :=
  let ds := Text.natDigits d.digits
  if 0 ≤ d.exponent then String.ofList (ds ++ List.replicate d.exponent.toNat '0')
  else
    let places := (-d.exponent).toNat
    let padded := List.replicate (places + 1 - ds.length) '0' ++ ds
    let whole := padded.length - places
    String.ofList (padded.take whole ++ '.' :: padded.drop whole)

/-- One digit, the other digits behind a point, and the exponent with its sign. -/
def scientific (d : Decimal) : String :=
  let ds := Text.natDigits d.digits
  let exponent := d.exponent + (ds.length - 1 : Nat)
  let fraction := if ds.length ≤ 1 then [] else '.' :: ds.drop 1
  let sign := if exponent < 0 then '-' else '+'
  String.ofList (ds.take 1 ++ fraction ++ 'e' :: sign :: Text.natDigits exponent.natAbs)

/-- The exponent of the leading digit. -/
def leadingExponent (d : Decimal) : Int :=
  d.exponent + ((Text.natDigits d.digits).length : Int) - 1

end Decimal

namespace Finite

/-- The minus sign of a negative value. -/
def sign (x : Finite) : String := if x.negative then "-" else ""

end Finite

/-- The decimal text of an integer. -/
def intText (i : Int) : String :=
  (if i < 0 then "-" else "") ++ String.ofList (Text.natDigits i.natAbs)

namespace Number

/-- The number as text: an integer where it is a safe one, else its shortest digits without an
exponent, the larger of two equally near ones. -/
def toText (x : Number) : String :=
  match x.toSafeInt? with
  | some i => intText i
  | none =>
    match x with
    | .nan => "NaN"
    | .infinite negative => if negative then "-inf" else "inf"
    | .finite y => y.sign ++ (y.shortest .away).plain

end Number

namespace Finite

/-- The value as a JSON number that is no integer literal: its shortest digits, the even one of
two equally near, with a fraction or an exponent always written. -/
def jsonText (x : Finite) : String :=
  if x.mantissa = 0 then x.sign ++ "0.0"
  else
    let d := x.shortest .even
    let body :=
      if -5 ≤ d.leadingExponent && d.leadingExponent ≤ 15 then
        if 0 ≤ d.exponent then d.plain ++ ".0" else d.plain
      else d.scientific
    x.sign ++ body

end Finite

end RouteSheet
