import RouteSheet.Number.Basic
import RouteSheet.Text.Basic

/-!
# Numbers read from text

Two grammars. A numeral is what the language itself takes for a number: an
optional minus sign, digits of any script, and a fraction of at least one digit.
The wider reading also knows a plus sign, exponents, a missing whole part or
fraction, and the words for infinity and NaN, with ASCII digits only. Its value
is correctly rounded, and too large a text is infinity.

The decimals of JSON are read in a quicker way that rounds more than once: the
first digits, as many as fit a word, are rounded to a value, and its product or
quotient with a power of ten, itself rounded, is rounded again. So the last digit
of the value can be off, and a decimal just below the greatest value can be refused.
-/

namespace RouteSheet

namespace Text

/-- Digits of any script, with a fraction or without. -/
def isUnsignedNumeral (s : List Char) : Bool :=
  match takeRun isDecimalDigit s with
  | ([], _) => false
  | (_, []) => true
  | (_, '.' :: fraction) => !fraction.isEmpty && fraction.all isDecimalDigit
  | (_, _ :: _) => false

/-- A numeral of the language. -/
def isNumeral : List Char → Bool
  | '-' :: s => isUnsignedNumeral s
  | s => isUnsignedNumeral s

/-- A sign in front of a text, and the text behind it. -/
def takeSign : List Char → Bool × List Char
  | '-' :: s => (true, s)
  | '+' :: s => (false, s)
  | s => (false, s)

/-- The exponent part of a decimal: nothing, or a mark and a signed integer. -/
def exponentPart? : List Char → Option Int
  | [] => some 0
  | mark :: s =>
    let (negative, ds) := takeSign s
    if (mark == 'e' || mark == 'E') && !ds.isEmpty && ds.all isDigit then
      some (if negative then -(natOfDigits ds : Int) else natOfDigits ds)
    else none

/-- The unsigned decimal that a text writes. -/
def decimal? (s : List Char) : Option (Nat × Int) := do
  let (whole, rest) := takeRun isDigit s
  let (fraction, rest) := match rest with
    | '.' :: r => takeRun isDigit r
    | _ => ([], rest)
  if whole.isEmpty && fraction.isEmpty then none
  else
    let exponent ← exponentPart? rest
    some (natOfDigits (whole ++ fraction), exponent - fraction.length)

end Text

namespace Number

/-- The number that a text writes in the wider reading. -/
def ofText? (s : List Char) : Option Number :=
  let (negative, body) := Text.takeSign s
  let word := Text.lower body
  if word == "inf".toList || word == "infinity".toList then some (.infinite negative)
  else if word == "nan".toList then some .nan
  else (Text.decimal? body).map fun (digits, exponent) => .ofDecimal negative digits exponent

/-- The number that a numeral of the language writes. A numeral with digits of another script
is no number. -/
def ofNumeral? (s : List Char) : Option Number := if Text.isNumeral s then ofText? s else none

end Number

namespace Finite

/-- The value nearest to a ratio of units, unless that overflows. -/
def nearest? (num den : Nat) : Option Finite := (Number.nearest false num den).finite?

/-- The value nearest to a power of ten. -/
def tenTo? (places : Nat) : Option Finite := nearest? (tenTo places * one) 1

/-- The product of two magnitudes, rounded. -/
def times? (x y : Finite) : Option Finite := nearest? (x.magnitude * y.magnitude) one

/-- The quotient of two magnitudes, rounded. -/
def over? (x y : Finite) : Option Finite := nearest? (x.magnitude * one) y.magnitude

/-- The greatest exponent of a power of ten that is finite. -/
def maxPlaces : Nat := 308

/-- A magnitude times a power of ten. Beyond the finite powers only zero has a product. -/
def shiftedUp? (x : Finite) (places : Nat) : Option Finite :=
  if places ≤ maxPlaces then (tenTo? places).bind x.times?
  else if x.mantissa = 0 then some x
  else none

/-- A magnitude divided by a power of ten. Beyond the finite powers it is divided by the greatest
of them first, again and again until it is zero. -/
def shiftedDown? (x : Finite) (places : Nat) : Option Finite :=
  if places ≤ maxPlaces then (tenTo? places).bind x.over?
  else if x.mantissa = 0 then some x
  else ((tenTo? maxPlaces).bind x.over?).bind fun y => y.shiftedDown? (places - maxPlaces)
termination_by places
decreasing_by simp only [maxPlaces] at *; omega

/-- The digits that are read onto a significand as long as it fits a word, and those left over. -/
def takeSignificand (significand : Nat) : List Char → Nat × List Char
  | [] => (significand, [])
  | d :: ds =>
    let next := 10 * significand + Text.digitValue d
    if next < 2 * wordBound then takeSignificand next ds else (significand, d :: ds)

/-- The value of a decimal in the quicker reading. Digits of the whole part that are left over
count as places, and digits of the fraction that are left over do not count at all. -/
def ofDecimal? (negative : Bool) (whole fraction : List Char) (exponent : Int) : Option Finite := do
  let (significand, wholeLeft) := takeSignificand 0 whole
  let (significand, fractionLeft) := takeSignificand significand fraction
  let places := exponent + wholeLeft.length - (fraction.length - fractionLeft.length : Nat)
  let x ← nearest? (significand * one) 1
  let y ← if 0 ≤ places then x.shiftedUp? places.toNat else x.shiftedDown? (-places).toNat
  return { y with negative }

end Finite

end RouteSheet
