import RouteSheet.Number.Numeral
import RouteSheet.Toml.Basic

/-!
# Scalars of TOML

A scalar that is no text is one unbroken word: a boolean, an integer in one of four
bases, a float, or a moment of time. Digits may be grouped by single underscores
between them. A decimal integer has no leading zeros, and every integer fits into
64 bits with its sign.
-/

namespace RouteSheet.Toml

open Text

/-- A character of a scalar word. -/
def isScalarChar (c : Char) : Bool :=
  isLetter c || isDigit c || c == '_' || c == '+' || c == '-' || c == '.' || c == ':'

/-- Digits of a class in groups, without the underscores between the groups. -/
def digitGroups? (p : Char → Bool) (s : List Char) : Option (List Char) :=
  let groups := splitAtChar '_' s
  if groups.all fun group => !group.isEmpty && group.all p then some groups.flatten else none

/-- Decimal digits in groups, without leading zeros. -/
def wholeDigits? (s : List Char) : Option (List Char) :=
  match digitGroups? isDigit s with
  | some ('0' :: _ :: _) => none
  | ds => ds

/-- The number that digits write in a base. -/
def natOfBase (base : Nat) (ds : List Char) : Nat :=
  ds.foldl (fun n d => base * n + (hexValue? d).getD 0) 0

/-- A digit of a base up to sixteen. -/
def isBaseDigit (base : Nat) (c : Char) : Bool := (hexValue? c).any (· < base)

/-- The number behind the mark of a base. -/
def basedInteger? (base : Nat) (s : List Char) : Option Int :=
  (digitGroups? (isBaseDigit base) s).bind fun ds =>
    if natOfBase base ds < wordBound then some (natOfBase base ds : Int) else none

/-- The integer that a word writes. -/
def integer? (s : List Char) : Option Int :=
  match s with
  | '0' :: 'x' :: ds => basedInteger? 16 ds
  | '0' :: 'o' :: ds => basedInteger? 8 ds
  | '0' :: 'b' :: ds => basedInteger? 2 ds
  | _ =>
    let (negative, body) := takeSign s
    (wholeDigits? body).bind fun ds =>
      let n : Int := if negative then -(natOfDigits ds : Int) else natOfDigits ds
      if -(wordBound : Int) ≤ n && n < wordBound then some n else none

/-- The exponent that a text writes, mark and all; no text is the exponent zero. -/
def floatExponent? : List Char → Option Int
  | [] => some 0
  | mark :: s =>
    let (negative, body) := takeSign s
    if mark == 'e' || mark == 'E' then
      (digitGroups? isDigit body).map fun ds =>
        if negative then -(natOfDigits ds : Int) else natOfDigits ds
    else none

/-- The digits behind a point, and what follows them; without a point there are none. -/
def floatFraction? : List Char → Option (List Char × List Char)
  | '.' :: s =>
    let (fraction, rest) := takeRun (fun c => isDigit c || c == '_') s
    (digitGroups? isDigit fraction).map fun ds => (ds, rest)
  | s => some ([], s)

/-- The number that a word with a fraction or an exponent writes. -/
def decimalFloat? (s : List Char) : Option Number := do
  let (negative, body) := takeSign s
  let (whole, rest) := takeRun (fun c => isDigit c || c == '_') body
  let digits ← wholeDigits? whole
  if rest.isEmpty then none
  else
    let (fraction, rest) ← floatFraction? rest
    let exponent ← floatExponent? rest
    some (.ofDecimal negative (natOfDigits (digits ++ fraction)) (exponent - fraction.length))

/-- The word is a float. One that is too large for a number is refused, unless it is negative. -/
def isFloat (s : List Char) : Bool :=
  let (_, body) := takeSign s
  body == "inf".toList || body == "nan".toList ||
    (decimalFloat? s).any fun x => x != .infinite false

/-- The number that two digits write. -/
def twoDigits? (a b : Char) : Option Nat :=
  if isDigit a && isDigit b then some (natOfDigits [a, b]) else none

/-- Two digits write a number up to a greatest one. -/
def isPart (a b : Char) (greatest : Nat) : Bool := (twoDigits? a b).any (· ≤ greatest)

/-- What follows a time of day, which may have a fraction of a second. -/
def behindTime? : List Char → Option (List Char)
  | a :: b :: ':' :: c :: d :: ':' :: e :: f :: rest =>
    if isPart a b 23 && isPart c d 59 && isPart e f 60 then
      match rest with
      | '.' :: s =>
        let (fraction, rest) := takeRun isDigit s
        if fraction.isEmpty then none else some rest
      | _ => some rest
    else none
  | _ => none

/-- A distance from universal time, or nothing. -/
def isZone : List Char → Bool
  | [] => true
  | [c] => c == 'Z' || c == 'z'
  | [sign, a, b, ':', c, d] => (sign == '+' || sign == '-') && isPart a b 23 && isPart c d 59
  | _ => false

/-- A time of day without a zone. -/
def isTime (s : List Char) : Bool := behindTime? s == some []

/-- A time of day, with a zone or without. -/
def isZonedTime (s : List Char) : Bool := (behindTime? s).any isZone

/-- The number of days of a month. -/
def daysInMonth (year month : Nat) : Nat :=
  if month = 2 then
    if year % 4 = 0 && (year % 100 ≠ 0 || year % 400 = 0) then 29 else 28
  else if [4, 6, 9, 11].contains month then 30
  else 31

/-- What follows a date. -/
def behindDate? : List Char → Option (List Char)
  | y1 :: y2 :: y3 :: y4 :: '-' :: a :: b :: '-' :: c :: d :: rest => do
    let century ← twoDigits? y1 y2
    let year ← twoDigits? y3 y4
    let month ← twoDigits? a b
    let day ← twoDigits? c d
    if 1 ≤ month && month ≤ 12 && 1 ≤ day && day ≤ daysInMonth (100 * century + year) month then
      some rest
    else none
  | _ => none

/-- A date without a time. -/
def isDate (s : List Char) : Bool := behindDate? s == some []

/-- A moment of time in one word. -/
def isMoment (s : List Char) : Bool :=
  isTime s ||
    match behindDate? s with
    | some [] => true
    | some (mark :: rest) => (mark == 'T' || mark == 't') && isZonedTime rest
    | none => false

/-- The value that a word writes. -/
def scalar? (s : List Char) : Option Node :=
  if s == "true".toList then some (.boolean true)
  else if s == "false".toList then some (.boolean false)
  else
    match integer? s with
    | some n => some (.integer n)
    | none =>
      if isFloat s then some .float
      else if isMoment s then some .moment
      else none

end RouteSheet.Toml
