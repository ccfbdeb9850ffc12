import RouteSheet.Number.Numeral
import RouteSheet.Store.Real
import RouteSheet.Text.Utf8
import RouteSheet.Value.Text

/-!
# Cells

What a table holds in one place: nothing, an integer of 64 bits, a real number, a
text or a blob. Values go in as cells and come out again: a whole number within
range is an integer, an array or object its JSON text, and a blob is read as text.
A column draws what it is given toward its own kind, and cells of different kinds
are ordered by kind.
-/

namespace RouteSheet

/-- A place of a table. -/
inductive Cell where
  | null
  | integer (value : Int)
  | real (value : Number)
  | text (value : String)
  | blob (bytes : List UInt8)
  deriving Repr, DecidableEq

/-- The kind of value that a column is declared for. -/
inductive Affinity where
  | integer
  | text
  deriving Repr, DecidableEq

namespace Number

/-- The number as an integer below 2 ^ 63 in magnitude, if it is one. -/
def toWord? (x : Number) : Option Int :=
  match x.toInt? with
  | some i => if i.natAbs < wordBound then some i else none
  | none => none

/-- The number without its sign. -/
def abs : Number → Number
  | .nan => .nan
  | .infinite _ => .infinite false
  | .finite x => .finite { x with negative := false }

/-- The largest integer of 64 bits. -/
def largestWord : Int := wordBound - 1

/-- The number is whole, and its magnitude lies below the number nearest to the largest word. -/
def isWord (x : Number) : Bool :=
  x.toInt?.isSome && x.abs.compare? (.ofInt largestWord) == some .lt

/-- The integer of 64 bits that the number is cut to: the fraction goes, what lies beyond an end of
the range becomes that end, and NaN becomes zero. -/
def clampToWord : Number → Int
  | .nan => 0
  | .infinite negative => if negative then -(wordBound : Int) else largestWord
  | .finite x => max (-(wordBound : Int)) (min x.trunc largestWord)

end Number

namespace Cell

/-- The cell of a parameter. -/
def ofValue : Value → Cell
  | .missing | .null => .null
  | .bool b => .integer (if b then 1 else 0)
  | .number x => if x.isWord then .integer x.clampToWord else .real x
  | .string s => .text s
  | v => .text v.jsonText

/-- The cell of a whole number: an integer where it fits into 64 bits, else a real. -/
def ofWhole (i : Int) : Cell :=
  if -(wordBound : Int) ≤ i && i < wordBound then .integer i
  else .real (StoreReal.ofDecimal (i < 0) i.natAbs 0)

/-- The value of a cell. -/
def toValue : Cell → Value
  | .null => .null
  | .integer i => .number (.ofInt i)
  | .real x => .number x
  | .text s => .string s
  | .blob bytes => .string (String.ofList (Text.ofBytesLossy bytes))

/-- The cell as a statement sees it: NaN is nothing. -/
def bound : Cell → Cell
  | .real .nan => .null
  | c => c

/-- The word for the kind of a cell. -/
def typeName : Cell → String
  | .null => "null"
  | .integer _ => "integer"
  | .real _ => "real"
  | .text _ => "text"
  | .blob _ => "blob"

/-- A blank of the database's own numerals. -/
def isNumeralBlank (c : Char) : Bool := c == ' ' || (0x09 ≤ c.toNat && c.toNat ≤ 0x0D)

/-- The number that a text writes as a decimal, with blanks around it allowed. -/
def ofNumericText? (s : String) : Option Cell :=
  let trimmed := Text.trimMatches isNumeralBlank s.toList
  let (negative, body) := Text.takeSign trimmed
  match Text.decimal? body with
  | none => none
  | some (digits, exponent) =>
    let x := StoreReal.ofDecimal negative digits exponent
    let whole : Int := if negative then -(digits : Int) else digits
    if body.all Text.isDigit && -(wordBound : Int) ≤ whole && whole < wordBound then
      some (.integer whole)
    else
      match x.toWord? with
      | some i => some (.integer i)
      | none => some (.real x)

/-- The cell as a column of the affinity takes it. -/
def drawn (affinity : Affinity) (c : Cell) : Cell :=
  match affinity, c with
  | .integer, .text s => (ofNumericText? s).getD c
  | .integer, .real x =>
    match x.toWord? with
    | some i => .integer i
    | none => c
  | .text, .integer i => .text (intText i)
  | .text, .real x => .text (StoreReal.text x)
  | _, _ => c

/-- The place of a kind in the order of cells. -/
def rank : Cell → Nat
  | .null => 0
  | .integer _ | .real _ => 1
  | .text _ => 2
  | .blob _ => 3

/-- The place of a number in units. -/
def position : Cell → Int
  | .integer i => i * Finite.one
  | .real x => x.position?.getD 0
  | _ => 0

/-- The order of cells: by kind, and within a kind by number, by text or by bytes. -/
def order (a b : Cell) : Ordering :=
  match a, b with
  | .text s, .text t => compare s t
  | .blob s, .blob t => compare (s.map UInt8.toNat) (t.map UInt8.toNat)
  | _, _ => (compare a.rank b.rank).then (compare a.position b.position)

/-- The cells are equal; nothing is equal to anything. -/
def sameAs (a b : Cell) : Bool := a != .null && b != .null && a.order b == .eq

end Cell

end RouteSheet
