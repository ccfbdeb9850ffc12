import RouteSheet.Text.Basic
import RouteSheet.Text.Utf8
import RouteSheet.Value.Basic

/-!
# Percent escapes and forms

A percent sign and two hexadecimal digits stand for one byte; escapes are undone
once, byte by byte, and only then are the bytes read as text. A percent sign
without two digits behind it stands for itself. In forms and query strings a plus
sign stands for a space.

A form is a list of named values, joined by ampersands, each a name, an equals
sign and a value with escapes in both. It is the shape of a query string and of a
form body. A name that comes again does not replace the value it has: the values
are joined by commas in the order in which they came.
-/

namespace RouteSheet.Text

/-- The byte that two hexadecimal digits write. -/
def escapedByte? (high low : UInt8) : Option UInt8 := do
  let h ← hexValue? (Char.ofNat high.toNat)
  let l ← hexValue? (Char.ofNat low.toNat)
  some (UInt8.ofNat (16 * h + l))

/-- What an unescaped byte stands for. -/
def plainByte (plusIsSpace : Bool) (b : UInt8) : UInt8 :=
  if plusIsSpace && b == 0x2B then 0x20 else b

/-- The bytes with their escapes undone, behind those already read (last first). -/
def unescapeOnto (plusIsSpace : Bool) (done : List UInt8) : List UInt8 → List UInt8
  | [] => done.reverse
  | b :: high :: low :: rest =>
    match if b == 0x25 then escapedByte? high low else none with
    | some byte => unescapeOnto plusIsSpace (byte :: done) rest
    | none => unescapeOnto plusIsSpace (plainByte plusIsSpace b :: done) (high :: low :: rest)
  | b :: rest => unescapeOnto plusIsSpace (plainByte plusIsSpace b :: done) rest

/-- The text with its escapes undone; bytes that encode no character become U+FFFD. -/
def percentDecode (plusIsSpace : Bool) (s : List Char) : List Char :=
  ofBytesLossy (unescapeOnto plusIsSpace [] (bytesOf s))

end RouteSheet.Text

namespace RouteSheet.Http

open Text

/-- The fields with one more value for a name. -/
def addValue (name value : String) (fields : Fields String) : Fields String :=
  match fields.get? name with
  | some old => fields.insert name (old ++ "," ++ value)
  | none => fields.insert name value

/-- The name and the value that a piece writes; without an equals sign the value is empty. -/
def formPair (piece : List Char) : String × String :=
  let (name, value) := (cutAtChar? '=' piece).getD (piece, [])
  (String.ofList (percentDecode true name), String.ofList (percentDecode true value))

/-- The pairs that a form writes, in order; empty pieces write none. -/
def formPairs (text : List Char) : List (String × String) :=
  ((splitAtChar '&' text).filter fun piece => !piece.isEmpty).map formPair

/-- The fields that a form writes. -/
def formFields (text : List Char) : Fields String :=
  (formPairs text).foldl (fun fields (name, value) => addValue name value fields) []

end RouteSheet.Http
