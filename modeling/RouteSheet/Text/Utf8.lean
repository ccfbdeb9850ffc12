/-!
# Texts as bytes

A character takes one to four bytes. Encoding is per character; reading back is
a machine that takes one byte at a time and holds an unfinished sequence. A run
of bytes that can no longer become a character is one unit of its own, cut as
soon as it is wrong, so a lossy reading puts one replacement character for each
maximal run that starts like a character and does not end like one.
-/

namespace RouteSheet.Text

/-- How many bytes the text takes. -/
def byteSize (s : List Char) : Nat := s.foldl (fun n c => n + c.utf8Size) 0

/-- The bytes of the text. -/
def bytesOf (s : List Char) : List UInt8 := s.flatMap String.utf8EncodeChar

/-- What is left of a text behind its first bytes, unless they end inside a character
or there are fewer. -/
def dropBytes? : Nat → List Char → Option (List Char)
  | 0, s => some s
  | _ + 1, [] => none
  | n + 1, c :: s => if c.utf8Size ≤ n + 1 then dropBytes? (n + 1 - c.utf8Size) s else none

/-- The beginning of a character that takes several bytes. -/
structure Unfinished where
  /-- the bits read so far -/
  bits : Nat
  /-- how many bytes are still to come -/
  missing : Nat
  /-- the least next byte -/
  low : Nat
  /-- the greatest next byte -/
  high : Nat
  deriving Repr, DecidableEq

/-- What a first byte begins: a whole character, a longer sequence, or nothing. The narrow
ranges of the second byte keep out overlong forms, surrogates and what lies above U+10FFFF. -/
def leadByte (b : Nat) : Option Char × Option Unfinished :=
  if b < 0x80 then (some (Char.ofNat b), none)
  else if b < 0xC2 then (none, none)
  else if b < 0xE0 then (none, some ⟨b - 0xC0, 1, 0x80, 0xBF⟩)
  else if b < 0xF0 then
    (none, some ⟨b - 0xE0, 2, if b = 0xE0 then 0xA0 else 0x80, if b = 0xED then 0x9F else 0xBF⟩)
  else if b < 0xF5 then
    (none, some ⟨b - 0xF0, 3, if b = 0xF0 then 0x90 else 0x80, if b = 0xF4 then 0x8F else 0xBF⟩)
  else (none, none)

/-- The units read so far, last first, where an invalid run is `none`, and the sequence under
way. -/
structure ByteReader where
  units : List (Option Char)
  pending : Option Unfinished

/-- Begins a character at a byte. -/
def ByteReader.start (units : List (Option Char)) (b : Nat) : ByteReader :=
  match leadByte b with
  | (_, some u) => ⟨units, some u⟩
  | (c, none) => ⟨c :: units, none⟩

/-- Takes one byte: it continues the sequence under way, or ends it and begins anew. -/
def ByteReader.step (r : ByteReader) (byte : UInt8) : ByteReader :=
  let b := byte.toNat
  match r.pending with
  | none => .start r.units b
  | some u =>
    if u.low ≤ b && b ≤ u.high then
      let bits := u.bits * 0x40 + (b - 0x80)
      if u.missing ≤ 1 then ⟨some (Char.ofNat bits) :: r.units, none⟩
      else ⟨r.units, some ⟨bits, u.missing - 1, 0x80, 0xBF⟩⟩
    else .start (none :: r.units) b

/-- All units, last first; a sequence that the end cuts short is invalid. -/
def ByteReader.finish (r : ByteReader) : List (Option Char) :=
  if r.pending.isSome then none :: r.units else r.units

/-- The characters of a byte sequence, last first, with `none` for each invalid run. -/
def unitsOfBytes (bytes : List UInt8) : List (Option Char) :=
  (bytes.foldl ByteReader.step ⟨[], none⟩).finish

/-- The text that the bytes encode, if they encode one. -/
def ofBytes? (bytes : List UInt8) : Option (List Char) :=
  let units := unitsOfBytes bytes
  if units.all Option.isSome then some (units.reverse.filterMap id) else none

/-- The text that the bytes encode, with U+FFFD for each invalid run. -/
def ofBytesLossy (bytes : List UInt8) : List Char :=
  ((unitsOfBytes bytes).map fun u => u.getD '\uFFFD').reverse

end RouteSheet.Text
