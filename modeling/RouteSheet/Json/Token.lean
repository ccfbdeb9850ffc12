import RouteSheet.Json.Basic
import RouteSheet.Number.Numeral

/-!
# JSON tokens

The words of a JSON text: punctuation, strings with their escapes undone, numbers
and the three literals. Space, tab and the two line ends separate words, and no
other blank does. A string holds no raw control character and no escape of half a
surrogate pair; a number has no leading zero and no plus sign, and one that is
read as too large for a finite value is refused.
-/

namespace RouteSheet.Json

/-- A word of a JSON text. -/
inductive Token where
  | openArray
  | closeArray
  | openObject
  | closeObject
  | comma
  | colon
  | string (value : String)
  | scalar (value : Json)

/-- A character between words. -/
def isSpace (c : Char) : Bool := c == ' ' || c == '\t' || c == '\n' || c == '\r'

/-- The code unit of four hexadecimal digits, and the text behind them. -/
def codeUnit? : List Char → Option (Nat × List Char)
  | a :: b :: c :: d :: rest => do
    let a ← Text.hexValue? a
    let b ← Text.hexValue? b
    let c ← Text.hexValue? c
    let d ← Text.hexValue? d
    some (((a * 16 + b) * 16 + c) * 16 + d, rest)
  | _ => none

/-- The character of an escape of code units, and the text behind it: a unit of the surrogate
range counts only as the first of a pair. -/
def unitEscape? (s : List Char) : Option (Char × List Char) :=
  match codeUnit? s with
  | none => none
  | some (unit, rest) =>
    if unit < 0xD800 || 0xDFFF < unit then some (Char.ofNat unit, rest)
    else if 0xDC00 ≤ unit then none
    else match rest with
      | '\\' :: 'u' :: rest =>
        match codeUnit? rest with
        | some (second, rest) =>
          if 0xDC00 ≤ second && second ≤ 0xDFFF then
            some (Char.ofNat (0x10000 + (unit - 0xD800) * 0x400 + (second - 0xDC00)), rest)
          else none
        | none => none
      | _ => none

/-- The character that a letter behind a backslash stands for. -/
def letterEscape? : Char → Option Char
  | '"' => some '"'
  | '\\' => some '\\'
  | '/' => some '/'
  | 'b' => some (Char.ofNat 0x08)
  | 'f' => some (Char.ofNat 0x0C)
  | 'n' => some '\n'
  | 'r' => some '\r'
  | 't' => some '\t'
  | _ => none

/-- The contents of a string up to its closing quote, behind those already read (last first),
and the text behind the quote. The bound is on the number of steps, and the length of the text
is enough. -/
def stringContents? : Nat → List Char → List Char → Option (List Char × List Char)
  | 0, _, _ => none
  | _, _, [] => none
  | _ + 1, done, '"' :: rest => some (done.reverse, rest)
  | fuel + 1, done, '\\' :: 'u' :: rest =>
    match unitEscape? rest with
    | some (c, rest) => stringContents? fuel (c :: done) rest
    | none => none
  | fuel + 1, done, '\\' :: letter :: rest =>
    match letterEscape? letter with
    | some c => stringContents? fuel (c :: done) rest
    | none => none
  | fuel + 1, done, c :: rest =>
    if c == '\\' || c.toNat < 0x20 then none else stringContents? fuel (c :: done) rest

/-- A character that can stand in a number. -/
def isNumberChar (c : Char) : Bool :=
  Text.isDigit c || c == '-' || c == '+' || c == '.' || c == 'e' || c == 'E'

/-- The digits of a whole part: a zero alone, or digits that begin with none. -/
def isWholePart : List Char → Bool
  | [] => false
  | ['0'] => true
  | c :: rest => c != '0' && (c :: rest).all Text.isDigit

/-- The number of a JSON numeral. Integers of 64 bits stay integers; minus zero does not. -/
def number? (s : List Char) : Option Json :=
  let negative := s.head? == some '-'
  let body := if negative then s.drop 1 else s
  let (whole, rest) := Text.takeRun Text.isDigit body
  let (fraction, tail) := match rest with
    | '.' :: r => Text.takeRun Text.isDigit r
    | _ => ([], rest)
  if !isWholePart whole || (rest.head? == some '.' && fraction.isEmpty) then none
  else
    match Text.exponentPart? tail with
    | none => none
    | some exponent =>
      let value : Int :=
        if negative then -(Text.natOfDigits whole : Int) else Text.natOfDigits whole
      if rest.isEmpty && !(negative && value == 0) && -(wordBound : Int) ≤ value &&
          value < 2 * wordBound then
        some (.integer value)
      else
        (Finite.ofDecimal? negative whole fraction exponent).map .real

/-- The literal of a word. -/
def literal? (word : List Char) : Option Json :=
  if word == "null".toList then some .null
  else if word == "true".toList then some (.bool true)
  else if word == "false".toList then some (.bool false)
  else none

/-- The words of a text, behind those already read (last first). The bound is on the number of
steps, and the length of the text and one more is enough. -/
def tokensOnto? : Nat → List Token → List Char → Option (List Token)
  | 0, _, _ => none
  | _, done, [] => some done.reverse
  | fuel + 1, done, c :: s =>
    if isSpace c then tokensOnto? fuel done s
    else if c = '[' then tokensOnto? fuel (.openArray :: done) s
    else if c = ']' then tokensOnto? fuel (.closeArray :: done) s
    else if c = '\x7b' then tokensOnto? fuel (.openObject :: done) s
    else if c = '\x7d' then tokensOnto? fuel (.closeObject :: done) s
    else if c = ',' then tokensOnto? fuel (.comma :: done) s
    else if c = ':' then tokensOnto? fuel (.colon :: done) s
    else if c = '"' then
      match stringContents? fuel [] s with
      | some (value, rest) => tokensOnto? fuel (.string (String.ofList value) :: done) rest
      | none => none
    else if Text.isDigit c || c == '-' then
      let (word, rest) := Text.takeRun isNumberChar (c :: s)
      match number? word with
      | some value => tokensOnto? fuel (.scalar value :: done) rest
      | none => none
    else
      let (word, rest) := Text.takeRun Text.isLetter (c :: s)
      match literal? word with
      | some value => tokensOnto? fuel (.scalar value :: done) rest
      | none => none

/-- The words of a text. -/
def tokens? (s : List Char) : Option (List Token) := tokensOnto? (s.length + 1) [] s

end RouteSheet.Json
