import RouteSheet.Store.Cell
import RouteSheet.Text.Basic

/-!
# Words of a statement

A statement is a sequence of names, numbers, texts in single quotes, blobs in
hexadecimal and marks, with blanks and comments between them. Each word knows where
it begins and ends in the text, and each placeholder how many stand before it. The
character of code zero ends the text.
-/

namespace RouteSheet

open Text

/-- A word of a statement, without its place. -/
inductive SqlWord where
  | name (text : String)
  | literal (cell : Cell)
  | placeholder (index : Nat)
  | mark (text : String)
  deriving Repr, DecidableEq

/-- A word and where it begins and ends, in characters. -/
structure SqlToken where
  word : SqlWord
  start : Nat
  stop : Nat
  deriving Repr, DecidableEq

namespace SqlToken

/-- A character that can begin a name. -/
def isNameStart (c : Char) : Bool := isLetter c || c == '_' || 0x80 ≤ c.toNat

/-- A character that can stand in a name. -/
def isNameChar (c : Char) : Bool := isNameStart c || isDigit c

/-- The contents of a quoted text, in which a doubled quote stands for one, and what follows. -/
def quotedText? (quote : Char) : List Char → Option (List Char × List Char)
  | [] => none
  | c :: s =>
    if c = quote then
      match s with
      | d :: s' =>
        if d = quote then (quotedText? quote s').map fun (text, rest) => (quote :: text, rest)
        else some ([], s)
      | [] => some ([], [])
    else (quotedText? quote s).map fun (text, rest) => (c :: text, rest)

/-- The bytes that pairs of hexadecimal digits write. -/
def hexBytes? : List Char → Option (List UInt8)
  | [] => some []
  | a :: b :: rest => do
    let high ← hexValue? a
    let low ← hexValue? b
    let bytes ← hexBytes? rest
    some (UInt8.ofNat (16 * high + low) :: bytes)
  | [_] => none

/-- The cell of a number's text; a whole number is an integer of any size. -/
def numberCell? (s : List Char) : Option Cell :=
  if s.all isDigit then some (.integer (natOfDigits s))
  else (decimal? s).map fun (digits, exponent) => .real (StoreReal.ofDecimal false digits exponent)

/-- The end of a number: digits, a point, and an exponent with its sign. -/
def numberEnd (s : List Char) : List Char :=
  let rest := s.dropWhile fun c => isDigit c || c == '.'
  match rest with
  | e :: sign :: d :: more =>
    if (e == 'e' || e == 'E') && (sign == '+' || sign == '-') && isDigit d then
      more.dropWhile isDigit
    else if (e == 'e' || e == 'E') && isDigit sign then (d :: more).dropWhile isDigit
    else rest
  | [e, d] => if (e == 'e' || e == 'E') && isDigit d then [] else rest
  | _ => rest

/-- The word that a text begins with, given how many placeholders came before, and what
follows it. -/
def word? (placeholders : Nat) : List Char → Option (SqlWord × List Char)
  | [] => none
  | c :: s =>
    if c = '?' then some (.placeholder placeholders, s)
    else if c = '\'' then
      (quotedText? '\'' s).map fun (text, rest) => (.literal (.text (String.ofList text)), rest)
    else if (c == 'x' || c == 'X') && s.head? == some '\'' then
      match quotedText? '\'' (s.drop 1) with
      | some (text, rest) => (hexBytes? text).map fun bytes => (.literal (.blob bytes), rest)
      | none => none
    else if isNameStart c then
      let (name, rest) := takeRun isNameChar (c :: s)
      some (.name (String.ofList name), rest)
    else if isDigit c || (c == '.' && (s.head?.map isDigit).getD false) then
      let rest := numberEnd (c :: s)
      (numberCell? ((c :: s).take (s.length + 1 - rest.length))).map fun cell =>
        (.literal cell, rest)
    else if c == '!' && s.head? == some '=' then some (.mark "!=", s.drop 1)
    else if c == '<' && s.head? == some '>' then some (.mark "!=", s.drop 1)
    else if c == '=' && s.head? == some '=' then some (.mark "=", s.drop 1)
    else some (.mark (String.ofList [c]), s)

/-- What follows a comment in slashes and stars, which may be left open. -/
def behindComment : List Char → List Char
  | '*' :: '/' :: s => s
  | _ :: s => behindComment s
  | [] => []

/-- What follows the blank or the comment that a text begins with. -/
def skip? : List Char → Option (List Char)
  | '-' :: '-' :: s => some ((s.dropWhile (· != '\n')).drop 1)
  | '/' :: '*' :: c :: s => some (behindComment (c :: s))
  | c :: s => if Cell.isNumeralBlank c then some s else none
  | [] => none

/-- The words of a text, whose first character stands at a place. The bound is on the number of
steps, and the length of the text and one more is enough. -/
def all? : Nat → Nat → Nat → List Char → Option (List SqlToken)
  | 0, _, _, _ => none
  | _, _, _, [] => some []
  | fuel + 1, start, placeholders, c :: s =>
    if c = '\x00' then some []
    else
      match skip? (c :: s), word? placeholders (c :: s) with
      | some rest, _ => all? fuel (start + (s.length + 1 - rest.length)) placeholders rest
      | none, some (word, rest) =>
        let stop := start + (s.length + 1 - rest.length)
        let placeholders := match word with
          | .placeholder _ => placeholders + 1
          | _ => placeholders
        (all? fuel stop placeholders rest).map (⟨word, start, stop⟩ :: ·)
      | none, none => none

end SqlToken

/-- The words of a statement's text. -/
def sqlTokens? (s : List Char) : Option (List SqlToken) := SqlToken.all? (s.length + 1) 0 0 s

end RouteSheet
