import RouteSheet.Toml.Quoted
import RouteSheet.Toml.Scalar

/-!
# Reading TOML

A document is a sequence of lines: a header, a key with its value, or nothing, each
with a comment or without. Arrays may go over several lines, braces may not, and
nesting is bounded. Any fault makes the whole text no document.
-/

namespace RouteSheet.Toml

open Reader Text

/-- How deep values may be nested, and one more than the parts of a key may be. -/
def depthLimit : Nat := 80

/-- A comment, up to the end of the line. -/
def comment : Chars Unit := do
  char '#'
  let _ ← front isTextChar

/-- The rest of a line, with its end or at the end of the text. -/
def lineTail : Chars Unit := do
  gap
  let _ ← maybe comment
  if !(← atEnd) then lineEnd

/-- Blanks, comments and line ends. -/
def filler : Chars Unit := do
  let _ ← many (either (do let _ ← satisfying isGapChar)
    (do let _ ← maybe comment; lineEnd))

/-- A character of a key without quotes. -/
def isKeyChar (c : Char) : Bool := isLetter c || isDigit c || c == '_' || c == '-'

/-- One part of a key. -/
def keyPart : Chars String := do
  match ← get with
  | '"' :: _ => basicText
  | '\'' :: _ => literalText
  | _ =>
    let cs ← front isKeyChar
    if cs.isEmpty then failure else return String.ofList cs

/-- A key: the parts before its last one, and the last one. -/
def key : Chars (List String × String) := do
  let parts ← separated (char '.') do
    gap
    let part ← keyPart
    gap
    pure part
  match parts.getLast? with
  | some last => if parts.length < depthLimit then pure (parts.dropLast, last) else failure
  | none => failure

/-- A key and its value. -/
def setting (value : Chars Node) : Chars (List String × String × Node) := do
  let (path, last) ← key
  char '='
  gap
  return (path, last, ← value)

/-- An array of values, behind its bracket. -/
def arrayTail (value : Chars Node) : Chars Node := do
  filler
  if ← given (char ']') then return .array []
  let nodes ← separated (char ',') do
    filler
    let node ← value
    filler
    pure node
  let _ ← given (char ',')
  filler
  char ']'
  return .array nodes

/-- A table in braces, behind the first one. -/
def tableTail (value : Chars Node) : Chars Node := do
  gap
  if ← given (char '\x7d') then return .table .braced []
  let settings ← separated (char ',') do
    let entry ← setting value
    gap
    pure entry
  char '\x7d'
  match settings.foldlM (fun fields (path, last, node) =>
      setPath path last node .braced fields) ([] : Fields Node) with
  | some fields => return .table .braced fields
  | none => failure

/-- A moment whose date and time of day are apart. -/
def spacedMoment : Chars Node := do
  let date ← front isScalarChar
  char ' '
  let time ← front isScalarChar
  if isDate date && isZonedTime time then pure .moment else failure

/-- A value that holds no others. -/
def flatValue : Chars Node := do
  match ← get with
  | '"' :: _ | '\'' :: _ => return .string (← quotedText)
  | _ =>
    either spacedMoment do
      match scalar? (← front isScalarChar) with
      | some node => pure node
      | none => failure

/-- A value with so many levels of values inside it. -/
def value : Nat → Chars Node
  | 0 => flatValue
  | depth + 1 => do
    match ← get with
    | '[' :: rest =>
      set rest
      arrayTail (value depth)
    | '\x7b' :: rest =>
      set rest
      tableTail (value depth)
    | _ => flatValue

/-- One line of a document. -/
def line : Chars Line := do
  gap
  match ← get with
  | '[' :: '[' :: rest =>
    set rest
    let (path, last) ← key
    phrase "]]"
    lineTail
    return .rowHeader path last
  | '[' :: rest =>
    set rest
    let (path, last) ← key
    char ']'
    lineTail
    return .header path last
  | '#' :: _ | '\n' :: _ | '\r' :: _ =>
    lineTail
    return .blank
  | _ =>
    let (path, last, node) ← setting (value (depthLimit - 1))
    lineTail
    return .setting path last node

/-- The lines of a document; blanks may stand at its end. -/
def lines : Chars (List Line) := do
  let all ← many line
  gap
  pure all

/-- The fields of the document that a text writes. A byte order mark may stand in front. -/
def document? (text : List Char) : Option (Fields Node) := do
  let text := match text with
    | '\uFEFF' :: rest => rest
    | _ => text
  let all ← Reader.whole? lines text
  let document ← all.foldlM Document.add .empty
  some document.fields

end RouteSheet.Toml
