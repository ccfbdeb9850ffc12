import RouteSheet.Json.Reader
import RouteSheet.Text.Basic
import RouteSheet.Text.Percent
import RouteSheet.Text.Utf8
import RouteSheet.Value.Basic
import RouteSheet.Value.Text

/-!
# Connections and requests

A connection is what one client sends: bytes, and then either the end of them or
silence. It is read by lines, and a head, the lines up to the first blank one, may
take no more than a fixed number of bytes. What stands in the way of reading a
further line is the same for every line that is not there: the limit, the silence
or the end.

A request is a line with a method and a target, header lines, a blank line and a
body of the length that a header declares. Later headers of one name replace
earlier ones. A declared length that is no numeral counts as none, and a body that
the client cuts short by closing is taken as it is.

A body brings fields when it is a form, which its content type says, or when it is
the text of a JSON object. Any other body, and an empty one, brings no fields.
-/

namespace RouteSheet.Http

open Text

/-- What follows the bytes of a client. -/
inductive Ending where
  /-- the client closes its side -/
  | closed
  /-- the client sends no more and closes nothing -/
  | stalled
  deriving Repr, DecidableEq

/-- What a client sends. -/
structure Connection where
  bytes : List UInt8
  ending : Ending
  deriving Repr, DecidableEq

/-- Why a request cannot be read. -/
inductive RequestError where
  /-- the end comes before the blank line -/
  | headMissing
  | headTooLarge
  /-- the first line lacks a method or a target -/
  | badRequestLine
  | timedOut
  deriving Repr, DecidableEq

/-- The text of the failure. -/
def RequestError.message : RequestError → String
  | .headMissing => "invalid HTTP request: missing headers"
  | .headTooLarge => "request header too large"
  | .badRequestLine => "invalid HTTP request line"
  | .timedOut => "timed out reading request"

/-- How many bytes a head may take. -/
def headLimit : Nat := 1024 * 1024

/-- The byte that ends a line. -/
def lineFeed : UInt8 := 0x0A

/-- The byte that may stand before a line feed. -/
def carriageReturn : UInt8 := 0x0D

/-- The pieces with a byte put before them: a line feed is a piece of its own, and any other
byte joins the first piece. -/
def extendLines (b : UInt8) (pieces : List (List UInt8)) : List (List UInt8) :=
  if b == lineFeed then [b] :: pieces
  else
    match pieces with
    | piece :: rest => (b :: piece) :: rest
    | [] => [[b]]

/-- The bytes cut behind every line feed; only the last piece may lack one. -/
def cutLines (bytes : List UInt8) : List (List UInt8) := bytes.foldr extendLines []

/-- The line ends in a line feed. -/
def isEnded (line : List UInt8) : Bool := line.getLast? == some lineFeed

/-- The bytes without one given byte at the end. -/
def withoutLast (b : UInt8) (line : List UInt8) : List UInt8 :=
  if line.getLast? == some b then line.dropLast else line

/-- The line without its line feed and one carriage return before it. -/
def lineContent (line : List UInt8) : List UInt8 :=
  withoutLast carriageReturn (withoutLast lineFeed line)

/-- The text of a line. -/
def lineText (line : List UInt8) : List Char := ofBytesLossy (lineContent line)

/-- Nothing but the end of a line. -/
def isBlankLine (line : List UInt8) : Bool := (lineContent line).isEmpty

namespace Connection

/-- The bytes go on beyond the limit of a head. -/
def exceedsHead (c : Connection) : Bool := headLimit < c.bytes.length

/-- The lines that can be read as lines of a head. A last line without a line feed is one when
nothing can follow it. -/
def headLines (c : Connection) : List (List UInt8) :=
  let pieces := cutLines (c.bytes.take headLimit)
  if c.ending == .closed && !c.exceedsHead then pieces else pieces.filter isEnded

/-- What stands in the way of reading one line more. -/
def headError (c : Connection) : RequestError :=
  if c.exceedsHead then .headTooLarge
  else
    match c.ending with
    | .closed => .headMissing
    | .stalled => .timedOut

end Connection

/-- A request as it is sent, with method and header names in one case. -/
structure Message where
  method : String
  target : String
  headers : Fields String
  body : List UInt8
  deriving Repr, DecidableEq

/-- The method and the target of a request line. -/
def requestLine? (line : List Char) : Option (String × String) :=
  match words isBlank line with
  | method :: target :: _ => some (String.ofList (upper method), String.ofList target)
  | _ => none

/-- The name and the value of a header line; a line without a colon is none. -/
def headerField? (line : List Char) : Option (String × String) :=
  (cutAtChar? ':' line).map fun (name, value) =>
    (String.ofList (lower (trim name)), String.ofList (trim value))

/-- The headers of header lines. -/
def headersOf (lines : List (List UInt8)) : Fields String :=
  .ofPairs (lines.filterMap fun line => headerField? (lineText line))

/-- How long the body is said to be. -/
def contentLength (headers : Fields String) : Nat :=
  ((headers.get? "content-length").bind fun value =>
    unsigned? 0xFFFFFFFFFFFFFFFF value.toList).getD 0

/-- The lines of a head. -/
structure Head where
  request : List UInt8
  headers : List (List UInt8)
  blank : List UInt8
  deriving Repr, DecidableEq

/-- All bytes of a head. -/
def Head.bytes (h : Head) : List UInt8 := h.request ++ h.headers.flatten ++ h.blank

/-- The head of a connection with the method and the target of its first line. A wrong first
line is refused before the lines behind it are looked at. -/
def Connection.head (c : Connection) : Except RequestError (Head × String × String) :=
  match c.headLines with
  | [] => .error c.headError
  | first :: lines =>
    match requestLine? (lineText first) with
    | none => .error .badRequestLine
    | some (method, target) =>
      match lines.span fun line => !isBlankLine line with
      | (_, []) => .error c.headError
      | (headers, blank :: _) => .ok (⟨first, headers, blank⟩, method, target)

/-- The body of a declared length that follows a head. -/
def Connection.body (c : Connection) (head : Head) (length : Nat) :
    Except RequestError (List UInt8) :=
  let rest := c.bytes.drop head.bytes.length
  if c.ending == .stalled && rest.length < length then .error .timedOut
  else .ok (rest.take length)

/-- The request of a connection. -/
def Connection.message (c : Connection) : Except RequestError Message := do
  let (head, method, target) ← c.head
  let headers := headersOf head.headers
  let body ← c.body head (contentLength headers)
  pure ⟨method, target, headers, body⟩

/-- The bytes of a client leave its request open: only more of them, or the end, decide it. -/
def isOpen (bytes : List UInt8) : Bool :=
  match (⟨bytes, .stalled⟩ : Connection).message with
  | .error .timedOut => true
  | _ => false

/-- The beginning of the content type of a form. -/
def formContentType : String := "application/x-www-form-urlencoded"

/-- The headers say that the body is a form. -/
def isForm (headers : Fields String) : Bool :=
  formContentType.toList.isPrefixOf (lower ((headers.get? "content-type").getD "").toList)

/-- The fields of a JSON object; any other document has none. -/
def documentFields (text : List Char) : Object :=
  match Json.parse? text with
  | some (.object fields) => Value.ofJsonFields fields
  | _ => []

/-- The fields that a body brings. -/
def bodyFields (headers : Fields String) (bytes : List UInt8) : Object :=
  if bytes.isEmpty then []
  else if isForm headers then (formFields (ofBytesLossy bytes)).mapValues .string
  else
    match ofBytes? bytes with
    | some text => documentFields text
    | none => []

end RouteSheet.Http
