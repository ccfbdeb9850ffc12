import RouteSheet.Text.Basic
import RouteSheet.Text.Utf8
import RouteSheet.Value.Basic

/-!
# Request identifiers

A client may name its request in one of two headers. The name is used when it is
short and plain: at most 128 letters, digits and marks of ASCII. A header with any
other name counts as if it were not there.
-/

namespace RouteSheet.Http

open Text

/-- The headers that may name a request, the preferred one first. -/
def requestIdHeaders : List String := ["x-request-id", "x-correlation-id"]

/-- A character that can stand in the name of a request. -/
def isIdChar (c : Char) : Bool :=
  isLetter c || isDigit c || c == '-' || c == '_' || c == '.' || c == ':'

/-- The name that a header's value gives, if it is plain and short. -/
def plainId? (value : String) : Option String :=
  let s := trim value.toList
  if s.isEmpty || 128 < byteSize s || !s.all isIdChar then none else some (String.ofList s)

/-- The name that a request gives itself. -/
def requestId? (headers : Fields String) : Option String :=
  requestIdHeaders.findSome? fun header => (headers.get? header).bind plainId?

end RouteSheet.Http
