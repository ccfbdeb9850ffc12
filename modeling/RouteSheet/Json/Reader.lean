import RouteSheet.Json.Token

/-!
# Reading JSON

A document is put together from its words by a machine with a stack of open
arrays and objects, at most 127 of them. The text is a document exactly when the
machine ends with an empty stack and one value; no word may follow. A field name
that occurs again keeps its first place and takes the last value.
-/

namespace RouteSheet.Json

/-- An array or object under way, with the items so far (last first) or the fields so far and
the name of the field being read. -/
inductive Frame where
  | array (items : List Json)
  | object (fields : List (String × Json)) (key : String)

/-- What the next word may be. -/
inductive Expecting where
  /-- a value -/
  | value
  /-- a value, or the end of the array that just opened -/
  | firstItem
  /-- a field name, or the end of the object that just opened -/
  | firstKey
  /-- a field name -/
  | key
  /-- a colon -/
  | colon
  /-- a comma or the end of what is open, or nothing more if nothing is -/
  | next (value : Json)

/-- The open arrays and objects, innermost first, and what may follow. -/
structure Builder where
  stack : List Frame
  expecting : Expecting

/-- How many arrays and objects may be open at once. -/
def maxDepth : Nat := 127

namespace Builder

/-- Opens an array or object. -/
def opening (b : Builder) (frame : Frame) (expecting : Expecting) : Option Builder :=
  if b.stack.length < maxDepth then some ⟨frame :: b.stack, expecting⟩ else none

/-- Takes a word where a value is due. -/
def takeValue (b : Builder) : Token → Option Builder
  | .openArray => b.opening (.array []) .firstItem
  | .openObject => b.opening (.object [] "") .firstKey
  | .string s => some ⟨b.stack, .next (.string s)⟩
  | .scalar v => some ⟨b.stack, .next v⟩
  | _ => none

/-- Takes a word where a field name is due. -/
def takeKey (b : Builder) : Token → Option Builder
  | .string s =>
    match b.stack with
    | .object fields _ :: rest => some ⟨.object fields s :: rest, .colon⟩
    | _ => none
  | _ => none

/-- Takes a word behind a value. -/
def takeNext (b : Builder) (value : Json) (token : Token) : Option Builder :=
  match b.stack, token with
  | .array items :: rest, .comma => some ⟨.array (value :: items) :: rest, .value⟩
  | .array items :: rest, .closeArray => some ⟨rest, .next (.array (value :: items).reverse)⟩
  | .object fields key :: rest, .comma =>
    some ⟨.object (Fields.insert key value fields) key :: rest, .key⟩
  | .object fields key :: rest, .closeObject =>
    some ⟨rest, .next (.object (Fields.insert key value fields))⟩
  | _, _ => none

/-- Takes one word. -/
def take (b : Builder) (token : Token) : Option Builder :=
  match b.expecting, token with
  | .firstItem, .closeArray => some ⟨b.stack.drop 1, .next (.array [])⟩
  | .firstKey, .closeObject => some ⟨b.stack.drop 1, .next (.object [])⟩
  | .value, _ | .firstItem, _ => b.takeValue token
  | .key, _ | .firstKey, _ => b.takeKey token
  | .colon, .colon => some ⟨b.stack, .value⟩
  | .colon, _ => none
  | .next value, _ => b.takeNext value token

/-- The document, if nothing is open any more. -/
def document? (b : Builder) : Option Json :=
  match b.stack, b.expecting with
  | [], .next value => some value
  | _, _ => none

end Builder

/-- The document that a sequence of words writes. -/
def ofTokens? (tokens : List Token) : Option Json :=
  (tokens.foldlM Builder.take ⟨[], .value⟩).bind Builder.document?

/-- The document that a text writes. -/
def parse? (s : List Char) : Option Json := (tokens? s).bind ofTokens?

/-- The text is a JSON document. -/
def isDocument (s : List Char) : Bool := (parse? s).isSome

end RouteSheet.Json
