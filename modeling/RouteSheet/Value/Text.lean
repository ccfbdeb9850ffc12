import RouteSheet.Json.Basic
import RouteSheet.Value.Basic

/-!
# Values as JSON and as text

A value goes out as a JSON document: whole numbers within the safe range as
integers, what is not finite and what is missing as null, and an object without
its missing fields. A value is also written without its document, in one pass. As
text, a string stands without quotes and an absent value is empty. Reading a
document back gives numbers of one kind only.
-/

namespace RouteSheet

namespace Number

/-- The document of a number. -/
def toJson (x : Number) : Json :=
  match x.toSafeInt? with
  | some i => .integer i
  | none =>
    match x with
    | .finite y => .real y
    | _ => .null

/-- The JSON text of a number. -/
def emit (x : Number) : String :=
  match x.toSafeInt? with
  | some i => intText i
  | none =>
    match x with
    | .finite y => y.jsonText
    | _ => "null"

end Number

namespace WriteReport

/-- The document of a report. -/
def toJson (r : WriteReport) : Json :=
  .object [("lastInsertRowid", .integer r.rowId), ("changes", .integer r.changes)]

/-- The JSON text of a report. -/
def emit (r : WriteReport) : String :=
  "\x7b" ++ (Json.quoted "lastInsertRowid" ++ (":" ++ (intText r.rowId ++ ("," ++
    (Json.quoted "changes" ++ (":" ++ (intText r.changes ++ "\x7d")))))))

end WriteReport

namespace Value

/-- The value is a field that is not there. -/
def isMissing : Value → Bool
  | .missing => true
  | _ => false

mutual

/-- The document of a value. -/
def toJson : Value → Json
  | .missing | .null => .null
  | .bool b => .bool b
  | .number x => x.toJson
  | .string s => .string s
  | .array items => .array (toJsonItems items)
  | .object fields => .object (toJsonFields fields)
  | .report r => r.toJson

/-- The documents of the items of an array. -/
def toJsonItems : List Value → List Json
  | [] => []
  | item :: rest => toJson item :: toJsonItems rest

/-- The documents of the fields of an object that are there. -/
def toJsonFields : List (String × Value) → List (String × Json)
  | [] => []
  | (key, value) :: rest =>
    if value.isMissing then toJsonFields rest else (key, toJson value) :: toJsonFields rest

end

mutual

/-- The value of a document. -/
def ofJson : Json → Value
  | .null => .null
  | .bool b => .bool b
  | .integer i => .number (.ofInt i)
  | .real x => .number (.finite x)
  | .string s => .string s
  | .array items => .array (ofJsonItems items)
  | .object fields => .object (ofJsonFields fields)

/-- The values of the items of an array. -/
def ofJsonItems : List Json → List Value
  | [] => []
  | item :: rest => ofJson item :: ofJsonItems rest

/-- The values of the fields of an object. -/
def ofJsonFields : List (String × Json) → List (String × Value)
  | [] => []
  | (key, value) :: rest => (key, ofJson value) :: ofJsonFields rest

end

/-- The comma in front of every part of an array or object but the first. -/
def separator (first : Bool) : String := if first then "" else ","

mutual

/-- The compact JSON text of a value, written in one pass. -/
def emit : Value → String
  | .missing | .null => "null"
  | .bool true => "true"
  | .bool false => "false"
  | .number x => x.emit
  | .string s => Json.quoted s
  | .array items => "[" ++ (emitItems true items ++ "]")
  | .object fields => "\x7b" ++ (emitFields true fields ++ "\x7d")
  | .report r => r.emit

/-- The items of an array, given whether the next one is the first. -/
def emitItems (first : Bool) : List Value → String
  | [] => ""
  | item :: rest => separator first ++ (emit item ++ emitItems false rest)

/-- The fields of an object that are there, given whether the next one is the first. -/
def emitFields (first : Bool) : List (String × Value) → String
  | [] => ""
  | (key, value) :: rest =>
    if value.isMissing then emitFields first rest
    else separator first ++ (Json.quoted key ++ (":" ++ (emit value ++ emitFields false rest)))

end

/-- The compact JSON text of the document of a value. -/
def jsonText (v : Value) : String := v.toJson.render

/-- The value as text. -/
def toText : Value → String
  | .missing | .null => ""
  | .bool true => "true"
  | .bool false => "false"
  | .number x => x.toText
  | .string s => s
  | v => v.jsonText

end Value

/-- The JSON text of the object that stands for a failure. -/
def errorBody (message : String) : String := (Json.object [("error", .string message)]).render

end RouteSheet
