import RouteSheet.Number.Basic

/-!
# Ordered fields and values

A table from names to values remembers the order in which the names first
arrived. Writing to a name that is there keeps its place and replaces its value;
a new name goes to the end.

A value is what an expression evaluates to: a field that is not there, the JSON
kinds, or what the database reports about a write. Equality knows that NaN differs
from itself, that both zeros are equal and that the order of an object's fields
does not matter.
-/

namespace RouteSheet

/-- Named values in order of first arrival. -/
abbrev Fields (α : Type) := List (String × α)

namespace Fields

variable {α β : Type}

/-- The value of a name. -/
def get? (name : String) : Fields α → Option α
  | [] => none
  | (key, value) :: rest => if key = name then some value else get? name rest

/-- The table with a value written to a name. -/
def insert (name : String) (value : α) : Fields α → Fields α
  | [] => [(name, value)]
  | (key, old) :: rest =>
    if key = name then (key, value) :: rest else (key, old) :: insert name value rest

/-- The table that results from writing the pairs in order. -/
def ofPairs (pairs : List (String × α)) : Fields α :=
  pairs.foldl (fun table pair => table.insert pair.1 pair.2) []

/-- The table with every value replaced. -/
def mapValues (f : α → β) (table : Fields α) : Fields β :=
  table.map fun (key, value) => (key, f value)

end Fields

/-- What the database reports about a write: the last row id it gave out and how many rows
the statement changed. -/
structure WriteReport where
  rowId : Int
  changes : Nat
  deriving Repr, DecidableEq

/-- The value of an expression. -/
inductive Value where
  /-- a variable or request field that is not there -/
  | missing
  | null
  | bool (value : Bool)
  | number (value : Number)
  | string (value : String)
  | array (items : List Value)
  | object (fields : List (String × Value))
  | report (value : WriteReport)

/-- An object of values. -/
abbrev Object := Fields Value

namespace Value

/-- The value counts as true in a condition. -/
def isTruthy : Value → Bool
  | .missing | .null => false
  | .bool b => b
  | .number x => !x.equals .zero
  | .string s => !s.isEmpty
  | .array items => !items.isEmpty
  | .object fields => !fields.isEmpty
  | .report _ => true

/-- The number that the value is. -/
def asNumber? : Value → Option Number
  | .number x => some x
  | _ => none

/-- The object that stands for a failure. -/
def ofError (message : String) : Value := .object [("error", .string message)]

mutual

/-- The values are equal. -/
def equals : Value → Value → Bool
  | .missing, .missing => true
  | .null, .null => true
  | .bool a, .bool b => a == b
  | .number x, .number y => x.equals y
  | .string s, .string t => s == t
  | .array xs, .array ys => equalItems xs ys
  | .object xs, .object ys => xs.length == ys.length && fieldsWithin xs ys
  | .report a, .report b => a == b
  | _, _ => false

/-- The lists are equal item by item. -/
def equalItems : List Value → List Value → Bool
  | [], [] => true
  | x :: xs, y :: ys => equals x y && equalItems xs ys
  | _, _ => false

/-- Each of the first fields has its equal among the second. -/
def fieldsWithin : List (String × Value) → List (String × Value) → Bool
  | [], _ => true
  | (key, x) :: xs, ys =>
    (match Fields.get? key ys with
      | some y => equals x y
      | none => false) && fieldsWithin xs ys

end

end Value

end RouteSheet
