import RouteSheet.Value.Basic

/-!
# Conditions, expressions and routes

A condition asks whether a variable counts as true or how it compares with a
value, and combines such questions. Equality compares values of any kind; the
four orders compare numbers and are false of anything else.

An expression is a literal, a reference to a variable or to a field of the request,
a query with its arguments, a choice by conditions, or a concatenation of texts.

A route answers the requests of one method whose path fits its pattern. It binds
variables in order, may set the status, and returns a body as JSON or as markup.
-/

namespace RouteSheet

/-- A relation between a variable and a value. -/
inductive Relation where
  | eq
  | ne
  | gt
  | lt
  | ge
  | le
  deriving Repr, DecidableEq

namespace Relation

/-- The symbol of a relation. -/
def symbol : Relation → String
  | .eq => "="
  | .ne => "!="
  | .gt => ">"
  | .lt => "<"
  | .ge => ">="
  | .le => "<="

/-- All relations, the longer symbols first, so that none is taken for the beginning of another. -/
def all : List Relation := [.ne, .ge, .le, .eq, .gt, .lt]

/-- The relation of a symbol. -/
def ofSymbol? (symbol : String) : Option Relation := all.find? (·.symbol == symbol)

/-- The relation holds between two values. -/
def holds (r : Relation) (current expected : Value) : Bool :=
  let order := match current.asNumber?, expected.asNumber? with
    | some x, some y => x.compare? y
    | _, _ => none
  match r with
  | .eq => current.equals expected
  | .ne => !current.equals expected
  | .gt => order == some .gt
  | .lt => order == some .lt
  | .ge => order == some .gt || order == some .eq
  | .le => order == some .lt || order == some .eq

end Relation

/-- A condition over variables. -/
inductive Condition where
  | truthy (name : String)
  | compare (name : String) (relation : Relation) (value : Value)
  | and (left right : Condition)
  | or (left right : Condition)
  | not (inner : Condition)

namespace Condition

/-- The condition holds when each variable has the value that the function gives it. -/
def holds (lookup : String → Value) : Condition → Bool
  | .truthy name => (lookup name).isTruthy
  | .compare name relation value => relation.holds (lookup name) value
  | .and left right => left.holds lookup && right.holds lookup
  | .or left right => left.holds lookup || right.holds lookup
  | .not inner => !inner.holds lookup

end Condition

/-- An expression of a stylesheet. -/
inductive Expr where
  | literal (value : Value)
  | var (name : String)
  | param (name : String)
  | query (name : String)
  | body (name : String)
  | header (name : String)
  /-- a database statement and the expressions bound to its placeholders -/
  | sql (statement : String) (args : List Expr)
  /-- the value behind the first true condition, else the last one -/
  | choice (branches : List (Condition × Expr)) (otherwise : Option Expr)
  /-- an array or object written as JSON -/
  | json (value : Value)
  /-- markup that goes out as it stands -/
  | html (markup : String)
  | concat (parts : List Expr)

/-- A variable bound by a route, with the line of its declaration. -/
structure Assignment where
  name : String
  value : Expr
  line : Nat

/-- Where the status of a response comes from. -/
inductive StatusSpec where
  | code (code : Nat)
  | var (name : String)
  | choice (branches : List (Condition × Expr)) (otherwise : Option Expr)

/-- How a body goes out. -/
inductive BodyKind where
  | json
  | html
  deriving Repr, DecidableEq

/-- The media type of a body. -/
def BodyKind.contentType : BodyKind → String
  | .json => "application/json"
  | .html => "text/html; charset=utf-8"

/-- What a route returns. -/
structure ReturnSpec where
  kind : BodyKind
  body : Expr

/-- A declared route. -/
structure Route where
  method : String
  path : String
  assignments : List Assignment
  status : Option StatusSpec
  returns : ReturnSpec
  line : Nat

end RouteSheet
