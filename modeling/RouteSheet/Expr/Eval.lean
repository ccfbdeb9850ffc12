import RouteSheet.Query.Dispatch
import RouteSheet.Syntax
import RouteSheet.Text.Basic
import RouteSheet.Value.Basic

/-!
# Scopes and evaluation

A request brings path parameters, query parameters, body fields and headers; a
scope adds the variables bound so far. Header names are compared without regard
to the case of ASCII letters, all other names exactly, and a name that is not
there has the value missing.

Evaluation is total: a failed query and an absent field are values like others.
The state of the executor passes through the queries in the order in which they
are met, arguments before their query and only the chosen branch of a choice.
Conditions read variables alone, so choosing runs no query.
-/

namespace RouteSheet

/-- The fields that one request brings. -/
structure Request where
  params : Fields String
  query : Fields String
  body : Object
  headers : Fields String

/-- The request with path parameters written over those it has. -/
def Request.withParams (r : Request) (params : List (String × String)) : Request :=
  { r with params := params.foldl (fun table pair => table.insert pair.1 pair.2) r.params }

/-- A request and the variables bound so far. -/
structure Scope where
  params : Fields String
  query : Fields String
  body : Object
  headers : Fields String
  vars : Fields Value

/-- A text in lower case. -/
def lowerText (s : String) : String := String.ofList (Text.lower s.toList)

namespace Scope

/-- The scope of a request before any variable is bound. Of headers whose names differ only in
case the last one counts. -/
def ofRequest (r : Request) : Scope where
  params := r.params
  query := r.query
  body := r.body
  headers := .ofPairs (r.headers.map fun (name, value) => (lowerText name, value))
  vars := []

/-- The scope with a variable bound. -/
def bind (scope : Scope) (name : String) (value : Value) : Scope :=
  { scope with vars := scope.vars.insert name value }

/-- A text that may not be there. -/
def textValue (text : Option String) : Value :=
  match text with
  | some s => .string s
  | none => .missing

/-- The value of a variable. -/
def var (scope : Scope) (name : String) : Value := (scope.vars.get? name).getD .missing

/-- The value of a path parameter. -/
def param (scope : Scope) (name : String) : Value := textValue (scope.params.get? name)

/-- The value of a query parameter. -/
def queryParam (scope : Scope) (name : String) : Value := textValue (scope.query.get? name)

/-- The value of a body field. -/
def bodyField (scope : Scope) (name : String) : Value := (scope.body.get? name).getD .missing

/-- The value of a header. -/
def header (scope : Scope) (name : String) : Value :=
  textValue (scope.headers.get? (lowerText name))

end Scope

namespace Expr

variable {σ : Type}

mutual

/-- The value of an expression in a scope. -/
def eval (db : Option (Executor σ)) (scope : Scope) : Expr → σ → Value × σ
  | .literal value, s => (value, s)
  | .json value, s => (value, s)
  | .html markup, s => (.string markup, s)
  | .var name, s => (scope.var name, s)
  | .param name, s => (scope.param name, s)
  | .query name, s => (scope.queryParam name, s)
  | .body name, s => (scope.bodyField name, s)
  | .header name, s => (scope.header name, s)
  | .sql statement args, s =>
    let (params, t) := evalAll db scope args s
    queryValue db statement params t
  | .choice branches otherwise, s =>
    evalBranches db scope branches (evalOtherwise db scope otherwise) s
  | .concat parts, s =>
    let (values, t) := evalAll db scope parts s
    (.string (String.join (values.map Value.toText)), t)

/-- The values of expressions, evaluated in order. -/
def evalAll (db : Option (Executor σ)) (scope : Scope) : List Expr → σ → List Value × σ
  | [], s => ([], s)
  | e :: rest, s =>
    let (value, t) := eval db scope e s
    let (values, u) := evalAll db scope rest t
    (value :: values, u)

/-- The value behind the first condition that holds, else that of the fallback. -/
def evalBranches (db : Option (Executor σ)) (scope : Scope) :
    List (Condition × Expr) → (σ → Value × σ) → σ → Value × σ
  | [], fallback, s => fallback s
  | (condition, value) :: rest, fallback, s =>
    if condition.holds scope.var then eval db scope value s
    else evalBranches db scope rest fallback s

/-- The value of a choice where no condition holds; a choice without a last value is null. -/
def evalOtherwise (db : Option (Executor σ)) (scope : Scope) : Option Expr → σ → Value × σ
  | none, s => (.null, s)
  | some value, s => eval db scope value s

end

end Expr

end RouteSheet
