import RouteSheet.Expr.Eval
import RouteSheet.Expr.Reader
import RouteSheet.Number.Numeral
import RouteSheet.Syntax

/-!
# Reading and running a route

A status is a code from 100 to 999, a variable or a choice; a return is an
expression, marked as JSON or as markup or not marked, which means JSON. Markup
that is a plain string literal stands for itself.

Assignments are evaluated in order, each in the scope of those before it, then the
status, then the body. A status that is no number from 100 to 999, once its
fraction is cut off, leaves the status open.
-/

namespace RouteSheet

open Text

/-- Why a text is no status. -/
inductive StatusError where
  /-- a numeral outside the range of status codes -/
  | badCode (text : String)
  /-- neither a numeral nor a variable nor a choice -/
  | notAStatus (text : String)
  deriving Repr, DecidableEq

/-- The text of the error. -/
def StatusError.message : StatusError → String
  | .badCode text => "status " ++ text ++ " is not a valid HTTP status code"
  | .notAStatus text =>
    "status expects an integer, var(--name) or if(...), found `" ++ text ++ "`"

/-- The number is a status code. -/
def isStatusCode (code : Int) : Bool := 100 ≤ code && code ≤ 999

/-- The status code that a numeral writes. -/
def statusCode? (s : List Char) : Option Nat :=
  (unsigned? 65535 s).filter fun code => isStatusCode code

/-- The status that a text writes. -/
def StatusSpec.parse (text : List Char) : Except StatusError StatusSpec :=
  let s := trim text
  if isNumeral s then
    match statusCode? s with
    | some n => .ok (.code n)
    | none => .error (.badCode (String.ofList s))
  else
    match Expr.parse s with
    | .var name => .ok (.var name)
    | .choice branches otherwise => .ok (.choice branches otherwise)
    | _ => .error (.notAStatus (String.ofList s))

/-- The body of markup: a string literal stands for itself. -/
def markupBody : Expr → Expr
  | .literal (.string markup) => .html markup
  | e => e

/-- The return that a text writes. -/
def ReturnSpec.parse (text : List Char) : ReturnSpec :=
  let s := trim text
  match callArguments? "json".toList s with
  | some inner => ⟨.json, Expr.parse inner⟩
  | none =>
    match callArguments? "html".toList s with
    | some inner => ⟨.html, markupBody (Expr.parse inner)⟩
    | none => ⟨.json, Expr.parse s⟩

/-- What a route answers; an open status is left to the transport. -/
structure Response where
  status : Option Nat
  kind : BodyKind
  text : String
  deriving Repr, DecidableEq

/-- The status code of a number. -/
def Number.toStatus? : Number → Option Nat
  | .finite x => if isStatusCode x.trunc then some x.trunc.toNat else none
  | _ => none

/-- The status code of a value: of a number or of a text that writes one. -/
def Value.toStatus? : Value → Option Nat
  | .number x => x.toStatus?
  | .string s => (Number.ofText? (Text.trim s.toList)).bind Number.toStatus?
  | _ => none

/-- The text of a body. -/
def BodyKind.render : BodyKind → Value → String
  | .json, value => value.emit
  | .html, value => value.toText

namespace Route

variable {σ : Type}

/-- The scope behind the assignments. -/
def bindAll (db : Option (Executor σ)) : List Assignment → Scope → σ → Scope × σ
  | [], scope, s => (scope, s)
  | a :: rest, scope, s =>
    let (value, t) := a.value.eval db scope s
    bindAll db rest (scope.bind a.name value) t

/-- The status in a scope. -/
def evalStatus (db : Option (Executor σ)) (scope : Scope) (status : Option StatusSpec) (s : σ) :
    Option Nat × σ :=
  match status with
  | none => (none, s)
  | some (.code code) => (some code, s)
  | some (.var name) => ((scope.var name).toStatus?, s)
  | some (.choice branches otherwise) =>
    let (value, t) := (Expr.choice branches otherwise).eval db scope s
    (value.toStatus?, t)

/-- The response to a request. -/
def run (db : Option (Executor σ)) (route : Route) (request : Request) (s : σ) : Response × σ :=
  let (scope, s) := bindAll db route.assignments (.ofRequest request) s
  let (status, s) := evalStatus db scope route.status s
  let (value, s) := route.returns.body.eval db scope s
  (⟨status, route.returns.kind, route.returns.kind.render value⟩, s)

end Route

end RouteSheet
