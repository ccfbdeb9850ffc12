import RouteSheet.Environment
import RouteSheet.Sheet.Attribute
import RouteSheet.Sheet.Diagnostic
import RouteSheet.Sheet.Item

/-!
# Loading a stylesheet

Each item of the sheet adds to it: at-rules name the database and its schema, and
a block with a route selector declares a route. A malformed item or declaration is
reported and passed over. Of several routes for one method and path the first
stays; of several databases, statuses or returns the last one.
-/

namespace RouteSheet

open Text

/-- What a stylesheet declares. -/
structure Sheet where
  database : Option String
  schema : List String
  routes : List Route

namespace Sheet

/-- The sheet that declares nothing. -/
def empty : Sheet := ⟨none, [], []⟩

/-- The sheet has a route for the method and the path. -/
def declares (sheet : Sheet) (method path : String) : Bool :=
  sheet.routes.any fun route => route.method == method && route.path == path

end Sheet

/-- What has been built so far, with the diagnostics in the order reported. -/
structure Loading (α : Type) where
  built : α
  diagnostics : List Diagnostic

namespace Loading

variable {α : Type}

/-- Reports a problem. -/
def report (l : Loading α) (problem : Problem) (line : Nat) : Loading α :=
  { l with diagnostics := l.diagnostics ++ [⟨problem, line⟩] }

/-- Reports problems that belong to one line. -/
def reportAll (l : Loading α) (problems : List Problem) (line : Nat) : Loading α :=
  { l with diagnostics := l.diagnostics ++ problems.map fun problem => ⟨problem, line⟩ }

/-- Changes what has been built. -/
def modify (l : Loading α) (f : α → α) : Loading α := { l with built := f l.built }

end Loading

namespace Expr

mutual

/-- The statements of the queries of an expression, outermost first. -/
def statements : Expr → List String
  | .sql statement args => statement :: statementsOfAll args
  | .choice branches otherwise =>
    statementsOfBranches branches ++ (match otherwise with
      | some value => value.statements
      | none => [])
  | .concat parts => statementsOfAll parts
  | _ => []

/-- The statements of several expressions. -/
def statementsOfAll : List Expr → List String
  | [] => []
  | e :: rest => statements e ++ statementsOfAll rest

/-- The statements of the values of branches. -/
def statementsOfBranches : List (Condition × Expr) → List String
  | [] => []
  | (_, value) :: rest => statements value ++ statementsOfBranches rest

end

/-- One problem for each query without a statement. -/
def emptyStatements (e : Expr) : List Problem :=
  (e.statements.filter fun statement => isBlankText statement.toList).map fun _ => .emptyStatement

end Expr

/-- The parts of a route declared so far. -/
structure RouteParts where
  assignments : List Assignment
  status : Option StatusSpec
  returns : Option ReturnSpec

namespace RouteParts

/-- The parts of a route that declares nothing. -/
def empty : RouteParts := ⟨[], none, none⟩

/-- Adds the assignment of a variable. -/
def assign (l : Loading RouteParts) (name : String) (value : List Char) (line : Nat) :
    Loading RouteParts :=
  let repeated := if l.built.assignments.any (·.name == name) then [.variableRepeated name] else []
  let e := Expr.parse value
  (l.reportAll (repeated ++ e.emptyStatements) line).modify fun parts =>
    { parts with assignments := parts.assignments ++ [⟨name, e, line⟩] }

/-- Sets the status. A text that is no status leaves the one before. -/
def setStatus (l : Loading RouteParts) (value : List Char) (line : Nat) : Loading RouteParts :=
  match StatusSpec.parse value with
  | .error e => l.report (.badStatus e) line
  | .ok spec =>
    let problems := match spec with
      | .choice branches otherwise => (Expr.choice branches otherwise).emptyStatements
      | _ => []
    (l.reportAll problems line).modify fun parts => { parts with status := some spec }

/-- Sets the return. -/
def setReturn (l : Loading RouteParts) (value : List Char) (line : Nat) : Loading RouteParts :=
  let repeated := if l.built.returns.isSome then [.returnRepeated] else []
  let spec := ReturnSpec.parse value
  (l.reportAll (repeated ++ spec.body.emptyStatements) line).modify fun parts =>
    { parts with returns := some spec }

/-- Adds a declaration. -/
def declare (l : Loading RouteParts) (declaration : Declaration) : Loading RouteParts :=
  let line := declaration.line
  match cutTop? ':' declaration.text with
  | none => l.report (.missingValue (String.ofList declaration.text)) line
  | some (property, value) =>
    let property := trim property
    match stripStart? ['-', '-'] property with
    | some name => assign l (String.ofList name) (trim value) line
    | none =>
      if property = "status".toList then setStatus l (trim value) line
      else if property = "return".toList then setReturn l (trim value) line
      else l.report (.unknownProperty (String.ofList property)) line

end RouteParts

/-- The method and the path that a selector's attributes give. -/
structure Target where
  method : String
  path : Option String

namespace Target

/-- Takes in an attribute; the last one of a name counts. -/
def take (l : Loading Target) (line : Nat) (a : Attribute) : Loading Target :=
  if a.name = "method".toList then
    l.modify fun target => { target with method := String.ofList (upper a.value) }
  else if a.name = "path".toList then
    l.modify fun target => { target with path := some (String.ofList a.value) }
  else l.report (.unknownAttribute (String.ofList a.name)) line

/-- The target of the text behind the word of a route selector. -/
def ofText (text : List Char) (line : Nat) : Loading Target :=
  (Attribute.all text).foldl (fun l a => take l line a) ⟨⟨"GET", none⟩, []⟩

end Target

namespace Sheet

/-- Adds a route with the declarations of its body, if it has a return and is the first of its
method and path. -/
def addRoute (l : Loading Sheet) (method path : String) (body : List Char) (line bodyLine : Nat) :
    Loading Sheet :=
  let parts := (Declaration.ofBody bodyLine body).foldl RouteParts.declare ⟨.empty, []⟩
  let l := { l with diagnostics := l.diagnostics ++ parts.diagnostics }
  match parts.built.returns with
  | none => l.report (.missingReturn method path) line
  | some returns =>
    if l.built.declares method path then l.report (.duplicateRoute method path) line
    else
      let route := ⟨method, path, parts.built.assignments, parts.built.status, returns, line⟩
      l.modify fun sheet => { sheet with routes := sheet.routes ++ [route] }

/-- Adds a block. -/
def addBlock (l : Loading Sheet) (selector body : List Char) (line bodyLine : Nat) :
    Loading Sheet :=
  match stripStart? "route".toList selector with
  | none => l.report (.unknownSelector (String.ofList selector)) line
  | some text =>
    let target := Target.ofText text line
    let l := { l with diagnostics := l.diagnostics ++ target.diagnostics }
    match target.built.path with
    | none => l.report (.missingPath (String.ofList selector)) line
    | some path => addRoute l target.built.method path body line bodyLine

/-- Adds an at-rule: a name up to the first blank, and a value. -/
def addRule (env : Environment) (l : Loading Sheet) (text : List Char) (line : Nat) :
    Loading Sheet :=
  let (name, rest) := takeRun (!isBlank ·) (trim text)
  let value := trim rest
  if name = "database".toList then
    match env.resolve? value with
    | none => l.report (.databaseUnresolved (String.ofList value)) line
    | some url =>
      let repeated := if l.built.database.isSome then [.databaseRepeated] else []
      (l.reportAll repeated line).modify fun sheet => { sheet with database := some url }
  else if name = "schema".toList then
    let statement := trim (stripQuotes value)
    if statement.isEmpty then l.report .schemaEmpty line
    else l.modify fun sheet => { sheet with schema := sheet.schema ++ [String.ofList statement] }
  else l.report (.unknownRule (String.ofList name)) line

/-- Adds an item. -/
def addItem (env : Environment) (l : Loading Sheet) : Item → Loading Sheet
  | .rule text line => addRule env l text line
  | .block selector body line bodyLine => addBlock l (trim selector) body line bodyLine
  | .stray text line => l.report (.strayText (String.ofList (trim text))) line
  | .unopened text line => l.report (.unopenedBlock (String.ofList (trim text))) line

/-- The sheet that a text declares, with what is wrong with it. -/
def load (env : Environment) (text : List Char) : Loading Sheet :=
  (Item.ofSheet text).foldl (addItem env) ⟨.empty, []⟩

end Sheet

end RouteSheet
