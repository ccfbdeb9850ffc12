import RouteSheet.Route.Match
import RouteSheet.Route.Run
import RouteSheet.Sheet.Load
import RouteSheet.Store.Basic
import RouteSheet.Text.Percent

/-!
# Applications

An application is a list of routes and a database that may not be there. A request
runs the first route that answers it, with its captures decoded and written over
the path parameters of the request; a request that no route answers touches
nothing. Opening a sheet opens its database and runs its schema in order.
-/

namespace RouteSheet

/-- Routes and the database they share, whose state is kept apart. -/
structure App (σ : Type) where
  routes : List Route
  database : Option (Executor σ)

namespace App

variable {σ : Type}

/-- The captures with their escapes undone. -/
def decodedCaptures (captures : List (String × String)) : List (String × String) :=
  captures.map fun (name, raw) => (name, String.ofList (Text.percentDecode false raw.toList))

/-- The response of the route that answers a request, if one does. -/
def handle (app : App σ) (method path : String) (request : Request) (s : σ) :
    Option Response × σ :=
  match Route.find? app.routes method path with
  | none => (none, s)
  | some (route, captures) =>
    let (response, t) := route.run app.database (request.withParams (decodedCaptures captures)) s
    (some response, t)

end App

/-- Why an application does not start. -/
inductive OpenError where
  | database (error : QueryError)
  | schema (statement : String) (error : QueryError)
  deriving Repr, DecidableEq

/-- The text of the failure. -/
def OpenError.message : OpenError → String
  | .database error => "failed to open database: " ++ error.message
  | .schema statement error =>
    "@schema statement failed: " ++ error.message ++ "\n  " ++ statement

/-- Runs the statements of a schema. -/
def runSchema (s : Store) (schema : List String) : Except OpenError Store :=
  schema.foldlM (fun s statement =>
    (s.runBatch statement).mapError fun e => .schema statement (Store.queryError e)) s

/-- The url of the database of a sheet. One that is given wins over the sheet's own. -/
def Sheet.databaseUrl? (sheet : Sheet) (url : Option String) : Option String :=
  url.or sheet.database

/-- The application of a sheet and the state of its database, given whether there is room for a
database at the path of its url. Without a url the schema is passed over. -/
def Sheet.openApp (sheet : Sheet) (url : Option String) (hasRoom : Bool) :
    Except OpenError (App Store × Store) :=
  match sheet.databaseUrl? url with
  | none => .ok (⟨sheet.routes, none⟩, .empty)
  | some url => do
    let s ← (Store.open_ url hasRoom).mapError .database
    let t ← runSchema s sheet.schema
    pure (⟨sheet.routes, some Store.executor⟩, t)

end RouteSheet
