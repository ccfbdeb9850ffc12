import RouteSheet.App
import RouteSheet.Cli.Command
import RouteSheet.Project.Basic
import RouteSheet.Sheet.Load

/-!
# Carrying out a command

Both commands read the project, its variables and the stylesheet. A variable that cannot
be set breaks them off, and they stop at a sheet with errors once all diagnostics are
written. Checking then prints a count or a listing. Serving settles where to listen
before it opens the database, and the last thing that can fail is to listen there.

A listing has one line for the database, if the sheet names one, and one for each route:
method, path, where the status comes from, how the body goes out, and the variables in the
order of their assignment.
-/

namespace RouteSheet.Cli

/-- A text as a line. -/
def asLine (s : String) : String := s ++ "\n"

/-- Where the status of a route comes from. -/
def statusText : Option StatusSpec → String
  | none => "200"
  | some (.code n) => intText n
  | some (.var name) => "var(--" ++ name ++ ")"
  | some (.choice _ _) => "if(...)"

/-- How a body goes out. -/
def bodyText : BodyKind → String
  | .json => "json"
  | .html => "html"

/-- The line of a route. -/
def routeLine (r : Route) : String :=
  r.method ++ " " ++ r.path ++ " status=" ++ statusText r.status ++ " return=" ++
    bodyText r.returns.kind ++ " vars=[" ++
    ", ".intercalate (r.assignments.map fun a => "--" ++ a.name) ++ "]"

/-- The lines of a sheet. -/
def listing (sheet : Sheet) : List String :=
  (sheet.database.map ("@database " ++ ·)).toList ++ sheet.routes.map routeLine

/-- Why an address cannot be listened at. -/
inductive BindError where
  | permissionDenied
  | addressUnavailable
  | other (message : String)
  deriving Repr, DecidableEq

/-- The text of the failure. -/
def BindError.message : BindError → String
  | .permissionDenied => "Permission denied (os error 13)"
  | .addressUnavailable => "Cannot assign requested address (os error 99)"
  | .other message => message

/-- A server that is ready to listen. -/
structure Server where
  host : String
  port : Nat
  /-- after how many requests it stops; zero stands for never -/
  maxRequests : Nat
  app : App Store
  store : Store

/-- The address of a server. -/
def Server.address (s : Server) : String := s.host ++ ":" ++ intText s.port

/-- How a command ends, or goes on: what it has written, and its exit code or a server. -/
inductive Outcome where
  | finished (code : Nat) (output errors : String)
  | serving (errors : String) (server : Server)

namespace Outcome

/-- A failure, behind what has been written before. -/
def failed (errors message : String) : Outcome :=
  .finished 1 "" (errors ++ asLine ("error: " ++ message))

/-- The exit code of a program that is broken off. -/
def crashCode : Nat := 101

/-- The outcome of a program that is broken off; what it writes of itself is left out. -/
def crashed : Outcome := .finished crashCode "" ""

/-- The outcome for words that are no command. -/
def misused (e : UsageError) : Outcome := .finished 2 "" (asLine ("error: " ++ e.message))

/-- The outcome of a server that cannot listen. -/
def unbound (errors : String) (server : Server) (e : BindError) : Outcome :=
  .failed errors ("failed to bind " ++ server.address ++ ": " ++ e.message)

end Outcome

/-- The lines of diagnostics about a file. -/
def diagnosticText (path : String) (diagnostics : List Diagnostic) : String :=
  String.join (diagnostics.map fun d => asLine (path ++ ": " ++ d.display))

section Session

variable {m : Type → Type} [Monad m]

/-- The project and the environment that its variables complete, if they can be set. -/
def openProject (files : Files m) (env : Environment) (manifest : Option String) :
    m (Except ProjectError (Project × Option Environment)) := do
  match ← Project.load files manifest with
  | .error e => return .error e
  | .ok project => return .ok (project, ← project.environment files env)

/-- The diagnostics of the project's stylesheet, as text, and the sheet if it has no errors. -/
def openSheet (files : Files m) (project : Project) (env : Environment) (file : Option String) :
    m (String × Except String Sheet) := do
  match project.entry file with
  | .error e => return ("", .error e.message)
  | .ok path =>
    match ← files.read path with
    | .error cause => return ("", .error (ProjectError.unreadable path cause).message)
    | .ok text =>
      let loading := Sheet.load env text.toList
      let errors := diagnosticText path loading.diagnostics
      if hasErrors loading.diagnostics then return (errors, .error (path ++ " has errors"))
      else return (errors, .ok loading.built)

/-- There is room for the database of a sheet at the path of its url. -/
def hasRoom (files : Files m) (sheet : Sheet) (url : Option String) : m Bool :=
  match (sheet.databaseUrl? url).map sqlitePath? with
  | some (.ok path) => files.hasRoomAt path
  | _ => return false

/-- The server of a sheet; a host and a port that are named win over those of the project. -/
def server (project : Project) (env : Environment) (sheet : Sheet) (host : Option String)
    (port : Option Nat) (hasRoom : Bool) : Except String Server := do
  let port ← match port with
    | some n => pure n
    | none => (project.port env).mapError ProjectError.message
  let maxRequests ← (project.maxRequests env).mapError ProjectError.message
  let (app, store) ← (sheet.openApp (project.databaseUrl env) hasRoom).mapError OpenError.message
  pure ⟨host.getD (project.host env), port, maxRequests, app, store⟩

/-- What checking prints of a sheet. -/
def checkText (dump : Bool) (sheet : Sheet) : String :=
  if dump then String.join ((listing sheet).map asLine)
  else asLine ("ok: " ++ intText sheet.routes.length ++ " route(s)")

/-- Opens project and sheet and goes on with them. -/
def withSheet (files : Files m) (env : Environment) (file manifest : Option String)
    (next : Project → Environment → String → Sheet → m Outcome) : m Outcome := do
  match ← openProject files env manifest with
  | .error e => return .failed "" e.message
  | .ok (_, none) => return .crashed
  | .ok (project, some env) =>
    match ← openSheet files project env file with
    | (errors, .error message) => return .failed errors message
    | (errors, .ok sheet) => next project env errors sheet

/-- The name of the program and its version. -/
def versionText : String := "routecss 0.1.0"

/-- Carries out a command. -/
def Command.perform (files : Files m) (env : Environment) : Command → m Outcome
  | .version => return .finished 0 (asLine versionText) ""
  | .check file manifest dump =>
    withSheet files env file manifest fun _ _ errors sheet =>
      return .finished 0 (checkText dump sheet) errors
  | .run file manifest host port =>
    withSheet files env file manifest fun project env errors sheet => do
      let room ← hasRoom files sheet (project.databaseUrl env)
      match server project env sheet host port room with
      | .error message => return .failed errors message
      | .ok server => return .serving errors server

/-- Carries out what words ask for. -/
def perform (files : Files m) (env : Environment) (words : List String) : m Outcome :=
  match Command.ofWords words with
  | .error e => return .misused e
  | .ok command => command.perform files env

end Session

end RouteSheet.Cli
