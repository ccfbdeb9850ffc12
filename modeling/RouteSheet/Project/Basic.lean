import RouteSheet.Environment
import RouteSheet.Files.Basic
import RouteSheet.Toml.Reader

/-!
# Projects

A manifest has up to three sections and no other key beside them; within a section
unknown keys are passed over. The entry has two names, of which one may be used. A
section may also be written as an array of its values in order. A value of the wrong
kind, or a number out of range, makes the whole text no manifest.

A project is a manifest and the directory that its relative paths start from. The
manifest is named, or the nearest one at or above the working directory; having none
is no error. A setting comes from the environment, else from the manifest, else from
a default.
-/

namespace RouteSheet

open Toml (Node)

/-- The settings of a manifest. -/
structure Manifest where
  entry : Option String
  host : Option String
  port : Option Nat
  maxRequests : Option Nat
  databaseUrl : Option String
  deriving Repr, DecidableEq

namespace Manifest

/-- The file name of a manifest. -/
def fileName : String := "routecss.toml"

/-- The manifest without settings. -/
def empty : Manifest := ⟨none, none, none, none, none⟩

/-- The value under one of several names, of which only one may be there. -/
def oneOf (names : List String) (fields : Fields Node) : Option (Option Node) :=
  match fields.filter fun field => names.contains field.1 with
  | [] => some none
  | [(_, node)] => some (some node)
  | _ => none

/-- The first values of an array, as many as there are names. -/
def inOrder (names : List (List String)) (nodes : List Node) : Option (List (Option Node)) :=
  if names.length ≤ nodes.length then some ((nodes.take names.length).map some) else none

/-- The values of a section under the names of its fields. -/
def sectionNodes (names : List (List String)) : Option Node → Option (List (Option Node))
  | none | some .moment => some (names.map fun _ => none)
  | some (.table _ fields) => names.mapM fun alternatives => oneOf alternatives fields
  | some (.array nodes) => inOrder names nodes
  | some (.tables rows) => inOrder names (rows.map (.table .headed))
  | some _ => none

/-- The text of a field. -/
def text? : Option Node → Option (Option String)
  | none => some none
  | some (.string s) => some (some s)
  | some _ => none

/-- The number of a field, up to a greatest one. -/
def number? (greatest : Nat) : Option Node → Option (Option Nat)
  | none => some none
  | some (.integer n) => if 0 ≤ n && n ≤ greatest then some (some n.toNat) else none
  | some _ => none

/-- The greatest port. -/
def greatestPort : Nat := 65535

/-- The greatest count. -/
def greatestCount : Nat := 0xFFFFFFFFFFFFFFFF

/-- The manifest of a document. -/
def ofFields? (fields : Fields Node) : Option Manifest := do
  if !fields.all fun field => ["package", "serve", "database"].contains field.1 then none
  else
    let package ← sectionNodes [["entry", "main"]] (fields.get? "package")
    let serve ← sectionNodes [["host"], ["port"], ["max_requests"]] (fields.get? "serve")
    let database ← sectionNodes [["url"]] (fields.get? "database")
    match package, serve, database with
    | [entry], [host, port, maxRequests], [url] =>
      some ⟨← text? entry, ← text? host, ← number? greatestPort port,
        ← number? greatestCount maxRequests, ← text? url⟩
    | _, _, _ => none

/-- The manifest that a text writes. -/
def ofText? (text : List Char) : Option Manifest := (Toml.document? text).bind ofFields?

end Manifest

/-- Why a project does not settle what is asked of it. -/
inductive ProjectError where
  | unreadable (path : String) (cause : FileError)
  | badManifest (path : String)
  /-- an overriding value that is no number in range -/
  | badOverride (key value : String)
  | missingEntry
  deriving Repr, DecidableEq

/-- The text of the failure. -/
def ProjectError.message : ProjectError → String
  | .unreadable path cause => "failed to read " ++ path ++ ": " ++ cause.message
  | .badManifest path => "invalid manifest " ++ path
  | .badOverride key value => "invalid value `" ++ value ++ "` for " ++ key
  | .missingEntry =>
    "missing entry: pass a stylesheet path or set package.entry in " ++ Manifest.fileName

/-- A manifest and the directory of its file. -/
structure Project where
  manifest : Manifest
  dir : Option String
  deriving Repr, DecidableEq

namespace Project

/-- A path read from the place of a directory. -/
def under (dir path : String) : String := String.ofList (Path.join dir.toList path.toList)

/-- The project without a manifest. -/
def bare : Project := ⟨.empty, none⟩

/-- The project of a manifest's text at a path. -/
def ofText (path text : String) : Except ProjectError Project :=
  match Manifest.ofText? text.toList with
  | some manifest => .ok ⟨manifest, (Path.parent? path.toList).map String.ofList⟩
  | none => .error (.badManifest path)

section Load

variable {m : Type → Type} [Monad m]

/-- The path of the manifest: the one that is named, where a directory stands for the manifest in
it, or the nearest one at or above the working directory. -/
def manifestPath? (files : Files m) : Option String → m (Option String)
  | some path => do
    if ← files.isDirectory path then return some (under path Manifest.fileName)
    else return some path
  | none => do
    match ← files.workingDirectory with
    | none => return none
    | some dir =>
      let candidates := (Path.ancestors dir.toList).map fun above =>
        under (String.ofList above) Manifest.fileName
      candidates.findM? files.isPresent

/-- The project that a named manifest, or none, stands for. -/
def load (files : Files m) (named : Option String) : m (Except ProjectError Project) := do
  match ← manifestPath? files named with
  | none => return .ok bare
  | some path =>
    match ← files.read path with
    | .error cause => return .error (.unreadable path cause)
    | .ok text => return ofText path text

/-- The path of the file of variables. -/
def variablesPath (project : Project) : String :=
  match project.dir with
  | some dir => under dir ".env"
  | none => ".env"

/-- The environment with the variables added that a file beside the manifest sets. A file that
cannot be read adds none; a file that sets a variable that cannot be set leaves no environment. -/
def environment (files : Files m) (project : Project) (env : Environment) :
    m (Option Environment) := do
  match ← files.read project.variablesPath with
  | .ok text => return env.extend? (Environment.ofText text.toList)
  | .error _ => return some env

end Load

/-- The path of the stylesheet: the one that is named as it stands, else the entry of the manifest
under its directory. -/
def entry (project : Project) (named : Option String) : Except ProjectError String :=
  match named, project.manifest.entry with
  | some path, _ => .ok path
  | none, none => .error .missingEntry
  | none, some path =>
    match project.dir with
    | some dir => .ok (under dir path)
    | none => .ok path

/-- A database url of the manifest: a relative path in it starts from the manifest's directory. -/
def resolvedUrl (project : Project) (url : String) : String :=
  match project.dir, Text.stripStart? "sqlite://".toList url.toList with
  | some dir, some path =>
    if path.head? == some ':' || Path.isAbsolute path then url
    else "sqlite://" ++ under dir (String.ofList path)
  | _, _ => url

/-- The url of the database. -/
def databaseUrl (project : Project) (env : Environment) : Option String :=
  match env.override? "database" "url" with
  | some url => some url
  | none => project.manifest.databaseUrl.map project.resolvedUrl

/-- The address to serve at, without the port. -/
def host (project : Project) (env : Environment) : String :=
  ((env.override? "serve" "host").or project.manifest.host).getD "127.0.0.1"

/-- A number from the environment, else from the manifest, else a default. -/
def numberSetting (env : Environment) (field : String) (greatest : Nat) (own : Option Nat)
    (default : Nat) : Except ProjectError Nat :=
  match env.override? "serve" field with
  | none => .ok (own.getD default)
  | some raw =>
    match Text.unsigned? greatest (Text.trim raw.toList) with
    | some n => .ok n
    | none => .error (.badOverride (overrideKey "serve" field) raw)

/-- The port to serve at. -/
def port (project : Project) (env : Environment) : Except ProjectError Nat :=
  numberSetting env "port" Manifest.greatestPort project.manifest.port 3000

/-- After how many requests serving ends; zero stands for never. -/
def maxRequests (project : Project) (env : Environment) : Except ProjectError Nat :=
  numberSetting env "max_requests" Manifest.greatestCount project.manifest.maxRequests 0

end Project

end RouteSheet
