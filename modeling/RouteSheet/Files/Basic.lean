import RouteSheet.Text.Basic
import RouteSheet.Text.Utf8

/-!
# Paths and files

A path is a text whose parts stand between slashes; it is absolute when it begins
with one. Empty parts and single dots say nothing, apart from a dot at the very
beginning, and all else is kept as it is written.

What the program needs of the place where it runs is to find and to read files. A
failure to read has one of a few causes, each with a fixed text.
-/

namespace RouteSheet.Path

open Text

/-- The path begins at the root. -/
def isAbsolute (path : List Char) : Bool := path.head? == some '/'

/-- A path that is read from the place of another one. -/
def join (base path : List Char) : List Char :=
  if isAbsolute path then path
  else if base.isEmpty || base.getLast? == some '/' then base ++ path
  else base ++ '/' :: path

/-- A part that says nothing. -/
def isVoid (part : List Char) : Bool := part.isEmpty || part == ['.']

/-- The most bytes that a part may take. -/
def maxPartSize : Nat := 255

/-- The most bytes that a path may take. -/
def maxSize : Nat := 4095

/-- What stands in front of the parts of a path: the root, a dot or nothing. -/
def root (path : List Char) : List Char :=
  match path with
  | '/' :: _ => ['/']
  | ['.'] => ['.']
  | '.' :: '/' :: _ => ['.']
  | _ => []

/-- The parts behind the root, last first, without those at the end that say nothing. -/
def partsFromEnd (path : List Char) : List (List Char) :=
  (splitAtChar '/' (path.drop (root path).length)).reverse.dropWhile isVoid

/-- The names from the root to where a path leads if nothing on its way is missing: two dots go
back by one, at the root to nowhere. -/
def names (path : List Char) : List (List Char) :=
  (splitAtChar '/' path).foldl (fun above part =>
    if isVoid part then above
    else if part == ['.', '.'] then above.dropLast
    else above ++ [part]) []

/-- The absolute path of names from the root. -/
def ofNames (parts : List (List Char)) : List Char := '/' :: List.intercalate ['/'] parts

/-- The path without its last part. The root and the empty path have no parent. -/
def parent? (path : List Char) : Option (List Char) :=
  match partsFromEnd path, root path with
  | _ :: rest, start =>
    some (start ++ List.intercalate ['/'] (rest.dropWhile isVoid).reverse)
  | [], ['.'] => some []
  | [], _ => none

/-- The path and those above it, at most so many. -/
def ancestorsUpTo : Nat → List Char → List (List Char)
  | 0, path => [path]
  | fuel + 1, path =>
    match parent? path with
    | some above => path :: ancestorsUpTo fuel above
    | none => [path]

/-- The path and those above it, nearest first. -/
def ancestors (path : List Char) : List (List Char) := ancestorsUpTo path.length path

end RouteSheet.Path

namespace RouteSheet

/-- Why a file is not read. -/
inductive FileError where
  | missing
  /-- what is read is a directory -/
  | directory
  /-- a part on the way is no directory -/
  | notDirectory
  /-- a part of the path, or all of it, takes too many bytes -/
  | nameTooLong
  /-- the path holds the character of code zero -/
  | zeroInName
  /-- the bytes are no text -/
  | notText
  | other (message : String)
  deriving Repr, DecidableEq

/-- The text of the failure. -/
def FileError.message : FileError → String
  | .missing => "No such file or directory (os error 2)"
  | .directory => "Is a directory (os error 21)"
  | .notDirectory => "Not a directory (os error 20)"
  | .nameTooLong => "File name too long (os error 36)"
  | .zeroInName => "file name contained an unexpected NUL byte"
  | .notText => "stream did not contain valid UTF-8"
  | .other message => message

/-- Access to files, by paths. -/
structure Files (m : Type → Type) where
  /-- the directory that relative paths start from -/
  workingDirectory : m (Option String)
  isPresent : String → m Bool
  isDirectory : String → m Bool
  read : String → m (Except FileError String)

namespace Files

variable {m : Type → Type} [Monad m]

/-- The most bytes that the path of a database may take. -/
def maxDatabasePath : Nat := 504

/-- A new database can be kept at a path: its directory is there, and it is itself no more than an
empty file. Parts that two dots take back need not be there. -/
def hasRoomAt (files : Files m) (path : String) : m Bool := do
  let dir := (← files.workingDirectory).getD ""
  let names := Path.names (Path.join dir.toList path.toList)
  let full := Path.ofNames names
  if names.isEmpty || maxDatabasePath < Text.byteSize full then return false
  if ← files.isDirectory (String.ofList (Path.ofNames names.dropLast)) then
    match ← files.read (String.ofList full) with
    | .ok text => return text.isEmpty
    | .error e => return e == .missing
  else return false

end Files

end RouteSheet
