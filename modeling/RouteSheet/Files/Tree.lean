import RouteSheet.Files.Basic
import RouteSheet.Text.Utf8

/-!
# Files in memory

A tree of files that is written down: texts at their places, and one directory to
work in. A place is a list of names from the root, and whatever has a file below it
is a directory. A path is followed part by part, and every part but the last one has
to be a directory. Nothing has a name that is too long, and nothing is looked for
behind one.
-/

namespace RouteSheet

/-- A place in a tree, as names from the root. -/
abbrev Place := List (List Char)

/-- Files in memory. -/
structure FileTree where
  files : List (Place × String)
  workingPlace : Place

namespace FileTree

/-- A place lies above another one or is the same. -/
def above (p q : Place) : Bool := p.isPrefixOf q

/-- The text of a file. -/
def text? (tree : FileTree) (p : Place) : Option String :=
  (tree.files.find? (·.1 == p)).map (·.2)

/-- The place is a directory. -/
def isDirectory (tree : FileTree) (p : Place) : Bool :=
  above p tree.workingPlace || tree.files.any fun (q, _) => above p q && p != q

/-- One part further on from a directory. -/
def step (tree : FileTree) (p : Place) (part : List Char) : Except FileError Place :=
  if !tree.isDirectory p then .error .notDirectory
  else if Path.isVoid part then .ok p
  else if part == ['.', '.'] then .ok p.dropLast
  else if Path.maxPartSize < Text.byteSize part then .error .nameTooLong
  else
    let q := p ++ [part]
    if tree.isDirectory q || (tree.text? q).isSome then .ok q else .error .missing

/-- The place that a path leads to. -/
def follow (tree : FileTree) (path : String) : Except FileError Place :=
  let cs := path.toList
  if cs.contains '\x00' then .error .zeroInName
  else if cs.isEmpty then .error .missing
  else if Path.maxSize < Text.byteSize cs then .error .nameTooLong
  else
    (Text.splitAtChar '/' cs).foldlM tree.step
      (if Path.isAbsolute cs then [] else tree.workingPlace)

/-- The text of the file that a path leads to. -/
def read (tree : FileTree) (path : String) : Except FileError String := do
  let p ← tree.follow path
  match tree.text? p with
  | some text => pure text
  | none => throw .directory

/-- The path of a place. -/
def pathOf (p : Place) : String := String.ofList (Path.ofNames p)

/-- The tree as the place where the program runs. -/
def access (tree : FileTree) : Files Id where
  workingDirectory := some (pathOf tree.workingPlace)
  isPresent path := (tree.follow path).isOk
  isDirectory path := (tree.follow path).toOption.any tree.isDirectory
  read path := tree.read path

end FileTree

end RouteSheet
