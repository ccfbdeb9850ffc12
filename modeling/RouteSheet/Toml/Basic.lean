import RouteSheet.Value.Basic

/-!
# TOML documents

A document is a tree of tables. A table is made by a header of its own, by the
header of a table inside it, by a dotted key or by braces, and how it was made
decides who may still add to it: braces close a table for good, a dotted key adds
only to tables that dotted keys made, and a header may take over a table that was
only implied. Nothing is ever set twice.
-/

namespace RouteSheet.Toml

/-- How a table was made. -/
inductive Making where
  /-- by a header of its own; the document itself counts as such a table -/
  | headed
  /-- by the header of a table inside it -/
  | implied
  /-- by a dotted key -/
  | dotted
  /-- by braces -/
  | braced
  deriving Repr, DecidableEq

/-- A value of a document. Numbers that are no integers and moments of time are told apart from
other values and are not read further. -/
inductive Node where
  | string (text : String)
  | integer (value : Int)
  | float
  | boolean (value : Bool)
  | moment
  | array (nodes : List Node)
  | table (making : Making) (fields : List (String × Node))
  /-- tables under one header that is written in double brackets -/
  | tables (rows : List (List (String × Node)))

/-- What goes on to a table on the way of a path: a header does not pass through braces, and a
dotted key only through tables that no header has made. -/
def Making.lets (way made : Making) : Bool :=
  match way, made with
  | _, .braced => false
  | .dotted, .headed => false
  | _, _ => true

/-- The fields with a change made in the table that a path leads to, when the table at its start
is made in a given way. Tables missing on the way are made on the way, and under a header in double
brackets the last table is meant. -/
def edit (way : Making) (change : Making → Fields Node → Option (Fields Node)) :
    List String → Making → Fields Node → Option (Fields Node)
  | [], making, fields => change making fields
  | key :: path, _, fields =>
    match fields.get? key with
    | none =>
      (edit way change path way []).map fun inner => fields.insert key (.table way inner)
    | some (.table making inner) =>
      if way.lets making then
        (edit way change path making inner).map fun inner => fields.insert key (.table making inner)
      else none
    | some (.tables rows) =>
      match rows.getLast? with
      | some row =>
        (edit way change path .headed row).map fun row =>
          fields.insert key (.tables (rows.dropLast ++ [row]))
      | none => none
    | some _ => none

/-- Sets a new key. A dotted key sets it in a table that dotted keys made, and a plain key in any
other. -/
def setKey (byDottedKey : Bool) (key : String) (node : Node) (making : Making)
    (fields : Fields Node) : Option (Fields Node) :=
  if (making == .dotted) == byDottedKey && (fields.get? key).isNone then
    some (fields.insert key node)
  else none

/-- Sets a key at the end of a path, from a table on. -/
def setPath (path : List String) (key : String) (node : Node) :
    Making → Fields Node → Option (Fields Node) :=
  edit .dotted (setKey (!path.isEmpty) key node) path

/-- Opens a table for a header: a new one, or one that was only implied. -/
def openTable (key : String) (_ : Making) (fields : Fields Node) : Option (Fields Node) :=
  match fields.get? key with
  | none => some (fields.insert key (.table .headed []))
  | some (.table .implied inner) => some (fields.insert key (.table .headed inner))
  | some _ => none

/-- Opens one more table for a header in double brackets. -/
def openRow (key : String) (_ : Making) (fields : Fields Node) : Option (Fields Node) :=
  match fields.get? key with
  | none => some (fields.insert key (.tables [[]]))
  | some (.tables rows) => some (fields.insert key (.tables (rows ++ [[]])))
  | some _ => none

/-- A line of a document that says something. A path is given without its last key. -/
inductive Line where
  | blank
  | header (path : List String) (key : String)
  | rowHeader (path : List String) (key : String)
  | setting (path : List String) (key : String) (node : Node)

/-- A document as far as it has been read: the path of the last header, and the fields. -/
structure Document where
  here : List String
  fields : Fields Node

namespace Document

/-- The empty document. -/
def empty : Document := ⟨[], []⟩

/-- The document with one more line. -/
def add (d : Document) : Line → Option Document
  | .blank => some d
  | .header path key =>
    (edit .implied (openTable key) path .headed d.fields).map fun fields =>
      ⟨path ++ [key], fields⟩
  | .rowHeader path key =>
    (edit .implied (openRow key) path .headed d.fields).map fun fields => ⟨path ++ [key], fields⟩
  | .setting path key node =>
    (edit .implied (setPath path key node) d.here .headed d.fields).map fun fields =>
      ⟨d.here, fields⟩

end Document

end RouteSheet.Toml
