import RouteSheet.Route.Run

/-!
# Diagnostics

What may be wrong with a stylesheet, each with the line it belongs to. Errors are
what makes a route or an item of the sheet useless; warnings tell of text that is
ignored or replaced.
-/

namespace RouteSheet

/-- How serious a problem is. -/
inductive Level where
  | error
  | warning
  deriving Repr, DecidableEq

/-- A problem of a stylesheet. -/
inductive Problem where
  | databaseRepeated
  | databaseUnresolved (value : String)
  | schemaEmpty
  | unknownRule (name : String)
  | unopenedBlock (text : String)
  | strayText (text : String)
  | unknownSelector (selector : String)
  | unknownAttribute (name : String)
  | missingPath (selector : String)
  | duplicateRoute (method path : String)
  | missingValue (declaration : String)
  | variableRepeated (name : String)
  | badStatus (error : StatusError)
  | returnRepeated
  | unknownProperty (name : String)
  | missingReturn (method path : String)
  | emptyStatement
  deriving Repr, DecidableEq

namespace Problem

/-- The level of a problem. -/
def level : Problem → Level
  | .unopenedBlock _ | .missingPath _ | .badStatus _ | .missingReturn _ _ => .error
  | _ => .warning

/-- The text of a problem. -/
def message : Problem → String
  | .databaseRepeated => "@database declared more than once; last one wins"
  | .databaseUnresolved value => "@database `" ++ value ++ "` resolved to nothing"
  | .schemaEmpty => "empty @schema statement ignored"
  | .unknownRule name => "unknown at-rule @" ++ name ++ " ignored"
  | .unopenedBlock text => "expected `\x7b` after `" ++ text ++ "`"
  | .strayText text => "stray text `" ++ text ++ "` ignored"
  | .unknownSelector selector => "unknown selector `" ++ selector ++ "` ignored"
  | .unknownAttribute name => "unknown route attribute `" ++ name ++ "` ignored"
  | .missingPath selector => "route `" ++ selector ++ "` is missing a path attribute"
  | .duplicateRoute method path =>
    "duplicate route " ++ method ++ " " ++ path ++ "; the first declaration wins"
  | .missingValue declaration => "declaration `" ++ declaration ++ "` has no value"
  | .variableRepeated name =>
    "variable --" ++ name ++ " assigned more than once; later value shadows"
  | .badStatus error => error.message
  | .returnRepeated => "return declared more than once; last one wins"
  | .unknownProperty name => "unknown property `" ++ name ++ "` ignored"
  | .missingReturn method path => "route " ++ method ++ " " ++ path ++ " has no return declaration"
  | .emptyStatement => "sql() without a quoted statement runs an empty query"

end Problem

/-- A problem and the line it belongs to. -/
structure Diagnostic where
  problem : Problem
  line : Nat
  deriving Repr, DecidableEq

/-- The word of a level. -/
def Level.word : Level → String
  | .error => "error"
  | .warning => "warning"

namespace Diagnostic

/-- The diagnostic is an error. -/
def isError (d : Diagnostic) : Bool := d.problem.level == .error

/-- The diagnostic in one line. -/
def display (d : Diagnostic) : String :=
  d.problem.level.word ++ ": " ++ d.problem.message ++ " (line " ++ intText d.line ++ ")"

end Diagnostic

/-- One of the diagnostics is an error. -/
def hasErrors (diagnostics : List Diagnostic) : Bool := diagnostics.any Diagnostic.isError

end RouteSheet
