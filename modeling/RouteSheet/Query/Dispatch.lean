import RouteSheet.Text.Basic
import RouteSheet.Value.Text

/-!
# Queries

An executor runs database statements: it fetches one row, fetches all rows or runs a
statement for its effect, on a state of its own, and answers or fails. It can be
watched: the watched one answers alike and keeps a list of the calls.

The leading keyword decides how a statement is run and what its answer looks like.
A SELECT fetches one row when its text contains `LIMIT 1` or exactly one argument
is bound, and all rows otherwise. A failure is a value too: an object with one
field that holds the text of the error.
-/

namespace RouteSheet

/-- How a statement is run. -/
inductive QueryMode where
  /-- for the first row -/
  | first
  /-- for all rows -/
  | all
  /-- for its effect -/
  | run
  deriving Repr, DecidableEq

/-- One use of an executor. -/
structure QueryCall where
  mode : QueryMode
  statement : String
  params : List Value

/-- Why a database does not answer. -/
inductive QueryError where
  | engine (message : String)
  | unsupportedUrl (url : String)
  | missingPath
  | lockPoisoned
  deriving Repr, DecidableEq

/-- The text of a failure. -/
def QueryError.message : QueryError → String
  | .engine message => message
  | .unsupportedUrl url => "unsupported db url `" ++ url ++ "` (expected sqlite://...)"
  | .missingPath => "sqlite url missing path"
  | .lockPoisoned => "database connection lock poisoned"

/-- What runs statements on a state. -/
structure Executor (σ : Type) where
  first : String → List Value → σ → Except QueryError (Option Object) × σ
  all : String → List Value → σ → Except QueryError (List Object) × σ
  run : String → List Value → σ → Except QueryError WriteReport × σ

/-- The executor that also notes its calls, first call first. -/
def Executor.watched {σ : Type} (db : Executor σ) : Executor (σ × List QueryCall) where
  first statement params s :=
    let (answer, t) := db.first statement params s.1
    (answer, t, s.2 ++ [⟨.first, statement, params⟩])
  all statement params s :=
    let (answer, t) := db.all statement params s.1
    (answer, t, s.2 ++ [⟨.all, statement, params⟩])
  run statement params s :=
    let (answer, t) := db.run statement params s.1
    (answer, t, s.2 ++ [⟨.run, statement, params⟩])

/-- The leading keyword of a statement. -/
inductive StatementKind where
  | select
  | insert
  | update
  | delete
  | other
  deriving Repr, DecidableEq

/-- The kind of a statement, by the letters it begins with in any case. -/
def StatementKind.ofStatement (statement : String) : StatementKind :=
  let keyword := Text.upper ((Text.trim statement.toList).takeWhile Text.isLetter)
  if keyword == "SELECT".toList then .select
  else if keyword == "INSERT".toList then .insert
  else if keyword == "UPDATE".toList then .update
  else if keyword == "DELETE".toList then .delete
  else .other

/-- A SELECT with these arguments is asked for one row only. -/
def asksOneRow (statement : String) (params : List Value) : Bool :=
  Text.containsPhrase "LIMIT 1".toList statement.toList || params.length == 1

/-- The text of the failure of a query where there is no database. -/
def noDatabaseMessage : String := "Database not configured"

/-- The value of an answer, or of the failure in its place. -/
def answerValue {α : Type} (f : α → Value) : Except QueryError α → Value
  | .ok answer => f answer
  | .error e => .ofError e.message

/-- The value of a first row. -/
def rowValue : Option Object → Value
  | some row => .object row
  | none => .null

/-- The value of all rows. -/
def rowsValue (rows : List Object) : Value := .array (rows.map .object)

/-- The value of a count. -/
def countValue (n : Int) : Value := .number (.ofInt n)

/-- The value of an insertion. -/
def insertionValue (r : WriteReport) : Value :=
  .object [("id", countValue r.rowId), ("changes", countValue r.changes)]

/-- The value of an update or deletion. -/
def changeValue (r : WriteReport) : Value := .object [("changes", countValue r.changes)]

/-- Runs a statement and turns the answer into a value. -/
def Executor.query {σ : Type} (db : Executor σ) (statement : String) (params : List Value) (s : σ) :
    Value × σ :=
  match StatementKind.ofStatement statement with
  | .select =>
    if asksOneRow statement params then
      let (answer, t) := db.first statement params s
      (answerValue rowValue answer, t)
    else
      let (answer, t) := db.all statement params s
      (answerValue rowsValue answer, t)
  | .insert =>
    let (answer, t) := db.run statement params s
    (answerValue insertionValue answer, t)
  | .update | .delete =>
    let (answer, t) := db.run statement params s
    (answerValue changeValue answer, t)
  | .other =>
    let (answer, t) := db.run statement params s
    (answerValue .report answer, t)

/-- Runs a statement on a database that may not be there. -/
def queryValue {σ : Type} (db : Option (Executor σ)) (statement : String) (params : List Value)
    (s : σ) : Value × σ :=
  match db with
  | some db => db.query statement params s
  | none => (.ofError noDatabaseMessage, s)

end RouteSheet
