import RouteSheet.Query.Dispatch
import RouteSheet.Store.Walk

/-!
# The store

A database in memory: tables, the last row id given out, how many rows the last
change touched, and the statements kept ready. A statement is checked when it is
made ready and again when it runs; one that is already kept is checked only when
it runs, so that its failure no longer points into the text.

A database url names a path behind `sqlite://` or `sqlite:`, with blanks around it
ignored. A store opens the path that means memory, and others where there is room
for a new database. As an executor it binds the values of arguments as cells and
gives back rows of values.
-/

namespace RouteSheet

/-- A database in memory. -/
structure Store where
  tables : List Table
  lastId : Int
  changes : Nat
  /-- the texts of the statements kept ready, last used first -/
  kept : List String
  deriving Repr, DecidableEq

namespace Store

/-- The store with nothing in it. -/
def empty : Store := ⟨[], 0, 0, []⟩

/-- The table of a name. -/
def table? (s : Store) (name : String) : Except StoreError Table :=
  match s.tables.find? (·.name == name) with
  | some t => .ok t
  | none => .error (.noSuchTable name)

/-- The store with a table replaced. -/
def setTable (s : Store) (t : Table) : Store :=
  { s with tables := s.tables.map fun old => if old.name == t.name then t else old }

/-- What can be said against a statement before it runs, and the place in its text that this
points to, if any. -/
abbrev Objection := StoreError × Option Nat

/-- The columns named in a text are there. -/
def checkColumns (t : Table) (columns : List ColumnName) : Except Objection Unit :=
  match columns.find? fun c => !t.hasColumn c.name with
  | some c => .error (.noSuchColumn c.name, some c.place)
  | none => .ok ()

/-- The columns of a new table have names of their own, and one is the primary key at most. Of two
objections the one to the column in front counts. -/
def checkDeclared (table : String) : List Column → List Column → Except Objection Unit
  | _, [] => .ok ()
  | before, c :: rest =>
    if before.any (·.name == c.name) then .error (.repeatedColumn c.name, none)
    else if c.isKey && before.any (·.isKey) then .error (.severalKeys table, none)
    else checkDeclared table (c :: before) rest

/-- The table of a name, before a statement runs. -/
def knownTable (s : Store) (name : String) : Except Objection Table :=
  (s.table? name).mapError fun e => (e, none)

/-- Checks a statement before it runs. -/
def check (s : Store) : Statement → Except Objection Unit
  | .empty => .ok ()
  | .createTable name place columns =>
    if (s.table? name).isOk then .error (.tableExists name, some place)
    else checkDeclared name [] columns
  | .insert table columns operands => do
    let t ← s.knownTable table
    match columns.find? fun c => !t.hasColumn c with
    | some c => throw (.noColumnIn table c, none)
    | none =>
      if operands.length = columns.length then pure ()
      else throw (.valueCount operands.length columns.length, none)
  | .update table changes filters => do
    let t ← s.knownTable table
    match changes.find? fun c => !t.hasColumn c.1 with
    | some c => throw (.noSuchColumn c.1, none)
    | none => checkColumns t (filters.map (·.column))
  | .delete table filters => do checkColumns (← s.knownTable table) (filters.map (·.column))
  | .select q =>
    match q.table with
    | some table => do checkColumns (← s.knownTable table) q.named
    | none =>
      if q.results.isNone then throw (.noTable, none) else checkColumns ⟨"", [], []⟩ q.named

/-- What a result column shows of a row, where there is one. -/
def shownCell (params : List Cell) (source : Option (Table × Row)) (count : Nat) :
    ResultExpr → Cell
  | .column column =>
    match source with
    | some (t, row) => t.cell row column.name
    | none => .null
  | .count => .integer count
  | .operand o => o.cell params
  | .typeOf o => .text (o.cell params).typeName

/-- The rows that a selection draws on; without a table there is one row of nothing. -/
def sourceRows (s : Store) (params : List Cell) (q : Selection) :
    Except StoreError (List (Option (Table × Row))) :=
  match q.table with
  | none => .ok [none]
  | some name => (s.table? name).map fun t =>
    (t.find params q).map fun row => some (t, row)

/-- The result columns of a selection with their names. -/
def resultColumns (s : Store) (q : Selection) : Except StoreError (List (String × ResultExpr)) :=
  match q.results, q.table with
  | some results, _ => .ok results
  | none, some name => (s.table? name).map fun t =>
    t.columns.map fun column => (column.name, .column ⟨column.name, 0⟩)
  | none, none => .ok []

/-- The rows that a selection shows, as named cells. A count stands for all rows at once. -/
def select (s : Store) (params : List Cell) (q : Selection) :
    Except StoreError (List (List (String × Cell))) := do
  let rows ← s.sourceRows params q
  let results ← s.resultColumns q
  let shownRows := if results.any (·.2 == .count) then [rows.head?.join] else rows
  let shown := shownRows.map fun row =>
    results.map fun (name, e) => (name, shownCell params row rows.length e)
  match q.limit with
  | some n => pure (shown.take n)
  | none => pure shown

/-- The store with a statement run that shows nothing. -/
def apply (s : Store) (params : List Cell) : Statement → Except StoreError Store
  | .empty => .ok s
  | .select _ => .ok s
  | .createTable name _ columns =>
    if (s.table? name).isOk then .error (.tableExists name)
    else .ok { s with tables := s.tables ++ [⟨name, columns, []⟩] }
  | .insert table columns operands => do
    let t ← s.table? table
    let (t, id) ← t.insert columns (operands.map (·.cell params))
    pure { s.setTable t with lastId := id, changes := 1 }
  | .update table changes filters => do
    let t ← s.table? table
    let (t, count) ← t.update (changes.map fun (name, o) => (name, o.cell params)) params filters
    pure { s.setTable t with changes := count }
  | .delete table filters => do
    let t ← s.table? table
    let (t, count) := t.delete params filters
    pure { s.setTable t with changes := count }

/-- An objection to a text. -/
def Objection.toError (text : List Char) : Objection → StoreError
  | (e, some place) => .placed e (String.ofList text) (Text.byteSize (text.take place))
  | (e, none) => e

/-- The first statement of a text, made ready on the store. -/
def prepareFirst (s : Store) (text : List Char) : Except StoreError Prepared :=
  match Prepared.ofText? text with
  | none =>
    let word := (Text.trimMatches Cell.isNumeralBlank text).takeWhile (!Cell.isNumeralBlank ·)
    .error (.unreadable (String.ofList word))
  | some p =>
    match s.check p.statement with
    | .ok () => .ok p
    | .error objection => .error (objection.toError text)

/-- The statement of a text, made ready on the store. What comes behind it is made ready too, and
may be no more than an empty statement. -/
def prepare (s : Store) (text : List Char) : Except StoreError Prepared := do
  let p ← s.prepareFirst text
  if _ : 0 < p.stop ∧ p.stop < text.length then
    let rest ← s.prepare (text.drop p.stop)
    if rest.statement = .empty then pure p else throw .several
  else pure p
termination_by text.length
decreasing_by simp only [List.length_drop]; omega

/-- How many statements are kept ready. -/
def capacity : Nat := 16

/-- The store with a statement kept ready. An empty one is not kept. -/
def keep (s : Store) (text : String) (statement : Statement) : Store :=
  if statement = .empty then s
  else { s with kept := (text :: s.kept.erase text).take capacity }

/-- The statement of a text, kept or made ready. -/
def ready (s : Store) (text : List Char) : Except StoreError Prepared :=
  if s.kept.contains (String.ofList text) then
    match Prepared.ofText? text with
    | some p => .ok p
    | none => .error .misuse
  else s.prepare text

/-- The parameters are as many as the placeholders. Of too many only the first one too many is
counted. -/
def checkCount (p : Prepared) (params : List Cell) : Except StoreError Unit :=
  if params.length = p.placeholders then .ok ()
  else .error (.parameterCount (min params.length (p.placeholders + 1)) p.placeholders)

/-- The store after a statement that failed on its way: a change that is taken back has touched
no rows. -/
def takenBack (s : Store) : Statement → Store
  | .insert .. | .update .. | .delete .. => { s with changes := 0 }
  | _ => s

/-- Runs a statement for its effect. -/
def run (s : Store) (statement : String) (params : List Cell) :
    Except StoreError (Int × Nat) × Store :=
  let text := Text.trim statement.toList
  match s.ready text with
  | .error e => (.error e, s)
  | .ok p =>
    let s := s.keep (String.ofList text) p.statement
    match checkCount p params, p.statement with
    | .error e, _ => (.error e, s)
    | .ok (), .empty => (.error .misuse, s)
    | .ok (), .select q =>
      match s.select params q with
      | .error e => (.error e, s)
      | .ok [] => (.ok (s.lastId, s.changes), s)
      | .ok (_ :: _) => (.error .showsRows, s)
    | .ok (), statement =>
      match s.apply params statement with
      | .error e => (.error e, s.takenBack statement)
      | .ok t => (.ok (t.lastId, t.changes), t)

/-- Runs a statement for the rows it shows. -/
def query (s : Store) (statement : String) (params : List Cell) :
    Except StoreError (List (List (String × Cell))) × Store :=
  let text := Text.trim statement.toList
  match s.ready text with
  | .error e => (.error e, s)
  | .ok p =>
    let s := s.keep (String.ofList text) p.statement
    match checkCount p params, p.statement with
    | .error e, _ => (.error e, s)
    | .ok (), .empty => (.error .misuse, s)
    | .ok (), .select q => (s.select params q, s)
    | .ok (), statement =>
      match s.apply params statement with
      | .error e => (.error e, s.takenBack statement)
      | .ok t => (.ok [], t)

/-- Runs the statements of a text one after the other. The bound is on the number of
statements, and the length of the text and one more is enough. -/
def runAll : Nat → Store → List Char → Except StoreError Store
  | 0, s, _ => .ok s
  | fuel + 1, s, text =>
    if text.isEmpty then .ok s
    else do
      let p ← s.prepareFirst text
      let t ← s.apply [] p.statement
      runAll fuel t (text.drop p.stop)

/-- Runs the statements of a text one after the other. -/
def runBatch (s : Store) (text : String) : Except StoreError Store :=
  runAll (text.length + 1) s text.toList

end Store

/-- The path that a database url names. -/
def sqlitePath? (url : String) : Except QueryError String :=
  let s := Text.trim url.toList
  match (Text.stripStart? "sqlite://".toList s).or (Text.stripStart? "sqlite:".toList s) with
  | none => .error (.unsupportedUrl (String.ofList s))
  | some path => if path.isEmpty then .error .missingPath else .ok (String.ofList path)

namespace Store

/-- The store of a database url, with nothing in it, given whether there is room at its path. -/
def open_ (url : String) (hasRoom : Bool) : Except QueryError Store := do
  let path ← sqlitePath? url
  if path = ":memory:" || hasRoom then pure .empty
  else throw (.engine ("unable to open database file: " ++ path))

/-- A row of values. A name that comes again keeps its place and takes the later value. -/
def rowObject (row : List (String × Cell)) : Object :=
  .ofPairs (row.map fun (name, cell) => (name, cell.toValue))

/-- The failure as an executor reports it. -/
def queryError (e : StoreError) : QueryError := .engine e.message

/-- The store as an executor of queries. -/
def executor : Executor Store where
  first statement params s :=
    let (result, t) := s.query statement (params.map Cell.ofValue)
    ((result.mapError queryError).map fun rows => rows.head?.map rowObject, t)
  all statement params s :=
    let (result, t) := s.query statement (params.map Cell.ofValue)
    ((result.mapError queryError).map (List.map rowObject), t)
  run statement params s :=
    let (result, t) := s.run statement (params.map Cell.ofValue)
    ((result.mapError queryError).map fun (id, changes) => ⟨id, changes⟩, t)

end Store

end RouteSheet
