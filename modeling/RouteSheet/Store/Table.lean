import RouteSheet.Store.Statement

/-!
# Tables

A table holds rows in the order of their ids. Every row keeps the rules of the
columns: what may not be null is not, and no two rows share a cell of a unique
column or an id. A change that would break a rule is refused as a whole and names
the column; nulls are checked before repeated cells, in the order of the columns,
and repeated cells in the opposite order.
-/

namespace RouteSheet

/-- A row of a table, with its id. -/
structure Row where
  id : Int
  cells : List Cell
  deriving Repr, DecidableEq

/-- A table. -/
structure Table where
  name : String
  columns : List Column
  rows : List Row
  deriving Repr, DecidableEq

/-- Why a statement fails. -/
inductive StoreError where
  /-- the text is none of the statements that a store runs -/
  | unreadable (near : String)
  | noSuchTable (name : String)
  /-- all columns are asked for, of no table -/
  | noTable
  | noSuchColumn (name : String)
  /-- a row is to be inserted with a cell for which the table has no column -/
  | noColumnIn (table column : String)
  /-- a row is to be inserted with more or fewer cells than columns are named -/
  | valueCount (values columns : Nat)
  | tableExists (name : String)
  | repeatedColumn (name : String)
  /-- a table is to have more than one primary key -/
  | severalKeys (table : String)
  | notNull (table column : String)
  | notUnique (table column : String)
  /-- an id that is no integer -/
  | mismatch
  | parameterCount (given needed : Nat)
  /-- an empty statement is run -/
  | misuse
  /-- there is another statement behind the first one -/
  | several
  /-- a statement that is run for its effect shows rows -/
  | showsRows
  /-- a failure that is known before the statement runs, and the place in the text it points to -/
  | placed (cause : StoreError) (text : String) (offset : Nat)
  deriving Repr, DecidableEq

/-- The text of the failure. -/
def StoreError.message : StoreError → String
  | .unreadable near => "near \"" ++ near ++ "\": syntax error"
  | .noSuchTable name => "no such table: " ++ name
  | .noTable => "no tables specified"
  | .noSuchColumn name => "no such column: " ++ name
  | .noColumnIn table column => "table " ++ table ++ " has no column named " ++ column
  | .valueCount values columns => intText values ++ " values for " ++ intText columns ++ " columns"
  | .tableExists name => "table " ++ name ++ " already exists"
  | .repeatedColumn name => "duplicate column name: " ++ name
  | .severalKeys table => "table \"" ++ table ++ "\" has more than one primary key"
  | .notNull table column => "NOT NULL constraint failed: " ++ table ++ "." ++ column
  | .notUnique table column => "UNIQUE constraint failed: " ++ table ++ "." ++ column
  | .mismatch => "datatype mismatch"
  | .parameterCount given needed =>
    "Wrong number of parameters passed to query. Got " ++ intText given ++ ", needed " ++
      intText needed
  | .misuse => "bad parameter or other API misuse"
  | .several => "Multiple statements provided"
  | .showsRows => "Execute returned results - did you mean to call query?"
  | .placed cause text offset => cause.message ++ " in " ++ text ++ " at offset " ++ intText offset

/-- The cell of an operand. -/
def Operand.cell (params : List Cell) : Operand → Cell
  | .literal c => c
  | .placeholder i => (params[i]?.getD .null).bound

namespace Table

/-- The place of a column. -/
def columnIndex? (t : Table) (name : String) : Option Nat := t.columns.findIdx? (·.name == name)

/-- The cell of a row in a column. -/
def cell (t : Table) (row : Row) (name : String) : Cell :=
  ((t.columnIndex? name).bind (row.cells[·]?)).getD .null

/-- The row passes a filter. -/
def passes (t : Table) (params : List Cell) (row : Row) (f : Filter) : Bool :=
  match t.columns.find? (·.name == f.column.name) with
  | none => false
  | some column =>
    let current := t.cell row column.name
    let expected := (f.operand.cell params).drawn column.affinity
    if current == .null || expected == .null then false
    else (current.order expected == .eq) == f.equal

/-- The row passes all filters. -/
def selected (t : Table) (params : List Cell) (filters : List Filter) (row : Row) : Bool :=
  filters.all (t.passes params row)

/-- The table has the column. -/
def hasColumn (t : Table) (name : String) : Bool := (t.columnIndex? name).isSome

/-- An id that no row has, far behind those that are given one after the other. -/
def freeId (t : Table) : Int :=
  let ids := (List.range (t.rows.length + 1)).map fun (k : Nat) => (0x4000000000000000 + k : Int)
  (ids.find? fun id => t.rows.all (·.id != id)).getD 0

/-- The id of the next row: it comes after all others, unless the last one has the greatest id
there is. -/
def nextId (t : Table) : Int :=
  match t.rows.getLast? with
  | none => 1
  | some row => if row.id + 1 < wordBound then row.id + 1 else t.freeId

/-- The cells of a row with its id put into the column that shows it. -/
def withId (t : Table) (id : Int) (cells : List Cell) : Row :=
  ⟨id, List.zipWith (fun column cell => if column.isRowId then .integer id else cell)
    t.columns cells⟩

/-- The rule that a row would break beside other rows, if any. -/
def violation? (t : Table) (others : List Row) (row : Row) : Option StoreError :=
  let cells := t.columns.zip row.cells
  let nulls := cells.findSome? fun (column, cell) =>
    if column.notNull && cell == .null then some (.notNull t.name column.name) else none
  let ids :=
    match t.columns.find? (·.isRowId) with
    | some column =>
      if others.any (·.id == row.id) then some (.notUnique t.name column.name) else none
    | none => none
  let repeats := cells.reverse.findSome? fun (column, cell) =>
    if column.unique && others.any (fun other => (t.cell other column.name).sameAs cell) then
      some (.notUnique t.name column.name)
    else none
  (nulls.or ids).or repeats

/-- The rows with one more, in the order of ids. -/
def insertRow (row : Row) (rows : List Row) : List Row :=
  rows.takeWhile (·.id < row.id) ++ row :: rows.dropWhile (·.id < row.id)

/-- The id that a row asks for in the column that shows it; null asks for the next one. -/
def requestedId? (t : Table) (cells : List Cell) (next : Option Int) : Except StoreError Int :=
  match (t.columns.zip cells).find? (·.1.isRowId) with
  | some (_, .integer id) => .ok id
  | some (_, .null) | none =>
    match next with
    | some id => .ok id
    | none => .error .mismatch
  | some _ => .error .mismatch

/-- The table with a row inserted, and the row's id. -/
def insert (t : Table) (names : List String) (given : List Cell) :
    Except StoreError (Table × Int) := do
  let cells := t.columns.map fun column =>
    match names.idxOf? column.name with
    | some i => (given[i]?.getD .null).drawn column.affinity
    | none => .null
  let id ← t.requestedId? cells (some t.nextId)
  let row := t.withId id cells
  match t.violation? t.rows row with
  | some e => throw e
  | none => pure ({ t with rows := insertRow row t.rows }, id)

/-- The row with changes made. Of two changes to a column the later one counts. -/
def changed (t : Table) (changes : List (String × Cell)) (row : Row) : Except StoreError Row := do
  let cells := List.zipWith (fun column cell =>
    match changes.reverse.find? (·.1 == column.name) with
    | some (_, new) => new.drawn column.affinity
    | none => cell) t.columns row.cells
  let rowId := t.columns.find? (·.isRowId)
  let id ← if rowId.isSome then t.requestedId? cells none else pure row.id
  pure (t.withId id cells)

/-- The table with changes made to the rows that pass the filters, one row after the other, and
how many they are. -/
def update (t : Table) (changes : List (String × Cell)) (params : List Cell)
    (filters : List Filter) : Except StoreError (Table × Nat) :=
  let targets := t.rows.filter (t.selected params filters)
  targets.foldlM (fun (table, count) row => do
    let new ← t.changed changes row
    let others := table.rows.filter (·.id != row.id)
    match t.violation? others new with
    | some e => throw e
    | none => pure ({ table with rows := insertRow new others }, count + 1)) (t, 0)

/-- The table without the rows that pass the filters, and how many they were. -/
def delete (t : Table) (params : List Cell) (filters : List Filter) : Table × Nat :=
  let kept := t.rows.filter fun row => !t.selected params filters row
  ({ t with rows := kept }, t.rows.length - kept.length)

end Table

end RouteSheet
