import RouteSheet.Reader
import RouteSheet.Store.Token

/-!
# Statements

The statements that a store runs, and how they are read from their words. Keywords
count in any case. A result column is named by its alias, else by the column it
shows, else by its text in the statement.
-/

namespace RouteSheet

/-- A column of a table, as it is declared. -/
structure Column where
  name : String
  affinity : Affinity
  /-- the column is a primary key -/
  isKey : Bool
  notNull : Bool
  declaredUnique : Bool
  deriving Repr, DecidableEq

namespace Column

/-- The column shows the row's id: it is an integer and a primary key. -/
def isRowId (c : Column) : Bool := c.isKey && c.affinity == .integer

/-- No two rows share a cell of the column. For the column of ids that has to be declared beside
the key to be a rule of its own. -/
def unique (c : Column) : Bool := c.declaredUnique || (c.isKey && !c.isRowId)

end Column

/-- A column as a statement names it, and where the name stands in the text. -/
structure ColumnName where
  name : String
  place : Nat
  deriving Repr, DecidableEq

/-- What stands for a cell in a statement. -/
inductive Operand where
  | placeholder (index : Nat)
  | literal (cell : Cell)
  deriving Repr, DecidableEq

/-- What a result column shows. -/
inductive ResultExpr where
  | column (column : ColumnName)
  | count
  | operand (operand : Operand)
  | typeOf (operand : Operand)
  deriving Repr, DecidableEq

/-- A test of a row: a column is equal, or not equal, to a cell. -/
structure Filter where
  column : ColumnName
  equal : Bool
  operand : Operand
  deriving Repr, DecidableEq

/-- What a SELECT asks for. -/
structure Selection where
  /-- the result columns with their names; none stands for all columns of the table -/
  results : Option (List (String × ResultExpr))
  table : Option String
  filters : List Filter
  /-- the column to order by, and whether the order is descending -/
  order : Option (ColumnName × Bool)
  limit : Option Nat
  deriving Repr, DecidableEq

/-- A statement. -/
inductive Statement where
  /-- nothing but blanks and semicolons -/
  | empty
  | createTable (name : String) (place : Nat) (columns : List Column)
  | insert (table : String) (columns : List String) (operands : List Operand)
  | update (table : String) (changes : List (String × Operand)) (filters : List Filter)
  | delete (table : String) (filters : List Filter)
  | select (selection : Selection)
  deriving Repr, DecidableEq

namespace Statement

open Reader

/-- A name. -/
def name : Reader SqlToken String := do
  match (← next).word with
  | .name s => pure s
  | _ => failure

/-- The place of the next token, or the place zero. -/
def place : Reader SqlToken Nat := do return ((← get).head?.map SqlToken.start).getD 0

/-- The name of a column. -/
def columnName : Reader SqlToken ColumnName := do
  let here ← place
  return ⟨← name, here⟩

/-- A given mark. -/
def mark (text : String) : Reader SqlToken Unit := do
  if (← next).word = .mark text then pure () else failure

/-- A given keyword, in any case. -/
def keyword (text : String) : Reader SqlToken Unit := do
  let s ← name
  if Text.upper s.toList = text.toList then pure () else failure

/-- A placeholder or a literal. The words for truth values stand for one and zero. -/
def plainOperand : Reader SqlToken Operand := do
  match (← next).word with
  | .placeholder i => pure (.placeholder i)
  | .literal (.integer i) => pure (.literal (.ofWhole i))
  | .literal cell => pure (.literal cell)
  | .name s =>
    let word := Text.upper s.toList
    if word = "NULL".toList then pure (.literal .null)
    else if word = "TRUE".toList then pure (.literal (.integer 1))
    else if word = "FALSE".toList then pure (.literal (.integer 0))
    else failure
  | _ => failure

/-- A number behind a minus sign. -/
def negated : Reader SqlToken Operand := do
  match (← next).word with
  | .literal (.integer i) => pure (.literal (.ofWhole (-i)))
  | .literal (.real (.finite x)) =>
    pure (.literal (.real (.finite { x with negative := !x.negative })))
  | .literal (.real (.infinite negative)) => pure (.literal (.real (.infinite !negative)))
  | _ => failure

/-- A placeholder or a literal; a number may have a minus sign, and a plus sign says nothing. -/
def operand : Reader SqlToken Operand := do
  if ← given (mark "-") then negated
  else
    let _ ← given (mark "+")
    plainOperand

/-- What a column may be declared to be. -/
inductive Constraint where
  | primaryKey
  | notNull
  | unique
  deriving Repr, DecidableEq

/-- A constraint of a column. -/
def constraint : Reader SqlToken Constraint := do
  if ← given (keyword "UNIQUE") then pure .unique
  else if ← given (keyword "PRIMARY") then
    keyword "KEY"
    pure .primaryKey
  else
    keyword "NOT"
    keyword "NULL"
    pure .notNull

/-- The kind of a column. -/
def affinity : Reader SqlToken Affinity := do
  if ← given (keyword "INTEGER") then pure .integer
  else
    keyword "TEXT"
    pure .text

/-- The declaration of a column. -/
def column : Reader SqlToken Column := do
  let columnName ← name
  let kind ← affinity
  let constraints ← many constraint
  return ⟨columnName, kind, constraints.contains .primaryKey, constraints.contains .notNull,
    constraints.contains .unique⟩

/-- Behind CREATE. -/
def createTableBody : Reader SqlToken Statement := do
  keyword "TABLE"
  let here ← place
  let table ← name
  mark "("
  let columns ← separated (mark ",") column
  mark ")"
  return .createTable table here columns

/-- Behind INSERT. -/
def insertBody : Reader SqlToken Statement := do
  keyword "INTO"
  let table ← name
  mark "("
  let columns ← separated (mark ",") name
  mark ")"
  keyword "VALUES"
  mark "("
  let operands ← separated (mark ",") operand
  mark ")"
  return .insert table columns operands

/-- One test of a row. -/
def filter : Reader SqlToken Filter := do
  let column ← columnName
  if ← given (mark "=") then return ⟨column, true, ← operand⟩
  else
    mark "!="
    return ⟨column, false, ← operand⟩

/-- The tests of a row, or none. -/
def filters : Reader SqlToken (List Filter) := do
  if ← given (keyword "WHERE") then separated (keyword "AND") filter else pure []

/-- Behind UPDATE. -/
def updateBody : Reader SqlToken Statement := do
  let table ← name
  keyword "SET"
  let changes ← separated (mark ",") do
    let columnName ← name
    mark "="
    return (columnName, ← operand)
  return .update table changes (← filters)

/-- Behind DELETE. -/
def deleteBody : Reader SqlToken Statement := do
  keyword "FROM"
  let table ← name
  return .delete table (← filters)

/-- What a result column shows. -/
def resultExpr : Reader SqlToken ResultExpr := do
  if ← given (do keyword "COUNT"; mark "("; mark "*"; mark ")") then return .count
  else if let some o ← maybe (do
      keyword "TYPEOF"
      mark "("
      let o ← operand
      mark ")"
      pure o) then
    return .typeOf o
  else if let some o ← maybe operand then return .operand o
  else return .column (← columnName)

/-- A part of a text without the blanks around it. -/
def textBetween (text : List Char) (start stop : Nat) : String :=
  String.ofList (Text.trimMatches Cell.isNumeralBlank ((text.take stop).drop start))

/-- A result column with its name, and whether the name is an alias, given the text of the
statement. -/
def resultColumn (text : List Char) : Reader SqlToken ((String × ResultExpr) × Bool) := do
  let start ← place
  let shown ← resultExpr
  let stop := ((← get).head?.map SqlToken.start).getD text.length
  if ← given (keyword "AS") then return ((← name, shown), true)
  else
    match shown with
    | .column column => return ((column.name, shown), false)
    | _ => return ((textBetween text start stop, shown), false)

/-- The column that a name behind ORDER BY orders by. An alias stands for what it shows, and where
that is no column nothing is ordered. -/
def orderColumn? (aliases : List (String × ResultExpr)) (column : ColumnName) :
    Option ColumnName :=
  match aliases.lookup column.name with
  | some (.column shown) => some shown
  | some _ => none
  | none => some column

/-- Behind SELECT, given the text of the statement. -/
def selectBody (text : List Char) : Reader SqlToken Statement := do
  let results ← do
    if ← given (mark "*") then pure none
    else some <$> separated (mark ",") (resultColumn text)
  let aliases := ((results.getD []).filter (·.2)).map (·.1)
  let table ← maybe (do keyword "FROM"; name)
  let tests ← filters
  let order ← maybe do
    keyword "ORDER"
    keyword "BY"
    let column ← columnName
    let descending ← given (keyword "DESC")
    if !descending then let _ ← given (keyword "ASC")
    return (orderColumn? aliases column).map fun shown => (shown, descending)
  let limit ← maybe do
    keyword "LIMIT"
    match ← operand with
    | .literal (.integer n) => pure (if n < 0 then none else some n.toNat)
    | _ => failure
  return .select ⟨results.map (List.map (·.1)), table, tests, order.join, limit.join⟩

/-- A statement, given its text. -/
def statement (text : List Char) : Reader SqlToken Statement := do
  if ← atEnd then return .empty
  let word := Text.upper (← name).toList
  if word = "CREATE".toList then createTableBody
  else if word = "INSERT".toList then insertBody
  else if word = "UPDATE".toList then updateBody
  else if word = "DELETE".toList then deleteBody
  else if word = "SELECT".toList then selectBody text
  else failure

end Statement

/-- A statement that is ready to run: how many placeholders it has, and where in its text it
ends. -/
structure Prepared where
  statement : Statement
  placeholders : Nat
  stop : Nat
  deriving Repr, DecidableEq

/-- The word is a semicolon. -/
def SqlToken.isSemicolon (t : SqlToken) : Bool := t.word = .mark ";"

/-- The first statement of a text, if it is one of those that a store runs. It ends behind its
semicolon; semicolons in front of it are passed over. -/
def Prepared.ofText? (text : List Char) : Option Prepared := do
  let tokens ← sqlTokens? text
  let tokens := tokens.dropWhile SqlToken.isSemicolon
  let (first, rest) := (tokens.takeWhile (!·.isSemicolon), tokens.dropWhile (!·.isSemicolon))
  let before := text.take ((rest.head?.map SqlToken.start).getD text.length)
  let statement ← (Statement.statement before).whole? first
  let placeholders := first.countP fun t =>
    match t.word with
    | .placeholder _ => true
    | _ => false
  let stop := (rest.head?.map SqlToken.stop).getD text.length
  some ⟨statement, placeholders, stop⟩

end RouteSheet
