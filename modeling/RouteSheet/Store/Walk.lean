import RouteSheet.Store.Table

/-!
# Walking a table

Sizes and costs are weighed on a logarithmic scale: an estimate is ten times the
binary logarithm of a count, so that ten more stand for twice as many. The estimate
of a product is the sum of the estimates, and the estimate of a sum lies a little
above the greater one.

Every unique column has an index: the rows in the order of its cells, and where
cells are equal in the order of ids. A selection meets the rows by id or along an
index, whichever is estimated to cost less. An index comes into question where it
brings the order asked for, or where it is narrower than the table and holds all
that the selection looks at. The rows of an answer that asks for no order, and
those that the order asked for leaves open, come as they are met.
-/

namespace RouteSheet.Estimate

/-- What the second to fourth binary digits of a count add to its estimate. -/
def fractions : List Int := [0, 2, 3, 5, 6, 7, 8, 9]

/-- The estimate of a count. Only its first four binary digits matter. -/
def ofNat (n : Nat) : Int :=
  if n < 2 then 0
  else 10 * (n.log2 : Int) + fractions[((n * 8) >>> n.log2) - 8]?.getD 0

/-- How far apart two estimates may lie for the sum to be at least one above the greater one, at
least two, and so on. -/
def gaps : List Nat := [49, 31, 24, 18, 14, 11, 8, 5, 3, 1]

/-- The estimate of a sum. -/
def add (a b : Int) : Int :=
  (if a ≤ b then b else a) + (gaps.countP fun gap => (a - b).natAbs ≤ gap : Nat)

end RouteSheet.Estimate

namespace RouteSheet

/-- A way through the rows of a table. -/
inductive Walk where
  | byId
  /-- along the index of a unique column -/
  | along (column : Column)
  deriving Repr, DecidableEq

/-- The width of a column, where an integer has the width one. -/
def Column.width (c : Column) : Nat :=
  match c.affinity with
  | .integer => 1
  | .text => 5

/-- The estimated size of an entry of a column's index: a cell and an id. -/
def Column.entrySize (c : Column) : Int := Estimate.ofNat (4 * (c.width + 1))

/-- The estimated size of a row. The id takes a place of its own unless a column shows it. -/
def Table.rowSize (t : Table) : Int :=
  let cells := t.columns.foldl (fun total c => total + c.width) 0
  Estimate.ofNat (4 * if t.columns.any (·.isRowId) then cells else cells + 1)

/-- The column names the id of a row. -/
def Table.showsId (t : Table) (name : String) : Bool :=
  t.columns.any fun c => c.isRowId && c.name == name

namespace Selection

/-- One of the result columns counts the rows. -/
def counts (q : Selection) : Bool := (q.results.getD []).any (·.2 == .count)

/-- The columns that the result columns show; none stands for all. -/
def shown (q : Selection) : Option (List ColumnName) :=
  q.results.map fun results => results.filterMap fun (_, e) =>
    match e with
    | .column column => some column
    | _ => none

/-- The order that the rows have to come in. For a count there is none. -/
def sorting? (q : Selection) : Option (ColumnName × Bool) := if q.counts then none else q.order

/-- The columns that the selection names, in the order in which they stand. -/
def named (q : Selection) : List ColumnName :=
  q.shown.getD [] ++ q.filters.map (·.column) ++ (q.order.map (·.1)).toList

/-- An entry of the column's index holds all of the row that the selection looks at. -/
def isCoveredBy (q : Selection) (t : Table) (c : Column) : Bool :=
  let looked := (if q.results.isSome then [] else t.columns.map (·.name)) ++
    q.named.map (·.name)
  looked.all fun name => name == c.name || t.showsId name

end Selection

namespace Walk

/-- Every table is taken to have a million rows. -/
def assumedRows : Int := 200

/-- By how much the estimate of rows falls for the most telling test. A test for equality keeps
a quarter of the rows, or a half where it names one of the most common integers. -/
def telling (f : Filter) : Int :=
  match f.equal, f.operand with
  | false, _ => 1
  | true, .literal (.integer i) => if i.natAbs ≤ 1 then 10 else 20
  | true, _ => 20

/-- The rows that are expected to pass the tests. -/
def expectedRows (filters : List Filter) : Int :=
  assumedRows - filters.foldl (fun most f => max most (telling f)) filters.length

/-- The cost of meeting all rows. Along an index each entry is lighter than a row, but a row
has to be fetched where the entry does not hold enough; the tests in front that the entry is
enough for save some of that. -/
def cost (t : Table) (q : Selection) : Walk → Int
  | .byId => assumedRows + 16
  | .along c =>
    let entries := assumedRows + 1 + 15 * c.entrySize / t.rowSize
    if q.isCoveredBy t c then entries
    else
      let tests := q.filters.takeWhile fun f =>
        f.column.name == c.name || t.showsId f.column.name
      Estimate.add entries (assumedRows + 16 - tests.length)

/-- The walk meets the rows in the order of a column. -/
def follows (t : Table) (name : String) : Walk → Bool
  | .byId => t.showsId name
  | .along c => c.name == name

/-- The walk leaves nothing to sort: no order is asked for, or it is that of the walk, or a test
leaves only one cell to order by. -/
def brings (t : Table) (q : Selection) (w : Walk) : Bool :=
  match q.sorting? with
  | none => true
  | some (column, _) =>
    q.filters.any (fun f => f.equal && f.column.name == column.name) || w.follows t column.name

/-- The cost of sorting the rows that pass. A limit makes each of them dearer, but each has to be
compared with few. -/
def sortingCost (t : Table) (q : Selection) : Int :=
  let rows := expectedRows q.filters + 1
  let width := Estimate.ofNat (((q.results.map List.length).getD t.columns.length + 59) / 30)
  let (extra, compared) := match q.limit with
    | some n => (10, min rows (Estimate.ofNat n))
    | none => (0, rows)
  rows + width + extra +
    (if compared ≤ 10 then 0 else Estimate.ofNat compared.toNat - 33)

/-- The cost of a walk with the sorting that it leaves to do, and the cost that decides between
equals. -/
def totalCost (t : Table) (q : Selection) (w : Walk) : Int × Int :=
  let own := w.cost t q
  if w.brings t q then (own, own - 2) else (Estimate.add own (sortingCost t q) + 3, own)

/-- The walks that come into question; a later index stands before an earlier one. -/
def candidates (t : Table) (q : Selection) : List Walk :=
  let isUseful c := q.sorting?.any (·.1.name == c.name) ||
    (q.isCoveredBy t c && c.entrySize < t.rowSize)
  .byId :: ((t.columns.reverse.filter fun c => c.unique && isUseful c).map .along)

/-- The first of the cheapest walks. -/
def best (t : Table) (q : Selection) : Walk :=
  (candidates t q).foldl (fun least w =>
    let (a, b) := (w.totalCost t q, least.totalCost t q)
    if a.1 < b.1 || (a.1 == b.1 && a.2 < b.2) then w else least) .byId

/-- The rows in the order of the walk. -/
def rows (t : Table) : Walk → List Row
  | .byId => t.rows
  | .along c => t.rows.mergeSort fun a b => (t.cell a c.name).order (t.cell b c.name) != .gt

end Walk

namespace Table

/-- The rows that pass the tests of a selection, in the order asked for. An index is walked
backward for a descending order. -/
def find (t : Table) (params : List Cell) (q : Selection) : List Row :=
  let walk := Walk.best t q
  let rows := (walk.rows t).filter (t.selected params q.filters)
  match q.sorting? with
  | none => rows
  | some (column, descending) =>
    if walk.follows t column.name then if descending then rows.reverse else rows
    else
      rows.mergeSort fun a b =>
        let o := (t.cell a column.name).order (t.cell b column.name)
        if descending then o != .lt else o != .gt

end Table

end RouteSheet
