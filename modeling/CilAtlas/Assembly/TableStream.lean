import CilAtlas.Assembly.Cell
import CilAtlas.Assembly.Numbers
import CilAtlas.Assembly.Schema
import CilAtlas.Blob.Reader

/-!
# Reading the table stream

The stream says how wide the places in the heaps are and how many rows each
table has; the rows follow, table by table.  An index into other tables is as
wide as the largest of them demands.
-/

namespace CilAtlas

/-- The heaps beside the tables. -/
structure Heaps where
  strings : Image
  blobs : Image

namespace Heaps

/-- The string at a place, up to the zero that ends it; `none` when it is not
well-formed. -/
def stringAt? (heaps : Heaps) (place : Nat) : Option Text :=
  Utf8.decode?
    ((heaps.strings.bytes.extract place heaps.strings.size).toList.takeWhile (· ≠ 0))

/-- A compressed count and the bytes that follow it, as many as there are. -/
def counted? (bytes : List UInt8) : Option (Nat × List UInt8) := do
  let (count, size) ← Blob.compressed? (bytes.take 4)
  return (count, (bytes.drop size).take count)

/-- The blob at a place; empty when its count cannot be read. -/
def blobAt (heaps : Heaps) (place : Nat) : List UInt8 :=
  ((counted? (heaps.blobs.slice place heaps.blobs.size)).map (·.2)).getD []

end Heaps

/-- The numbers of rows and the widths that follow from them. -/
structure TableLayout where
  heapSizes : Nat
  rowCounts : List (Nat × Nat)

namespace TableLayout

/-- How many rows a table has, when it is there. -/
def rowCount? (layout : TableLayout) (table : Nat) : Option Nat :=
  (layout.rowCounts.find? (·.1 = table)).map (·.2)

/-- How many rows a table has. -/
def rowCount (layout : TableLayout) (table : Nat) : Nat :=
  (layout.rowCount? table).getD 0

/-- Two bytes, or four when a bit of the heap sizes is set. -/
def heapWidth (layout : TableLayout) (bit : Nat) : Nat :=
  if layout.heapSizes.testBit bit then 4 else 2

/-- How wide a column is. -/
def width (layout : TableLayout) : Schema.Column → Nat
  | .number width => width
  | .string => layout.heapWidth 0
  | .guid => layout.heapWidth 1
  | .blob => layout.heapWidth 2
  | .row table => if layout.rowCount table ≤ Nat.pow 2 16 then 2 else 4
  | .run table => if layout.rowCount table ≤ Nat.pow 2 16 then 2 else 4
  | .choice choice =>
    let limit := Nat.pow 2 (16 - choice.tagBits)
    if choice.tables.all fun table => (table.map layout.rowCount).getD 0 ≤ limit
    then 2 else 4

/-- How wide a row is. -/
def rowWidth (layout : TableLayout) (table : Schema.Table) : Nat :=
  table.columns.foldl (fun total column => total + layout.width column.2) 0

end TableLayout

/-- The numbers in the rows of a table. -/
structure TableNumbers where
  table : Schema.Table
  rows : List (List Nat)

namespace TableStream

/-- The numbers of one row. -/
def readRow (image : Image) (layout : TableLayout) :
    (place : Nat) → List (String × Schema.Column) → Option (List Nat)
  | _, [] => some []
  | place, column :: rest => do
    let width := layout.width column.2
    let value ← image.number? place width
    return value :: (← readRow image layout (place + width) rest)

/-- The rows of a table that starts at a place. -/
def readRows (image : Image) (layout : TableLayout) (place : Nat) (table : Schema.Table) :
    Option TableNumbers := do
  let width := layout.rowWidth table
  let count := layout.rowCount table.number
  if place + count * width > image.size then none
  let rows ← (List.range count).mapM fun i => readRow image layout (place + i * width) table.columns
  return ⟨table, rows⟩

/-- The tables one after the other from a place on. -/
def readTables (image : Image) (layout : TableLayout) :
    (place : Nat) → List Schema.Table → Option (List TableNumbers)
  | _, [] => some []
  | place, table :: rest => do
    let numbers ← readRows image layout place table
    let next := place + numbers.rows.length * layout.rowWidth table
    return numbers :: (← readTables image layout next rest)

/-- The row counts, one for each table that the bits name. -/
def readCounts (image : Image) (valid : Nat) : (place table fuel : Nat) →
    Option (Nat × List (Nat × Nat))
  | place, _, 0 => some (place, [])
  | place, table, fuel + 1 =>
    if valid.testBit table then do
      let count ← image.number? place 4
      let (stop, counts) ← readCounts image valid (place + 4) (table + 1) fuel
      return (stop, (table, count) :: counts)
    else readCounts image valid place (table + 1) fuel

/-- The bit of the heap sizes that says that a number follows the row counts. -/
def extraNumberBit : Nat := 6

/-- The layout and the numbers of all tables of a stream.  Rows of the table of
operating systems cannot be read. -/
def read (image : Image) : Option (TableLayout × List TableNumbers) := do
  let heapSizes ← image.number? 6 1
  let valid ← image.number? 8 8
  let (place, rowCounts) ← readCounts image valid 24 0 64
  let start := if heapSizes.testBit extraNumberBit then place + 4 else place
  let layout : TableLayout := ⟨heapSizes, rowCounts⟩
  if layout.rowCount Schema.operatingSystems > 0 then none
  return (layout, ← readTables image layout start Schema.tables)

/-- An index as a cell. -/
def indexCell (table row : Nat) : Cell :=
  .record [(lit "row_index", .int row),
    (lit "table", .record [(lit "number", .int table)])]

/-- An index into one table as a cell; row zero and rows beyond the last are none. -/
def rowCell (layout : TableLayout) (table row : Nat) : Cell :=
  if row = 0 ∨ row > layout.rowCount table then .null else indexCell table row

/-- A tagged index as a cell; row zero is none, and so are rows of tables that are
not there. -/
def choiceCell (layout : TableLayout) (choice : Schema.Choice) (value : Nat) : Cell :=
  let row := value / Nat.pow 2 choice.tagBits
  match choice.tables[value % Nat.pow 2 choice.tagBits]?.bind id with
  | some table =>
    if row = 0 ∨ (layout.rowCount? table).isNone then .null else indexCell table row
  | none => .null

/-- A column that refers to no run. -/
def plainCell (layout : TableLayout) (heaps : Heaps) (column : Schema.Column)
    (value : Nat) : Cell :=
  match column with
  | .number _ => .int value
  | .guid => .int value
  | .string => ((heaps.stringAt? value).map Cell.text).getD .null
  | .blob => .bytes (heaps.blobAt value)
  | .row table => rowCell layout table value
  | .choice choice => choiceCell layout choice value
  | .run _ => .null

/-- A row without its runs. -/
def plainRow (layout : TableLayout) (heaps : Heaps) (table : Schema.Table)
    (row : List Nat) : Cell :=
  .record ((table.columns.zip row).map fun (column, value) =>
    (lit column.1, plainCell layout heaps column.2 value))

/-- The rows from one up to another, each with its index.  Row zero stands for the
last row of the table. -/
def runCell (layout : TableLayout) (heaps : Heaps) (target : TableNumbers)
    (start stop : Nat) : Cell :=
  let count := target.rows.length
  let indices := (List.range (min stop (count + 1))).filter (start ≤ ·)
  .list (indices.map fun (index : Nat) => .record [
    (lit "row_index", .int index),
    (lit "table", .record [(lit "number", .int target.table.number)]),
    (lit "row", plainRow layout heaps target.table
      (target.rows.getD (if index = 0 then count - 1 else index - 1) []))])

/-- A row with its runs, which end where those of the next row start. -/
def fullRow (layout : TableLayout) (heaps : Heaps) (all : List TableNumbers)
    (table : Schema.Table) (row : List Nat) (next? : Option (List Nat)) : Cell :=
  .record (table.columns.mapIdx fun i column =>
    let value := row.getD i 0
    match column.2 with
    | .run target =>
      match all.find? (·.table.number = target) with
      | none => (lit column.1, .list [])
      | some numbers =>
        let stop := match next? with
          | some next => next.getD i 0
          | none => numbers.rows.length + 1
        (lit column.1, runCell layout heaps numbers value stop)
    | kind => (lit column.1, plainCell layout heaps kind value))

/-- The rows of a table as cells. -/
def tableCell (layout : TableLayout) (heaps : Heaps) (all : List TableNumbers)
    (numbers : TableNumbers) : Cell :=
  let next := (numbers.rows.drop 1).map some ++ [none]
  .list ((numbers.rows.zip next).map fun (row, next?) =>
    fullRow layout heaps all numbers.table row next?)

/-- All tables as cells; runs into tables that are not there are empty. -/
def cells (heaps : Heaps) (layout : TableLayout) (all : List TableNumbers) : Cell :=
  let there := all.filter fun numbers => (layout.rowCount? numbers.table.number).isSome
  .record (there.map fun numbers =>
    (lit numbers.table.name, tableCell layout heaps there numbers))

end TableStream
end CilAtlas
