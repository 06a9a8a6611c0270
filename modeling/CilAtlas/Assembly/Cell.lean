import CilAtlas.Json.Display
import CilAtlas.Metadata.Row
import CilAtlas.Text.Integer
import CilAtlas.Text.Utf8

/-!
# Cells of metadata tables

What a reader of metadata tables hands over: rows are records of named cells,
and a cell may be absent, null or of a kind that was not asked for.  The
functions here say what such a cell is taken for.
-/

namespace CilAtlas

/-- A value in a row, or the row itself. -/
inductive Cell where
  | null
  | bool (value : Bool)
  | int (value : Int)
  | real (value : Double)
  | text (value : Text)
  | bytes (value : List UInt8)
  | list (items : List Cell)
  | record (fields : List (Text × Cell))

/-- Why a cell cannot be taken for what is asked. -/
inductive CellFault where
  /-- The record has no such cell. -/
  | missing (name : Text)
  | wrongKind
  /-- A text or bytes that write no integer. -/
  | numeral (error : NumeralError)
  /-- A floating point number without a whole part. -/
  | notANumber
  | infinite
deriving DecidableEq

/-- The wording of the faults that have one. -/
def CellFault.message? : CellFault → Option Text
  | numeral error => some error.message
  | notANumber => some (lit "cannot convert float NaN to integer")
  | _ => none

namespace Cell

instance : Inhabited Cell := ⟨null⟩

/-- The cell in the first field with the given name. -/
def lookup? (name : Text) : List (Text × Cell) → Option Cell
  | [] => none
  | field :: rest => if field.1 = name then some field.2 else lookup? name rest

/-- A cell of a record. -/
def field? (cell : Cell) (name : String) : Option Cell :=
  match cell with
  | record fields => lookup? (lit name) fields
  | _ => none

/-- A cell that a record must have. -/
def field (cell : Cell) (name : String) : Except CellFault Cell :=
  match cell.field? name with
  | some value => .ok value
  | none => .error (.missing (lit name))

/-- A cell that counts as null when it is absent. -/
def fieldOrNull (cell : Cell) (name : String) : Cell :=
  (cell.field? name).getD null

/-- What a record wraps as its value; any other cell stands for itself. -/
def unwrapped (cell : Cell) : Cell :=
  (cell.field? "value").getD cell

/-- The text that a cell is. -/
def text? : Cell → Option Text
  | text value => some value
  | _ => none

/-- Whether a cell holds something: no null, no zero, not empty. -/
def isPresent : Cell → Bool
  | null => false
  | bool value => value
  | int value => value ≠ 0
  | real value => !value.isZero
  | text value => !value.isEmpty
  | bytes value => !value.isEmpty
  | list items => !items.isEmpty
  | record _ => true

/-- Zero or one for a truth value. -/
def ofBool (value : Bool) : Int :=
  if value then 1 else 0

/-- An integer.  A floating point number gives its whole part; texts and bytes
give the integer that they write. -/
def toInt : Cell → Except CellFault Int
  | bool value => .ok (ofBool value)
  | int value => .ok value
  | real value =>
    match value.kind, value.truncated? with
    | .nan, _ => .error .notANumber
    | _, none => .error .infinite
    | _, some whole => .ok whole
  | text value => (Text.integer value).mapError .numeral
  | bytes value =>
    (Text.readInteger (Text.shownBytes (value.take NumeralError.shownLimit))
      (value.map fun b => if b.toNat < 0x80 then Text.ofByte b else CodePoint.replacement)).mapError
        .numeral
  | _ => .error .wrongKind

mutual

/-- The value of a cell in a document; bytes are written in hexadecimal. -/
def document : Cell → Json
  | null => .null
  | bool value => .bool value
  | int value => .int value
  | real value => .real value
  | text value => .text value
  | bytes value => .text (Text.hexBytesLower value)
  | list items => .list (documents items)
  | record _ => .object []

/-- The values of several cells. -/
def documents : List Cell → List Json
  | [] => []
  | item :: rest => item.document :: documents rest

end

/-- A text; null is the empty one, and bytes are decoded. -/
def toText (cell : Cell) : Text :=
  match cell.unwrapped with
  | null => []
  | bytes value => Utf8.decodeLenient value
  | record _ => []
  | value => value.document.display

/-- Bytes; anything else counts as none. -/
def toBytes (cell : Cell) : List UInt8 :=
  match cell.unwrapped with
  | bytes value => value
  | _ => []

/-- The items of a list; null counts as an empty one. -/
def toList : Cell → Except CellFault (List Cell)
  | null => .ok []
  | list items => .ok items
  | text value => .ok (value.map fun c => text [c])
  | bytes value => .ok (value.map fun b => int b.toNat)
  | _ => .error .wrongKind

/-- The items of a run; a cell that holds nothing counts as an empty one. -/
def toRun (cell : Cell) : Except CellFault (List Cell) :=
  if cell.isPresent then cell.toList else .ok []

/-- The flags that a cell gives. -/
def flags? : Cell → Option RowFlags
  | int value => some (.bits value)
  | bool value => some (.truth value)
  | _ => none

/-- The flags of a row: those of its raw form, else its own, else none. -/
def flags (row : Cell) (name : String) : RowFlags :=
  match (row.fieldOrNull "struct").fieldOrNull name |>.flags? with
  | some flags => flags
  | none => ((row.fieldOrNull name).unwrapped.flags?).getD (.bits 0)

/-- The handle that an index refers to; an index of row zero or of no table
refers to nothing. -/
def toHandle? (cell : Cell) : Except CellFault (Option Handle) := do
  let rid := (cell.field? "row_index").getD (int 0)
  match cell.fieldOrNull "table" with
  | null => return none
  | table =>
    if !rid.isPresent then return none
    return some ⟨← (← table.field "number").toInt, ← rid.toInt⟩

end Cell
end CilAtlas
