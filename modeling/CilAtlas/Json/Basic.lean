import CilAtlas.Decimal.Double
import CilAtlas.Text.Basic

/-!
# Documents

The values of the JSON data format.  Whole numbers are unbounded, other numbers
are binary floating point, and an object keeps its fields in order.
-/

namespace CilAtlas

/-- A JSON value. -/
inductive Json where
  | null
  | bool (value : Bool)
  | int (value : Int)
  | real (value : Double)
  | text (value : Text)
  | list (items : List Json)
  | object (fields : List (Text × Json))

namespace Json

instance : Inhabited Json := ⟨null⟩

/-- The value of the first field with the given name. -/
def lookup? (name : Text) : List (Text × Json) → Option Json
  | [] => none
  | field :: rest => if field.1 = name then some field.2 else lookup? name rest

/-- A field of an object. -/
def field? (name : Text) : Json → Option Json
  | object fields => lookup? name fields
  | _ => none

/-- Replaces a field where it stands, or appends it. -/
def putField (name : Text) (value : Json) : List (Text × Json) → List (Text × Json)
  | [] => [(name, value)]
  | field :: rest =>
    if field.1 = name then (name, value) :: rest else field :: putField name value rest

/-- Whether a value counts as present: no null, no false, no zero, not empty. -/
def isPresent : Json → Bool
  | null => false
  | bool value => value
  | int value => value ≠ 0
  | real value => !value.isZero
  | text value => !value.isEmpty
  | list items => !items.isEmpty
  | object fields => !fields.isEmpty

end Json
end CilAtlas
