import CilAtlas.Assembly.Cell
import CilAtlas.Metadata.Store
import CilAtlas.Text.Utf16

/-!
# User strings

The heap of the strings that instructions load.  A place where the heap has no
readable string counts as one without string; other failures of the heap are
passed on.
-/

namespace CilAtlas

/-- Why a heap has no item at an offset. -/
inductive HeapFault where
  | undecodable
  | outOfRange
  | invalid
  /-- Another failure, in the way named. -/
  | other (reason : Text)
deriving DecidableEq

/-- The items of a heap by offset. -/
abbrev UserStringHeap := Int → Except HeapFault (Option Cell)

namespace UserStringHeap

/-- The string at an offset of a heap, when there is a heap and a string. -/
def text (heap? : Option UserStringHeap) (offset : Int) :
    Except UserStringFault (Option Text) :=
  match heap? with
  | none => .ok none
  | some heap =>
    match heap offset with
    | .error (.other reason) => .error (.refused reason)
    | .error _ => .ok none
    | .ok none => .ok none
    | .ok (some item) =>
      match item.unwrapped with
      | .null => .ok none
      | .text value => .ok (some value)
      | .bytes value => .ok (some (Utf16.decodeLenient value))
      | .list items =>
        match items.mapM Cell.text? with
        | some values => .error (.pieces values)
        | none => .error (.notText (Cell.list items).document)
      | other => .error (.notText other.document)

end UserStringHeap
end CilAtlas
