import CilAtlas.Json.Writer
import CilAtlas.Text.Shown

/-!
# Values in names

The text that stands for a value where a name is made from it.  A text stands
for itself; inside a list or an object it is quoted.
-/

namespace CilAtlas
namespace Json

mutual

/-- The text of a value as a part of another one. -/
def shown : Json → Text
  | null => lit "None"
  | bool true => lit "True"
  | bool false => lit "False"
  | int value => Text.ofInt value
  | real value => Decimal.listing.text value
  | text value => value.shown
  | list items => lit "[" ++ Text.join (lit ", ") (shownItems items) ++ lit "]"
  | object fields => lit "\x7b" ++ Text.join (lit ", ") (shownFields fields) ++ lit "\x7d"

/-- The texts of the items of a list. -/
def shownItems : List Json → List Text
  | [] => []
  | item :: rest => item.shown :: shownItems rest

/-- The texts of the fields of an object. -/
def shownFields : List (Text × Json) → List Text
  | [] => []
  | (name, value) :: rest => (name.shown ++ lit ": " ++ value.shown) :: shownFields rest

end

/-- The text of a value on its own. -/
def display : Json → Text
  | text value => value
  | value => value.shown

end Json
end CilAtlas
