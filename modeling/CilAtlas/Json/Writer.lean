import CilAtlas.Json.Basic
import CilAtlas.Decimal.Shortest
import CilAtlas.Text.Integer

/-!
# Writing documents

Two forms: `prettyPieces`, with an item or field a line and two blanks a level, in
which only quotes, backslashes and control characters are escaped; and
`compact`, on one line, in which everything outside printable ASCII is escaped.
The first is written piece by piece, so a number that is too long to be written
comes after the pieces before it.
-/

namespace CilAtlas
namespace Json

/-- The escapes of one letter. -/
def shortEscape? (c : CodePoint) : Option Text :=
  (([('"', "\\\""), ('\\', "\\\\"), ('\n', "\\n"), ('\r', "\\r"), ('\t', "\\t"),
    ('\x08', "\\b"), ('\x0c', "\\f")] : List (Char × String)).find?
      (fun entry => CodePoint.ofChar entry.1 = c)).map fun entry => lit entry.2

/-- Four hexadecimal digits in small letters. -/
def hexQuad (n : Nat) : Text :=
  [n / 0x1000 % 16, n / 0x100 % 16, n / 0x10 % 16, n % 16].map Text.digitSignLower

/-- A sixteen-bit unit as an escape. -/
def unitEscape (n : Nat) : Text :=
  lit "\\u" ++ hexQuad n

/-- One code point of a string; only control characters need a number. -/
def escapePretty (c : CodePoint) : Text :=
  match shortEscape? c with
  | some t => t
  | none => if c.toNat < 0x20 then unitEscape c.toNat else [c]

/-- One code point of a string in ASCII, those above U+FFFF as a pair. -/
def escapeAscii (c : CodePoint) : Text :=
  let n := c.toNat
  match shortEscape? c with
  | some t => t
  | none =>
    if 0x20 ≤ n ∧ n ≤ 0x7E then [c]
    else if n < 0x10000 then unitEscape n
    else
      unitEscape (0xD800 + (n - 0x10000) / 0x400) ++ unitEscape (0xDC00 + (n - 0x10000) % 0x400)

/-- A string with its quotes. -/
def quoted (escape : CodePoint → Text) (t : Text) : Text :=
  lit "\"" ++ t.flatMap escape ++ lit "\""

/-- Numbers in documents: as in listings, with words for the exceptional ones. -/
def numberLayout : Decimal.Layout :=
  { Decimal.listing with infinity := lit "Infinity", notANumber := lit "NaN" }

/-- A value without parts, in the given way of escaping. -/
def scalarText (escape : CodePoint → Text) : Json → Text
  | null => lit "null"
  | bool true => lit "true"
  | bool false => lit "false"
  | int value => Text.ofInt value
  | real value => numberLayout.text value
  | text value => quoted escape value
  | list _ => lit "[]"
  | object _ => lit "\x7b\x7d"

/-- A new line with the blanks of a level. -/
def newLine (level : Nat) : Text :=
  CodePoint.ofChar '\n' :: List.replicate (2 * level) (CodePoint.ofChar ' ')

/-- A value without parts as a piece; `none` for a number with more digits than a
numeral may have. -/
def scalarPiece : Json → Option Text
  | int value =>
    if (Text.ofNat value.natAbs).length > NumeralError.digitLimit then none
    else some (Text.ofInt value)
  | value => some (scalarText escapePretty value)

mutual

/-- The pieces in which a value is written, at the given level. -/
def prettyPieces (level : Nat) : Json → List (Option Text)
  | list (item :: items) =>
    prettyItems level (lit "[" ++ newLine (level + 1)) (item :: items) ++
      [some (newLine level), some (lit "]")]
  | object (field :: fields) =>
    some (lit "\x7b") :: some (newLine (level + 1)) :: prettyFields level (field :: fields) ++
      [some (newLine level), some (lit "\x7d")]
  | value => [scalarPiece value]

/-- The items of a list, the first after `lead`.  An item without parts is one
piece with what leads to it. -/
def prettyItems (level : Nat) (lead : Text) : List Json → List (Option Text)
  | [] => []
  | list items :: rest =>
    some lead :: prettyPieces (level + 1) (list items) ++
      prettyItems level (lit "," ++ newLine (level + 1)) rest
  | object fields :: rest =>
    some lead :: prettyPieces (level + 1) (object fields) ++
      prettyItems level (lit "," ++ newLine (level + 1)) rest
  | value :: rest =>
    (scalarPiece value).map (lead ++ ·) ::
      prettyItems level (lit "," ++ newLine (level + 1)) rest

/-- The fields of an object, a comma and a new line between them. -/
def prettyFields (level : Nat) : List (Text × Json) → List (Option Text)
  | [] => []
  | [(name, value)] =>
    some (quoted escapePretty name) :: some (lit ": ") :: prettyPieces (level + 1) value
  | (name, value) :: rest =>
    some (quoted escapePretty name) :: some (lit ": ") :: prettyPieces (level + 1) value ++
      some (lit "," ++ newLine (level + 1)) :: prettyFields level rest

end

mutual

/-- The document on one line. -/
def compact : Json → Text
  | list items => lit "[" ++ compactItems items ++ lit "]"
  | object fields => lit "\x7b" ++ compactFields fields ++ lit "\x7d"
  | value => scalarText escapeAscii value

/-- Items with commas between them. -/
def compactItems : List Json → Text
  | [] => []
  | [item] => compact item
  | item :: rest => compact item ++ lit ", " ++ compactItems rest

/-- Fields with commas between them. -/
def compactFields : List (Text × Json) → Text
  | [] => []
  | [(name, value)] => quoted escapeAscii name ++ lit ": " ++ compact value
  | (name, value) :: rest =>
    quoted escapeAscii name ++ lit ": " ++ compact value ++ lit ", " ++ compactFields rest

end

end Json
end CilAtlas
