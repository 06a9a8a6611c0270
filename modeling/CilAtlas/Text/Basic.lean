/-!
# Text as a list of code points

Names and strings in an assembly are sequences of Unicode code points.  The
type `String` of core holds scalar values only, while an escape sequence in a
listing may name one half of a surrogate pair, so this library keeps its own
code points and texts.  Every text of core is a text here, through
`Text.ofString`.
-/

namespace CilAtlas

/-- A Unicode code point; the surrogates U+D800 to U+DFFF are included. -/
structure CodePoint where
  toNat : Nat
  isLt : toNat < 0x110000
deriving DecidableEq

namespace CodePoint

theorem toNat_inj {a b : CodePoint} : a.toNat = b.toNat ↔ a = b := by
  cases a; cases b; simp

/-- The code point of a character. -/
def ofChar (c : Char) : CodePoint where
  toNat := c.toNat
  isLt := by
    rcases c.valid with h | h
    · have : c.toNat < 0xd800 := h
      omega
    · exact h.2

instance : Coe Char CodePoint := ⟨ofChar⟩

instance : Inhabited CodePoint := ⟨ofChar ' '⟩

/-- The code point with the given number, when the number is small enough. -/
def ofNat? (n : Nat) : Option CodePoint :=
  if h : n < 0x110000 then some ⟨n, h⟩ else none

/-- The character U+FFFD, which stands for undecodable input. -/
def replacement : CodePoint := ⟨0xFFFD, by decide⟩

/-- Half of a surrogate pair; no scalar value and not encodable in UTF-8. -/
def isSurrogate (c : CodePoint) : Bool :=
  0xD800 ≤ c.toNat && c.toNat ≤ 0xDFFF

/-- The character of a code point that is no surrogate. -/
def toChar? (c : CodePoint) : Option Char :=
  if c.isSurrogate then none else some (Char.ofNat c.toNat)

/-- The value of a hexadecimal digit `0-9`, `a-f` or `A-F`. -/
def hexValue? (c : CodePoint) : Option Nat :=
  let n := c.toNat
  if 0x30 ≤ n ∧ n ≤ 0x39 then some (n - 0x30)
  else if 0x41 ≤ n ∧ n ≤ 0x46 then some (n - 0x41 + 10)
  else if 0x61 ≤ n ∧ n ≤ 0x66 then some (n - 0x61 + 10)
  else none

/-- A small letter for a capital letter of ASCII, any other code point unchanged. -/
def toLowerAscii (c : CodePoint) : CodePoint :=
  if h : 0x41 ≤ c.toNat ∧ c.toNat ≤ 0x5A then
    ⟨c.toNat + 0x20, by have := h.2; omega⟩
  else c

end CodePoint

/-- A sequence of code points. -/
abbrev Text := List CodePoint

namespace Text

/-- The code points of a string. -/
def ofString (s : String) : Text :=
  s.toList.map CodePoint.ofChar

/-- The string with these code points, when none is a surrogate. -/
def toString? (t : Text) : Option String :=
  (t.mapM CodePoint.toChar?).map String.ofList

/-- The parts, with `separator` between neighbours. -/
def join (separator : Text) : List Text → Text
  | [] => []
  | [part] => part
  | part :: rest => part ++ separator ++ join separator rest

/-- What follows `start`, when the text starts with it. -/
def after? : (start : Text) → Text → Option Text
  | [], t => some t
  | _ :: _, [] => none
  | a :: start, b :: t => if a = b then after? start t else none

/-- A small letter for each capital letter of ASCII. -/
def toLowerAscii (t : Text) : Text :=
  t.map CodePoint.toLowerAscii

/-- Lexicographic order by code point number. -/
def le : Text → Text → Bool
  | [], _ => true
  | _ :: _, [] => false
  | a :: s, b :: t => if a.toNat = b.toNat then le s t else a.toNat < b.toNat

/-- The pieces between the occurrences of `mark`. -/
def splitOn (mark : CodePoint) : Text → List Text
  | [] => [[]]
  | c :: rest =>
    if c = mark then [] :: splitOn mark rest
    else match splitOn mark rest with
      | [] => [[c]]
      | piece :: pieces => (c :: piece) :: pieces

end Text

/-- A text written out in the source. -/
def lit (s : String) : Text :=
  Text.ofString s

end CilAtlas
