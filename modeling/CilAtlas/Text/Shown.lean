import CilAtlas.Text.Numeral
import CilAtlas.Text.Printable

/-!
# Texts in messages

A text that stands in a message is quoted, so that its ends can be seen.  Single
quotes are taken, unless the text holds single quotes and no double ones.  What
does not print is written as an escape.
-/

namespace CilAtlas
namespace Text

/-- A numbered escape: the mark and the number in the given count of digits. -/
def numberedEscape (mark : String) (width n : Nat) : Text :=
  lit mark ++ zeroPad width ((digits 16 n).map digitSignLower)

/-- One code point between the given quotes. -/
def shownPoint (quote c : CodePoint) : Text :=
  if c = quote ∨ c = CodePoint.ofChar '\\' then [CodePoint.ofChar '\\', c]
  else if c = CodePoint.ofChar '\t' then lit "\\t"
  else if c = CodePoint.ofChar '\n' then lit "\\n"
  else if c = CodePoint.ofChar '\r' then lit "\\r"
  else if c.isPrintable then [c]
  else if c.toNat < 0x100 then numberedEscape "\\x" 2 c.toNat
  else if c.toNat < 0x10000 then numberedEscape "\\u" 4 c.toNat
  else numberedEscape "\\U" 8 c.toNat

/-- The quote that suits a text. -/
def quoteFor (t : Text) : CodePoint :=
  let single := CodePoint.ofChar '\''
  let double := CodePoint.ofChar '"'
  if t.contains single && !t.contains double then double else single

/-- The text in quotes. -/
def shown (t : Text) : Text :=
  quoteFor t :: t.flatMap (shownPoint (quoteFor t)) ++ [quoteFor t]

/-- A byte as the code point of the same number. -/
def ofByte (b : UInt8) : CodePoint :=
  ⟨b.toNat, Nat.lt_trans b.toNat_lt (by decide)⟩

/-- Bytes in quotes, with a mark in front.  Those outside printable ASCII are
written as numbers. -/
def shownBytes (bytes : List UInt8) : Text :=
  let t := bytes.map ofByte
  let point (c : CodePoint) : Text :=
    if c.toNat < 0x7F then shownPoint (quoteFor t) c else numberedEscape "\\x" 2 c.toNat
  lit "b" ++ quoteFor t :: t.flatMap point ++ [quoteFor t]

end Text
end CilAtlas
