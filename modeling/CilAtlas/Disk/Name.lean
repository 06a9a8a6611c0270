import CilAtlas.Text.Basic

/-!
# Names of files

A name is kept as bytes, in UTF-8.  A low surrogate from U+DC80 to U+DCFF stands
for a byte of its own that is not well-formed there; other surrogates cannot be
kept.  Zero ends a name, so no name holds it, and names and whole paths have a
greatest size.
-/

namespace CilAtlas

/-- Why a text can name no file. -/
inductive NameFault where
  | unencodable
  | nullByte
deriving DecidableEq

/-- The wording of the faults that have one. -/
def NameFault.message? : NameFault → Option Text
  | unencodable => none
  | nullByte => some (lit "embedded null byte")

/-- How many bytes a name may have. -/
def nameLimit : Nat := 255

/-- How many bytes a whole path may have. -/
def pathLimit : Nat := 4095

namespace CodePoint

/-- A surrogate that stands for a single byte. -/
def isLoneByte (c : CodePoint) : Bool :=
  0xDC80 ≤ c.toNat && c.toNat ≤ 0xDCFF

/-- How many bytes a code point takes in a name. -/
def nameSize (c : CodePoint) : Nat :=
  if c.toNat < 0x80 || c.isLoneByte then 1
  else if c.toNat < 0x800 then 2
  else if c.toNat < 0x10000 then 3
  else 4

end CodePoint

namespace Text

/-- How many bytes a text takes in a name. -/
def nameSize (t : Text) : Nat :=
  t.foldl (fun size c => size + c.nameSize) 0

/-- What keeps a text from naming a file. -/
def nameFault? (t : Text) : Option NameFault :=
  if t.any fun c => c.isSurrogate && !c.isLoneByte then some .unencodable
  else if t.any fun c => c.toNat = 0 then some .nullByte
  else none

end Text
end CilAtlas
