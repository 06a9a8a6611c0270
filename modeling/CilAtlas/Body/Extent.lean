import CilAtlas.Body.Fault
import CilAtlas.Body.Image

/-!
# The extent of a method body

Where a body ends follows from its header: a tiny body has one header byte and
its code; a fat body has a header, its code and, when announced, data sections
aligned to four bytes.  Each section moves the end forward by at least its four
header bytes, so the walk over the sections ends.
-/

namespace CilAtlas
namespace Body

/-- The low bits of the first byte that give the header's format. -/
def formatOf (first : UInt8) : Nat :=
  first.toNat % 8

/-- Whether a format is that of a tiny header. -/
def isTinyFormat (format : Nat) : Bool :=
  format = 2 || format = 6

/-- The format of a fat header. -/
def fatFormat : Nat := 3

/-- The next multiple of four. -/
def align4 (n : Nat) : Nat :=
  (n + 3) / 4 * 4

theorem le_align4 (n : Nat) : n ≤ align4 n := by
  simp only [align4]
  omega

/-- The size of the header of a data section. -/
def sectionHeaderSize : Nat := 4

/-- The size that a data section states: three bytes in a fat section, else
one. -/
def sectionSize (image : Image) (start : Nat) : Nat :=
  if (image.byteAt start).toNat / 0x40 % 2 = 1 then
    littleEndian [image.byteAt (start + 1), image.byteAt (start + 2), image.byteAt (start + 3)]
  else (image.byteAt (start + 1)).toNat

/-- Whether a data section says that another one follows. -/
def announcesSection (image : Image) (start : Nat) : Bool :=
  (image.byteAt start).toNat / 0x80 % 2 = 1

/-- The end of the data sections that start after `stop`. -/
def sectionsEnd (image : Image) (rva : Int) (stop : Nat) : Except BodyFault Nat :=
  let start := align4 stop
  if _hbeyond : start + sectionHeaderSize > image.size then .error (.sectionTruncated rva)
  else
    let size := sectionSize image start
    let next := min (start + max size sectionHeaderSize) image.size
    if announcesSection image start ∧ size ≥ sectionHeaderSize then
      sectionsEnd image rva next
    else .ok next
termination_by image.size - stop
decreasing_by
  have haligned := le_align4 stop
  have hfits : align4 stop + 4 ≤ image.size := Nat.le_of_not_gt _hbeyond
  have hgrows : 4 ≤ max size sectionHeaderSize := Nat.le_max_right _ _
  change image.size - min (align4 stop + max size sectionHeaderSize) image.size < _
  omega

/-- The end of the body at `rva`: its header, code and data sections. -/
def extent (image : Image) (rva : Int) : Except BodyFault Nat :=
  if rva < 0 ∨ rva ≥ image.size then .error (.outsideImage rva)
  else
    let start := rva.toNat
    let first := image.byteAt start
    if isTinyFormat (formatOf first) then
      let stop := start + 1 + first.toNat / 4
      if stop > image.size then .error (.tinyTruncated rva) else .ok stop
    else if formatOf first ≠ fatFormat then .error (.badHeader first rva)
    else if start + 12 > image.size then .error (.headerTruncated rva)
    else
      let flags := littleEndian (image.slice start (start + 2))
      let codeSize := littleEndian (image.slice (start + 4) (start + 8))
      let stop := max (start + flags / 0x1000 * 4 + codeSize) (start + 12)
      if stop > image.size then .error (.codeOverrun rva)
      else if flags / 8 % 2 = 1 then sectionsEnd image rva stop
      else .ok stop

end Body
end CilAtlas
