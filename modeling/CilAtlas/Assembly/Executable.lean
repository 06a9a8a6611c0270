import CilAtlas.Assembly.Numbers

/-!
# Headers and sections of executables

The headers of a file say where its sections lie in the file and in memory.
Places in the file count from a multiple of 512, addresses from a multiple of an
alignment.  Sections are kept in the order of their addresses, and none reaches
beyond the start of the next.
-/

namespace CilAtlas

/-- A section of the file. -/
structure PeSection where
  virtualSize : Nat
  virtualAddress : Nat
  rawSize : Nat
  rawPlace : Nat

/-- What the headers of a file say. -/
structure ExecutableHeaders where
  imageBase : Nat
  entryPoint : Nat
  sectionAlignment : Nat
  fileAlignment : Nat
  /-- Address of the header of the managed part, zero when there is none. -/
  managedHeader : Nat
  sections : List PeSection
  /-- Where the headers end. -/
  stop : Nat

namespace PortableExecutable

/-- The first bytes of a file. -/
def fileMark : Nat := 0x5A4D

/-- The bytes where the headers proper start. -/
def headerMark : Nat := 0x4550

/-- The mark of a header with wide addresses; any other counts as that of a narrow
one. -/
def wideMark : Nat := 0x20B

/-- Sections in memory stay below this address. -/
def addressLimit : Nat := 0x10000000

/-- The greatest multiple of a unit that is not above a number; without unit, the
number itself. -/
def alignDown (unit n : Nat) : Nat :=
  if unit = 0 then n else n / unit * unit

/-- Where the bytes of a section start in the file. -/
def rawStart (part : PeSection) : Nat :=
  alignDown 0x200 part.rawPlace

/-- What addresses of sections are multiples of. -/
def addressUnit (sectionAlignment fileAlignment : Nat) : Nat :=
  if sectionAlignment < 0x1000 then fileAlignment else sectionAlignment

/-- How many rules the entry of a section breaks. -/
def faultCount (file : Image) (sectionAlignment fileAlignment : Nat) (part : PeSection) : Nat :=
  ([decide (part.rawSize + part.rawPlace > file.size),
    decide (rawStart part > file.size),
    decide (part.virtualSize > addressLimit),
    decide (alignDown (addressUnit sectionAlignment fileAlignment) part.virtualAddress >
      addressLimit),
    decide (fileAlignment ≠ 0 ∧ part.rawPlace % fileAlignment ≠ 0)].filter id).length

/-- The entry of a section. -/
def readSection (file : Image) (place : Nat) : Option PeSection := do
  let _ ← file.number? place 40
  return {
    virtualSize := ← file.number? (place + 8) 4
    virtualAddress := ← file.number? (place + 12) 4
    rawSize := ← file.number? (place + 16) 4
    rawPlace := ← file.number? (place + 20) 4 }

/-- The entries of the sections.  They end early where the file ends, at an entry
of zeroes only, and at one that breaks too many rules. -/
def readSections (file : Image) (faults : PeSection → Nat) :
    (place count : Nat) → Option (List PeSection)
  | _, 0 => some []
  | place, count + 1 =>
    if place ≥ file.size ∨ file.number? place 40 = some 0 then some []
    else do
      let first ← readSection file place
      if faults first ≥ 3 then return []
      return first :: (← readSections file faults (place + 40) count)

/-- A number at a place; what lies beyond the end of the file counts as zeroes. -/
def numberPadded (file : Image) (place width : Nat) : Nat :=
  littleEndian (file.bytes.extract place (place + width)).toList

/-- How many bytes of the second header must be there. -/
def leastOptionalSize (isWide : Bool) : Nat :=
  if isWide then 73 else 69

/-- How many entries of sections are looked at. -/
def sectionLimit : Nat := 2048

/-- The headers of a file. -/
def readHeaders (file : Image) : Option ExecutableHeaders := do
  if (← file.number? 0 2) ≠ fileMark then none
  let place ← file.number? 0x3C 4
  if (← file.number? place 4) ≠ headerMark then none
  let sectionCount ← file.number? (place + 6) 2
  let optionalSize ← file.number? (place + 20) 2
  let optional := place + 24
  let isWide := numberPadded file optional 2 = wideMark
  if optional + leastOptionalSize isWide > file.size then none
  let directories := if isWide then optional + 112 else optional + 96
  let directoryCount := numberPadded file (directories - 4) 4 % 0x80000000
  let sectionAlignment := numberPadded file (optional + 32) 4
  let fileAlignment := numberPadded file (optional + 36) 4
  let table := optional + optionalSize
  let sections ← readSections file (faultCount file sectionAlignment fileAlignment) table
    (min sectionCount sectionLimit)
  return {
    imageBase :=
      if isWide then numberPadded file (optional + 24) 8 else numberPadded file (optional + 28) 4
    entryPoint := numberPadded file (optional + 16) 4
    sectionAlignment := sectionAlignment
    fileAlignment := fileAlignment
    managedHeader :=
      if directoryCount > 14 then numberPadded file (directories + 14 * 8) 4 else 0
    sections := sections.mergeSort fun a b => a.virtualAddress ≤ b.virtualAddress
    stop := if sections.isEmpty then table else table + 40 * sectionCount }

/-! ## Addresses -/

/-- Where a section starts in memory. -/
def virtualStart (headers : ExecutableHeaders) (part : PeSection) : Nat :=
  alignDown (addressUnit headers.sectionAlignment headers.fileAlignment) part.virtualAddress

/-- Where a section ends in memory, given the one that follows it.  A size in the
file that the file cannot have does not count. -/
def virtualStop (file : Image) (headers : ExecutableHeaders) (part : PeSection)
    (next? : Option PeSection) : Nat :=
  let size :=
    if file.size < rawStart part + part.rawSize then part.virtualSize
    else max part.rawSize part.virtualSize
  let stop := virtualStart headers part + size
  match next? with
  | some next =>
    if next.virtualAddress > part.virtualAddress then min stop next.virtualAddress else stop
  | none => stop

/-- The first section that an address lies in. -/
def sectionOf? (file : Image) (headers : ExecutableHeaders) (address : Nat) : Option PeSection :=
  let next := (headers.sections.drop 1).map some ++ [none]
  ((headers.sections.zip next).find? fun (part, next?) =>
    virtualStart headers part ≤ address && address < virtualStop file headers part next?).map (·.1)

/-- How many bytes in front of the sections belong to the headers. -/
def headerSize (headers : ExecutableHeaders) : Nat :=
  match (headers.sections.filter (·.rawPlace > 0)).map rawStart with
  | [] => headers.stop
  | place :: places => max headers.stop (places.foldl min place)

/-- The bytes at an address, as many as there are of the given count.  An address
outside the sections is a place in the file. -/
def fetch? (file : Image) (headers : ExecutableHeaders) (address count : Nat) : Option Image :=
  match sectionOf? file headers address with
  | some part =>
    let start := address - virtualStart headers part + rawStart part
    some ⟨file.bytes.extract start (min (start + count) (part.rawPlace + part.rawSize))⟩
  | none =>
    let stop := if count = 0 then file.size else address + count
    if address < min (headerSize headers) file.size then
      some ⟨file.bytes.extract address (min stop (headerSize headers))⟩
    else if address < file.size then some ⟨file.bytes.extract address stop⟩
    else none

/-! ## The image -/

/-- Puts a section where it belongs in memory. -/
def mapSection (file : Image) (headers : ExecutableHeaders) (mapped : Array UInt8)
    (part : PeSection) : Array UInt8 :=
  let start := virtualStart headers part
  if part.virtualSize = 0 ∧ part.rawSize = 0 then mapped
  else if rawStart part + part.rawSize > file.size then mapped
  else if start ≥ addressLimit then mapped
  else
    let before := mapped.extract 0 start
    let padded := before ++ Array.replicate (start - before.size) 0
    padded ++ file.bytes.extract (rawStart part) (rawStart part + part.rawSize)

/-- The file as it lies in memory. -/
def mappedImage (file : Image) (headers : ExecutableHeaders) : Image :=
  ⟨headers.sections.foldl (mapSection file headers) (file.bytes.extract 0 (headerSize headers))⟩

end PortableExecutable
end CilAtlas
