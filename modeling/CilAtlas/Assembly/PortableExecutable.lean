import CilAtlas.Assembly.Convert
import CilAtlas.Assembly.Executable
import CilAtlas.Assembly.TableStream

/-!
# Portable executables

Finds the metadata in the bytes of a file.  A file whose headers cannot be read
is no portable executable; one without metadata is, but it has no tables.
-/

namespace CilAtlas
namespace PortableExecutable

/-- The bytes where the metadata start. -/
def metadataMark : Nat := 0x424A5342

/-- How many bytes the header of the managed part has. -/
def managedHeaderSize : Nat := 72

/-- Names and bytes of the streams that the metadata list from a place on. -/
def readStreams (fetch : (offset size : Nat) → Option Image) (metadata : Image) :
    (place count : Nat) → Option (List (List UInt8 × Image))
  | _, 0 => some []
  | place, count + 1 => do
    let offset ← metadata.number? place 4
    let size ← metadata.number? (place + 4) 4
    let name := (metadata.bytes.extract (place + 8) (place + 40)).toList.takeWhile (· ≠ 0)
    let content ← fetch offset size
    let rest ← readStreams fetch metadata (place + 8 + (name.length / 4 + 1) * 4) count
    return (name, content) :: rest

/-- The streams of the metadata that start at an address. -/
def metadataStreams? (file : Image) (headers : ExecutableHeaders) (address : Nat) :
    Option (List (List UInt8 × Image)) := do
  let metadata ← fetch? file headers address file.size
  if (← metadata.number? 0 4) ≠ metadataMark then none
  let versionSize ← metadata.number? 12 4
  let count ← metadata.number? (16 + versionSize + 2) 2
  readStreams (fun offset size => fetch? file headers (address + offset) size) metadata
    (16 + versionSize + 4) count

/-- The first stream with one of the given names. -/
def stream? (streams : List (List UInt8 × Image)) (names : List String) : Option Image :=
  (streams.find? fun stream => names.any fun name => stream.1 = name.toUTF8.toList).map (·.2)

/-- The item of the heap of user strings at an offset; a negative one counts from
the end.  A count that is odd includes a mark after the text. -/
def userStringItem (heap : Image) (offset : Int) : Except HeapFault (Option Cell) :=
  match Heaps.counted? (heap.slice offset heap.size) with
  | none => .error .invalid
  | some (count, bytes) =>
    if count % 2 = 1 ∧ bytes.isEmpty then .error .outOfRange
    else match Utf16.decodeMarked? (if count % 2 = 1 then bytes.dropLast else bytes) with
      | some value => .ok (some (.text value))
      | none => .error .undecodable

/-- The header as a cell. -/
def headerCell (headers : ExecutableHeaders) : Cell :=
  .record [
    (lit "ImageBase", .int headers.imageBase),
    (lit "AddressOfEntryPoint", .int headers.entryPoint),
    (lit "SectionAlignment", .int headers.sectionAlignment),
    (lit "FileAlignment", .int headers.fileAlignment)]

/-- The streams of a file; `some []` when it has no metadata, `none` when it cannot
be read. -/
def streamsOf? (file : Image) (headers : ExecutableHeaders) :
    Option (List (List UInt8 × Image)) :=
  let address? : Option (Nat × Nat) := do
    if headers.managedHeader = 0 then none
    let header ← fetch? file headers headers.managedHeader managedHeaderSize
    return (← header.number? 8 4, ← header.number? 12 4)
  match address? with
  | none => some []
  | some (_, 0) => none
  | some (address, _ + 1) => some ((metadataStreams? file headers address).getD [])

/-- The assembly in the bytes of a file; `none` when the file cannot be read.  Of
several heaps of a name beside the tables the first counts, of several table
streams and heaps of user strings the last. -/
def parse (bytes : List UInt8) : Option RawAssembly := do
  let file : Image := ⟨bytes.toArray⟩
  let headers ← readHeaders file
  let streams ← streamsOf? file headers
  let heaps : Heaps := {
    strings := (stream? streams ["#Strings"]).getD ⟨#[]⟩
    blobs := (stream? streams ["#Blob"]).getD ⟨#[]⟩ }
  let tables ← match stream? streams.reverse ["#~", "#-"] with
    | none => some Cell.null
    | some part => (TableStream.read part).map fun (layout, all) =>
      TableStream.cells heaps layout all
  return {
    header := headerCell headers
    tables := tables
    userStrings? := (stream? streams.reverse ["#US"]).map userStringItem
    image := mappedImage file headers }

end PortableExecutable
end CilAtlas
