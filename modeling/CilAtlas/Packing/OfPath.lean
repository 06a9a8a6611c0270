import CilAtlas.Disk.Path
import CilAtlas.Packing.Bzip2
import CilAtlas.Packing.Gzip

/-!
# Which files are packed

The extension of a file tells how its content is packed.
-/

namespace CilAtlas

/-- How the content of a file is packed. -/
inductive Packing where
  | plain
  | gzip
  | bzip2
deriving DecidableEq

namespace Packing

/-- The packing that the extension of a path asks for. -/
def ofPath (path : Path) : Packing :=
  if path.suffix = lit ".gz" ∨ path.suffix = lit ".gzip" then gzip
  else if path.suffix = lit ".bz2" then bzip2
  else plain

/-- The content of a file, packed. -/
def pack : Packing → List UInt8 → List UInt8
  | plain, content => content
  | gzip, content => Gzip.pack content
  | bzip2, content => Bzip2.pack content

end Packing
end CilAtlas
