import CilAtlas.Disk.Name
import CilAtlas.Disk.Path
import CilAtlas.OrderedMap
import CilAtlas.Text.Shown

/-!
# Files and directories

A tree of files and directories with a current directory.  Every part of a path
but the last must name a directory; the faults say which rule is broken and
carry the path as it was written.  A path that can name nothing is refused
before the tree is looked at.
-/

namespace CilAtlas

/-- What is found at a place. -/
inductive DiskNode where
  | file (content : List UInt8)
  | directory
deriving DecidableEq

/-- Which rule of the tree is broken. -/
inductive DiskFault where
  | missing
  | alreadyThere
  | notDirectory
  | isDirectory
  | nameTooLong
deriving DecidableEq

namespace DiskFault

/-- The customary number of the fault. -/
def number : DiskFault → Nat
  | missing => 2
  | alreadyThere => 17
  | notDirectory => 20
  | isDirectory => 21
  | nameTooLong => 36

/-- The customary wording of the fault. -/
def wording : DiskFault → Text
  | missing => lit "No such file or directory"
  | alreadyThere => lit "File exists"
  | notDirectory => lit "Not a directory"
  | isDirectory => lit "Is a directory"
  | nameTooLong => lit "File name too long"

end DiskFault

/-- Why work on the tree fails. -/
inductive DiskError where
  /-- The path can name nothing. -/
  | name (fault : NameFault)
  /-- The path as it was written meets a fault. -/
  | system (fault : DiskFault) (path : Text)
deriving DecidableEq

/-- The wording of a fault with number and path. -/
def DiskFault.message (fault : DiskFault) (path : Text) : Text :=
  lit "[Errno " ++ Text.ofNat fault.number ++ lit "] " ++ fault.wording ++ lit ": " ++ path.shown

/-- The nodes below the root, by the parts that lead to them. -/
structure Disk where
  here : List Text
  nodes : OrderedMap (List Text) DiskNode

namespace Disk

/-- The tree with nothing but the current directory and those that enclose it. -/
def emptyAt (here : List Text) : Disk where
  here := here
  nodes := OrderedMap.ofList
    ((List.range (here.length + 1)).map fun n => (here.take n, DiskNode.directory))

/-- What is found at a place; the root is a directory. -/
def node? (disk : Disk) (place : List Text) : Option DiskNode :=
  if place = [] then some .directory else disk.nodes.get? place

/-- Follows the parts, each from a directory. -/
def walk (disk : Disk) : (place : List Text) → (parts : List Text) → Except DiskFault (List Text)
  | place, [] => .ok place
  | place, part :: rest =>
    match disk.node? place with
    | none => .error .missing
    | some (.file _) => .error .notDirectory
    | some .directory =>
      if part.nameSize > nameLimit then .error .nameTooLong
      else disk.walk (Path.follow place part) rest

/-- The place that a path leads to. -/
def locate (disk : Disk) (path : Path) : Except DiskError (List Text) :=
  match path.text.nameFault? with
  | some fault => .error (.name fault)
  | none =>
    if path.text.nameSize > pathLimit then .error (.system .nameTooLong path.text)
    else (disk.walk (path.start disk.here) path.parts).mapError (.system · path.text)

/-- What a path leads to. -/
def find (disk : Disk) (path : Path) : Except DiskError DiskNode := do
  match disk.node? (← disk.locate path) with
  | some node => .ok node
  | none => .error (.system .missing path.text)

/-- Whether a path leads to a node that is as asked.  A path that leads nowhere
or can name nothing does not; only a name that is too long is an error. -/
def leadsTo (disk : Disk) (path : Path) (asked : DiskNode → Bool) : Except DiskError Bool :=
  match disk.find path with
  | .ok node => .ok (asked node)
  | .error (.system .nameTooLong t) => .error (.system .nameTooLong t)
  | .error _ => .ok false

/-- Whether a path leads to a file. -/
def isFile (disk : Disk) (path : Path) : Except DiskError Bool :=
  disk.leadsTo path (· ≠ .directory)

/-- Whether a path leads to a directory. -/
def isDirectory (disk : Disk) (path : Path) : Except DiskError Bool :=
  disk.leadsTo path (· = .directory)

/-- Whether a path leads to anything. -/
def isThere (disk : Disk) (path : Path) : Except DiskError Bool :=
  disk.leadsTo path fun _ => true

/-- The path from the root without double dots.  Every part must be able to name
something. -/
def resolve (disk : Disk) (path : Path) : Except DiskError Path :=
  match path.parts.findSome? Text.nameFault? with
  | some fault => .error (.name fault)
  | none => .ok (path.resolve disk.here)

/-- The content of a file. -/
def read (disk : Disk) (path : Path) : Except DiskError (List UInt8) := do
  match ← disk.find path with
  | .file content => return content
  | .directory => throw (.system .isDirectory path.text)

/-- The tree with a node put at a place. -/
def put (disk : Disk) (place : List Text) (node : DiskNode) : Disk :=
  { disk with nodes := disk.nodes.insert place node }

/-- Work on the tree; what was done before a fault stays done. -/
abbrev Work := EStateM DiskError Disk

/-- Gives a file a content; the file is made when it is not there. -/
def write (path : Path) (content : List UInt8) : Work Unit := do
  let disk ← get
  match disk.locate path with
  | .error error => throw error
  | .ok place =>
    if disk.node? place = some .directory then throw (.system .isDirectory path.text)
    set (disk.put place (.file content))

/-- Makes one directory where there is nothing. -/
def makeDirectory (path : Path) : Work Unit := do
  let disk ← get
  match disk.locate path with
  | .error error => throw error
  | .ok place =>
    if (disk.node? place).isSome then throw (.system .alreadyThere path.text)
    set (disk.put place .directory)

/-- Makes one directory, unless it is there. -/
def ensureOne (path : Path) : Work Unit := do
  let disk ← get
  match (makeDirectory path).run disk, disk.isDirectory path with
  | .ok _ disk', _ => set disk'
  | .error _ _, .ok true => pure ()
  | .error error _, _ => throw error

/-- Makes a directory, given its last part first, and those that enclose it. -/
def ensureFrom (anchor : Anchor) : (backwards : List Text) → Work Unit
  | [] => ensureOne ⟨anchor, []⟩
  | part :: enclosing => do
    let path : Path := ⟨anchor, (part :: enclosing).reverse⟩
    let disk ← get
    match (makeDirectory path).run disk with
    | .error (.system .missing _) _ =>
      ensureFrom anchor enclosing
      ensureOne path
    | _ => ensureOne path

/-- Makes a directory and those that enclose it, as far as they are not there. -/
def ensureDirectory (path : Path) : Work Unit :=
  ensureFrom path.anchor path.parts.reverse

end Disk
end CilAtlas
