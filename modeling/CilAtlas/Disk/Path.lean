import CilAtlas.Text.Basic

/-!
# Paths

A path leads from the root or from the current directory through named parts.
Writing it as text drops single dots, repeated slashes and slashes at the end;
a double dot stays, since what it means depends on the directories themselves.
-/

namespace CilAtlas

/-- Where a path starts.  Exactly two slashes are a root of their own. -/
inductive Anchor where
  | here
  | root
  | doubleRoot
deriving DecidableEq

/-- A start and the parts that follow. -/
structure Path where
  anchor : Anchor
  parts : List Text
deriving DecidableEq

namespace Path

/-- The part that leads to the enclosing directory. -/
def up : Text := lit ".."

/-- The parts of a written path, empty ones and single dots left out. -/
def partsOf (t : Text) : List Text :=
  (t.splitOn '/').filter fun part => !part.isEmpty && part ≠ lit "."

/-- The start of a written path. -/
def anchorOf : Text → Anchor
  | a :: b :: c :: _ =>
    if a ≠ CodePoint.ofChar '/' then .here
    else if b = CodePoint.ofChar '/' ∧ c ≠ CodePoint.ofChar '/' then .doubleRoot
    else .root
  | [a, b] =>
    if a ≠ CodePoint.ofChar '/' then .here
    else if b = CodePoint.ofChar '/' then .doubleRoot
    else .root
  | [a] => if a = CodePoint.ofChar '/' then .root else .here
  | [] => .here

/-- The path that a text writes. -/
def ofText (t : Text) : Path :=
  ⟨anchorOf t, partsOf t⟩

/-- The start as it is written. -/
def anchorText : Anchor → Text
  | .here => []
  | .root => lit "/"
  | .doubleRoot => lit "//"

/-- The path as it is written. -/
def text (path : Path) : Text :=
  if path.anchor = .here ∧ path.parts = [] then lit "."
  else anchorText path.anchor ++ Text.join (lit "/") path.parts

/-- The last part; empty when there is none. -/
def name (path : Path) : Text :=
  path.parts.getLastD []

/-- The last part divided before its last dot.  A dot at either end of the part
does not divide it. -/
def division (path : Path) : Text × Text :=
  let backwards := path.name.reverse
  let extension := backwards.takeWhile (· ≠ CodePoint.ofChar '.')
  let before := backwards.drop (extension.length + 1)
  if extension.isEmpty || before.isEmpty then (path.name, [])
  else (before.reverse, CodePoint.ofChar '.' :: extension.reverse)

/-- The last part without its extension. -/
def stem (path : Path) : Text :=
  path.division.1

/-- The extension of the last part with its dot; empty when there is none. -/
def suffix (path : Path) : Text :=
  path.division.2

/-- The path with the home directory of a user in place of a first part that is a
tilde and the user's name; `none` when that user has no home. -/
def expandHome (path : Path) (homeOf : Text → Option Path) : Option Path :=
  match path.anchor, path.parts with
  | .here, first :: rest =>
    match Text.after? (lit "~") first with
    | none => some path
    | some user => (homeOf user).map fun home => ⟨home.anchor, home.parts ++ rest⟩
  | _, _ => some path

/-- The path without its last part. -/
def parent (path : Path) : Path :=
  ⟨path.anchor, path.parts.dropLast⟩

/-- The path to an entry of a directory. -/
def child (path : Path) (name : Text) : Path :=
  ⟨path.anchor, path.parts ++ [name]⟩

/-- Follows a part; the root encloses itself. -/
def follow (place : List Text) (part : Text) : List Text :=
  if part = up then place.dropLast else place ++ [part]

/-- The place where the walk along the path starts. -/
def start (path : Path) (here : List Text) : List Text :=
  if path.anchor = .here then here else []

/-- The path from the root without double dots, as seen from `here`. -/
def resolve (path : Path) (here : List Text) : Path :=
  ⟨.root, path.parts.foldl follow (path.start here)⟩

end Path
end CilAtlas
