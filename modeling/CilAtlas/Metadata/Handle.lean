import CilAtlas.Bits
import CilAtlas.Text.Numeral

/-!
# Handles

A handle names one row of one metadata table.  Written as a token it is a
single number, the table in the bits from 24 upward and the row number below;
a row number wider than 24 bits makes different handles share a token, so
handles are compared as pairs.
-/

namespace CilAtlas

/-- The number of a metadata table. -/
abbrev TableNumber := Int

namespace TableNumber

def module : TableNumber := 0x00
def typeRef : TableNumber := 0x01
def typeDef : TableNumber := 0x02
def field : TableNumber := 0x04
def methodDef : TableNumber := 0x06
def param : TableNumber := 0x08
def memberRef : TableNumber := 0x0A
def customAttribute : TableNumber := 0x0C
def standAloneSig : TableNumber := 0x11
def moduleRef : TableNumber := 0x1A
def typeSpec : TableNumber := 0x1B
def assemblyRef : TableNumber := 0x23
def exportedType : TableNumber := 0x27
def nestedClass : TableNumber := 0x29
def genericParam : TableNumber := 0x2A
def methodSpec : TableNumber := 0x2B

/-- The tables that have a name here, with it. -/
def names : List (TableNumber × String) :=
  [(module, "Module"), (typeRef, "TypeRef"), (typeDef, "TypeDef"), (field, "Field"),
    (methodDef, "MethodDef"), (param, "Param"), (memberRef, "MemberRef"),
    (customAttribute, "CustomAttribute"), (standAloneSig, "StandAloneSig"),
    (moduleRef, "ModuleRef"), (typeSpec, "TypeSpec"), (assemblyRef, "AssemblyRef"),
    (exportedType, "ExportedType"), (nestedClass, "NestedClass"),
    (genericParam, "GenericParam"), (methodSpec, "MethodSpec")]

/-- The name of a table, or its number when it has none. -/
def name (table : TableNumber) : Text :=
  match names.find? (·.1 = table) with
  | some entry => lit entry.2
  | none => lit "Table" ++ Text.hexInt 2 table

end TableNumber

/-- One row of one table.  Row numbers start at 1, and 0 names no row. -/
structure Handle where
  table : TableNumber
  rid : Int
deriving DecidableEq

namespace Handle

/-- The handle written in the low 32 bits of a token. -/
def ofToken (token : Int) : Handle where
  table := Bits.low 8 (token / 0x1000000)
  rid := Bits.low 24 token

/-- Table and row number as one number. -/
def token (h : Handle) : Int :=
  Bits.or (h.table * 0x1000000) h.rid

/-- Whether the handle names no row. -/
def isNil (h : Handle) : Bool :=
  h.rid = 0

/-- The name of the handle's table. -/
def tableName (h : Handle) : Text :=
  h.table.name

/-- A token as it is written in keys and listings. -/
def tokenText (token : Int) : Text :=
  lit "0x" ++ Text.hexInt 8 token

/-- The token of the handle, written out. -/
def text (h : Handle) : Text :=
  tokenText h.token

/-- Order by table, then by row number. -/
def le (a b : Handle) : Bool :=
  a.table < b.table || (a.table = b.table && a.rid ≤ b.rid)

end Handle
end CilAtlas
