import CilAtlas.Calls.Pending

/-!
# The table of local methods

The table grows while methods are scanned and is frozen afterwards.  Calls are
resolved against a frozen table only, so that a callee scanned after its caller
is found as well.
-/

namespace CilAtlas

/-- A method of the assembly by its key and address. -/
structure TableEntry where
  handle : Handle
  name : Text
  address : Int
deriving DecidableEq

/-- A call as the report lists it. -/
structure CallRecord where
  name : Text
  address : Int
deriving DecidableEq

/-- Why the table refuses an operation. -/
inductive TableError where
  | frozen
  | notFrozen
  | callerMissing
deriving DecidableEq

/-- The wording of each refusal. -/
def TableError.message : TableError → Text
  | frozen => lit "Lookup table is frozen; pass 1 has already completed"
  | notFrozen => lit "Call resolution requires a frozen lookup table"
  | callerMissing => lit "legacy_self_reference needs the calling method"

/-- Local methods by handle, and whether the table is complete. -/
structure LookupTable where
  entries : OrderedMap Handle TableEntry
  isFrozen : Bool

namespace LookupTable

/-- The table before the first method. -/
def empty : LookupTable :=
  ⟨OrderedMap.empty, false⟩

/-- Registers a method. -/
def add (table : LookupTable) (method : TableEntry) : Except TableError LookupTable :=
  if table.isFrozen then .error .frozen
  else .ok { table with entries := table.entries.insert method.handle method }

/-- Declares the table complete. -/
def freeze (table : LookupTable) : LookupTable :=
  { table with isFrozen := true }

/-- The method registered under a handle. -/
def get? (table : LookupTable) (handle : Handle) : Option TableEntry :=
  table.entries.get? handle

/-- Whether a method is registered under a handle. -/
def contains (table : LookupTable) (handle : Handle) : Bool :=
  table.entries.contains handle

/-- The registered handles in order of first registration. -/
def handles (table : LookupTable) : List Handle :=
  table.entries.keys

/-- How many methods are registered. -/
def size (table : LookupTable) : Nat :=
  table.entries.size

/-- The record of one call.  With `self?` a local callee is recorded as that
method instead. -/
def recordOf (table : LookupTable) (self? : Option TableEntry) (callee : Handle)
    (fallback : Text) : CallRecord :=
  match table.get? callee with
  | none => ⟨fallback, 0⟩
  | some found =>
    let shown := self?.getD found
    ⟨shown.name, shown.address⟩

/-- The records of a method's calls.  `selfReference` records the caller in the
place of each local callee, the form of older reports. -/
def recordsOf (table : LookupTable) (pending : PendingCalls) (caller? : Option TableEntry)
    (selfReference : Bool) : Except TableError (List CallRecord) :=
  if !table.isFrozen then .error .notFrozen
  else if selfReference && caller?.isNone then .error .callerMissing
  else
    let self? := if selfReference then caller? else none
    .ok (pending.entries.map fun entry => table.recordOf self? entry.1 entry.2)

end LookupTable
end CilAtlas
