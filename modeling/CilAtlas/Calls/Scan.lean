import CilAtlas.Calls.Table

/-!
# Scanning methods

The first pass over the methods: each is registered in the table and its callees
are collected.  Bodies may be handed in already decoded.
-/

namespace CilAtlas

/-- A scanned method and its callees. -/
structure ScannedMethod where
  method : TableEntry
  pending : PendingCalls

namespace Store

/-- A method's entry for the table. -/
def tableEntry (store : Store) (style : ParameterStyle) (method : MethodDef) :
    Except LookupError TableEntry := do
  let entity ← store.methodEntity method.handle style
  return ⟨method.handle, entity.key, method.rva⟩

/-- The bodies of the methods, decoded ahead.  A method without a body that
decodes has an entry too; of methods with one handle the last one counts. -/
def sharedBodies (store : Store) (methods : List MethodDef) : Handle → Option Body :=
  let bodies := OrderedMap.ofList (methods.map fun m => (m.handle, store.readBody? m))
  fun h => (bodies.get? h).join

/-- The callees of a method, from the given bodies when there are any. -/
def callsFrom (store : Store) (bodies? : Option (Handle → Option Body)) (method : MethodDef) :
    PendingCalls :=
  match bodies? with
  | some bodies => store.callsOfBody? (bodies method.handle)
  | none => store.callsOf method

/-- One method of the first pass. -/
def scanEntry (store : Store) (style : ParameterStyle)
    (bodies? : Option (Handle → Option Body)) (method : MethodDef) :
    Except LookupError ScannedMethod := do
  let entry ← store.tableEntry style method
  return ⟨entry, store.callsFrom bodies? method⟩

/-- The table of scanned methods, complete. -/
def tableOf (scanned : List ScannedMethod) : LookupTable :=
  let entries := scanned.foldl
    (fun (acc : OrderedMap Handle TableEntry) s => acc.insert s.method.handle s.method)
    OrderedMap.empty
  LookupTable.freeze { LookupTable.empty with entries := entries }

/-- The first pass: the complete table, and each method with its callees. -/
def scan (store : Store) (style : ParameterStyle) (bodies? : Option (Handle → Option Body))
    (methods : List MethodDef) : Except LookupError (LookupTable × List ScannedMethod) := do
  let scanned ← methods.mapM (store.scanEntry style bodies?)
  return (tableOf scanned, scanned)

end Store
end CilAtlas
