import CilAtlas.Calls.Table

/-!
# Steps on the table of local methods

What can be asked of a table, one step after the other.  Each step has an answer
and leaves a table; a refused step leaves the table that it found.
-/

namespace CilAtlas

/-- One step on a table. -/
inductive TableStep where
  | add (method : TableEntry)
  | freeze
  | find (handle : Handle)
  | ask (handle : Handle)
  | count
  | list
  | resolve (pending : PendingCalls) (caller? : Option TableEntry) (selfReference : Bool)

/-- What a step answers. -/
inductive TableAnswer where
  | done
  | refused (error : TableError)
  | found (method? : Option TableEntry)
  | present (isPresent : Bool)
  | counted (size : Nat)
  | listed (handles : List Handle)
  | resolved (records : List CallRecord)
deriving DecidableEq

namespace LookupTable

/-- The answer of a step, and the table that it leaves. -/
def perform (table : LookupTable) : TableStep → TableAnswer × LookupTable
  | .add method =>
    match table.add method with
    | .ok grown => (.done, grown)
    | .error error => (.refused error, table)
  | .freeze => (.done, table.freeze)
  | .find handle => (.found (table.get? handle), table)
  | .ask handle => (.present (table.contains handle), table)
  | .count => (.counted table.size, table)
  | .list => (.listed table.handles, table)
  | .resolve pending caller? selfReference =>
    match table.recordsOf pending caller? selfReference with
    | .ok records => (.resolved records, table)
    | .error error => (.refused error, table)

/-- The table after a sequence of steps. -/
def after (table : LookupTable) (steps : List TableStep) : LookupTable :=
  steps.foldl (fun reached step => (reached.perform step).2) table

/-- A sequence of steps, each with its answer. -/
def transcript (table : LookupTable) : List TableStep → List (TableStep × TableAnswer)
  | [] => []
  | step :: steps => (step, (table.perform step).1) :: transcript (table.perform step).2 steps

end LookupTable
end CilAtlas
