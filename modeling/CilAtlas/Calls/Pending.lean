import CilAtlas.Calls.Target

/-!
# The calls of one method

The distinct callees of a method in the order of their first call, each with the
name to use when it turns out not to be defined in the assembly.
-/

namespace CilAtlas

/-- Callees in order of first call, with their fallback names. -/
abbrev PendingCalls := OrderedMap Handle Text

namespace Instruction

/-- The operations that call. -/
def callOperations : List Text :=
  [lit "call", lit "callvirt", lit "newobj"]

/-- Whether an instruction calls a method. -/
def isCall (i : Instruction) : Bool :=
  callOperations.contains i.mnemonic

end Instruction

namespace Store

/-- The callee of an instruction, if it is a call whose operand names one. -/
def calleeOf (store : Store) (i : Instruction) : Option CallTarget :=
  if i.isCall then i.operand.tokenValue?.bind store.callTarget else none

/-- Adds a callee unless it is there already. -/
def addCall (store : Store) (pending : PendingCalls) (target : CallTarget) :
    Except LookupError PendingCalls :=
  if pending.contains target.handle then .ok pending
  else do
    let name ← store.callSiteName target.handle target.instantiation
    return pending.insert target.handle name

/-- The callees of an instruction list. -/
def callsIn (store : Store) (instructions : List Instruction) :
    Except LookupError PendingCalls :=
  (instructions.filterMap store.calleeOf).foldlM store.addCall OrderedMap.empty

/-- The callees of a body; none when one of them cannot be named. -/
def callsOfBody (store : Store) (body : Body) : PendingCalls :=
  match store.callsIn body.instructions with
  | .ok pending => pending
  | .error _ => OrderedMap.empty

/-- The callees of a body, if there is one. -/
def callsOfBody? (store : Store) (body? : Option Body) : PendingCalls :=
  match body? with
  | some body => store.callsOfBody body
  | none => OrderedMap.empty

/-- The callees of a method; none when it has no body that decodes. -/
def callsOf (store : Store) (method : MethodDef) : PendingCalls :=
  store.callsOfBody? (store.readBody? method)

end Store
end CilAtlas
