import CilAtlas.Identity.Describe

/-!
# What a call calls

The operand of a call names a method, a member reference or a generic method
with its arguments.  A reference whose parent type is defined in the same
assembly is bound to the method that it means, by name and signature.
-/

namespace CilAtlas

/-- A callee with the type arguments of the call. -/
structure CallTarget where
  handle : Handle
  instantiation : List Text
deriving DecidableEq

namespace Store

/-- The defined type that a member reference goes through: its parent, or the
generic type of which its parent is an instance. -/
def referencedType (store : Store) (member : MemberRef) : Option TypeDef :=
  match member.parent? with
  | none => none
  | some parent =>
    let owner? :=
      if parent.table = TableNumber.typeSpec then (store.instanceParts parent).map (·.1)
      else some parent
    match owner? with
    | none => none
    | some owner =>
      if owner.table = TableNumber.typeDef then store.typeDefs.get? owner else none

/-- The method of this assembly that a member reference means. -/
def bindMember (store : Store) (handle : Handle) : Option Handle :=
  match store.memberRefs.get? handle with
  | none => none
  | some member =>
    match store.referencedType member with
    | none => none
    | some type =>
      ((store.methodsOf type).find? fun method =>
        method.name = member.name ∧ method.signature = member.signature).map (·.handle)

/-- The callee that a method or member handle stands for. -/
def targetOf (store : Store) (handle : Handle) (instantiation : List Text) :
    Option CallTarget :=
  if handle.table = TableNumber.methodDef then
    if store.methodDefs.contains handle then some ⟨handle, instantiation⟩ else none
  else if handle.table = TableNumber.memberRef ∧ store.memberRefs.contains handle then
    some ⟨(store.bindMember handle).getD handle, instantiation⟩
  else none

/-- The callee of a call with the given operand; `none` when the operand names
no method. -/
def callTarget (store : Store) (token : Int) : Option CallTarget :=
  let handle := Handle.ofToken token
  if handle.table = TableNumber.methodSpec then
    match store.methodSpecs.get? handle with
    | none => none
    | some spec =>
      match spec.method? with
      | none => none
      | some method =>
        let instantiation : List Text :=
          match (store.naming [] []).decodeMethodInstance spec.instantiation with
          | .ok arguments => arguments
          | .error _ => []
        store.targetOf method instantiation
  else store.targetOf handle []

/-- The name of a callee as its call sees it; a reference whose signature cannot
be read is named by its own key. -/
def callSiteName (store : Store) (handle : Handle) (instantiation : List Text) :
    Except LookupError Text :=
  match store.resolveMethod handle instantiation with
  | some method => .ok method.key
  | none => (store.memberEntity handle).map Entity.key

end Store
end CilAtlas
