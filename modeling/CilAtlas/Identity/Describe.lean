import CilAtlas.Identity.TypeName

/-!
# Entities of a store

From the rows of a store to entities, and so to keys.
-/

namespace CilAtlas

/-- Whether a method's key lists the names of its parameters or their types. -/
inductive ParameterStyle where
  | names
  | types
deriving DecidableEq

namespace MethodDef

/-- The names of the access levels in definitions. -/
def accessWords : List String :=
  ["PrivateScope", "Private", "FamANDAssem", "Assembly", "Family", "FamORAssem", "Public"]

/-- The same levels as a type system calls them. -/
def accessibilityWords : List String :=
  ["None", "Private", "ProtectedAndInternal", "Internal", "Protected", "ProtectedOrInternal",
    "Public"]

/-- The flags with a name, by the position of their bit. -/
def flagWords : List (Nat × String) :=
  [(3, "UnmanagedExport"), (4, "Static"), (5, "Final"), (6, "Virtual"), (7, "HideBySig"),
    (8, "NewSlot"), (9, "CheckAccessOnOverride"), (10, "Abstract"), (11, "SpecialName"),
    (12, "RTSpecialName"), (13, "PinvokeImpl"), (14, "HasSecurity"), (15, "RequireSecObject")]

/-- The access level and the flags that are set, in words. -/
def attributesText (flags : Int) : Text :=
  let level := accessWords.getD (Bits.low 3 flags) "PrivateScope"
  let set := flagWords.filter fun entry => Bits.test entry.1 flags
  Text.join (lit ", ") (lit level :: set.map fun entry => lit entry.2)

/-- The name that the rows give the parameter at a position; the last row
counts, and an empty name is none. -/
def paramName? (params : List Param) (position : Int) : Option Text :=
  match params.reverse.find? fun p => p.sequence = position ∧ ¬ p.name.isEmpty with
  | some param => some param.name
  | none => none

/-- The greatest position from 1 on that has a name, or 0. -/
def lastNamed (params : List Param) : Nat :=
  params.foldl
    (fun best p => if p.sequence > 0 ∧ ¬ p.name.isEmpty then max best p.sequence.toNat else best) 0

end MethodDef

namespace Store

/-- The parameter texts of a method's key: the name of each position under
`names`, else its type, else a question mark. -/
def keyParameters (store : Store) (method : MethodDef) (style : ParameterStyle) : List Text :=
  let types : List Text :=
    match store.methodText method with
    | .ok signature => signature.parameters
    | .error _ => []
  let name? (position : Nat) : Option Text :=
    match style with
    | .names => MethodDef.paramName? method.params position
    | .types => none
  let named :=
    match style with
    | .names => MethodDef.lastNamed method.params
    | .types => 0
  (List.range (max types.length named)).map fun i =>
    match name? (i + 1) with
    | some name => name
    | none => types.getD i (lit "?")

/-- The rows from a type outward, ending before a row that is missing or was
met before; at most `fuel` of them. -/
def declaringChain (store : Store) : (fuel : Nat) → (met : List Handle) → Handle → List TypeDef
  | 0, _, _ => []
  | fuel + 1, met, handle =>
    if handle ∈ met then []
    else match store.typeDefs.get? handle with
      | none => []
      | some row =>
        match row.declaringType? with
        | none => [row]
        | some outer => row :: store.declaringChain fuel (handle :: met) outer

/-- One level of a nested type, from its row. -/
def levelOf (row : TypeDef) : TypeLevel :=
  ⟨row.name, row.nameSpace, row.genericParameters.length, row.handle.token⟩

/-- A type of the store with the types around it. -/
def typeEntity (store : Store) (handle : Handle) : Except LookupError TypeDefinition :=
  match store.declaringChain (store.typeDefs.size + 1) [] handle with
  | [] => .error (.noTypeDef handle)
  | row :: outer => .ok ⟨levelOf row, outer.map levelOf⟩

/-- A method of the store. -/
def methodEntity (store : Store) (handle : Handle) (style : ParameterStyle) :
    Except LookupError Entity := do
  let method ← store.methodDef handle
  let owner ← store.typeEntity method.owner
  return .methodDefinition (.typeDefinition owner) method.name method.genericParameters.length
    (store.keyParameters method style) (MethodDef.attributesText method.flags.value) handle.token

/-- The parent of a member reference. -/
def parentEntity (store : Store) (parent? : Option Handle) : Except LookupError Entity :=
  match parent? with
  | none => .ok (.label (lit "Nil"))
  | some parent =>
    if parent.table = TableNumber.typeRef then
      match store.typeRefs.get? parent with
      | some row => .ok (.typeReference row.nameSpace row.name parent.token)
      | none => .ok (.label parent.tableName)
    else if parent.table = TableNumber.typeDef ∧ store.typeDefs.contains parent then
      (store.typeEntity parent).map .typeDefinition
    else if parent.table = TableNumber.typeSpec ∧ store.typeSpecs.contains parent then
      .ok (.typeSpecification (store.fullName parent) parent.token)
    else if parent.table = TableNumber.methodDef ∧ store.methodDefs.contains parent then
      store.methodEntity parent .names
    else .ok (.label parent.tableName)

/-- A member reference of the store. -/
def memberEntity (store : Store) (handle : Handle) : Except LookupError Entity :=
  match store.memberRefs.get? handle with
  | none => .error (.noRow handle)
  | some row => do
    let parent ← store.parentEntity row.parent?
    return .memberReference parent row.name row.signature handle.token

/-- The row of a handle as an entity. -/
def entityOf (store : Store) (handle : Handle) (style : ParameterStyle) :
    Except LookupError Entity :=
  if handle.table = TableNumber.typeDef then
    (store.typeEntity handle).map .typeDefinition
  else if handle.table = TableNumber.typeRef then
    match store.typeRefs.get? handle with
    | some row => .ok (.typeReference row.nameSpace row.name handle.token)
    | none => .error (.noRow handle)
  else if handle.table = TableNumber.exportedType then
    match store.exportedTypes.get? handle with
    | some row => .ok (.exportedType row.nameSpace row.name handle.token)
    | none => .error (.noRow handle)
  else if handle.table = TableNumber.methodDef then store.methodEntity handle style
  else if handle.table = TableNumber.memberRef then store.memberEntity handle
  else .error (.noRule handle.tableName)

/-- The identity key of a row. -/
def keyOf (store : Store) (handle : Handle) (style : ParameterStyle) : Except LookupError Text :=
  (store.entityOf handle style).map Entity.key

/-- The generic type and the argument texts of a type given by a signature, when
it is an instance of a generic type. -/
def instanceParts (store : Store) (handle : Handle) : Option (Handle × List Text) :=
  match store.typeSpecs.get? handle with
  | none => none
  | some row => ((store.naming [] []).decodeTypeInstance row.signature).toOption

/-- A method of the store as a call with the given type arguments sees it. -/
def resolveLocal (store : Store) (handle : Handle) (method : MethodDef)
    (instantiation : List Text) : ResolvedMethod :=
  let ownParameters := if instantiation.isEmpty then method.genericParameters else instantiation
  let naming := store.naming (store.ownerParameters method) ownParameters
  let parameters : List Text :=
    match naming.decodeMethod method.signature with
    | .ok signature => signature.parameters
    | .error _ => []
  { declaringType := store.fullName method.owner
    name := method.name
    arity := method.genericParameters.length
    parameters := parameters
    accessibility := lit (MethodDef.accessibilityWords.getD method.access "None")
    isStatic := method.isStatic
    isAbstract := method.isAbstract
    isVirtual := method.isVirtual
    token := handle.token }

/-- The name of the type that declares a referenced member, and the type
arguments that the reference gives it. -/
def declaringTypeOf (store : Store) (parent? : Option Handle) : Text × List Text :=
  match parent? with
  | none => (lit "Nil", [])
  | some parent =>
    if parent.table = TableNumber.typeSpec then
      match store.instanceParts parent with
      | some (generic, arguments) => (store.fullName generic, arguments)
      | none => (store.fullName parent, [])
    else if parent.table = TableNumber.methodDef then
      match store.methodDefs.get? parent with
      | some method => (store.fullName method.owner, [])
      | none => (store.fullName parent, [])
    else (store.fullName parent, [])

/-- A referenced method as a call with the given type arguments sees it; members
of other assemblies can only be public. -/
def resolveMember (store : Store) (handle : Handle) (member : MemberRef)
    (instantiation : List Text) : Option ResolvedMethod :=
  let (declaringType, typeArguments) := store.declaringTypeOf member.parent?
  match (store.naming typeArguments instantiation).decodeMethod member.signature with
  | .error _ => none
  | .ok signature =>
    some {
      declaringType := declaringType
      name := member.name
      arity := signature.arity
      parameters := signature.parameters
      accessibility := lit "Public"
      isStatic := !signature.hasThis
      isAbstract := false
      isVirtual := false
      token := handle.token }

/-- What a call sees of a handle; `none` when it is nothing that can be called. -/
def resolveMethod (store : Store) (handle : Handle) (instantiation : List Text) :
    Option ResolvedMethod :=
  if handle.table = TableNumber.methodDef then
    match store.methodDefs.get? handle with
    | some method => some (store.resolveLocal handle method instantiation)
    | none => none
  else if handle.table = TableNumber.memberRef then
    match store.memberRefs.get? handle with
    | some member => store.resolveMember handle member instantiation
    | none => none
  else none

end Store
end CilAtlas
