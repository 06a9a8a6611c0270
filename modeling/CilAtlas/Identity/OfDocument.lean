import CilAtlas.Identity.Entity
import CilAtlas.Json.Display

/-!
# Entities from documents

Documents of entities need not come from this library.  A field that is only
shown may hold any value; one that is taken apart or put together with others
has to hold a text.  Of the types around a type only those are read that its key
looks at.
-/

namespace CilAtlas

/-- Why a document is no entity with a key. -/
inductive EntityFault where
  | noIdentity (error : NoIdentity)
  /-- Something that is no type stands around a type. -/
  | notType
  /-- The name of a member is no text. -/
  | memberName
  /-- Something that is no text stands among texts that are joined. -/
  | part
deriving DecidableEq

namespace Json

/-- The word for the kind of a value that is no entity. -/
def kindWord : Json → Text
  | null => lit "NoneType"
  | bool _ => lit "bool"
  | int _ => lit "int"
  | real _ => lit "float"
  | text _ => lit "str"
  | list _ => lit "list"
  | object _ => lit "object"

/-- A field; null when there is none. -/
def fieldOrNull (document : Json) (name : String) : Json :=
  (document.field? (lit name)).getD null

/-- A text as it is, any other value as it is shown, nothing when it is absent. -/
def shownField (document : Json) (name : String) : Text :=
  let value := document.fieldOrNull name
  if value.isPresent then value.display else []

/-- The integer in a field, with zero and one for truth values. -/
def intField (document : Json) (name : String) : Int :=
  match document.fieldOrNull name with
  | int value => value
  | bool true => 1
  | _ => 0

/-- A value that has to be a text. -/
def toText {ε : Type} (fault : ε) : Json → Except ε Text
  | text value => .ok value
  | _ => .error fault

/-- The texts in a field. -/
def textsField (document : Json) (name : String) : Except EntityFault (List Text) :=
  match document.fieldOrNull name with
  | list items => items.mapM (toText .part)
  | _ => .ok []

theorem sizeOf_lookup?_lt {name : Text} {fields : List (Text × Json)} {value : Json}
    (h : lookup? name fields = some value) : sizeOf value < sizeOf fields := by
  induction fields with
  | nil => simp [lookup?] at h
  | cons field rest ih =>
    obtain ⟨known, found⟩ := field
    simp only [lookup?] at h
    split at h
    · cases h
      simp only [List.cons.sizeOf_spec, Prod.mk.sizeOf_spec]
      omega
    · have := ih h
      simp only [List.cons.sizeOf_spec]
      omega

end Json

namespace Entity

/-- The kind that a document names. -/
def kindOf (document : Json) : Text :=
  document.shownField "kind"

/-- A type and the types around it, no more of them than the limit. -/
def readLevels : (limit : Nat) → Json → Except EntityFault (List TypeLevel)
  | 0, _ => .ok []
  | _ + 1, .null => .ok []
  | limit + 1, document => do
    if kindOf document ≠ lit "TypeDefinition" then throw .notType
    let enclosing ← readLevels limit (document.fieldOrNull "declaring_type")
    let name ← (document.fieldOrNull "name").toText .part
    return ⟨name, document.shownField "namespace", document.intField "generic_arity",
      document.intField "token"⟩ :: enclosing

/-- A method as a call site sees it.  Modifiers are joined to the accessibility. -/
def readResolved (document : Json) : Except EntityFault ResolvedMethod := do
  let flag (name : String) : Bool := (document.fieldOrNull name).isPresent
  let access := document.fieldOrNull "accessibility"
  let accessibility ←
    if flag "is_static" || flag "is_abstract" || flag "is_virtual" then access.toText .part
    else pure access.display
  let parameters ← document.textsField "parameter_types"
  return {
    declaringType := (document.fieldOrNull "declaring_type").display
    name := (document.fieldOrNull "name").display
    arity := document.intField "generic_arity"
    parameters := parameters
    accessibility := accessibility
    isStatic := flag "is_static"
    isAbstract := flag "is_abstract"
    isVirtual := flag "is_virtual"
    token := document.intField "token" }

/-- The entity of a document. -/
def ofDocument (document : Json) : Except EntityFault Entity :=
  let without : Except EntityFault Entity := .error (.noIdentity ⟨document.kindWord⟩)
  let name := document.fieldOrNull "name"
  let token := document.intField "token"
  match document with
  | .object fields =>
    let kind := kindOf document
    let is (word : String) : Bool := kind = lit word
    if is "TypeDefinition" then do
      match ← readLevels maxNesting document with
      | self :: enclosing => return .typeDefinition ⟨self, enclosing⟩
      | [] => without
    else if is "TypeReference" then
      .ok (.typeReference (document.shownField "namespace") name.display token)
    else if is "ExportedType" then
      .ok (.exportedType (document.shownField "namespace") name.display token)
    else if is "TypeSpecification" then
      .ok (.typeSpecification (document.fieldOrNull "text").display token)
    else if is "MethodDefinition" then do
      let parameters ← document.textsField "parameter_types"
      let owner ← match _ : Json.lookup? (lit "owner") fields with
        | some owner => ofDocument owner
        | none => .error (.noIdentity ⟨Json.null.kindWord⟩)
      return .methodDefinition owner (← name.toText .memberName)
        (document.intField "generic_arity") parameters
        (document.fieldOrNull "attributes").display token
    else if is "MemberReference" then do
      let parent ← match _ : Json.lookup? (lit "parent") fields with
        | some (.text word) => .ok (.label word)
        | some parent => ofDocument parent
        | none => .error (.noIdentity ⟨Json.null.kindWord⟩)
      return .memberReference parent (← name.toText .memberName)
        (Text.bytesOfHex (document.shownField "signature")) token
    else if is "ResolvedMethodInfo" then (readResolved document).map .resolvedMethod
    else without
  | _ => without
termination_by document
decreasing_by
  all_goals
    have := Json.sizeOf_lookup?_lt ‹_›
    simp only [Json.object.sizeOf_spec]
    omega

end Entity
end CilAtlas
