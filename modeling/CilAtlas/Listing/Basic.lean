import CilAtlas.Calls.Target
import CilAtlas.Listing.LocalSlot
import CilAtlas.Text.Blank
import CilAtlas.Text.Quoted

/-!
# Listings

The text that a report shows for a method: a header and its instructions, one a
line, with names in the place of tokens and literals in the place of user
strings.
-/

namespace CilAtlas

/-- How a listing is written. -/
structure ListingOptions where
  /-- Leave out operations that do nothing. -/
  removeDeadCode : Bool
  /-- Show a store to a variable that is never read as dropping the value. -/
  removeDeadStores : Bool
  /-- One line, without indentation. -/
  noFormatting : Bool
deriving DecidableEq

/-- Everything shown, formatted. -/
def ListingOptions.plain : ListingOptions :=
  ⟨false, false, false⟩

/-- Why a listing cannot be written. -/
inductive ListingError where
  | lookup (error : LookupError)
  | body (reason : BodyUnavailable)
  | userString (fault : UserStringFault)
  /-- The lister itself gave up. -/
  | gaveUp

namespace Store

/-- A row named by a token, as listings show it. -/
def tokenText (store : Store) (token : Int) : Text :=
  let handle := Handle.ofToken token
  let isType := handle.table ∈ [TableNumber.typeDef, TableNumber.typeRef, TableNumber.typeSpec]
  let isMethod :=
    handle.table ∈ [TableNumber.methodDef, TableNumber.memberRef, TableNumber.methodSpec]
  if isType then store.fullName handle
  else if isMethod then
    let resolved? :=
      (store.callTarget token).bind fun target =>
        store.resolveMethod target.handle target.instantiation
    match resolved? with
    | some method =>
      method.declaringType ++ lit "::" ++ method.name ++ Entity.parameterList method.parameters
    | none =>
      match (store.memberRefs.get? handle).bind fun member =>
          member.parent?.map fun parent => (parent, member.name) with
      | some (parent, name) => store.fullName parent ++ lit "::" ++ name
      | none => handle.text
  else handle.text

/-- The user string of a string token as a literal, or the token itself. -/
def stringText (store : Store) (token : Int) : Except UserStringFault Text :=
  match store.userStrings (Handle.ofToken token).rid with
  | .ok (some value) => .ok (Quoted.quote value)
  | .ok none => .ok (Handle.ofToken token).text
  | .error (.pieces values) => .ok (Quoted.quotePieces values)
  | .error fault => .error fault

/-- A variable's number in hexadecimal. -/
def variableText (word : String) (index : Int) : Text :=
  lit word ++ lit "(0x" ++ Text.hexInt 4 index ++ lit ")"

mutual

/-- The text of an operand; empty when there is none. -/
def operandText (store : Store) : Operand → Except UserStringFault Text
  | .none => .ok []
  | .truth value => .ok (lit (if value then "True" else "False"))
  | .int value => .ok (Text.ofInt value)
  | .float value => .ok (Decimal.listing.text value)
  | .token value => .ok (store.tokenText value)
  | .string value => store.stringText value
  | .argument index => .ok (variableText "argument" index)
  | .local index => .ok (variableText "local" index)
  | .other text => .ok text
  | .list items => do
    let parts ← operandTexts store items
    return lit "(" ++ Text.join (lit ", ") parts ++ lit ")"

/-- The texts of several operands. -/
def operandTexts (store : Store) : List Operand → Except UserStringFault (List Text)
  | [] => .ok []
  | operand :: rest => do
    let text ← operandText store operand
    let texts ← operandTexts store rest
    return text :: texts

end

/-- The name that a listing's header gives a position: that of the last row for
it, unless it is empty. -/
def headerName? (params : List Param) (position : Int) : Option Text :=
  match params.reverse.find? (·.sequence = position) with
  | some param => if param.name.isEmpty then none else some param.name
  | none => none

/-- A parameter as the header shows it: its type, and its name when it has one. -/
def headerParameter (params : List Param) (position : Int) (type : Text) : Text :=
  match headerName? params position with
  | some name => type ++ lit " " ++ name
  | none => type

/-- The first line of a listing. -/
def listingHeader (store : Store) (method : MethodDef) : Text :=
  let (result, types) : Text × List Text :=
    match store.methodText method with
    | .ok signature => (signature.result, signature.parameters)
    | .error _ => (lit "?", [])
  let parameters := types.mapIdx fun i type => headerParameter method.params (i + 1) type
  lit ".method " ++ MethodDef.attributesText method.flags.value ++ lit " " ++ result ++ lit " "
    ++ store.fullName method.owner ++ lit "::" ++ method.name
    ++ lit "(" ++ Text.join (lit ", ") parameters ++ lit ")"

/-- The indentation of an instruction. -/
def indent : Text :=
  lit "    "

/-- The line of an instruction, whose offset is shown from `base` on; `none` when
it is left out. -/
def instructionLine (store : Store) (options : ListingOptions) (dead : List Int) (base : Int)
    (i : Instruction) : Except UserStringFault (Option Text) :=
  let start := indent ++ lit "IL_" ++ Text.hexInt 4 (i.offset - base) ++ lit ": "
  if options.removeDeadCode && i.mnemonic = lit "nop" then .ok none
  else if (i.localSlot? (lit "stloc")).any dead.contains then .ok (some (start ++ lit "pop"))
  else do
    let operand ← store.operandText i.operand
    let rest := if operand.isEmpty then [] else lit " " ++ operand
    return some (start ++ i.mnemonic ++ rest)

/-- The lines of a body between its braces. -/
def bodyLines (store : Store) (options : ListingOptions) (body : Body) :
    Except UserStringFault (List Text) := do
  let dead :=
    if options.removeDeadStores then Instruction.deadSlots body.instructions else []
  let base := body.offset + body.headerSize
  let lines ← body.instructions.mapM (store.instructionLine options dead base)
  return lines.filterMap id

/-- The lines put together as the options want. -/
def joinLines (options : ListingOptions) (lines : List Text) : Text :=
  if options.noFormatting then Text.join (lit " ") (lines.map Text.trim)
  else Text.join (lit "\n") lines

/-- The listing of a method, from its body when that is at hand. -/
def listing (store : Store) (options : ListingOptions) (handle : Handle) (body? : Option Body) :
    Except ListingError Text := do
  let method ← (store.methodDef handle).mapError .lookup
  let header := store.listingHeader method
  if method.hasBody then
    let body ←
      match body? with
      | some body => pure body
      | none => (store.readBody method).mapError .body
    let lines ← (store.bodyLines options body).mapError .userString
    return joinLines options (header :: lit "\x7b" :: lines ++ [lit "\x7d"])
  else return joinLines options [header, indent ++ lit "// no IL body"]

end Store
end CilAtlas
