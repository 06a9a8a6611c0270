import CilAtlas.Signature.Text
import Mathlib.Data.List.Forall2
import Mathlib.Tactic.Common

/-!
# The grammar of signature blobs

Which bytes spell which types, and how types are written as text, both as rules
that mention no reader.  A number may be spelled in any of three forms that hold
it, not only in the shortest.  Custom modifiers and sentinels leave no trace in
the text; apart from them the rules for bytes and the rules for texts follow the
same syntax.

Nothing here says that a blob spells one type only.  That follows once a reader
is known to return every type that a blob spells.
-/

namespace CilAtlas
namespace Signature

/-- The forms of a compressed number. -/
inductive NumberForm where
  | oneByte
  | twoBytes
  | fourBytes
deriving DecidableEq

namespace NumberForm

/-- How many bits of a number each form holds. -/
def bits : NumberForm → Nat
  | oneByte => 7
  | twoBytes => 14
  | fourBytes => 29

/-- The bytes of a number in each form, the form's mark in the highest bits. -/
def spell : NumberForm → Nat → List UInt8
  | oneByte, n => [n.toUInt8]
  | twoBytes, n => [(0x80 + n / 0x100).toUInt8, n.toUInt8]
  | fourBytes, n =>
    [(0xC0 + n / 0x1000000).toUInt8, (n / 0x10000).toUInt8, (n / 0x100).toUInt8, n.toUInt8]

/-- A signed number rotated left by one within the bits of a form, so that its
sign becomes the lowest bit. -/
def rotated (form : NumberForm) (z : Int) : Nat :=
  if 0 ≤ z then (2 * z).toNat else (2 * (z + Nat.pow 2 (form.bits - 1)) + 1).toNat

end NumberForm

/-- The bytes spell a number in one of the forms that hold it. -/
inductive SpellsNumber (n : Nat) : List UInt8 → Prop
  | intro (form : NumberForm) (hfits : n < Nat.pow 2 form.bits) : SpellsNumber n (form.spell n)

/-- The bytes spell a signed number in one of the forms that hold it. -/
inductive SpellsSigned (z : Int) : List UInt8 → Prop
  | intro (form : NumberForm) (hleast : -(Nat.pow 2 (form.bits - 1) : Int) ≤ z)
      (hmost : z < (Nat.pow 2 (form.bits - 1) : Int)) : SpellsSigned z (form.spell (form.rotated z))

/-- The bytes spell a type handle: four times the row number, plus a tag for the
table. -/
inductive SpellsHandle : Handle → List UInt8 → Prop
  | typeDef {rid : Nat} {bytes : List UInt8} (hcoded : SpellsNumber (4 * rid) bytes) :
      SpellsHandle ⟨TableNumber.typeDef, rid⟩ bytes
  | typeRef {rid : Nat} {bytes : List UInt8} (hcoded : SpellsNumber (4 * rid + 1) bytes) :
      SpellsHandle ⟨TableNumber.typeRef, rid⟩ bytes
  | typeSpec {rid : Nat} {bytes : List UInt8} (hcoded : SpellsNumber (4 * rid + 2) bytes) :
      SpellsHandle ⟨TableNumber.typeSpec, rid⟩ bytes

/-- The bytes spell items one after the other. -/
inductive SpellsEach {α : Type} (item : α → List UInt8 → Prop) : List α → List UInt8 → Prop
  | nil : SpellsEach item [] []
  | cons {a : α} {rest : List α} {front back : List UInt8} (hfirst : item a front)
      (hothers : SpellsEach item rest back) : SpellsEach item (a :: rest) (front ++ back)

/-- A generic arity follows the convention byte if bit `0x10` of that is set. -/
inductive SpellsArity (header : UInt8) : Nat → List UInt8 → Prop
  | absent (hclear : header &&& 0x10 = 0) : SpellsArity header 0 []
  | given {arity : Nat} {bytes : List UInt8} (hset : header &&& 0x10 ≠ 0)
      (hnumber : SpellsNumber arity bytes) : SpellsArity header arity bytes

/-- The bytes spell items, each behind any number of sentinels. -/
inductive SpellsParameters {α : Type} (item : α → List UInt8 → Prop) : List α → List UInt8 → Prop
  | nil : SpellsParameters item [] []
  | cons {a : α} {rest : List α} {front back : List UInt8} (sentinels : Nat)
      (hfirst : item a front) (hothers : SpellsParameters item rest back) :
      SpellsParameters item (a :: rest) ((List.replicate sentinels 0x41 ++ front) ++ back)

/-- The bytes spell a method, whose types `item` spells: convention byte, arity if
announced, number of parameters, result and parameters. -/
inductive SpellsMethod (item : Ty → List UInt8 → Prop) : MethodShape → List UInt8 → Prop
  | intro {header : UInt8} {arity : Nat} {result : Ty} {parameters : List Ty}
      {arityBytes countBytes resultBytes parameterBytes : List UInt8}
      (harityNumber : SpellsArity header arity arityBytes)
      (hcount : SpellsNumber parameters.length countBytes)
      (hresultType : item result resultBytes)
      (hparameterTypes : SpellsParameters item parameters parameterBytes) :
      SpellsMethod item ⟨header, arity, result, parameters⟩
        (header :: (arityBytes ++ (countBytes ++ (resultBytes ++ parameterBytes))))

/-- The element byte and the name of each primitive type. -/
def primitiveTable : List (Primitive × UInt8 × String) :=
  [(.void, 0x01, "System.Void"), (.boolean, 0x02, "System.Boolean"), (.char, 0x03, "System.Char"),
    (.sbyte, 0x04, "System.SByte"), (.byte, 0x05, "System.Byte"), (.int16, 0x06, "System.Int16"),
    (.uint16, 0x07, "System.UInt16"), (.int32, 0x08, "System.Int32"),
    (.uint32, 0x09, "System.UInt32"), (.int64, 0x0A, "System.Int64"),
    (.uint64, 0x0B, "System.UInt64"), (.single, 0x0C, "System.Single"),
    (.double, 0x0D, "System.Double"), (.string, 0x0E, "System.String"),
    (.typedReference, 0x16, "System.TypedReference"), (.intPtr, 0x18, "System.IntPtr"),
    (.uintPtr, 0x19, "System.UIntPtr"), (.object, 0x1C, "System.Object")]

/-- The byte that says whether a named type is a value type or a class. -/
inductive SpellsKind : NamedKind → UInt8 → Prop
  | valueType : SpellsKind .valueType 0x11
  | classType : SpellsKind .classType 0x12

/-- The bytes spell a type. -/
inductive SpellsType : Ty → List UInt8 → Prop
  | primitive {type : Primitive} {code : UInt8} {name : String}
      (hlisted : (type, code, name) ∈ primitiveTable) : SpellsType (.primitive type) [code]
  | named {kind : NamedKind} {kindByte : UInt8} {h : Handle} {bytes : List UInt8}
      (hkind : SpellsKind kind kindByte) (hhandle : SpellsHandle h bytes) :
      SpellsType (.named kind h) (kindByte :: bytes)
  | vector {t : Ty} {bytes : List UInt8} (helement : SpellsType t bytes) :
      SpellsType (.vector t) (0x1D :: bytes)
  | pointer {t : Ty} {bytes : List UInt8} (htarget : SpellsType t bytes) :
      SpellsType (.pointer t) (0x0F :: bytes)
  | byRef {t : Ty} {bytes : List UInt8} (htarget : SpellsType t bytes) :
      SpellsType (.byRef t) (0x10 :: bytes)
  | pinned {t : Ty} {bytes : List UInt8} (htype : SpellsType t bytes) :
      SpellsType (.pinned t) (0x45 :: bytes)
  | typeVariable {index : Nat} {bytes : List UInt8} (hnumber : SpellsNumber index bytes) :
      SpellsType (.typeVariable index) (0x13 :: bytes)
  | methodVariable {index : Nat} {bytes : List UInt8} (hnumber : SpellsNumber index bytes) :
      SpellsType (.methodVariable index) (0x1E :: bytes)
  | genericInstance {kind : NamedKind} {kindByte : UInt8} {h : Handle} {arguments : List Ty}
      {handleBytes countBytes argumentBytes : List UInt8} (hkind : SpellsKind kind kindByte)
      (hhandle : SpellsHandle h handleBytes) (hcount : SpellsNumber arguments.length countBytes)
      (htypes : SpellsEach SpellsType arguments argumentBytes) :
      SpellsType (.genericInstance kind h arguments)
        (0x15 :: kindByte :: (handleBytes ++ (countBytes ++ argumentBytes)))
  | array {t : Ty} {rank : Nat} {sizes : List Nat} {lowerBounds : List Int}
      {elementBytes rankBytes sizeCountBytes sizeBytes boundCountBytes boundBytes : List UInt8}
      (helement : SpellsType t elementBytes) (hrankNumber : SpellsNumber rank rankBytes)
      (hsizeCount : SpellsNumber sizes.length sizeCountBytes)
      (hsizeNumbers : SpellsEach SpellsNumber sizes sizeBytes)
      (hboundCount : SpellsNumber lowerBounds.length boundCountBytes)
      (hboundNumbers : SpellsEach SpellsSigned lowerBounds boundBytes) :
      SpellsType (.array t rank sizes lowerBounds)
        (0x14 :: (elementBytes ++ (rankBytes ++ (sizeCountBytes ++ (sizeBytes ++
          (boundCountBytes ++ boundBytes))))))
  | function {header : UInt8} {arity : Nat} {result : Ty} {parameters : List Ty}
      {bytes : List UInt8}
      (hmethod : SpellsMethod SpellsType ⟨header, arity, result, parameters⟩ bytes) :
      SpellsType (.function header arity result parameters) (0x1B :: bytes)
  | requiredModifier {h : Handle} {t : Ty} {handleBytes bytes : List UInt8}
      (hhandle : SpellsHandle h handleBytes) (htype : SpellsType t bytes) :
      SpellsType (.modified true h t) (0x1F :: (handleBytes ++ bytes))
  | optionalModifier {h : Handle} {t : Ty} {handleBytes bytes : List UInt8}
      (hhandle : SpellsHandle h handleBytes) (htype : SpellsType t bytes) :
      SpellsType (.modified false h t) (0x20 :: (handleBytes ++ bytes))

/-- The bytes spell a method whose convention byte is none of the other
signatures': field, locals, property and method instance. -/
inductive SpellsMethodSignature : MethodShape → List UInt8 → Prop
  | intro {shape : MethodShape} {bytes : List UInt8} (hmethod : SpellsMethod SpellsType shape bytes)
      (hnotField : shape.header &&& 0x0F ≠ 0x06) (hnotLocals : shape.header &&& 0x0F ≠ 0x07)
      (hnotProperty : shape.header &&& 0x0F ≠ 0x08) (hnotInstance : shape.header &&& 0x0F ≠ 0x0A) :
      SpellsMethodSignature shape bytes

/-- The bytes spell the type of a field. -/
inductive SpellsField : Ty → List UInt8 → Prop
  | intro {header : UInt8} {t : Ty} {bytes : List UInt8} (hfield : header &&& 0x0F = 0x06)
      (htype : SpellsType t bytes) : SpellsField t (header :: bytes)

/-- The bytes spell the type arguments of a generic method. -/
inductive SpellsMethodInstance : List Ty → List UInt8 → Prop
  | intro {arguments : List Ty} {countBytes argumentBytes : List UInt8}
      (hcount : SpellsNumber arguments.length countBytes)
      (htypes : SpellsEach SpellsType arguments argumentBytes) :
      SpellsMethodInstance arguments (0x0A :: (countBytes ++ argumentBytes))

/-- The bytes spell custom modifiers, one after the other. -/
inductive SpellsModifiers : List UInt8 → Prop
  | nil : SpellsModifiers []
  | cons {b : UInt8} {h : Handle} {handleBytes bytes : List UInt8}
      (hmodifier : b = 0x1F ∨ b = 0x20) (hhandle : SpellsHandle h handleBytes)
      (hothers : SpellsModifiers bytes) : SpellsModifiers (b :: (handleBytes ++ bytes))

/-- The bytes spell a generic type with its arguments, behind any custom modifiers. -/
inductive SpellsTypeInstance : Handle × List Ty → List UInt8 → Prop
  | intro {h : Handle} {arguments : List Ty} {kind : NamedKind} {kindByte : UInt8}
      {modifierBytes handleBytes countBytes argumentBytes : List UInt8}
      (hmodifiers : SpellsModifiers modifierBytes) (hkind : SpellsKind kind kindByte)
      (hhandle : SpellsHandle h handleBytes) (hcount : SpellsNumber arguments.length countBytes)
      (htypes : SpellsEach SpellsType arguments argumentBytes) :
      SpellsTypeInstance (h, arguments)
        (modifierBytes ++ (0x15 :: kindByte :: (handleBytes ++ (countBytes ++ argumentBytes))))

/-- A variable has the name at its index when there is one and it is not empty,
else the mark with its index in decimal digits. -/
inductive RendersVariable (names : List Text) (mark : String) (index : Nat) : Text → Prop
  | named {name : Text} (hfound : names[index]? = some name) (hnonempty : name ≠ []) :
      RendersVariable names mark index name
  | unnamed (hmissing : ∀ name, names[index]? = some name → name = []) :
      RendersVariable names mark index (lit (mark ++ toString index))

/-- The text is the written form of the type. -/
inductive RendersType (names : Naming) : Ty → Text → Prop
  | primitive {type : Primitive} {code : UInt8} {name : String}
      (hlisted : (type, code, name) ∈ primitiveTable) :
      RendersType names (.primitive type) (lit name)
  | named (kind : NamedKind) (h : Handle) : RendersType names (.named kind h) (names.typeName h)
  | vector {t : Ty} {s : Text} (helement : RendersType names t s) :
      RendersType names (.vector t) (s ++ lit "[]")
  | pointer {t : Ty} {s : Text} (htarget : RendersType names t s) :
      RendersType names (.pointer t) (s ++ lit "*")
  | byRef {t : Ty} {s : Text} (htarget : RendersType names t s) :
      RendersType names (.byRef t) (s ++ lit "&")
  | pinned {t : Ty} {s : Text} (htype : RendersType names t s) : RendersType names (.pinned t) s
  | typeVariable {index : Nat} {s : Text}
      (hvariableText : RendersVariable names.typeParameters "!" index s) :
      RendersType names (.typeVariable index) s
  | methodVariable {index : Nat} {s : Text}
      (hvariableText : RendersVariable names.methodParameters "!!" index s) :
      RendersType names (.methodVariable index) s
  | genericInstance {kind : NamedKind} {h : Handle} {arguments : List Ty} {texts : List Text}
      (htypes : List.Forall₂ (RendersType names) arguments texts) :
      RendersType names (.genericInstance kind h arguments)
        (names.typeName h ++ lit "<" ++ List.intercalate (lit ",") texts ++ lit ">")
  | array {t : Ty} {rank : Nat} {sizes : List Nat} {lowerBounds : List Int} {s : Text}
      (helement : RendersType names t s) :
      RendersType names (.array t rank sizes lowerBounds)
        (s ++ lit "[" ++ (List.replicate (rank - 1) (lit ",")).flatten ++ lit "]")
  | function {header : UInt8} {arity : Nat} {result : Ty} {parameters : List Ty} {s : Text}
      {texts : List Text} (hresultType : RendersType names result s)
      (htypes : List.Forall₂ (RendersType names) parameters texts) :
      RendersType names (.function header arity result parameters)
        (lit "method " ++ s ++ lit " *(" ++ List.intercalate (lit ",") texts ++ lit ")")
  | modified {required : Bool} {h : Handle} {t : Ty} {s : Text} (htype : RendersType names t s) :
      RendersType names (.modified required h t) s

/-- The written form of a method: its convention byte and arity as they are, its
types as text. -/
inductive RendersMethod (names : Naming) : MethodShape → MethodText → Prop
  | intro {header : UInt8} {arity : Nat} {result : Ty} {parameters : List Ty} {s : Text}
      {texts : List Text} (hresultType : RendersType names result s)
      (htypes : List.Forall₂ (RendersType names) parameters texts) :
      RendersMethod names ⟨header, arity, result, parameters⟩ ⟨header, arity, s, texts⟩

end Signature
end CilAtlas
