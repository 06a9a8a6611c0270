import CilAtlas.Decimal.Shortest

/-!
# Instructions
-/

namespace CilAtlas

/-- The operand of an instruction. -/
inductive Operand where
  | none
  | truth (value : Bool)
  | int (value : Int)
  | float (value : Double)
  | token (value : Int)
  | string (value : Int)
  | argument (index : Int)
  | local (index : Int)
  | list (items : List Operand)
  /-- Anything else, with its text. -/
  | other (text : Text)

namespace Operand

/-- The number that an operand gives where a token is wanted. -/
def tokenValue? : Operand → Option Int
  | truth value => some (if value then 1 else 0)
  | int value | token value | string value => some value
  | _ => Option.none

/-- The number that an operand gives where a variable is wanted. -/
def slot? : Operand → Option Int
  | truth value => some (if value then 1 else 0)
  | int value | argument value | «local» value => some value
  | _ => Option.none

end Operand

/-- An instruction with its place, the bytes it was read from and its parts. -/
structure Instruction where
  offset : Int
  mnemonic : Text
  operand : Operand
  bytes : List UInt8

/-- How many bytes an instruction takes. -/
def Instruction.size (i : Instruction) : Nat :=
  i.bytes.length

end CilAtlas
