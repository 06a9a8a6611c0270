import CilAtlas.Body.Instruction
import CilAtlas.Text.Integer

/-!
# Local variable slots

Instructions that load, store or take the address of a local variable come in
three forms: with the slot in the mnemonic, with a short operand, and with a
long one.
-/

namespace CilAtlas
namespace Instruction

/-- The digits of a slot that a mnemonic names after the given family. -/
def slotDigits? (suffix : Text) : Option Text :=
  match Text.after? (lit ".") suffix with
  | none => none
  | some digits => if !digits.isEmpty && digits.all CodePoint.isDigit then some digits else none

/-- The slot that an instruction of the given family addresses, if any.  Digits
that write no number are an error. -/
def localSlot (family : Text) (i : Instruction) : Except NumeralError (Option Int) :=
  match Text.after? family i.mnemonic with
  | none => .ok none
  | some suffix =>
    match slotDigits? suffix with
    | some digits => (Text.integer digits).map some
    | none => .ok (if suffix = [] ∨ suffix = lit ".s" then i.operand.slot? else none)

/-- The slot that an instruction of the given family addresses; `none` also when
its digits write no number, which no mnemonic of a decoded body does. -/
def localSlot? (family : Text) (i : Instruction) : Option Int :=
  (i.localSlot family).toOption.bind id

/-- Slots that are stored to and neither loaded nor have their address taken. -/
def deadSlots (instructions : List Instruction) : List Int :=
  let slots (family : String) := instructions.filterMap (localSlot? (lit family))
  let loaded := slots "ldloc" ++ slots "ldloca"
  (slots "stloc").filter fun slot => !loaded.contains slot

end Instruction
end CilAtlas
