import CilAtlas.Json.Basic

/-!
# The programs of a graph

Programs are usually named by texts, but a document may name one by a number as
well.  A list of programs names each once and in order.  Lists and objects name
no program here, and a text and a number have no order.
-/

namespace CilAtlas

/-- Why programs cannot be listed. -/
inductive ProgramFault where
  /-- A program is named by a list or an object. -/
  | composite
  /-- Two programs are named by values of different kinds. -/
  | incomparable
deriving DecidableEq

/-- What the order of programs looks at. -/
inductive ProgramRank where
  | text (value : Text)
  /-- The number `num / den`. -/
  | number (num : Int) (den : Nat)
  | infinite (isNegative : Bool)
  | notANumber
  | nothing

namespace ProgramRank

/-- The rank of a floating point number. -/
def ofDouble (x : Double) : ProgramRank :=
  let sign : Int := if x.isNegative then -1 else 1
  match x.kind with
  | .nan => notANumber
  | .infinite => infinite x.isNegative
  | .finite mantissa exponent =>
    number (sign * mantissa * Nat.pow 2 exponent.toNat) (Nat.pow 2 (-exponent).toNat)

/-- The rank of a value, when it can name a program. -/
def of? : Json → Option ProgramRank
  | .null => some nothing
  | .bool value => some (number (if value then 1 else 0) 1)
  | .int value => some (number value 1)
  | .real value => some (ofDouble value)
  | .text value => some (text value)
  | .list _ => none
  | .object _ => none

/-- Whether two ranks are those of values that name the same program. -/
def same : ProgramRank → ProgramRank → Bool
  | text a, text b => a = b
  | number a m, number b n => a * n = b * m
  | infinite a, infinite b => a = b
  | notANumber, notANumber => true
  | nothing, nothing => true
  | _, _ => false

/-- Whether a rank is that of a number, in a wide sense. -/
def isNumeric : ProgramRank → Bool
  | number _ _ | infinite _ | notANumber => true
  | text _ | nothing => false

/-- Whether two ranks have an order. -/
def comparable : ProgramRank → ProgramRank → Bool
  | text _, text _ => true
  | a, b => a.isNumeric && b.isNumeric

/-- The order of texts, and that of numbers. -/
def le : ProgramRank → ProgramRank → Bool
  | text a, text b => Text.le a b
  | number a m, number b n => a * n ≤ b * m
  | infinite isNegative, number _ _ => isNegative
  | number _ _, infinite isNegative => !isNegative
  | infinite isNegative, infinite other => isNegative || !other
  | _, _ => true

end ProgramRank

/-- A set of programs, in the order of their first mention. -/
structure Programs where
  members : List (ProgramRank × Json)

namespace Programs

/-- No programs. -/
def empty : Programs := ⟨[]⟩

/-- Adds a program, unless it is there. -/
def add (programs : Programs) (name : Json) : Except ProgramFault Programs :=
  match ProgramRank.of? name with
  | none => .error .composite
  | some rank =>
    if programs.members.any fun member => member.1.same rank then .ok programs
    else .ok ⟨programs.members ++ [(rank, name)]⟩

/-- The programs in order. -/
def sorted (programs : Programs) : Except ProgramFault (List Json) :=
  match programs.members with
  | [] => .ok []
  | [member] => .ok [member.2]
  | first :: rest =>
    if rest.all fun member => first.1.comparable member.1 then
      .ok (((first :: rest).mergeSort fun a b => a.1.le b.1).map (·.2))
    else .error .incomparable

end Programs
end CilAtlas
