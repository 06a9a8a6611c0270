import CilAtlas.Text.Numeral

/-!
# What can be wrong with a method body
-/

namespace CilAtlas

/-- Why a method body cannot be read. -/
inductive BodyFault where
  | outsideImage (rva : Int)
  | tinyTruncated (rva : Int)
  | badHeader (first : UInt8) (rva : Int)
  | headerTruncated (rva : Int)
  | codeOverrun (rva : Int)
  | sectionTruncated (rva : Int)
  | badFormat (format : Nat)
  | pastEnd (position : Int)
  | unreadable (count : Nat) (position : Int)
  | shortRead (position : Int)
  | switchOverrun (count : Nat) (position : Int)
deriving DecidableEq

namespace BodyFault

/-- A position in hexadecimal. -/
def place (position : Int) : Text :=
  lit "0x" ++ Text.hexInt 0 position

/-- The wording of each fault. -/
def message : BodyFault → Text
  | outsideImage rva => lit "Method body RVA " ++ place rva ++ lit " outside of image"
  | tinyTruncated rva => lit "Tiny method body at " ++ place rva ++ lit " truncated"
  | badHeader first rva =>
    lit "Bad method header format 0x" ++ Text.hexByte first ++ lit " at " ++ place rva
  | headerTruncated rva => lit "Fat method header at " ++ place rva ++ lit " truncated"
  | codeOverrun rva => lit "Method code at " ++ place rva ++ lit " runs past end of image"
  | sectionTruncated rva => lit "Data section of method at " ++ place rva ++ lit " truncated"
  | badFormat format => lit "bad header format 0x" ++ Text.hexNat 2 format
  | pastEnd position => lit "Method body read past its end at " ++ place position
  | unreadable count position =>
    lit "unable to read " ++ place count ++ lit " bytes @ offset " ++ place position
  | shortRead position =>
    lit "not enough data while parsing method body @ offset " ++ place position
  | switchOverrun count position =>
    lit "switch with " ++ Text.ofNat count ++ lit " branches overruns method body at " ++
      place position

end BodyFault
end CilAtlas
