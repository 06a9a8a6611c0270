import CilAtlas.Listing.LocalSlot
import CilAtlas.Proofs.BodyExtent

/-!
# Accesses to local variables

A local variable is loaded, has its address taken, or is stored to.  Each of the
three has up to three encodings: a code of one byte that fixes the slot, a code
with a slot of one byte, and an escaped code with a slot of two bytes.  The slot
of an instruction is found by parsing its mnemonic; for the instructions of a
decoded body this finds exactly the slot that the bytes encode.  The mnemonics of
the families overlap, and unknown codes have mnemonics too, so all codes are
looked at.
-/

namespace CilAtlas

open Body

/-- What an instruction can do with a local variable. -/
inductive Access where
  | load
  | address
  | store
deriving DecidableEq

namespace Access

/-- The three accesses. -/
def all : List Access :=
  [load, address, store]

theorem mem_all (access : Access) : access ∈ all := by
  cases access <;> decide

/-- The start of the mnemonics of an access. -/
def family : Access → Text
  | load => lit "ldloc"
  | address => lit "ldloca"
  | store => lit "stloc"

/-- The code that a slot of one byte follows. -/
def shortCode : Access → UInt8
  | load => 0x11
  | address => 0x12
  | store => 0x13

/-- The escaped code that a slot of two bytes follows. -/
def longCode : Access → UInt8
  | load => 0x0C
  | address => 0x0D
  | store => 0x0E

/-- The codes that fix the slot. -/
def fixedCodes : List (Access × UInt8 × Nat) :=
  [(load, 0x06, 0), (load, 0x07, 1), (load, 0x08, 2), (load, 0x09, 3),
    (store, 0x0A, 0), (store, 0x0B, 1), (store, 0x0C, 2), (store, 0x0D, 3)]

/-- The bytes encode the access to the slot. -/
inductive Encodes (access : Access) : Nat → List UInt8 → Prop
  | fixed {code : UInt8} {slot : Nat} (hlisted : (access, code, slot) ∈ fixedCodes) :
      Encodes access slot [code]
  | short (b : UInt8) : Encodes access b.toNat [access.shortCode, b]
  | long (low high : UInt8) :
      Encodes access (littleEndian [low, high]) [escapeByte, access.longCode, low, high]

theorem fixedCodes_unique : ∀ row ∈ fixedCodes, ∀ row' ∈ fixedCodes,
    row.2.1 = row'.2.1 → row = row' := by
  decide

theorem shortCode_injective {access access' : Access}
    (hsame : access.shortCode = access'.shortCode) : access = access' := by
  revert hsame
  cases access <;> cases access' <;> decide

theorem longCode_injective {access access' : Access}
    (hsame : access.longCode = access'.longCode) : access = access' := by
  revert hsame
  cases access <;> cases access' <;> decide

theorem shortCode_ne_escapeByte (access : Access) : access.shortCode ≠ escapeByte := by
  cases access <;> decide

/-- Bytes encode one access to one slot at most. -/
theorem Encodes.unique {access access' : Access} {slot slot' : Nat} {bytes : List UInt8}
    (hencodes : access.Encodes slot bytes) (hencodes' : access'.Encodes slot' bytes) :
    access = access' ∧ slot = slot' := by
  cases hencodes with
  | fixed hlisted =>
    -- the other encodings are longer
    cases hencodes' with
    | fixed hlisted' =>
      cases fixedCodes_unique _ hlisted _ hlisted' rfl
      exact ⟨rfl, rfl⟩
  | short b =>
    generalize hbytes : [access.shortCode, b] = bytes at hencodes'
    cases hencodes' with
    | fixed hlisted' => simp at hbytes
    | short b' =>
      injection hbytes with hcode htail
      injection htail with hbyte
      exact ⟨shortCode_injective hcode, by rw [hbyte]⟩
    | long low high => simp at hbytes
  | long low high =>
    generalize hbytes : [escapeByte, access.longCode, low, high] = bytes at hencodes'
    cases hencodes' with
    | fixed hlisted' => simp at hbytes
    | short b' => simp at hbytes
    | long low' high' =>
      injection hbytes with _ htail
      injection htail with hcode htail
      rw [htail]
      exact ⟨longCode_injective hcode, rfl⟩

/-- A code that fixes no slot accesses none by itself. -/
theorem not_encodes_of_unlisted {code : UInt8} (hunlisted : ∀ row ∈ fixedCodes, row.2.1 ≠ code)
    (access : Access) (slot : Nat) : ¬ access.Encodes slot [code] := by
  intro hencodes
  generalize hbytes : [code] = bytes at hencodes
  cases hencodes with
  | fixed hlisted =>
    injection hbytes with hsame
    exact hunlisted _ hlisted hsame.symm
  | short b => simp at hbytes
  | long low high => simp at hbytes

end Access

/-! ### Slots by mnemonic -/

/-- Where an instruction of a family has its slot. -/
inductive SlotForm where
  /-- It is of another family. -/
  | absent
  | fixed (slot : Int)
  | operand
deriving DecidableEq

namespace SlotForm

/-- The form that a mnemonic tells. -/
def ofMnemonic (family mnemonic : Text) : SlotForm :=
  match Text.after? family mnemonic with
  | none => absent
  | some suffix =>
    match Instruction.slotDigits? suffix with
    | some digits =>
      match Text.integer digits with
      | .ok slot => fixed slot
      | .error _ => absent
    | none => if suffix = [] ∨ suffix = lit ".s" then operand else absent

/-- The slot, given the operand. -/
def slot? : SlotForm → Operand → Option Int
  | absent, _ => none
  | fixed slot, _ => some slot
  | operand, given => given.slot?

end SlotForm

namespace Instruction

theorem localSlot?_eq (family : Text) (i : Instruction) :
    i.localSlot? family = (SlotForm.ofMnemonic family i.mnemonic).slot? i.operand := by
  unfold localSlot? localSlot SlotForm.ofMnemonic
  cases Text.after? family i.mnemonic with
  | none => rfl
  | some suffix =>
    dsimp only
    cases slotDigits? suffix with
    | none =>
      dsimp only
      split
      · rfl
      · rfl
    | some digits =>
      dsimp only
      cases Text.integer digits with
      | error fault => rfl
      | ok slot => rfl

end Instruction

/-! ### The tables of codes -/

/-- A code of one byte has its slot in the operand, fixes it, or is of no access. -/
def OneByteForm (access : Access) (b : UInt8) (opcode : Opcode) : Prop :=
  (b = access.shortCode ∧ SlotForm.ofMnemonic access.family opcode.mnemonic = .operand ∧
    opcode.operand = .local8) ∨
  (∃ row ∈ Access.fixedCodes, row.1 = access ∧ row.2.1 = b ∧
    SlotForm.ofMnemonic access.family opcode.mnemonic = .fixed row.2.2 ∧
    opcode.operand = .none) ∨
  (b ≠ access.shortCode ∧ (∀ row ∈ Access.fixedCodes, ¬ (row.1 = access ∧ row.2.1 = b)) ∧
    SlotForm.ofMnemonic access.family opcode.mnemonic = .absent)

/-- An escaped code has its slot in the operand or is of no access. -/
def EscapedForm (access : Access) (b : UInt8) (opcode : Opcode) : Prop :=
  (b = access.longCode ∧ SlotForm.ofMnemonic access.family opcode.mnemonic = .operand ∧
    opcode.operand = .local16) ∨
  (b ≠ access.longCode ∧ SlotForm.ofMnemonic access.family opcode.mnemonic = .absent)

instance (access : Access) (b : UInt8) (opcode : Opcode) :
    Decidable (OneByteForm access b opcode) :=
  inferInstanceAs (Decidable (_ ∨ _ ∨ _))

instance (access : Access) (b : UInt8) (opcode : Opcode) :
    Decidable (EscapedForm access b opcode) :=
  inferInstanceAs (Decidable (_ ∨ _))

theorem oneByteOpcodes_form : ∀ entry ∈ oneByteOpcodes, ∀ access ∈ Access.all,
    OneByteForm access entry.1 ⟨lit entry.2.1, entry.2.2⟩ := by
  decide +kernel

theorem twoByteOpcodes_form : ∀ entry ∈ twoByteOpcodes, ∀ access ∈ Access.all,
    EscapedForm access entry.1 ⟨lit entry.2.1, entry.2.2⟩ := by
  decide +kernel

/-- The codes of the accesses are in the tables. -/
theorem accessCodes_listed (access : Access) :
    (∃ entry ∈ oneByteOpcodes, entry.1 = access.shortCode) ∧
    (∃ entry ∈ twoByteOpcodes, entry.1 = access.longCode) ∧
    ∀ row ∈ Access.fixedCodes, ∃ entry ∈ oneByteOpcodes, entry.1 = row.2.1 := by
  cases access <;> decide +kernel

theorem oneByteForm (access : Access) (b : UInt8) : OneByteForm access b (Opcode.ofByte b) := by
  obtain ⟨hshortListed, -, hfixedListed⟩ := accessCodes_listed access
  unfold Opcode.ofByte findOpcode
  split
  · next code mnemonic operand hfound =>
    obtain rfl : code = b := by simpa using List.find?_some hfound
    exact oneByteOpcodes_form _ (List.mem_of_find?_eq_some hfound) access access.mem_all
  · next hmissing =>
    have hunlisted : ∀ entry ∈ oneByteOpcodes, entry.1 ≠ b := by
      simpa using List.find?_eq_none.mp hmissing
    refine .inr (.inr ⟨?_, ?_, by cases access <;> decide⟩)
    · rintro rfl
      obtain ⟨entry, hmember, hsame⟩ := hshortListed
      exact hunlisted entry hmember hsame
    · rintro row hlisted ⟨-, rfl⟩
      obtain ⟨entry, hmember, hsame⟩ := hfixedListed row hlisted
      exact hunlisted entry hmember hsame

theorem escapedForm (access : Access) (b : UInt8) :
    EscapedForm access b (Opcode.ofEscapedByte b) := by
  obtain ⟨-, ⟨entry, hmember, hsame⟩, -⟩ := accessCodes_listed access
  unfold Opcode.ofEscapedByte findOpcode
  split
  · next code mnemonic operand hfound =>
    obtain rfl : code = b := by simpa using List.find?_some hfound
    exact twoByteOpcodes_form _ (List.mem_of_find?_eq_some hfound) access access.mem_all
  · next hmissing =>
    have hunlisted : ∀ entry ∈ twoByteOpcodes, entry.1 ≠ b := by
      simpa using List.find?_eq_none.mp hmissing
    refine .inr ⟨?_, by cases access <;> decide⟩
    rintro rfl
    exact hunlisted entry hmember hsame

/-! ### Instructions as they are read -/

/-- What reading an operand gives, for the kinds that local accesses have. -/
structure OperandRead (kind : OperandKind) (operand : Operand) (bytes : List UInt8) : Prop where
  nothing : kind = .none → bytes = []
  short : kind = .local8 → ∃ b : UInt8, bytes = [b] ∧ operand = .local b.toNat
  long : kind = .local16 → ∃ low high : UInt8, bytes = [low, high] ∧
    operand = .local (littleEndian [low, high])

/-- The bytes of an instruction are its code and its operand. -/
inductive Instruction.Coded (i : Instruction) : Prop
  | oneByte {b : UInt8} {rest : List UInt8} (hunescaped : b ≠ escapeByte)
      (hbytes_eq : i.bytes = b :: rest) (hmnemonic_eq : i.mnemonic = (Opcode.ofByte b).mnemonic)
      (hread : OperandRead (Opcode.ofByte b).operand i.operand rest)
  | escaped {b : UInt8} {rest : List UInt8} (hbytes_eq : i.bytes = escapeByte :: b :: rest)
      (hmnemonic_eq : i.mnemonic = (Opcode.ofEscapedByte b).mnemonic)
      (hread : OperandRead (Opcode.ofEscapedByte b).operand i.operand rest)

namespace Body

variable {window : Window}

theorem operandRead_of_readOperand {kind : OperandKind} {offset : Int} {opcodeSize : Nat}
    {p p' : Int} {operand : Operand} {bytes : List UInt8}
    (h : readOperand kind offset opcodeSize window p = .ok (operand, bytes) p') :
    OperandRead kind operand bytes := by
  constructor
  · rintro rfl
    cases h
    rfl
  · rintro rfl
    obtain ⟨⟨value, valueBytes⟩, p₁, hvalue, h⟩ := bind_ok_iff.mp h
    cases h
    obtain ⟨rfl, -, hlength, -⟩ := readUnsigned_ok hvalue
    obtain ⟨b, rfl⟩ := List.length_eq_one_iff.mp hlength
    exact ⟨b, rfl, rfl⟩
  · rintro rfl
    obtain ⟨⟨value, valueBytes⟩, p₁, hvalue, h⟩ := bind_ok_iff.mp h
    cases h
    obtain ⟨rfl, -, hlength, -⟩ := readUnsigned_ok hvalue
    obtain ⟨low, high, rfl⟩ := List.length_eq_two.mp hlength
    exact ⟨low, high, rfl, rfl⟩

theorem coded_of_readInstruction {offset p p' : Int} {i : Instruction}
    (h : readInstruction offset window p = .ok i p') : i.Coded := by
  obtain ⟨⟨opcode, code⟩, p₁, hopcode, h⟩ := bind_ok_iff.mp h
  obtain ⟨⟨operand, bytes⟩, p₂, hoperand, h⟩ := bind_ok_iff.mp h
  cases h
  have hread := operandRead_of_readOperand hoperand
  obtain ⟨first, p₃, hfirst, hopcode⟩ := bind_ok_iff.mp hopcode
  obtain ⟨-, hfirstLength, -⟩ := readExact_ok hfirst
  obtain ⟨b, rfl⟩ := List.length_eq_one_iff.mp hfirstLength
  split at hopcode
  · next hescape =>
    obtain ⟨second, p₄, hsecond, hopcode⟩ := bind_ok_iff.mp hopcode
    obtain ⟨-, hsecondLength, -⟩ := readExact_ok hsecond
    obtain ⟨b', rfl⟩ := List.length_eq_one_iff.mp hsecondLength
    cases hopcode
    cases hescape
    exact .escaped rfl rfl hread
  · next hplain =>
    cases hopcode
    exact .oneByte (fun hsame => hplain (by rw [hsame])) rfl rfl hread

theorem instructions_coded {image : Image} {rva : Int} {limit? : Option Int} {body : Body}
    (hdecoded : decode image rva limit? = .ok body) : ∀ i ∈ body.instructions, i.Coded :=
  forall_of_decode (fun _ _ _ _ _ h => coded_of_readInstruction h) hdecoded

end Body

/-! ### Slots by bytes -/

namespace Instruction

/-- The slot that the mnemonic tells is the slot that the bytes encode. -/
theorem Coded.localSlot?_cases {i : Instruction} (hcoded : i.Coded) (access : Access) :
    (∃ slot : Nat, access.Encodes slot i.bytes ∧ i.localSlot? access.family = some (slot : Int)) ∨
    (∀ slot, ¬ access.Encodes slot i.bytes) ∧ i.localSlot? access.family = none := by
  rw [localSlot?_eq]
  cases hcoded with
  | @oneByte b rest hunescaped hbytes_eq hmnemonic_eq hread =>
    rw [hbytes_eq, hmnemonic_eq]
    rcases oneByteForm access b with ⟨rfl, hform, hkind⟩ |
      ⟨⟨_, _, slot⟩, hlisted, rfl, rfl, hform, hkind⟩ | ⟨hnotShort, hnotFixed, hform⟩
    · obtain ⟨x, rfl, hoperand⟩ := hread.short hkind
      rw [hform, hoperand]
      exact .inl ⟨x.toNat, .short x, rfl⟩
    · rw [hform, hread.nothing hkind]
      exact .inl ⟨slot, .fixed hlisted, rfl⟩
    · rw [hform]
      refine .inr ⟨?_, rfl⟩
      intro slot hencodes
      cases hencodes with
      | fixed hlisted => exact hnotFixed _ hlisted ⟨rfl, rfl⟩
      | short x => exact hnotShort rfl
      | long low high => exact hunescaped rfl
  | @escaped b rest hbytes_eq hmnemonic_eq hread =>
    rw [hbytes_eq, hmnemonic_eq]
    rcases escapedForm access b with ⟨rfl, hform, hkind⟩ | ⟨hnotLong, hform⟩
    · obtain ⟨low, high, rfl, hoperand⟩ := hread.long hkind
      rw [hform, hoperand]
      exact .inl ⟨_, .long low high, rfl⟩
    · rw [hform]
      refine .inr ⟨?_, rfl⟩
      intro slot hencodes
      generalize hbytes : escapeByte :: b :: rest = bytes at hencodes
      cases hencodes with
      | fixed hlisted => cases hbytes
      | short x =>
        injection hbytes with hcode _
        exact access.shortCode_ne_escapeByte hcode.symm
      | long low high =>
        injection hbytes with _ htail
        injection htail with hcode _
        exact hnotLong hcode

theorem Coded.localSlot?_eq_some_iff {i : Instruction} (hcoded : i.Coded) (access : Access)
    {n : Int} :
    i.localSlot? access.family = some n ↔ ∃ slot : Nat, n = slot ∧ access.Encodes slot i.bytes := by
  rcases hcoded.localSlot?_cases access with ⟨slot, hencodes, hfound⟩ | ⟨hnever, hmissing⟩
  · rw [hfound]
    constructor
    · intro hsame
      exact ⟨slot, (Option.some.inj hsame).symm, hencodes⟩
    · rintro ⟨slot', rfl, hencodes'⟩
      rw [(hencodes.unique hencodes').2]
  · rw [hmissing]
    refine iff_of_false nofun ?_
    rintro ⟨slot, -, hencodes⟩
    exact hnever slot hencodes

/-- The slots that a list of instructions accesses. -/
theorem mem_localSlots_iff {instructions : List Instruction}
    (hcoded : ∀ i ∈ instructions, i.Coded) (access : Access) {slot : Nat} :
    (slot : Int) ∈ instructions.filterMap (localSlot? access.family) ↔
      ∃ i ∈ instructions, access.Encodes slot i.bytes := by
  rw [List.mem_filterMap]
  constructor
  · rintro ⟨i, hmember, hfound⟩
    obtain ⟨slot', hsame, hencodes⟩ := ((hcoded i hmember).localSlot?_eq_some_iff access).mp hfound
    obtain rfl : slot = slot' := by exact_mod_cast hsame
    exact ⟨i, hmember, hencodes⟩
  · rintro ⟨i, hmember, hencodes⟩
    exact ⟨i, hmember, ((hcoded i hmember).localSlot?_eq_some_iff access).mpr ⟨slot, rfl, hencodes⟩⟩

/-- No instruction loads the slot or takes its address. -/
def NeverRead (instructions : List Instruction) (slot : Nat) : Prop :=
  ∀ j ∈ instructions, ¬ Access.load.Encodes slot j.bytes ∧ ¬ Access.address.Encodes slot j.bytes

/-- The dead slots are those that are stored to and never read. -/
theorem mem_deadSlots_iff {instructions : List Instruction}
    (hcoded : ∀ i ∈ instructions, i.Coded) {slot : Nat} :
    (slot : Int) ∈ deadSlots instructions ↔
      (∃ i ∈ instructions, Access.store.Encodes slot i.bytes) ∧ NeverRead instructions slot := by
  have hstored : (slot : Int) ∈ instructions.filterMap (localSlot? (lit "stloc")) ↔ _ :=
    mem_localSlots_iff hcoded .store
  have hloaded : (slot : Int) ∈ instructions.filterMap (localSlot? (lit "ldloc")) ↔ _ :=
    mem_localSlots_iff hcoded .load
  have haddressed : (slot : Int) ∈ instructions.filterMap (localSlot? (lit "ldloca")) ↔ _ :=
    mem_localSlots_iff hcoded .address
  simp only [deadSlots, List.mem_filter, hstored, NeverRead, Bool.not_eq_true',
    List.contains_eq_mem, decide_eq_false_iff_not, List.mem_append, hloaded, haddressed]
  refine and_congr_right fun _ => ?_
  constructor
  · intro hunread j hmember
    exact ⟨fun hencodes => hunread (.inl ⟨j, hmember, hencodes⟩),
      fun hencodes => hunread (.inr ⟨j, hmember, hencodes⟩)⟩
  · rintro hnever (⟨j, hmember, hencodes⟩ | ⟨j, hmember, hencodes⟩)
    · exact (hnever j hmember).1 hencodes
    · exact (hnever j hmember).2 hencodes

end Instruction
end CilAtlas
