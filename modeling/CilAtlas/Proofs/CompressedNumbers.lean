import CilAtlas.Proofs.BlobReading
import CilAtlas.Proofs.Outcomes

/-!
# Compressed numbers in their shortest form

A number is written in the shortest of the three forms that hold it.  A signed
number is first rotated within the bits of its form, so its form has to be chosen
by its own range and not by the size of the rotated number: `-64` takes one byte
and `-8192` two, though both are rotated to `1`.

Wherever such a number stands in a blob, the readers return it and stop right
behind it.  A read fails for two reasons only, a first byte that announces no
form and a blob that ends too early, and then the reader has not moved.
-/

namespace CilAtlas
namespace Signature

/-! ### The shortest form -/

namespace NumberForm

/-- How many bytes a number takes in each form. -/
def size : NumberForm → Nat
  | oneByte => 1
  | twoBytes => 2
  | fourBytes => 4

theorem length_spell (form : NumberForm) (n : Nat) : (form.spell n).length = form.size := by
  cases form <;> rfl

/-- The shortest form with a property that the longest has. -/
def first (suits : NumberForm → Prop) [DecidablePred suits] : NumberForm :=
  if suits oneByte then oneByte else if suits twoBytes then twoBytes else fourBytes

section First

variable (suits : NumberForm → Prop) [DecidablePred suits]

theorem suits_first (hlongest : suits fourBytes) : suits (first suits) := by
  unfold first
  split
  · assumption
  · split
    · assumption
    · exact hlongest

variable {suits}

theorem size_first_le {form : NumberForm} (hsuited : suits form) :
    (first suits).size ≤ form.size := by
  unfold first
  cases form with
  | oneByte => rw [if_pos hsuited]
  | twoBytes =>
    rw [if_pos hsuited]
    split
    · decide
    · exact Nat.le_refl _
  | fourBytes =>
    split
    · decide
    · split
      · decide
      · exact Nat.le_refl _

theorem size_first : (first suits).size =
    if suits oneByte then 1 else if suits twoBytes then 2 else 4 := by
  unfold first
  split
  · rfl
  · split <;> rfl

end First

/-- The number lies in the signed range of the form. -/
def HoldsSigned (z : Int) (form : NumberForm) : Prop :=
  -(Nat.pow 2 (form.bits - 1) : Int) ≤ z ∧ z < (Nat.pow 2 (form.bits - 1) : Int)

instance (z : Int) : DecidablePred (HoldsSigned z) :=
  fun _ => inferInstanceAs (Decidable (_ ∧ _))

/-- The bits of a signed number in two's complement, rotated left by one. -/
def rotatedBits (form : NumberForm) (z : Int) : Nat :=
  ((BitVec.ofInt form.bits z).rotateLeft 1).toNat

end NumberForm

/-! ### Rotation by one -/

/-- Rotating left by one doubles the low bits and puts the highest below them. -/
theorem toNat_rotateLeft_one {width : Nat} (hwide : 1 ≤ width) (x : BitVec (width + 1)) :
    (x.rotateLeft 1).toNat = 2 * (x.toNat % 2 ^ width) + x.toNat / 2 ^ width := by
  have hx : x.toNat < 2 * 2 ^ width := by
    have := x.isLt
    rwa [Nat.pow_succ, Nat.mul_comm] at this
  have hhigh : x.toNat / 2 ^ width < 2 ^ 1 := by
    rw [Nat.div_lt_iff_lt_mul (Nat.two_pow_pos width)]
    exact hx
  have hone : 1 % (width + 1) = 1 := Nat.mod_eq_of_lt (by omega)
  have hlow : x.toNat <<< 1 % 2 ^ (width + 1) = 2 ^ 1 * (x.toNat % 2 ^ width) := by
    rw [Nat.shiftLeft_eq, Nat.pow_add_one 2 width, Nat.pow_one, Nat.mul_mod_mul_right,
      Nat.mul_comm]
  rw [BitVec.toNat_rotateLeft, hone, hlow, Nat.add_sub_cancel, Nat.shiftRight_eq_div_pow,
    ← Nat.two_pow_add_eq_or_of_lt hhigh, Nat.pow_one]

theorem toNat_rotateLeft_ofInt (width : Nat) (hwide : 1 ≤ width) {z : Int}
    (hleast : -(2 ^ width : Nat) ≤ z) (hmost : z < (2 ^ width : Nat)) :
    ((BitVec.ofInt (width + 1) z).rotateLeft 1).toNat =
      if 0 ≤ z then (2 * z).toNat else (2 * (z + (2 ^ width : Nat)) + 1).toNat := by
  have hdouble : 2 ^ (width + 1) = 2 * 2 ^ width := by rw [Nat.pow_succ, Nat.mul_comm]
  have hpos := Nat.two_pow_pos width
  rw [toNat_rotateLeft_one hwide, BitVec.toNat_ofInt, hdouble]
  generalize 2 ^ width = half at *
  split
  · next hnonneg =>
    -- the highest bit is clear, and all others are low ones
    have hbits : (z % ((2 * half : Nat) : Int)).toNat = z.toNat := by
      rw [Int.emod_eq_of_lt hnonneg (by omega)]
    have hsmall : z.toNat < half := by omega
    rw [hbits, Nat.mod_eq_of_lt hsmall, Nat.div_eq_of_lt hsmall]
    omega
  · next hnegative =>
    have hbits : (z % ((2 * half : Nat) : Int)).toNat = half + (z + half).toNat := by
      rw [← Int.add_emod_right, Int.emod_eq_of_lt (by omega) (by omega)]
      omega
    have hsmall : (z + half).toNat < half := by omega
    rw [hbits, Nat.add_mod_left, Nat.mod_eq_of_lt hsmall, Nat.add_div_left _ hpos,
      Nat.div_eq_of_lt hsmall]
    omega

/-- The rotation of the bits is the one that the grammar states by arithmetic. -/
theorem NumberForm.rotatedBits_eq {form : NumberForm} {z : Int} (hholds : form.HoldsSigned z) :
    form.rotatedBits z = form.rotated z := by
  obtain ⟨hleast, hmost⟩ := hholds
  cases form with
  | oneByte => exact toNat_rotateLeft_ofInt 6 (by decide) hleast hmost
  | twoBytes => exact toNat_rotateLeft_ofInt 13 (by decide) hleast hmost
  | fourBytes => exact toNat_rotateLeft_ofInt 28 (by decide) hleast hmost

/-! ### Shortest spellings -/

/-- The bytes are a spelling, and no spelling is shorter. -/
def Shortest (spells : List UInt8 → Prop) (bytes : List UInt8) : Prop :=
  spells bytes ∧ ∀ other, spells other → bytes.length ≤ other.length

/-- The shortest form that holds a number. -/
def numberForm (n : Nat) : NumberForm :=
  NumberForm.first fun form => n < Nat.pow 2 form.bits

/-- The shortest form that holds a signed number. -/
def signedForm (z : Int) : NumberForm :=
  NumberForm.first (NumberForm.HoldsSigned z)

/-- A number in the shortest form that holds it. -/
def encodeNumber (n : Nat) : List UInt8 :=
  (numberForm n).spell n

/-- A signed number in the shortest form that holds it, its bits rotated. -/
def encodeSigned (z : Int) : List UInt8 :=
  (signedForm z).spell ((signedForm z).rotatedBits z)

/-- The tables of types with their tags in a coded handle. -/
def typeTags : List (TableNumber × Nat) :=
  [(TableNumber.typeDef, 0), (TableNumber.typeRef, 1), (TableNumber.typeSpec, 2)]

/-- A row number above the two bits of a tag. -/
def encodeHandle (tag rid : Nat) : List UInt8 :=
  encodeNumber (rid <<< 2 ||| tag)

theorem encodeNumber_shortest {n : Nat} (hsmall : n < 2 ^ 29) :
    Shortest (SpellsNumber n) (encodeNumber n) := by
  have hfits : n < Nat.pow 2 (numberForm n).bits :=
    NumberForm.suits_first (fun form => n < Nat.pow 2 form.bits) hsmall
  refine ⟨.intro _ hfits, ?_⟩
  rintro _ ⟨form, hfits'⟩
  rw [encodeNumber, NumberForm.length_spell, NumberForm.length_spell]
  exact NumberForm.size_first_le hfits'

theorem encodeSigned_shortest {z : Int} (hleast : -2 ^ 28 ≤ z) (hmost : z < 2 ^ 28) :
    Shortest (SpellsSigned z) (encodeSigned z) := by
  have hholds : (signedForm z).HoldsSigned z := NumberForm.suits_first _ ⟨hleast, hmost⟩
  constructor
  · rw [encodeSigned, NumberForm.rotatedBits_eq hholds]
    exact .intro _ hholds.1 hholds.2
  · rintro _ ⟨form, hleast', hmost'⟩
    rw [encodeSigned, NumberForm.length_spell, NumberForm.length_spell]
    exact NumberForm.size_first_le ⟨hleast', hmost'⟩

theorem length_encodeNumber (n : Nat) :
    (encodeNumber n).length = if n < 2 ^ 7 then 1 else if n < 2 ^ 14 then 2 else 4 := by
  rw [encodeNumber, NumberForm.length_spell]
  exact NumberForm.size_first

theorem length_encodeSigned (z : Int) :
    (encodeSigned z).length =
      if -2 ^ 6 ≤ z ∧ z < 2 ^ 6 then 1 else if -2 ^ 13 ≤ z ∧ z < 2 ^ 13 then 2 else 4 := by
  rw [encodeSigned, NumberForm.length_spell]
  exact NumberForm.size_first

/-- A coded handle spells its handle. -/
theorem encodeHandle_spells {table : TableNumber} {tag rid : Nat}
    (htagged : (table, tag) ∈ typeTags) (hsmall : rid < 2 ^ 27) :
    SpellsHandle ⟨table, rid⟩ (encodeHandle tag rid) := by
  simp only [typeTags, List.mem_cons, Prod.mk.injEq, List.not_mem_nil, or_false] at htagged
  have htag : tag < 2 ^ 2 := by omega
  have hcoded : rid <<< 2 ||| tag = 4 * rid + tag := by
    rw [← Nat.shiftLeft_add_eq_or_of_lt htag, Nat.shiftLeft_eq, Nat.mul_comm]
  have hspelled : SpellsNumber (4 * rid + tag) (encodeHandle tag rid) := by
    rw [encodeHandle, hcoded]
    exact (encodeNumber_shortest (by omega)).1
  rcases htagged with ⟨rfl, rfl⟩ | ⟨rfl, rfl⟩ | ⟨rfl, rfl⟩
  · exact .typeDef hspelled
  · exact .typeRef hspelled
  · exact .typeSpec hspelled

/-! ### Bytes without a number -/

/-- The byte announces the form in its highest bits: `0`, `10` or `110`. -/
def NumberForm.AnnouncedBy (lead : UInt8) : NumberForm → Prop
  | oneByte => lead.toNat < 0x80
  | twoBytes => 0x80 ≤ lead.toNat ∧ lead.toNat < 0xC0
  | fourBytes => 0xC0 ≤ lead.toNat ∧ lead.toNat < 0xE0

/-- No number stands in front: bytes are missing, or the first announces no form. -/
inductive LacksNumber : List UInt8 → Prop
  | ended : LacksNumber []
  | cut {lead : UInt8} {rest : List UInt8} {form : NumberForm} (hannounced : form.AnnouncedBy lead)
      (hshort : (lead :: rest).length < form.size) : LacksNumber (lead :: rest)
  | badLead {lead : UInt8} {rest : List UInt8} (hlarge : 0xE0 ≤ lead.toNat) :
      LacksNumber (lead :: rest)

theorem NumberForm.exists_announcedBy {lead : UInt8} (hsmall : lead.toNat < 0xE0) :
    ∃ form : NumberForm, form.AnnouncedBy lead := by
  by_cases hone : lead.toNat < 0x80
  · exact ⟨.oneByte, hone⟩
  · by_cases htwo : lead.toNat < 0xC0
    · exact ⟨.twoBytes, Nat.le_of_not_lt hone, htwo⟩
    · exact ⟨.fourBytes, Nat.le_of_not_lt htwo, hsmall⟩

theorem NumberForm.AnnouncedBy.small {form : NumberForm} {lead : UInt8}
    (hannounced : form.AnnouncedBy lead) : lead.toNat < 0xE0 := by
  cases form <;> simp only [AnnouncedBy] at hannounced <;> omega

theorem NumberForm.AnnouncedBy.unique {form form' : NumberForm} {lead : UInt8}
    (hannounced : form.AnnouncedBy lead) (hannounced' : form'.AnnouncedBy lead) : form = form' := by
  cases form <;> cases form' <;>
    simp only [AnnouncedBy, reduceCtorEq] at hannounced hannounced' ⊢ <;> omega

/-- A spelling starts with a byte that announces its form. -/
theorem NumberForm.exists_lead_spell (form : NumberForm) {n : Nat}
    (hfits : n < Nat.pow 2 form.bits) :
    ∃ lead rest, form.spell n = lead :: rest ∧ form.AnnouncedBy lead := by
  cases form with
  | oneByte =>
    have hn : n < 0x80 := hfits
    refine ⟨_, _, rfl, ?_⟩
    rw [AnnouncedBy, Blob.toNat_toUInt8]
    omega
  | twoBytes =>
    have hn : n < 0x4000 := hfits
    refine ⟨_, _, rfl, ?_⟩
    rw [AnnouncedBy, Blob.toNat_toUInt8]
    omega
  | fourBytes =>
    have hn : n < 0x20000000 := hfits
    refine ⟨_, _, rfl, ?_⟩
    rw [AnnouncedBy, Blob.toNat_toUInt8]
    omega

/-- Enough bytes behind one that announces a form spell a number in that form. -/
theorem exists_spell_of_announcedBy {form : NumberForm} {lead : UInt8} {rest : List UInt8}
    (hannounced : form.AnnouncedBy lead) (henough : form.size ≤ (lead :: rest).length) :
    ∃ n after, n < Nat.pow 2 form.bits ∧ lead :: rest = form.spell n ++ after := by
  cases form with
  | oneByte => exact ⟨lead.toNat, rest, hannounced, by rw [Blob.spell_oneByte]; rfl⟩
  | twoBytes =>
    obtain ⟨hlarge, hsmall⟩ := hannounced
    obtain ⟨b, after, rfl⟩ : ∃ b after, rest = b :: after :=
      List.exists_cons_of_length_pos (Nat.le_of_succ_le_succ henough)
    have hb := b.toNat_lt
    refine ⟨lead.toNat % 0x80 * 0x100 + b.toNat, after, ?_, ?_⟩
    · show _ < 0x4000
      omega
    · rw [Blob.spell_twoBytes lead b hlarge (by omega)]
      rfl
  | fourBytes =>
    obtain ⟨hlarge, hsmall⟩ := hannounced
    have hlong : 3 ≤ rest.length := Nat.le_of_succ_le_succ henough
    obtain ⟨b, c, d, after, rfl⟩ : ∃ b c d after, rest = b :: c :: d :: after := by
      rcases rest with _ | ⟨b, _ | ⟨c, _ | ⟨d, after⟩⟩⟩
      · simp at hlong
      · simp at hlong
      · simp at hlong
      · exact ⟨b, c, d, after, rfl⟩
    have hb := b.toNat_lt
    have hc := c.toNat_lt
    have hd := d.toNat_lt
    have hspell := Blob.spell_fourBytes lead b c d (by omega) (by omega) (by omega) rfl
    refine ⟨_, after, ?_, by rw [hspell]; rfl⟩
    show _ < 0x20000000
    omega

end Signature

namespace Blob

open Signature

/-- Just the bytes that lack a number cannot be read. -/
theorem compressed?_eq_none_iff (bytes : List UInt8) :
    compressed? bytes = none ↔ LacksNumber bytes := by
  constructor
  · intro hunread
    cases bytes with
    | nil => exact .ended
    | cons lead rest =>
      by_cases hsmall : lead.toNat < 0xE0
      · obtain ⟨form, hannounced⟩ := NumberForm.exists_announcedBy hsmall
        refine .cut hannounced (Nat.lt_of_not_le fun henough => ?_)
        obtain ⟨n, after, hfits, hbytes⟩ := exists_spell_of_announcedBy hannounced henough
        rw [hbytes, compressed?_spell form hfits after] at hunread
        cases hunread
      · exact .badLead (Nat.le_of_not_lt hsmall)
  · intro hlacks
    by_contra hreadable
    obtain ⟨⟨n, size⟩, hread⟩ := Option.ne_none_iff_exists'.mp hreadable
    obtain ⟨form, hfits, -, after, rfl⟩ := spell_of_compressed? hread
    obtain ⟨lead, rest, hspell, hannounced⟩ := form.exists_lead_spell hfits
    have hlength := form.length_spell n
    rw [hspell] at hlacks hlength
    cases hlacks with
    | cut hannounced' hcut =>
      have hshort : (lead :: (rest ++ after)).length < _ := hcut
      rw [List.length_cons, List.length_append, ← hannounced.unique hannounced'] at hshort
      rw [List.length_cons] at hlength
      omega
    | badLead hlarge => exact absurd hannounced.small (Nat.not_lt_of_le hlarge)

/-! ### Reading wherever a number stands -/

/-- The reader of a whole blob after its first part. -/
def Reader.past (before ahead : List UInt8) : Reader :=
  (Reader.ofBytes (before ++ ahead)).advance before.length

theorem Reader.past_eq (before ahead : List UInt8) :
    Reader.past before ahead = ⟨before.length, ahead⟩ := by
  simp [past, ofBytes, advance]

/-- Between these parts of a blob the step reads the bytes as this value, and it
advances by as many as there are. -/
def Read.ReadsBetween {α : Type} (step : Read α) (before bytes after : List UInt8) (a : α) :
    Prop :=
  step (Reader.past before (bytes ++ after)) =
    .ok a ((Reader.past before (bytes ++ after)).advance bytes.length)

theorem Read.Accepts.readsBetween {α : Type} {step : Read α} {bytes : List UInt8} {a : α}
    (haccepts : step.Accepts bytes a) (before after : List UInt8) :
    step.ReadsBetween before bytes after a := by
  rw [ReadsBetween, Reader.past_eq, haccepts, Reader.advance, List.drop_left]

/-- A read of a number fails exactly where none stands, and does not move. -/
theorem readSized_error_iff {r r' : Reader} {fault : SignatureFault} :
    readSized r = .error fault r' ↔
      LacksNumber r.rest ∧ fault = .badInteger r.position ∧ r' = r := by
  rw [← compressed?_eq_none_iff]
  unfold readSized
  cases compressed? r.rest with
  | none => simp [eq_comm]
  | some sized => simp

/-- What is made of a number once it is read cannot fail. -/
theorem map_readSized_error_iff {α : Type} (f : Nat × Nat → α) {r r' : Reader}
    {fault : SignatureFault} :
    (do return f (← readSized) : Read α) r = .error fault r' ↔
      LacksNumber r.rest ∧ fault = .badInteger r.position ∧ r' = r := by
  rw [Outcome.run_bind_eq_error_iff, readSized_error_iff, or_iff_left]
  rintro ⟨a, r₁, -, hfailed⟩
  cases hfailed

theorem readUnsigned_error_iff {r r' : Reader} {fault : SignatureFault} :
    readUnsigned r = .error fault r' ↔
      LacksNumber r.rest ∧ fault = .badInteger r.position ∧ r' = r :=
  map_readSized_error_iff Prod.fst

theorem readSigned_error_iff {r r' : Reader} {fault : SignatureFault} :
    readSigned r = .error fault r' ↔
      LacksNumber r.rest ∧ fault = .badInteger r.position ∧ r' = r :=
  map_readSized_error_iff fun sized => unrotate (bitsOfSize sized.2) sized.1

/-- A coded handle fails as a number does, or behind its number for its tag. -/
theorem readTypeHandle_error_iff {r r' : Reader} {fault : SignatureFault} :
    readTypeHandle r = .error fault r' ↔
      (LacksNumber r.rest ∧ fault = .badInteger r.position ∧ r' = r) ∨
        ∃ coded, readUnsigned r = .ok coded r' ∧ coded % 4 = 3 ∧ fault = .badHandleTag 3 := by
  rw [readTypeHandle, Outcome.run_bind_eq_error_iff, readUnsigned_error_iff]
  refine or_congr_right ⟨?_, ?_⟩
  · rintro ⟨coded, r₁, hread, hfailed⟩
    cases hlisted : typeTables[coded % 4]? with
    | some table =>
      simp only [hlisted] at hfailed
      cases hfailed
    | none =>
      -- three tags name a table, and two bits hold one more
      have hlarge : 3 ≤ coded % 4 := List.getElem?_eq_none_iff.mp hlisted
      have htag : coded % 4 = 3 := by omega
      simp only [htag] at hfailed
      cases hfailed
      exact ⟨coded, hread, htag, rfl⟩
  · rintro ⟨coded, hread, htag, rfl⟩
    refine ⟨coded, r', hread, ?_⟩
    simp only [htag]
    rfl

/-- Compressed numbers and coded handles in their shortest form are read back
wherever they stand in a blob, by exactly their bytes.  Reading a number fails
just where bytes are missing or the first byte announces no form, and leaves the
reader in its place; a coded handle can fail besides for a tag that names no
table. -/
theorem compressed_encodings_read_back (before after : List UInt8) :
    (∀ n : Nat, n < 2 ^ 29 →
      Shortest (SpellsNumber n) (encodeNumber n) ∧
      (encodeNumber n).length = (if n < 2 ^ 7 then 1 else if n < 2 ^ 14 then 2 else 4) ∧
      readUnsigned.ReadsBetween before (encodeNumber n) after n) ∧
    (∀ z : Int, -2 ^ 28 ≤ z → z < 2 ^ 28 →
      Shortest (SpellsSigned z) (encodeSigned z) ∧
      (encodeSigned z).length =
        (if -2 ^ 6 ≤ z ∧ z < 2 ^ 6 then 1 else if -2 ^ 13 ≤ z ∧ z < 2 ^ 13 then 2 else 4) ∧
      readSigned.ReadsBetween before (encodeSigned z) after z) ∧
    (∀ table tag, (table, tag) ∈ typeTags → ∀ rid : Nat, rid < 2 ^ 27 →
      readTypeHandle.ReadsBetween before (encodeHandle tag rid) after ⟨table, rid⟩) ∧
    ∀ bytes fault r',
      (readUnsigned (Reader.past before bytes) = .error fault r' ↔
        LacksNumber bytes ∧ fault = .badInteger before.length ∧ r' = Reader.past before bytes) ∧
      (readSigned (Reader.past before bytes) = .error fault r' ↔
        LacksNumber bytes ∧ fault = .badInteger before.length ∧ r' = Reader.past before bytes) ∧
      (readTypeHandle (Reader.past before bytes) = .error fault r' ↔
        (LacksNumber bytes ∧ fault = .badInteger before.length ∧ r' = Reader.past before bytes) ∨
          ∃ coded, readUnsigned (Reader.past before bytes) = .ok coded r' ∧ coded % 4 = 3 ∧
            fault = .badHandleTag 3) := by
  refine ⟨?_, ?_, ?_, ?_⟩
  · intro n hsmall
    have hshortest := encodeNumber_shortest hsmall
    exact ⟨hshortest, length_encodeNumber n, (readUnsigned_accepts hshortest.1).readsBetween _ _⟩
  · intro z hleast hmost
    have hshortest := encodeSigned_shortest hleast hmost
    exact ⟨hshortest, length_encodeSigned z, (readSigned_accepts hshortest.1).readsBetween _ _⟩
  · intro table tag htagged rid hsmall
    exact (readTypeHandle_accepts (encodeHandle_spells htagged hsmall)).readsBetween _ _
  · intro bytes fault r'
    rw [Reader.past_eq]
    exact ⟨readUnsigned_error_iff, readSigned_error_iff, readTypeHandle_error_iff⟩

theorem widest_and_cut_numbers_read :
    readUnsigned ⟨1, [0xBF, 0xFF, 0x07]⟩ = .ok 0x3FFF ⟨3, [0x07]⟩ ∧
      readUnsigned ⟨1, [0xC0, 0x00, 0x40, 0x00, 0x07]⟩ = .ok 0x4000 ⟨5, [0x07]⟩ ∧
      readSigned ⟨1, [0x80, 0x01, 0x07]⟩ = .ok (-8192) ⟨3, [0x07]⟩ ∧
      readSigned ⟨1, [0xDF, 0xFF, 0xBF, 0xFF, 0x07]⟩ = .ok (-8193) ⟨5, [0x07]⟩ ∧
      readTypeHandle ⟨1, [0xDF, 0xFF, 0xFF, 0xFE, 0x07]⟩ =
        .ok ⟨TableNumber.typeSpec, 0x7FFFFFF⟩ ⟨5, [0x07]⟩ ∧
      readSigned ⟨1, [0xC0, 0x00]⟩ = .error (.badInteger 1) ⟨1, [0xC0, 0x00]⟩ := by
  obtain ⟨hunsigned, hsigned, hhandles, hfailures⟩ := compressed_encodings_read_back [0x2A] [0x07]
  refine ⟨?_, ?_, ?_, ?_, ?_, ?_⟩
  · exact (hunsigned 0x3FFF (by decide)).2.2
  · exact (hunsigned 0x4000 (by decide)).2.2
  · exact (hsigned (-8192) (by decide) (by decide)).2.2
  · exact (hsigned (-8193) (by decide) (by decide)).2.2
  · exact hhandles TableNumber.typeSpec 2 (by decide) 0x7FFFFFF (by decide)
  · have hannounced : NumberForm.fourBytes.AnnouncedBy 0xC0 := ⟨by decide, by decide⟩
    exact (hfailures [0xC0, 0x00] _ _).2.1.mpr ⟨.cut hannounced (by decide), rfl, rfl⟩

end Blob
end CilAtlas
