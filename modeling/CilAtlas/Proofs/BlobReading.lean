import CilAtlas.Blob.Reader
import CilAtlas.Proofs.SignatureGrammar
import Mathlib.Data.Nat.Bitwise

/-!
# What the blob readers accept

A step is described by a rule that says which bytes spell which values.  It is
sound when whatever it consumed spells what it returned, and it accepts a
spelling when it consumes just those bytes, whatever follows them.  Both are
stated with the bytes that follow left open, so that they pass through sequences
of steps.
-/

namespace CilAtlas
namespace Blob

open Signature

/-- The reader has moved from the first place to the second over these bytes. -/
structure Reader.Ahead (r : Reader) (front : List UInt8) (r' : Reader) : Prop where
  rest_eq : r.rest = front ++ r'.rest
  position_eq : r'.position = r.position + front.length

namespace Reader.Ahead

theorem refl (r : Reader) : r.Ahead [] r :=
  ⟨rfl, rfl⟩

theorem trans {r r' r'' : Reader} {front back : List UInt8} (hfirst : r.Ahead front r')
    (hsecond : r'.Ahead back r'') : r.Ahead (front ++ back) r'' := by
  constructor
  · rw [hfirst.rest_eq, hsecond.rest_eq, List.append_assoc]
  · rw [hsecond.position_eq, hfirst.position_eq, List.length_append, Nat.add_assoc]

theorem cons {r r' r'' : Reader} {b : UInt8} {back : List UInt8} (hfirst : r.Ahead [b] r')
    (hsecond : r'.Ahead back r'') : r.Ahead (b :: back) r'' :=
  hfirst.trans hsecond

/-- Where a reader ends follows from where it starts and what it passes. -/
theorem eq_of_start {position : Nat} {front rest : List UInt8} {r' : Reader}
    (hahead : Reader.Ahead ⟨position, front ++ rest⟩ front r') :
    r' = ⟨position + front.length, rest⟩ := by
  obtain ⟨position', rest'⟩ := r'
  have hrest : front ++ rest = front ++ rest' := hahead.rest_eq
  have hposition : position' = position + front.length := hahead.position_eq
  rw [List.append_cancel_left hrest, hposition]

end Reader.Ahead

namespace Read

variable {α β : Type}

/-- Whatever the step consumed spells what it returned. -/
def Sound (spells : α → List UInt8 → Prop) (step : Read α) : Prop :=
  ∀ r a r', step r = .ok a r' → ∃ front, r.Ahead front r' ∧ spells a front

/-- The step consumes these bytes and returns the value, whatever follows. -/
def Accepts (step : Read α) (front : List UInt8) (a : α) : Prop :=
  ∀ position rest, step ⟨position, front ++ rest⟩ = .ok a ⟨position + front.length, rest⟩

/-- The step reads exactly what the rule spells. -/
structure Reads (spells : α → List UInt8 → Prop) (step : Read α) : Prop where
  sound : Sound spells step
  accepts : ∀ {a front}, spells a front → step.Accepts front a

/-- A step that reads a rule succeeds just where a spelling lies ahead. -/
theorem Reads.ok_iff {spells : α → List UInt8 → Prop} {step : Read α} (hreads : Reads spells step)
    {r r' : Reader} {a : α} :
    step r = .ok a r' ↔ ∃ front, r.Ahead front r' ∧ spells a front := by
  constructor
  · exact hreads.sound r a r'
  · rintro ⟨front, hahead, hspelled⟩
    obtain ⟨position, bytes⟩ := r
    have hbytes : bytes = front ++ r'.rest := hahead.rest_eq
    subst hbytes
    rw [hahead.eq_of_start]
    exact hreads.accepts hspelled position r'.rest

/-- On a whole blob the bytes behind the spelling do not matter. -/
theorem Reads.run_ok_iff {spells : α → List UInt8 → Prop} {step : Read α}
    (hreads : Reads spells step) {blob : List UInt8} {a : α} :
    step.run blob = .ok a ↔ ∃ front rest, blob = front ++ rest ∧ spells a front := by
  constructor
  · intro h
    unfold Read.run at h
    split at h
    · next value r' hstep =>
      cases h
      obtain ⟨front, hahead, hspelled⟩ := hreads.ok_iff.mp hstep
      exact ⟨front, r'.rest, hahead.rest_eq, hspelled⟩
    · cases h
  · rintro ⟨front, rest, rfl, hspelled⟩
    have hstep := hreads.accepts hspelled 0 rest
    simp only [Read.run, Reader.ofBytes, hstep]

/-- Two spellings in front of the same bytes are one. -/
theorem Reads.unique {spells : α → List UInt8 → Prop} {step : Read α} (hreads : Reads spells step)
    {a a' : α} {front front' rest rest' : List UInt8} (hspelled : spells a front)
    (hspelled' : spells a' front') (hsame : front ++ rest = front' ++ rest') :
    a = a' ∧ front = front' := by
  -- one run of the step reads both
  have hfirst := hreads.accepts hspelled 0 rest
  have hsecond := hreads.accepts hspelled' 0 rest'
  rw [hsame, hsecond] at hfirst
  injection hfirst with hvalue hreader
  injection hreader with _ hrest
  rw [hrest] at hsame
  exact ⟨hvalue.symm, List.append_cancel_right hsame⟩

theorem bind_ok_iff {step : Read α} {next : α → Read β} {r r'' : Reader} {b : β} :
    (step >>= next) r = .ok b r'' ↔ ∃ a r', step r = .ok a r' ∧ next a r' = .ok b r'' := by
  show EStateM.bind step next r = .ok b r'' ↔ _
  unfold EStateM.bind
  cases step r with
  | ok a r' => simp
  | error fault r' => simp

theorem pure_ok_iff {r r' : Reader} {a b : α} :
    (pure a : Read α) r = .ok b r' ↔ a = b ∧ r = r' := by
  show EStateM.Result.ok a r = .ok b r' ↔ _
  simp

theorem accepts_pure (a : α) : (pure a : Read α).Accepts [] a := by
  intro position rest
  rfl

theorem Accepts.bind {step : Read α} {f : α → Read β} {front back : List UInt8} {a : α} {b : β}
    (hfirst : step.Accepts front a) (hsecond : (f a).Accepts back b) :
    (step >>= f).Accepts (front ++ back) b := by
  intro position rest
  rw [bind_ok_iff]
  refine ⟨a, ⟨position + front.length, back ++ rest⟩, ?_, ?_⟩
  · rw [List.append_assoc]
    exact hfirst position (back ++ rest)
  · rw [hsecond, List.length_append, Nat.add_assoc]

/-- The last step of a sequence only puts values together. -/
theorem Accepts.map {step : Read α} {front : List UInt8} {a : α} (f : α → β)
    (hfirst : step.Accepts front a) : (do return f (← step)).Accepts front (f a) := by
  have h := hfirst.bind (f := fun a => pure (f a)) (accepts_pure (f a))
  rwa [List.append_nil] at h

/-- The first step of a sequence that succeeded, with what it spells. -/
theorem Sound.bind_ok {step : Read α} {spells : α → List UInt8 → Prop} {f : α → Read β}
    {r r'' : Reader} {b : β} (hsound : Sound spells step) (h : (step >>= f) r = .ok b r'') :
    ∃ a front r', r.Ahead front r' ∧ spells a front ∧ f a r' = .ok b r'' := by
  obtain ⟨a, r', hstep, hnext⟩ := bind_ok_iff.mp h
  obtain ⟨front, hahead, hspelled⟩ := hsound r a r' hstep
  exact ⟨a, front, r', hahead, hspelled, hnext⟩

theorem Sound.map {step : Read α} {spells : α → List UInt8 → Prop}
    {spells' : β → List UInt8 → Prop} (f : α → β) (hsound : Sound spells step)
    (hkeeps : ∀ a front, spells a front → spells' (f a) front) :
    Sound spells' (do return f (← step)) := by
  intro r b r' h
  obtain ⟨a, front, r₁, hahead, hspelled, hpure⟩ := hsound.bind_ok h
  obtain ⟨rfl, rfl⟩ := pure_ok_iff.mp hpure
  exact ⟨front, hahead, hkeeps a front hspelled⟩

end Read

variable {α β : Type}

theorem readByte_sound : Read.Sound (fun b front => front = [b]) readByte := by
  intro r b r' h
  obtain ⟨position, bytes⟩ := r
  cases bytes with
  | nil => cases h
  | cons first rest =>
    cases h
    exact ⟨[b], ⟨rfl, rfl⟩, rfl⟩

theorem readByte_accepts (b : UInt8) : readByte.Accepts [b] b := by
  intro position rest
  rfl

/-- Looking at the next byte leaves the reader in its place. -/
theorem peekByte_bind_ok_iff {f : UInt8 → Read β} {r r' : Reader} {b : β} :
    (peekByte >>= f) r = .ok b r' ↔ ∃ first, r.rest.head? = some first ∧ f first r = .ok b r' := by
  rw [Read.bind_ok_iff]
  obtain ⟨position, bytes⟩ := r
  cases bytes with
  | nil => simp [peekByte]
  | cons first rest =>
    simp only [peekByte, EStateM.Result.ok.injEq, List.head?_cons, Option.some.injEq]
    constructor
    · rintro ⟨_, _, ⟨rfl, rfl⟩, h⟩
      exact ⟨_, rfl, h⟩
    · rintro ⟨_, rfl, h⟩
      exact ⟨_, _, ⟨rfl, rfl⟩, h⟩

/-! ### Bits of the first byte of a number -/

theorem and_bit_eq_zero_iff (a : UInt8) (bit : Nat) (hinside : bit < 8) :
    a &&& (UInt8.ofNat (2 ^ bit)) = 0 ↔ a.toNat / 2 ^ bit % 2 = 0 := by
  have hsmall : 2 ^ bit < 2 ^ 8 := Nat.pow_lt_pow_right (by decide) hinside
  rw [← UInt8.toNat_inj, UInt8.toNat_and, UInt8.toNat_ofNat', Nat.mod_eq_of_lt hsmall,
    Nat.and_two_pow, Nat.testBit_eq_decide_div_mod_eq]
  by_cases hset : a.toNat / 2 ^ bit % 2 = 1
  · simp [hset]
  · have hclear : a.toNat / 2 ^ bit % 2 = 0 := by omega
    simp [hclear]

theorem and_0x40_eq_zero_iff (a : UInt8) : a &&& 0x40 = 0 ↔ a.toNat / 0x40 % 2 = 0 :=
  and_bit_eq_zero_iff a 6 (by decide)

theorem and_0x20_eq_zero_iff (a : UInt8) : a &&& 0x20 = 0 ↔ a.toNat / 0x20 % 2 = 0 :=
  and_bit_eq_zero_iff a 5 (by decide)

theorem toNat_and_0x7F (a : UInt8) : (a &&& 0x7F).toNat = a.toNat % 0x80 := by
  rw [UInt8.toNat_and]
  exact Nat.and_two_pow_sub_one_eq_mod a.toNat 7

theorem toNat_and_0x3F (a : UInt8) : (a &&& 0x3F).toNat = a.toNat % 0x40 := by
  rw [UInt8.toNat_and]
  exact Nat.and_two_pow_sub_one_eq_mod a.toNat 6

/-! ### Compressed numbers -/

theorem toNat_toUInt8 (n : Nat) : n.toUInt8.toNat = n % 0x100 :=
  UInt8.toNat_ofNat'

theorem toUInt8_of_toNat {a : UInt8} {n : Nat} (h : a.toNat = n % 0x100) : n.toUInt8 = a := by
  apply UInt8.toNat_inj.mp
  rw [toNat_toUInt8, h]

/-- The number in front of a spelling is the number spelled. -/
theorem compressed?_spell (form : NumberForm) {n : Nat} (hfits : n < Nat.pow 2 form.bits)
    (rest : List UInt8) :
    compressed? (form.spell n ++ rest) = some (n, (form.spell n).length) := by
  cases form with
  | oneByte =>
    have hn : n < 0x80 := hfits
    have hvalue : n.toUInt8.toNat = n := by rw [toNat_toUInt8]; omega
    have hsmall : n.toUInt8 < 0x80 := by rw [UInt8.lt_iff_toNat_lt, hvalue]; exact hn
    cases rest with
    | nil => simp [NumberForm.spell, compressed?, hsmall, hvalue]
    | cons b rest => simp [NumberForm.spell, compressed?, hsmall, hvalue]
  | twoBytes =>
    have hn : n < 0x4000 := hfits
    have hlead : (0x80 + n / 0x100).toUInt8.toNat = 0x80 + n / 0x100 := by
      rw [toNat_toUInt8]; omega
    have hlarge : ¬ (0x80 + n / 0x100).toUInt8 < 0x80 := by
      rw [UInt8.lt_iff_toNat_lt, hlead]
      show ¬ _ < 0x80
      omega
    have hmark : (0x80 + n / 0x100).toUInt8 &&& 0x40 = 0 := by
      rw [and_0x40_eq_zero_iff, hlead]; omega
    have hvalue : ((0x80 + n / 0x100).toUInt8 &&& 0x7F).toNat * 0x100 + n.toUInt8.toNat = n := by
      rw [toNat_and_0x7F, hlead, toNat_toUInt8]; omega
    simp only [NumberForm.spell, List.cons_append, List.nil_append, compressed?]
    rw [if_neg hlarge, if_pos hmark, hvalue]
    rfl
  | fourBytes =>
    have hn : n < 0x20000000 := hfits
    have hlead : (0xC0 + n / 0x1000000).toUInt8.toNat = 0xC0 + n / 0x1000000 := by
      rw [toNat_toUInt8]; omega
    have hlarge : ¬ (0xC0 + n / 0x1000000).toUInt8 < 0x80 := by
      rw [UInt8.lt_iff_toNat_lt, hlead]
      show ¬ _ < 0x80
      omega
    have hmark : ¬ (0xC0 + n / 0x1000000).toUInt8 &&& 0x40 = 0 := by
      rw [and_0x40_eq_zero_iff, hlead]; omega
    have hmark' : (0xC0 + n / 0x1000000).toUInt8 &&& 0x20 = 0 := by
      rw [and_0x20_eq_zero_iff, hlead]; omega
    have hvalue : ((((0xC0 + n / 0x1000000).toUInt8 &&& 0x3F).toNat * 0x100 +
        (n / 0x10000).toUInt8.toNat) * 0x100 + (n / 0x100).toUInt8.toNat) * 0x100 +
        n.toUInt8.toNat = n := by
      rw [toNat_and_0x3F, hlead, toNat_toUInt8, toNat_toUInt8, toNat_toUInt8]; omega
    simp only [NumberForm.spell, List.cons_append, List.nil_append, compressed?]
    rw [if_neg hlarge, if_neg hmark, if_pos hmark', hvalue]
    rfl

/-- Two bytes, the first marked `10`, spell the number of their other bits. -/
theorem spell_twoBytes (a b : UInt8) (hlarge : 0x80 ≤ a.toNat) (hclear : a.toNat / 0x40 % 2 = 0) :
    NumberForm.twoBytes.spell (a.toNat % 0x80 * 0x100 + b.toNat) = [a, b] := by
  have ha := a.toNat_lt
  have hb := b.toNat_lt
  have hfirst : (0x80 + (a.toNat % 0x80 * 0x100 + b.toNat) / 0x100).toUInt8 = a :=
    toUInt8_of_toNat (by omega)
  have hsecond : (a.toNat % 0x80 * 0x100 + b.toNat).toUInt8 = b := toUInt8_of_toNat (by omega)
  rw [NumberForm.spell, hfirst, hsecond]

/-- Four bytes, the first marked `110`, spell the number of their other bits. -/
theorem spell_fourBytes (a b c d : UInt8) (hlarge : 0x80 ≤ a.toNat)
    (hset : ¬ a.toNat / 0x40 % 2 = 0) (hclear : a.toNat / 0x20 % 2 = 0) {n : Nat}
    (hvalue : ((a.toNat % 0x40 * 0x100 + b.toNat) * 0x100 + c.toNat) * 0x100 + d.toNat = n) :
    NumberForm.fourBytes.spell n = [a, b, c, d] := by
  have ha := a.toNat_lt
  have hb := b.toNat_lt
  have hc := c.toNat_lt
  have hd := d.toNat_lt
  have hfirst : (0xC0 + n / 0x1000000).toUInt8 = a := toUInt8_of_toNat (by omega)
  have hsecond : (n / 0x10000).toUInt8 = b := toUInt8_of_toNat (by omega)
  have hthird : (n / 0x100).toUInt8 = c := toUInt8_of_toNat (by omega)
  have hfourth : n.toUInt8 = d := toUInt8_of_toNat (by omega)
  rw [NumberForm.spell, hfirst, hsecond, hthird, hfourth]

theorem spell_oneByte (a : UInt8) : NumberForm.oneByte.spell a.toNat = [a] := by
  simp [NumberForm.spell]

/-- Only a spelling of a number has that number in front. -/
theorem spell_of_compressed? {bytes : List UInt8} {n size : Nat}
    (h : compressed? bytes = some (n, size)) :
    ∃ form : NumberForm, n < Nat.pow 2 form.bits ∧ size = (form.spell n).length ∧
      ∃ rest, bytes = form.spell n ++ rest := by
  -- the highest bits of the first byte decide between the forms
  unfold compressed? at h
  split at h
  · cases h
  · next a =>
    split at h
    · next hsmall =>
      cases h
      exact ⟨.oneByte, UInt8.lt_iff_toNat_lt.mp hsmall, rfl, [], by rw [spell_oneByte]; rfl⟩
    · cases h
  · next a b rest =>
    have hb := b.toNat_lt
    split at h
    · next hsmall =>
      cases h
      exact ⟨.oneByte, UInt8.lt_iff_toNat_lt.mp hsmall, rfl, b :: rest,
        by rw [spell_oneByte]; rfl⟩
    · next hlarge =>
      have hlead : 0x80 ≤ a.toNat := by
        rw [UInt8.lt_iff_toNat_lt] at hlarge
        exact Nat.le_of_not_lt hlarge
      split at h
      · next hmark =>
        cases h
        rw [toNat_and_0x7F]
        refine ⟨.twoBytes, ?_, rfl, rest, ?_⟩
        · rw [and_0x40_eq_zero_iff] at hmark
          show _ < 0x4000
          omega
        · rw [spell_twoBytes a b hlead ((and_0x40_eq_zero_iff a).mp hmark)]
          rfl
      · next hmark =>
        split at h
        · next c d tail =>
          have hc := c.toNat_lt
          have hd := d.toNat_lt
          split at h
          · next hmark' =>
            cases h
            rw [toNat_and_0x3F]
            rw [and_0x40_eq_zero_iff] at hmark
            rw [and_0x20_eq_zero_iff] at hmark'
            refine ⟨.fourBytes, ?_, rfl, tail, ?_⟩
            · show _ < 0x20000000
              omega
            · rw [spell_fourBytes a b c d hlead hmark hmark' rfl]
              rfl
          · cases h
        · cases h

/-- A number and the count of its bytes, in the form that spells it. -/
inductive SpellsSized : Nat × Nat → List UInt8 → Prop
  | intro (form : NumberForm) {n : Nat} (hfits : n < Nat.pow 2 form.bits) :
      SpellsSized (n, (form.spell n).length) (form.spell n)

theorem readSized_sound : Read.Sound SpellsSized readSized := by
  intro r a r' h
  unfold readSized at h
  split at h
  · cases h
  · next n size hfront =>
    obtain ⟨form, hfits, hsize, rest, hbytes⟩ := spell_of_compressed? hfront
    cases h
    subst hsize
    refine ⟨form.spell n, ⟨?_, rfl⟩, .intro form hfits⟩
    show r.rest = form.spell n ++ r.rest.drop (form.spell n).length
    rw [hbytes, List.drop_left]

theorem readSized_accepts (form : NumberForm) {n : Nat} (hfits : n < Nat.pow 2 form.bits) :
    readSized.Accepts (form.spell n) (n, (form.spell n).length) := by
  intro position rest
  simp only [readSized, compressed?_spell form hfits rest, Reader.advance, List.drop_left]

theorem readUnsigned_sound : Read.Sound SpellsNumber readUnsigned := by
  refine readSized_sound.map _ ?_
  rintro _ _ ⟨form, hfits⟩
  exact .intro form hfits

theorem readUnsigned_accepts {n : Nat} {bytes : List UInt8} (hspelled : SpellsNumber n bytes) :
    readUnsigned.Accepts bytes n := by
  obtain ⟨form, hfits⟩ := hspelled
  exact (readSized_accepts form hfits).map _

/-! ### Signed numbers -/

theorem bitsOfSize_spell (form : NumberForm) (n : Nat) :
    bitsOfSize (form.spell n).length = form.bits := by
  cases form <;> rfl

/-- Both halves of the signed range come back from the rotation. -/
theorem unrotate_rotated (form : NumberForm) {z : Int}
    (hleast : -(Nat.pow 2 (form.bits - 1) : Int) ≤ z) :
    unrotate form.bits (form.rotated z) = z := by
  unfold NumberForm.rotated
  split
  · next hnonneg =>
    have heven : (2 * z).toNat % 2 = 0 := by omega
    rw [unrotate, if_neg (by omega)]
    omega
  · next hnegative =>
    have hodd : (2 * (z + Nat.pow 2 (form.bits - 1)) + 1).toNat % 2 = 1 := by omega
    rw [unrotate, if_pos hodd]
    omega

theorem rotated_lt (form : NumberForm) {z : Int} (hleast : -(Nat.pow 2 (form.bits - 1) : Int) ≤ z)
    (hmost : z < (Nat.pow 2 (form.bits - 1) : Int)) : form.rotated z < Nat.pow 2 form.bits := by
  have hdouble : Nat.pow 2 form.bits = 2 * Nat.pow 2 (form.bits - 1) := by cases form <;> rfl
  unfold NumberForm.rotated
  split
  · omega
  · omega

/-- Every number of the form's width is the rotation of a signed number. -/
theorem rotated_unrotate (form : NumberForm) {raw : Nat} (hfits : raw < Nat.pow 2 form.bits) :
    -(Nat.pow 2 (form.bits - 1) : Int) ≤ unrotate form.bits raw ∧
      unrotate form.bits raw < (Nat.pow 2 (form.bits - 1) : Int) ∧
      form.rotated (unrotate form.bits raw) = raw := by
  have hdouble : Nat.pow 2 form.bits = 2 * Nat.pow 2 (form.bits - 1) := by cases form <;> rfl
  unfold unrotate
  split
  · next hodd =>
    have hnegative : ¬ (0 : Int) ≤ (raw / 2 : Nat) - (Nat.pow 2 (form.bits - 1) : Nat) := by omega
    refine ⟨by omega, by omega, ?_⟩
    rw [NumberForm.rotated, if_neg hnegative]
    omega
  · next heven =>
    refine ⟨by omega, by omega, ?_⟩
    rw [NumberForm.rotated, if_pos (by omega)]
    omega

theorem readSigned_sound : Read.Sound SpellsSigned readSigned := by
  refine readSized_sound.map (fun sized => unrotate (bitsOfSize sized.2) sized.1) ?_
  rintro _ _ ⟨form, hfits⟩
  rename_i n
  show SpellsSigned (unrotate (bitsOfSize (form.spell n).length) n) _
  -- the reader knows the form only by the count of bytes, which is enough
  rw [bitsOfSize_spell]
  obtain ⟨hleast, hmost, hraw⟩ := rotated_unrotate form hfits
  have hspelled : SpellsSigned _ _ := .intro form hleast hmost
  rwa [hraw] at hspelled

theorem readSigned_accepts {z : Int} {bytes : List UInt8} (hspelled : SpellsSigned z bytes) :
    readSigned.Accepts bytes z := by
  obtain ⟨form, hleast, hmost⟩ := hspelled
  have hread := (readSized_accepts form (rotated_lt form hleast hmost)).map
    fun sized => unrotate (bitsOfSize sized.2) sized.1
  simp only [bitsOfSize_spell, unrotate_rotated form hleast] at hread
  exact hread

/-! ### Type handles -/

theorem readTypeHandle_sound : Read.Sound SpellsHandle readTypeHandle := by
  intro r h r' hread
  obtain ⟨coded, front, r₁, hahead, hspelled, hrest⟩ := readUnsigned_sound.bind_ok hread
  -- the tag is below four, and three is no table
  have htag : coded % 4 < 4 := Nat.mod_lt _ (by decide)
  have hsplit : 4 * (coded / 4) + coded % 4 = coded := Nat.div_add_mod coded 4
  generalize coded % 4 = tag at htag hsplit hrest
  generalize coded / 4 = rid at hsplit hrest
  rw [← hsplit] at hspelled
  match tag, htag with
  | 0, _ =>
    obtain ⟨rfl, rfl⟩ := Read.pure_ok_iff.mp hrest
    exact ⟨front, hahead, .typeDef hspelled⟩
  | 1, _ =>
    obtain ⟨rfl, rfl⟩ := Read.pure_ok_iff.mp hrest
    exact ⟨front, hahead, .typeRef hspelled⟩
  | 2, _ =>
    obtain ⟨rfl, rfl⟩ := Read.pure_ok_iff.mp hrest
    exact ⟨front, hahead, .typeSpec hspelled⟩
  | 3, _ => cases hrest

theorem readTypeHandle_accepts_coded {rid tag : Nat} {table : TableNumber} {bytes : List UInt8}
    (hlisted : typeTables[tag]? = some table) (hsmall : tag < 4)
    (hcoded : SpellsNumber (4 * rid + tag) bytes) : readTypeHandle.Accepts bytes ⟨table, rid⟩ := by
  intro position rest
  have htag : (4 * rid + tag) % 4 = tag := by omega
  have hrid : (4 * rid + tag) / 4 = rid := by omega
  rw [readTypeHandle, Read.bind_ok_iff]
  refine ⟨_, _, readUnsigned_accepts hcoded position rest, ?_⟩
  simp only [htag, hrid, hlisted]
  rfl

theorem readTypeHandle_accepts {h : Handle} {bytes : List UInt8} (hspelled : SpellsHandle h bytes) :
    readTypeHandle.Accepts bytes h := by
  cases hspelled with
  | typeDef hcoded =>
    have hlisted : typeTables[0]? = some TableNumber.typeDef := rfl
    exact readTypeHandle_accepts_coded hlisted (by decide) hcoded
  | typeRef hcoded => exact readTypeHandle_accepts_coded rfl (by decide) hcoded
  | typeSpec hcoded => exact readTypeHandle_accepts_coded rfl (by decide) hcoded

/-! ### Repeated steps -/

theorem repeatRead_sound {step : Read α} {spells : α → List UInt8 → Prop}
    (hsound : Read.Sound spells step) (count : Nat) :
    Read.Sound (fun as bytes => as.length = count ∧ SpellsEach spells as bytes)
      (repeatRead step count) := by
  induction count with
  | zero =>
    intro r as r' h
    obtain ⟨rfl, rfl⟩ := Read.pure_ok_iff.mp h
    exact ⟨[], .refl r, rfl, .nil⟩
  | succ count ih =>
    intro r as r' h
    obtain ⟨a, front, r₁, hahead, hspelled, h⟩ := hsound.bind_ok h
    obtain ⟨others, back, r₂, hahead', ⟨hlength, hspelled'⟩, h⟩ := ih.bind_ok h
    obtain ⟨rfl, rfl⟩ := Read.pure_ok_iff.mp h
    exact ⟨front ++ back, hahead.trans hahead', by rw [List.length_cons, hlength],
      .cons hspelled hspelled'⟩

/-- A repeated step accepts items that it accepts one by one. -/
theorem repeatRead_accepts {step : Read α} {spells : α → List UInt8 → Prop} {as : List α}
    {bytes : List UInt8} (hspelled : SpellsEach spells as bytes)
    (haccepts : ∀ a front, front.length ≤ bytes.length → spells a front → step.Accepts front a) :
    (repeatRead step as.length).Accepts bytes as := by
  induction hspelled with
  | nil => exact Read.accepts_pure []
  | @cons a others front back hfirst _ ih =>
    -- an item is never longer than the whole, which a step of limited depth relies on
    have hacceptsFirst : step.Accepts front a := by
      apply haccepts a front _ hfirst
      rw [List.length_append]
      omega
    have hacceptsOthers : (repeatRead step others.length).Accepts back others := by
      apply ih
      intro a' front' hle
      apply haccepts a' front'
      rw [List.length_append]
      omega
    exact hacceptsFirst.bind (hacceptsOthers.map _)

end Blob
end CilAtlas
