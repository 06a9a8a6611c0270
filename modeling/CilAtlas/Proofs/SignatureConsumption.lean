import CilAtlas.Proofs.SignatureText

/-!
# What the signature readers consume

A reader of signatures moves forward over its blob, whether it succeeds or fails,
and stays within it.  What it returns depends on the bytes that it has consumed:
on any blob that starts with them it returns the same, and on any blob that is a
proper part of them it fails.

The readers of types go down to a depth that is fixed when they start.  The depth
never plays a part: the reader satisfies the recursion without any bound, so no
fault of it stands for a bound that was reached.  A bound that a machine sets to
the depth of recursion is left out: where a reader ends in one, on a type that is
nested deeply enough, nothing is said about it here.
-/

namespace CilAtlas
namespace Blob

theorem Reader.Ahead.remaining_le {r r' : Reader} {front : List UInt8} (hahead : r.Ahead front r') :
    r'.remaining ≤ r.remaining := by
  rw [Reader.remaining, Reader.remaining, hahead.rest_eq, List.length_append]
  exact Nat.le_add_left _ _

namespace Read

variable {α β : Type} {limit : Nat}

/-- Where the reader stands after a step, successful or not. -/
def after (step : Read α) (r : Reader) : Reader :=
  match step r with
  | .ok _ r' => r'
  | .error _ r' => r'

/-- How many bytes of a blob a step has consumed when it ends. -/
def consumed (step : Read α) (blob : List UInt8) : Nat :=
  (step.after (Reader.ofBytes blob)).position

/-- The reader only moves over the bytes ahead of it, also when the step fails. -/
def Forward (step : Read α) : Prop :=
  ∀ r : Reader, ∃ front, r.Ahead front (step.after r)

/-- With at most `limit` bytes ahead the two steps do the same, and move forward. -/
def Tracks (limit : Nat) (step step' : Read α) : Prop :=
  ∀ r : Reader, r.remaining ≤ limit → step' r = step r ∧ ∃ front, r.Ahead front (step.after r)

theorem Forward.tracks {step : Read α} (hforward : step.Forward) : Tracks limit step step :=
  fun r _ => ⟨rfl, hforward r⟩

theorem forward_of_tracks {step : Read α} (htracks : ∀ limit, Tracks limit step step) :
    step.Forward :=
  fun r => (htracks r.remaining r (Nat.le_refl _)).2

/-! ### Sequences of steps -/

theorem forward_pure (a : α) : (pure a : Read α).Forward :=
  fun r => ⟨[], .refl r⟩

theorem forward_throw (fault : SignatureFault) : (throw fault : Read α).Forward :=
  fun r => ⟨[], .refl r⟩

theorem Tracks.bind {step step' : Read α} {f f' : α → Read β} (hfirst : Tracks limit step step')
    (hlater : ∀ a, Tracks limit (f a) (f' a)) : Tracks limit (step >>= f) (step' >>= f') := by
  intro r hwithin
  obtain ⟨hsame, front, hahead⟩ := hfirst r hwithin
  rw [after] at hahead
  cases hstep : step r with
  | error fault r' =>
    -- a step that fails has still moved, and nothing follows it
    rw [hstep] at hsame hahead
    rw [after, Outcome.run_bind_of_error hstep, Outcome.run_bind_of_error hsame]
    exact ⟨rfl, front, hahead⟩
  | ok a r' =>
    rw [hstep] at hsame hahead
    have hshorter : r'.remaining ≤ limit := Nat.le_trans hahead.remaining_le hwithin
    obtain ⟨hsame', front', hahead'⟩ := hlater a r' hshorter
    rw [after, Outcome.run_bind_of_ok hstep, Outcome.run_bind_of_ok hsame]
    exact ⟨hsame', _, hahead.trans hahead'⟩

theorem Tracks.map {step step' : Read α} (f : α → β) (htracks : Tracks limit step step') :
    Tracks limit (do return f (← step)) (do return f (← step')) :=
  htracks.bind fun a => (forward_pure (f a)).tracks

theorem Forward.bind {step : Read α} {f : α → Read β} (hfirst : step.Forward)
    (hlater : ∀ a, (f a).Forward) : (step >>= f).Forward :=
  forward_of_tracks fun _ => hfirst.tracks.bind fun a => (hlater a).tracks

/-- A step that moves forward when it succeeds and does not move when it fails. -/
theorem forward_of_sound {step : Read α} {spells : α → List UInt8 → Prop}
    (hsound : Sound spells step)
    (hstays : ∀ r fault r', step r = .error fault r' → r' = r) : step.Forward := by
  intro r
  rw [after]
  cases hstep : step r with
  | ok a r' =>
    obtain ⟨front, hahead, -⟩ := hsound r a r' hstep
    exact ⟨front, hahead⟩
  | error fault r' =>
    rw [hstays r fault r' hstep]
    exact ⟨[], .refl r⟩

end Read

open Read

variable {α β : Type} {limit : Nat}

/-! ### Bytes and numbers -/

theorem readByte_forward : readByte.Forward := by
  refine forward_of_sound readByte_sound ?_
  rintro ⟨position, bytes⟩ fault r' h
  cases bytes with
  | nil =>
    cases h
    rfl
  | cons first rest => cases h

/-- Behind a byte there is one byte less ahead. -/
theorem Read.Tracks.afterByte {f f' : UInt8 → Read β} (hlater : ∀ b, Tracks limit (f b) (f' b)) :
    Tracks (limit + 1) (readByte >>= f) (readByte >>= f') := by
  rintro ⟨position, bytes⟩ hwithin
  cases bytes with
  | nil => exact ⟨rfl, [], .refl _⟩
  | cons first rest =>
    have hbyte : readByte ⟨position, first :: rest⟩ = .ok first ⟨position + 1, rest⟩ := rfl
    obtain ⟨hsame, front, hahead⟩ :=
      hlater first ⟨position + 1, rest⟩ (Nat.le_of_succ_le_succ hwithin)
    have hpassed : Reader.Ahead ⟨position, first :: rest⟩ [first] ⟨position + 1, rest⟩ := ⟨rfl, rfl⟩
    rw [after, Outcome.run_bind_of_ok hbyte, Outcome.run_bind_of_ok hbyte]
    exact ⟨hsame, _, hpassed.trans hahead⟩

/-- With nothing ahead no byte is read, so what would follow does not matter. -/
theorem tracks_byte_at_end (f f' : UInt8 → Read β) :
    Tracks 0 (readByte >>= f) (readByte >>= f') := by
  rintro ⟨position, bytes⟩ hwithin
  cases bytes with
  | nil => exact ⟨rfl, [], .refl _⟩
  | cons first rest => cases hwithin

theorem peekByte_forward : peekByte.Forward := by
  rintro ⟨position, bytes⟩
  cases bytes with
  | nil => exact ⟨[], .refl _⟩
  | cons first rest => exact ⟨[], .refl _⟩

theorem readSized_forward : readSized.Forward := by
  refine forward_of_sound readSized_sound ?_
  intro r fault r' h
  unfold readSized at h
  split at h
  · cases h
    rfl
  · cases h

theorem readUnsigned_forward : readUnsigned.Forward :=
  readSized_forward.bind fun sized => forward_pure sized.1

theorem readSigned_forward : readSigned.Forward :=
  readSized_forward.bind fun sized => forward_pure (unrotate (bitsOfSize sized.2) sized.1)

theorem readTypeHandle_forward : readTypeHandle.Forward := by
  refine readUnsigned_forward.bind fun coded => ?_
  split
  · exact forward_pure _
  · exact forward_throw _

theorem Read.Tracks.repeatRead {step step' : Read α} (htracks : Tracks limit step step')
    (count : Nat) : Tracks limit (repeatRead step count) (repeatRead step' count) := by
  induction count with
  | zero => exact (forward_pure []).tracks
  | succ count ih => exact htracks.bind fun a => ih.map (a :: ·)

end Blob

namespace Signature

open Blob Read

variable {limit : Nat} {inner inner' : Read Ty}

/-! ### One level of a type -/

theorem skipSentinels_forward : skipSentinels.Forward :=
  forward_of_sound skipSentinels_sound nofun

theorem readArity_forward (header : UInt8) : (readArity header).Forward := by
  unfold readArity
  split
  · exact forward_pure 0
  · exact readUnsigned_forward

theorem methodStep_tracks (htracks : Tracks limit inner inner') :
    Tracks limit (methodStep inner) (methodStep inner') := by
  rw [methodStep_eq, methodStep_eq]
  refine readByte_forward.tracks.bind fun header => ?_
  refine (readArity_forward header).tracks.bind fun arity => ?_
  refine readUnsigned_forward.tracks.bind fun count => ?_
  refine htracks.bind fun result => ?_
  exact ((skipSentinels_forward.tracks.bind fun _ => htracks).repeatRead count).map _

theorem instanceStep_tracks (htracks : Tracks limit inner inner') :
    Tracks limit (instanceStep inner) (instanceStep inner') := by
  refine readByte_forward.tracks.bind fun kindByte => ?_
  cases namedKind? kindByte with
  | none => exact (forward_throw _).tracks
  | some kind =>
    refine readTypeHandle_forward.tracks.bind fun type => ?_
    refine readUnsigned_forward.tracks.bind fun count => ?_
    exact (htracks.repeatRead count).map _

theorem arrayStep_tracks (htracks : Tracks limit inner inner') :
    Tracks limit (arrayStep inner) (arrayStep inner') := by
  refine htracks.bind fun element => ?_
  refine readUnsigned_forward.tracks.bind fun rank => ?_
  refine readUnsigned_forward.tracks.bind fun sizeCount => ?_
  refine (readUnsigned_forward.tracks.repeatRead sizeCount).bind fun sizes => ?_
  refine readUnsigned_forward.tracks.bind fun boundCount => ?_
  exact (readSigned_forward.tracks.repeatRead boundCount).map _

theorem elementStep_tracks (htracks : Tracks limit inner inner') (e : Element) :
    Tracks limit (elementStep inner e) (elementStep inner' e) := by
  cases e with
  | primitive type => exact (forward_pure _).tracks
  | valueType => exact readTypeHandle_forward.tracks.map _
  | classType => exact readTypeHandle_forward.tracks.map _
  | vector => exact htracks.map _
  | pointer => exact htracks.map _
  | byRef => exact htracks.map _
  | pinned => exact htracks.map _
  | typeVariable => exact readUnsigned_forward.tracks.map _
  | methodVariable => exact readUnsigned_forward.tracks.map _
  | genericInstance => exact instanceStep_tracks htracks
  | array => exact arrayStep_tracks htracks
  | function => exact (methodStep_tracks htracks).map _
  | requiredModifier => exact readTypeHandle_forward.tracks.bind fun _ => htracks.map _
  | optionalModifier => exact readTypeHandle_forward.tracks.bind fun _ => htracks.map _

/-- A level reads its first byte before it reads a type inside it. -/
theorem typeStep_tracks (htracks : Tracks limit inner inner') :
    Tracks (limit + 1) (typeStep inner) (typeStep inner') := by
  rw [typeStep_eq, typeStep_eq]
  refine Tracks.afterByte fun b => ?_
  cases Element.ofByte? b with
  | none => exact (forward_throw _).tracks
  | some e => exact elementStep_tracks htracks e

/-! ### All levels -/

/-- Depths beyond the number of bytes ahead are all the same. -/
theorem readTypeUpTo_tracks {limit depth depth' : Nat} (henough : limit < depth)
    (henough' : limit < depth') : Tracks limit (readTypeUpTo depth) (readTypeUpTo depth') := by
  -- on the bytes ahead, not on the depth: both depths go down by one as a byte is read
  induction limit generalizing depth depth' with
  | zero =>
    obtain ⟨d, rfl⟩ := Nat.exists_eq_succ_of_ne_zero (Nat.ne_of_gt henough)
    obtain ⟨d', rfl⟩ := Nat.exists_eq_succ_of_ne_zero (Nat.ne_of_gt henough')
    show Tracks 0 (typeStep _) (typeStep _)
    rw [typeStep_eq, typeStep_eq]
    exact tracks_byte_at_end _ _
  | succ limit ih =>
    obtain ⟨d, rfl⟩ := Nat.exists_eq_succ_of_ne_zero (Nat.ne_of_gt (Nat.zero_lt_of_lt henough))
    obtain ⟨d', rfl⟩ := Nat.exists_eq_succ_of_ne_zero (Nat.ne_of_gt (Nat.zero_lt_of_lt henough'))
    exact typeStep_tracks (ih (Nat.lt_of_succ_lt_succ henough) (Nat.lt_of_succ_lt_succ henough'))

theorem readType_tracks (limit : Nat) : Tracks limit (readTypeUpTo (limit + 1)) readType := by
  intro r hwithin
  exact readTypeUpTo_tracks (Nat.lt_succ_of_le hwithin) (Nat.lt_succ_self r.remaining) r
    (Nat.le_refl _)

theorem readType_forward : readType.Forward := by
  intro r
  obtain ⟨hsame, hmoves⟩ := readType_tracks r.remaining r (Nat.le_refl _)
  rwa [after, ← hsame] at hmoves

/-- The reader of types is the recursion without a bound. -/
theorem readType_eq_typeStep : readType = typeStep readType := by
  funext r
  -- both sides read down to a depth of their own, and both depths are enough
  have hlevel := (typeStep_tracks (readType_tracks r.remaining) r (Nat.le_succ _)).1
  have hdeeper := (readType_tracks (r.remaining + 1) r (Nat.le_succ _)).1
  exact hdeeper.trans hlevel.symm

/-- So is the reader of methods. -/
theorem readMethod_eq_methodStep : readMethod = methodStep readType := by
  funext r
  exact (methodStep_tracks (readType_tracks r.remaining) r (Nat.le_refl _)).1.symm

/-- A type takes at least one byte. -/
theorem position_lt_of_readType {r r' : Reader} {t : Ty} (h : readType r = .ok t r') :
    r.position < r'.position := by
  obtain ⟨front, hahead, hspelled⟩ := readType_reads.sound r t r' h
  obtain ⟨b, hfirst, -⟩ := hspelled.exists_head
  cases front with
  | nil => cases hfirst
  | cons b' rest =>
    rw [hahead.position_eq, List.length_cons]
    omega

/-! ### Whole signatures -/

theorem readMethod_forward : readMethod.Forward := by
  rw [readMethod_eq_methodStep]
  exact forward_of_tracks fun _ => methodStep_tracks readType_forward.tracks

theorem readMethodSignature_forward : readMethodSignature.Forward := by
  refine peekByte_forward.bind fun header => ?_
  split
  · exact readMethod_forward
  · exact forward_throw _

theorem readFieldSignature_forward : readFieldSignature.Forward := by
  refine readByte_forward.bind fun header => ?_
  split
  · exact readType_forward
  · exact forward_throw _

theorem readArguments_forward (count : Nat) : (repeatRead readType count).Forward :=
  forward_of_tracks fun _ => readType_forward.tracks.repeatRead count

theorem readMethodInstance_forward : readMethodInstance.Forward := by
  refine readByte_forward.bind fun header => ?_
  split
  · exact readUnsigned_forward.bind readArguments_forward
  · exact forward_throw _

theorem skipModifiersUpTo_forward (limit : Nat) : (skipModifiersUpTo limit).Forward := by
  induction limit with
  | zero => exact forward_pure ()
  | succ limit ih =>
    rw [skipModifiersUpTo_succ]
    refine peekByte_forward.bind fun b => ?_
    split
    · exact readByte_forward.bind fun _ => readTypeHandle_forward.bind fun _ => ih
    · exact forward_pure ()

theorem readTypeInstance_forward : readTypeInstance.Forward := by
  have hskip : skipModifiers.Forward := fun r => skipModifiersUpTo_forward (r.remaining + 1) r
  rw [readTypeInstance_eq]
  refine hskip.bind fun _ => readByte_forward.bind fun element => ?_
  split
  · refine readByte_forward.bind fun kindByte => ?_
    split
    · exact readTypeHandle_forward.bind fun type => readUnsigned_forward.bind fun count =>
        (readArguments_forward count).bind fun arguments => forward_pure (type, arguments)
    · exact forward_throw _
  · exact forward_throw _

/-! ### Whole blobs -/

/-- A decoder of blobs looks at the bytes that its reader consumes and at no
others, and needs each of them. -/
structure Confines {α β : Type} (step : Read α) (decode : List UInt8 → Except SignatureFault β) :
    Prop where
  forward : step.Forward
  within : ∀ blob, step.consumed blob ≤ blob.length
  same : ∀ {blob blob' : List UInt8} {b : β}, decode blob = .ok b →
    blob'.take (step.consumed blob) = blob.take (step.consumed blob) →
      decode blob' = .ok b ∧ step.consumed blob' = step.consumed blob
  cut : ∀ {blob : List UInt8} {b : β} {count : Nat}, decode blob = .ok b →
    count < step.consumed blob → ∃ fault, decode (blob.take count) = .error fault

section Confinement

variable {α β : Type} {step : Read α} {spells : α → List UInt8 → Prop}

theorem consumed_le_length (hforward : step.Forward) (blob : List UInt8) :
    step.consumed blob ≤ blob.length := by
  obtain ⟨front, hahead⟩ := hforward (Reader.ofBytes blob)
  have hblob : blob = front ++ _ := hahead.rest_eq
  have hposition : step.consumed blob = 0 + front.length := hahead.position_eq
  have hlength := congrArg List.length hblob
  rw [List.length_append] at hlength
  omega

/-- A reader consumes what spells its value. -/
theorem consumed_of_spells (hreads : Reads spells step) {a : α} {front : List UInt8}
    (hspelled : spells a front) (rest : List UInt8) :
    step.consumed (front ++ rest) = front.length := by
  have hstep := hreads.accepts hspelled 0 rest
  rw [Read.consumed, Read.after, Reader.ofBytes, hstep]
  exact Nat.zero_add _

theorem confines_of_reads (hreads : Reads spells step) (hforward : step.Forward) (write : α → β) :
    Confines step fun blob => (step.run blob).map write where
  forward := hforward
  within := consumed_le_length hforward
  same {blob blob' b} hdecoded hagree := by
    obtain ⟨front, rest, a, rfl, hspelled, hb⟩ := (map_run_ok_iff hreads write).mp hdecoded
    rw [consumed_of_spells hreads hspelled, List.take_left] at hagree
    have hblob' : blob' = front ++ blob'.drop front.length := by
      conv_lhs => rw [← List.take_append_drop front.length blob', hagree]
    constructor
    · exact (map_run_ok_iff hreads write).mpr ⟨front, _, a, hblob', hspelled, hb⟩
    · rw [hblob', consumed_of_spells hreads hspelled, consumed_of_spells hreads hspelled]
  cut {blob b count} hdecoded hless := by
    obtain ⟨front, rest, a, rfl, hspelled, -⟩ := (map_run_ok_iff hreads write).mp hdecoded
    rw [consumed_of_spells hreads hspelled] at hless
    cases hcut : (step.run ((front ++ rest).take count)).map write with
    | error fault => exact ⟨fault, rfl⟩
    | ok b' =>
      -- a value read from the part would be spelled by fewer bytes of the same blob
      obtain ⟨front', rest', a', hpart, hspelled', -⟩ := (map_run_ok_iff hreads write).mp hcut
      have hwhole : front ++ rest = front' ++ (rest' ++ (front ++ rest).drop count) := by
        rw [← List.append_assoc, ← hpart, List.take_append_drop]
      have hshorter : front'.length ≤ count := by
        have hlength := congrArg List.length hpart
        simp only [List.length_take, List.length_append] at hlength
        omega
      obtain ⟨-, rfl⟩ := hreads.unique hspelled hspelled' hwhole
      omega

end Confinement

/-- Each decoder of signatures moves forward over its blob and stays within it,
also when it fails.  A result depends on the bytes consumed, on no byte behind
them, and on no fewer.  Every type takes a byte, and the readers of types and
methods satisfy their recursion with no bound on the depth, so each error is
about the format of the blob. -/
theorem decoders_confined_to_consumed_bytes (names : Naming) :
    Confines readMethodSignature names.decodeMethod ∧
    Confines readFieldSignature names.decodeField ∧
    Confines readType names.decodeType ∧
    Confines readTypeInstance names.decodeTypeInstance ∧
    Confines readMethodInstance names.decodeMethodInstance ∧
    (∀ r t r', readType r = .ok t r' → r.position < r'.position) ∧
    readType = typeStep readType ∧
    readMethod = methodStep readType :=
  ⟨confines_of_reads readMethodSignature_reads readMethodSignature_forward _,
    confines_of_reads readFieldSignature_reads readFieldSignature_forward _,
    confines_of_reads readType_reads readType_forward _,
    confines_of_reads readTypeInstance_reads readTypeInstance_forward _,
    confines_of_reads readMethodInstance_reads readMethodInstance_forward _,
    fun _ _ _ => position_lt_of_readType,
    readType_eq_typeStep,
    readMethod_eq_methodStep⟩

-- a vector of `int` takes two bytes, and the third is not looked at
example : readType.consumed [0x1D, 0x08, 0xFF] = 2 := by decide

end Signature
end CilAtlas
