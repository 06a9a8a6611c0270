import CilAtlas.Proofs.BlobReading
import CilAtlas.Proofs.Outcomes

/-!
# The signature readers accept exactly the grammar

The reader of types is tied together from one level that reads the types inside
it by a given step.  Each level is sound for the grammar when that step is, and
accepts what the grammar spells in one byte more than the step does.  Both facts
go through all levels by induction on the depth, and a type is never deeper than
it has bytes, so the depth at which `readType` starts is never reached.
-/

namespace CilAtlas
namespace Signature

open Blob

/-! ### Element bytes -/

theorem code_of_ofByte? {b : UInt8} {e : Element} (h : Element.ofByte? b = some e) :
    e.code = b := by
  have hfound := List.find?_some h
  exact of_decide_eq_true hfound

theorem ofByte?_code (e : Element) : Element.ofByte? e.code = some e := by
  cases e with
  | primitive type => cases type <;> rfl
  | _ => rfl

theorem primitiveTable_sound : ∀ entry ∈ primitiveTable,
    entry.2.1 = entry.1.code ∧ entry.1.name = lit entry.2.2 := by
  decide

theorem exists_mem_primitiveTable (type : Primitive) :
    ∃ name, (type, type.code, name) ∈ primitiveTable := by
  have hlisted : (type, type.code) ∈ primitiveTable.map fun entry => (entry.1, entry.2.1) := by
    cases type <;> decide
  obtain ⟨entry, hmem, heq⟩ := List.mem_map.mp hlisted
  obtain ⟨htype, hcode⟩ := Prod.mk.inj heq
  refine ⟨entry.2.2, ?_⟩
  rwa [← hcode, ← htype]

theorem namedKind?_eq_some_iff (b : UInt8) (kind : NamedKind) :
    namedKind? b = some kind ↔ SpellsKind kind b := by
  constructor
  · intro h
    unfold namedKind? at h
    split at h
    · next helement =>
      cases h
      rw [← code_of_ofByte? helement]
      exact .valueType
    · next helement =>
      cases h
      rw [← code_of_ofByte? helement]
      exact .classType
    · cases h
  · intro h
    cases h with
    | valueType => rfl
    | classType => rfl

/-! ### Parameters behind sentinels -/

/-- The sentinels in front of bytes, and the rest, which starts with none. -/
theorem split_sentinels (bytes : List UInt8) :
    ∃ n tail, bytes = List.replicate n 0x41 ++ tail ∧
      (bytes.takeWhile (· = sentinel)).length = n ∧ tail.head? ≠ some 0x41 := by
  induction bytes with
  | nil => exact ⟨0, [], rfl, rfl, by simp⟩
  | cons b rest ih =>
    by_cases hb : b = 0x41
    · obtain ⟨n, tail, hrest, hcount, hhead⟩ := ih
      refine ⟨n + 1, tail, ?_, ?_, hhead⟩
      · rw [hb, List.replicate_succ, List.cons_append, ← hrest]
      · rw [List.takeWhile_cons_of_pos (by simp [hb, sentinel]), List.length_cons, hcount]
    · refine ⟨0, b :: rest, rfl, ?_, ?_⟩
      · rw [List.takeWhile_cons_of_neg (by simp [hb, sentinel])]
        rfl
      · simpa using hb

theorem takeWhile_sentinel_length (n : Nat) {tail : List UInt8} (hhead : tail.head? ≠ some 0x41) :
    ((List.replicate n 0x41 ++ tail).takeWhile (· = sentinel)).length = n := by
  induction n with
  | zero =>
    cases tail with
    | nil => rfl
    | cons b rest =>
      have hb : b ≠ 0x41 := by simpa using hhead
      rw [List.replicate_zero, List.nil_append,
        List.takeWhile_cons_of_neg (by simp [hb, sentinel])]
      rfl
  | succ n ih =>
    rw [List.replicate_succ, List.cons_append, List.takeWhile_cons_of_pos (by simp [sentinel]),
      List.length_cons, ih]

theorem skipSentinels_sound :
    Read.Sound (fun _ bytes => ∃ n, bytes = List.replicate n 0x41) skipSentinels := by
  intro r u r' h
  obtain ⟨n, tail, hbytes, hcount, -⟩ := split_sentinels r.rest
  cases h
  refine ⟨List.replicate n 0x41, ⟨?_, ?_⟩, n, rfl⟩
  · have hlength : (List.replicate n (0x41 : UInt8)).length = n := List.length_replicate
    show r.rest = _ ++ r.rest.drop _
    rw [hcount]
    conv_rhs => rw [hbytes, List.drop_left' hlength]
    exact hbytes
  · show r.position + _ = _
    rw [hcount, List.length_replicate]

/-- Any number of sentinels, then a spelling of the item. -/
def BehindSentinels (item : Ty → List UInt8 → Prop) (t : Ty) (bytes : List UInt8) : Prop :=
  ∃ n front, bytes = List.replicate n 0x41 ++ front ∧ item t front

theorem spellsParameters_iff {item : Ty → List UInt8 → Prop} {types : List Ty}
    {bytes : List UInt8} :
    SpellsParameters item types bytes ↔ SpellsEach (BehindSentinels item) types bytes := by
  constructor
  · intro hspelled
    induction hspelled with
    | nil => exact .nil
    | cons sentinels hfirst _ ih => exact .cons ⟨sentinels, _, rfl, hfirst⟩ ih
  · intro hspelled
    induction hspelled with
    | nil => exact .nil
    | cons hfirst _ ih =>
      obtain ⟨n, front, rfl, hspelled⟩ := hfirst
      exact .cons n hspelled ih

theorem afterSentinels_sound {item : Ty → List UInt8 → Prop} {inner : Read Ty}
    (hsound : Read.Sound item inner) :
    Read.Sound (BehindSentinels item) (do skipSentinels; inner) := by
  intro r t r' h
  obtain ⟨_, _, r₁, hahead, ⟨n, rfl⟩, h⟩ := skipSentinels_sound.bind_ok h
  obtain ⟨front, hahead', hspelled⟩ := hsound r₁ t r' h
  exact ⟨_, hahead.trans hahead', n, front, rfl, hspelled⟩

/-- Sentinels are passed over in front of anything that starts otherwise. -/
theorem afterSentinels_accepts {inner : Read Ty} {front : List UInt8} {b : UInt8} {t : Ty}
    (n : Nat) (hfirst : front.head? = some b) (hother : b ≠ 0x41)
    (haccepts : inner.Accepts front t) :
    (do skipSentinels; inner).Accepts (List.replicate n 0x41 ++ front) t := by
  intro position rest
  -- the item starts with something else, so no sentinel too many is passed over
  have hhead : (front ++ rest).head? ≠ some 0x41 := by
    rw [List.head?_append, hfirst]
    simpa using hother
  rw [Read.bind_ok_iff]
  refine ⟨(), ⟨position + n, front ++ rest⟩, ?_, ?_⟩
  · have hlength : (List.replicate n (0x41 : UInt8)).length = n := List.length_replicate
    simp only [skipSentinels, Reader.advance, List.append_assoc,
      takeWhile_sentinel_length n hhead, List.drop_left' hlength]
  · rw [haccepts, List.length_append, List.length_replicate, Nat.add_assoc]

/-- A type starts with the byte of an element, which is never the sentinel. -/
theorem SpellsType.exists_head {t : Ty} {bytes : List UInt8} (hspelled : SpellsType t bytes) :
    ∃ b, bytes.head? = some b ∧ b ≠ 0x41 := by
  cases hspelled with
  | primitive hlisted =>
    rename_i type code name
    have hcode : code = type.code := (primitiveTable_sound _ hlisted).1
    refine ⟨code, rfl, ?_⟩
    rw [hcode]
    cases type <;> decide
  | named hkind _ =>
    cases hkind with
    | valueType => exact ⟨_, rfl, by decide⟩
    | classType => exact ⟨_, rfl, by decide⟩
  | _ => exact ⟨_, rfl, by decide⟩

/-! ### Methods -/

/-- The generic arity after a convention byte, zero if none is announced. -/
def readArity (header : UInt8) : Read Nat :=
  if header &&& genericBit = 0 then pure 0 else readUnsigned

theorem methodStep_eq (inner : Read Ty) :
    methodStep inner = do
      let header ← readByte
      let arity ← readArity header
      let count ← readUnsigned
      let result ← inner
      let parameters ← repeatRead (do skipSentinels; inner) count
      return ⟨header, arity, result, parameters⟩ := by
  -- the arity is read inside a branch there and before the rest here
  refine congrArg (readByte >>= ·) (funext fun header => ?_)
  unfold readArity
  split
  · rfl
  · rfl

theorem readArity_sound (header : UInt8) : Read.Sound (SpellsArity header) (readArity header) := by
  intro r arity r' h
  unfold readArity at h
  split at h
  · next hclear =>
    obtain ⟨rfl, rfl⟩ := Read.pure_ok_iff.mp h
    exact ⟨[], .refl r, .absent hclear⟩
  · next hset =>
    obtain ⟨front, hahead, hnumber⟩ := readUnsigned_sound r arity r' h
    exact ⟨front, hahead, .given hset hnumber⟩

theorem readArity_accepts {header : UInt8} {arity : Nat} {bytes : List UInt8}
    (hspelled : SpellsArity header arity bytes) : (readArity header).Accepts bytes arity := by
  unfold readArity
  cases hspelled with
  | absent hclear =>
    rw [if_pos (show header &&& genericBit = 0 from hclear)]
    exact Read.accepts_pure 0
  | given hset hnumber =>
    rw [if_neg (show ¬ header &&& genericBit = 0 from hset)]
    exact readUnsigned_accepts hnumber

theorem methodStep_sound {item : Ty → List UInt8 → Prop} {inner : Read Ty}
    (hsound : Read.Sound item inner) : Read.Sound (SpellsMethod item) (methodStep inner) := by
  rw [methodStep_eq]
  intro r shape r' h
  obtain ⟨header, _, r₁, hahead₁, rfl, h⟩ := readByte_sound.bind_ok h
  obtain ⟨arity, _, r₂, hahead₂, harityNumber, h⟩ := (readArity_sound header).bind_ok h
  obtain ⟨count, _, r₃, hahead₃, hcountNumber, h⟩ := readUnsigned_sound.bind_ok h
  obtain ⟨result, _, r₄, hahead₄, hresultType, h⟩ := hsound.bind_ok h
  obtain ⟨parameters, _, r₅, hahead₅, ⟨hcount, hparameterTypes⟩, h⟩ :=
    (repeatRead_sound (afterSentinels_sound hsound) count).bind_ok h
  obtain ⟨rfl, rfl⟩ := Read.pure_ok_iff.mp h
  subst hcount
  exact ⟨_, hahead₁.cons (hahead₂.trans (hahead₃.trans (hahead₄.trans hahead₅))),
    .intro harityNumber hcountNumber hresultType (spellsParameters_iff.mpr hparameterTypes)⟩

variable {limit : Nat} {inner : Read Ty}

/-- The step accepts every type spelled in at most `limit` bytes. -/
def AcceptsWithin (limit : Nat) (inner : Read Ty) : Prop :=
  ∀ t bytes, bytes.length ≤ limit → SpellsType t bytes → inner.Accepts bytes t

theorem parameters_accepts (haccepts : AcceptsWithin limit inner) {types : List Ty}
    {bytes : List UInt8} (hwithin : bytes.length ≤ limit)
    (hspelled : SpellsParameters SpellsType types bytes) :
    (repeatRead (do skipSentinels; inner) types.length).Accepts bytes types := by
  apply repeatRead_accepts (spellsParameters_iff.mp hspelled)
  rintro t _ hle ⟨n, front, rfl, hspelledType⟩
  obtain ⟨b, hfirst, hother⟩ := hspelledType.exists_head
  apply afterSentinels_accepts n hfirst hother
  apply haccepts t front _ hspelledType
  rw [List.length_append] at hle
  omega

theorem methodStep_accepts (haccepts : AcceptsWithin limit inner) {shape : MethodShape}
    {bytes : List UInt8} (hwithin : bytes.length ≤ limit + 1)
    (hspelled : SpellsMethod SpellsType shape bytes) :
    (methodStep inner).Accepts bytes shape := by
  rw [methodStep_eq]
  cases hspelled with
  | intro harityNumber hcount hresultType hparameterTypes =>
    simp only [List.length_cons, List.length_append] at hwithin
    have hacceptsResult := haccepts _ _ (by omega) hresultType
    have hacceptsParameters := parameters_accepts haccepts (by omega) hparameterTypes
    exact (readByte_accepts _).bind ((readArity_accepts harityNumber).bind
      ((readUnsigned_accepts hcount).bind (hacceptsResult.bind (hacceptsParameters.map _))))

/-! ### One level of a type -/

/-- What follows the first byte of a type. -/
def elementStep (inner : Read Ty) : Element → Read Ty
  | .primitive type => do return .primitive type
  | .valueType => do return .named .valueType (← readTypeHandle)
  | .classType => do return .named .classType (← readTypeHandle)
  | .vector => do return .vector (← inner)
  | .pointer => do return .pointer (← inner)
  | .byRef => do return .byRef (← inner)
  | .pinned => do return .pinned (← inner)
  | .typeVariable => do return .typeVariable (← readUnsigned)
  | .methodVariable => do return .methodVariable (← readUnsigned)
  | .genericInstance => instanceStep inner
  | .array => arrayStep inner
  | .function => do
    let shape ← methodStep inner
    return .function shape.header shape.arity shape.result shape.parameters
  | .requiredModifier => do
    let modifier ← readTypeHandle
    return .modified true modifier (← inner)
  | .optionalModifier => do
    let modifier ← readTypeHandle
    return .modified false modifier (← inner)

theorem typeStep_eq (inner : Read Ty) :
    typeStep inner = (do
      let b ← readByte
      match Element.ofByte? b with
      | none => throw (.badElement b)
      | some e => elementStep inner e) := by
  refine congrArg (readByte >>= ·) (funext fun b => ?_)
  cases Element.ofByte? b with
  | none => rfl
  | some e => cases e <;> rfl

theorem instanceStep_sound (hsound : Read.Sound SpellsType inner) :
    Read.Sound (fun t bytes => SpellsType t (0x15 :: bytes)) (instanceStep inner) := by
  intro r t r' h
  obtain ⟨kindByte, _, r₁, hahead₁, rfl, h⟩ := readByte_sound.bind_ok h
  cases hkind : namedKind? kindByte with
  | none =>
    rw [hkind] at h
    cases h
  | some kind =>
    rw [hkind] at h
    obtain ⟨type, _, r₂, hahead₂, hhandle, h⟩ := readTypeHandle_sound.bind_ok h
    obtain ⟨count, _, r₃, hahead₃, hcountNumber, h⟩ := readUnsigned_sound.bind_ok h
    obtain ⟨arguments, _, r₄, hahead₄, ⟨hcount, htypes⟩, h⟩ :=
      (repeatRead_sound hsound count).bind_ok h
    obtain ⟨rfl, rfl⟩ := Read.pure_ok_iff.mp h
    subst hcount
    have hnamed := (namedKind?_eq_some_iff kindByte kind).mp hkind
    exact ⟨_, hahead₁.cons (hahead₂.trans (hahead₃.trans hahead₄)),
      .genericInstance hnamed hhandle hcountNumber htypes⟩

theorem arrayStep_sound (hsound : Read.Sound SpellsType inner) :
    Read.Sound (fun t bytes => SpellsType t (0x14 :: bytes)) (arrayStep inner) := by
  intro r t r' h
  obtain ⟨element, _, r₁, hahead₁, helementType, h⟩ := hsound.bind_ok h
  obtain ⟨rank, _, r₂, hahead₂, hrankNumber, h⟩ := readUnsigned_sound.bind_ok h
  obtain ⟨sizeCount, _, r₃, hahead₃, hsizeCountNumber, h⟩ := readUnsigned_sound.bind_ok h
  obtain ⟨sizes, _, r₄, hahead₄, ⟨hsizes, hsizeNumbers⟩, h⟩ :=
    (repeatRead_sound readUnsigned_sound sizeCount).bind_ok h
  obtain ⟨boundCount, _, r₅, hahead₅, hboundCountNumber, h⟩ := readUnsigned_sound.bind_ok h
  obtain ⟨lowerBounds, _, r₆, hahead₆, ⟨hbounds, hboundNumbers⟩, h⟩ :=
    (repeatRead_sound readSigned_sound boundCount).bind_ok h
  obtain ⟨rfl, rfl⟩ := Read.pure_ok_iff.mp h
  subst hsizes hbounds
  exact ⟨_, hahead₁.trans (hahead₂.trans (hahead₃.trans (hahead₄.trans (hahead₅.trans hahead₆)))),
    .array helementType hrankNumber hsizeCountNumber hsizeNumbers hboundCountNumber hboundNumbers⟩

theorem modifier_sound {required : Bool} {code : UInt8} (hsound : Read.Sound SpellsType inner)
    (hspells : ∀ {h t handleBytes bytes}, SpellsHandle h handleBytes → SpellsType t bytes →
      SpellsType (.modified required h t) (code :: (handleBytes ++ bytes))) :
    Read.Sound (fun t bytes => SpellsType t (code :: bytes))
      (do
        let modifier ← readTypeHandle
        return .modified required modifier (← inner)) := by
  intro r t r' h
  obtain ⟨modifier, _, r₁, hahead₁, hhandle, h⟩ := readTypeHandle_sound.bind_ok h
  obtain ⟨type, _, r₂, hahead₂, hspelledType, h⟩ := hsound.bind_ok h
  obtain ⟨rfl, rfl⟩ := Read.pure_ok_iff.mp h
  exact ⟨_, hahead₁.trans hahead₂, hspells hhandle hspelledType⟩

theorem elementStep_sound (hsound : Read.Sound SpellsType inner) (e : Element) :
    Read.Sound (fun t bytes => SpellsType t (e.code :: bytes)) (elementStep inner e) := by
  cases e with
  | primitive type =>
    intro r t r' h
    obtain ⟨rfl, rfl⟩ := Read.pure_ok_iff.mp h
    obtain ⟨name, hlisted⟩ := exists_mem_primitiveTable type
    exact ⟨[], .refl r, .primitive hlisted⟩
  | valueType => exact readTypeHandle_sound.map _ fun _ _ hhandle => .named .valueType hhandle
  | classType => exact readTypeHandle_sound.map _ fun _ _ hhandle => .named .classType hhandle
  | vector => exact hsound.map _ fun _ _ helement => .vector helement
  | pointer => exact hsound.map _ fun _ _ htarget => .pointer htarget
  | byRef => exact hsound.map _ fun _ _ htarget => .byRef htarget
  | pinned => exact hsound.map _ fun _ _ htype => .pinned htype
  | typeVariable => exact readUnsigned_sound.map _ fun _ _ hnumber => .typeVariable hnumber
  | methodVariable => exact readUnsigned_sound.map _ fun _ _ hnumber => .methodVariable hnumber
  | genericInstance => exact instanceStep_sound hsound
  | array => exact arrayStep_sound hsound
  | function => exact (methodStep_sound hsound).map _ fun _ _ hmethod => .function hmethod
  | requiredModifier => exact modifier_sound hsound .requiredModifier
  | optionalModifier => exact modifier_sound hsound .optionalModifier

theorem typeStep_sound (hsound : Read.Sound SpellsType inner) :
    Read.Sound SpellsType (typeStep inner) := by
  rw [typeStep_eq]
  intro r t r' h
  obtain ⟨b, _, r₁, hahead, rfl, h⟩ := readByte_sound.bind_ok h
  cases helement : Element.ofByte? b with
  | none =>
    rw [helement] at h
    cases h
  | some e =>
    rw [helement] at h
    obtain ⟨bytes, hahead', hspelled⟩ := elementStep_sound hsound e r₁ t r' h
    rw [code_of_ofByte? helement] at hspelled
    exact ⟨_, hahead.cons hahead', hspelled⟩

/-- A level accepts an element's byte and then what the element's step accepts. -/
theorem typeStep_accepts_element {t : Ty} {bytes : List UInt8} (e : Element)
    (haccepts : (elementStep inner e).Accepts bytes t) :
    (typeStep inner).Accepts (e.code :: bytes) t := by
  rw [typeStep_eq]
  refine (readByte_accepts e.code).bind ?_
  rw [ofByte?_code]
  exact haccepts

theorem instanceStep_accepts (haccepts : AcceptsWithin limit inner) {kind : NamedKind}
    {kindByte : UInt8} {h : Handle} {arguments : List Ty}
    {handleBytes countBytes argumentBytes : List UInt8} (hwithin : argumentBytes.length ≤ limit)
    (hkind : SpellsKind kind kindByte) (hhandle : SpellsHandle h handleBytes)
    (hcount : SpellsNumber arguments.length countBytes)
    (htypes : SpellsEach SpellsType arguments argumentBytes) :
    (instanceStep inner).Accepts (kindByte :: (handleBytes ++ (countBytes ++ argumentBytes)))
      (.genericInstance kind h arguments) := by
  have hacceptsArguments : (repeatRead inner arguments.length).Accepts argumentBytes arguments := by
    apply repeatRead_accepts htypes
    intro t front hle
    exact haccepts t front (Nat.le_trans hle hwithin)
  refine (readByte_accepts kindByte).bind ?_
  rw [(namedKind?_eq_some_iff kindByte kind).mpr hkind]
  exact (readTypeHandle_accepts hhandle).bind ((readUnsigned_accepts hcount).bind
    (hacceptsArguments.map _))

theorem counted_accepts {α : Type} {step : Read α} {spells : α → List UInt8 → Prop}
    (haccepts : ∀ {a bytes}, spells a bytes → step.Accepts bytes a) {as : List α}
    {bytes : List UInt8} (hspelled : SpellsEach spells as bytes) :
    (repeatRead step as.length).Accepts bytes as :=
  repeatRead_accepts hspelled fun _ _ _ hspelledItem => haccepts hspelledItem

theorem arrayStep_accepts {t : Ty} {rank : Nat} {sizes : List Nat} {lowerBounds : List Int}
    {elementBytes rankBytes sizeCountBytes sizeBytes boundCountBytes boundBytes : List UInt8}
    (helement : inner.Accepts elementBytes t) (hrankNumber : SpellsNumber rank rankBytes)
    (hsizeCount : SpellsNumber sizes.length sizeCountBytes)
    (hsizeNumbers : SpellsEach SpellsNumber sizes sizeBytes)
    (hboundCount : SpellsNumber lowerBounds.length boundCountBytes)
    (hboundNumbers : SpellsEach SpellsSigned lowerBounds boundBytes) :
    (arrayStep inner).Accepts
      (elementBytes ++ (rankBytes ++ (sizeCountBytes ++ (sizeBytes ++
        (boundCountBytes ++ boundBytes)))))
      (.array t rank sizes lowerBounds) := by
  have hacceptsSizes := counted_accepts readUnsigned_accepts hsizeNumbers
  have hacceptsBounds := counted_accepts readSigned_accepts hboundNumbers
  exact helement.bind ((readUnsigned_accepts hrankNumber).bind
    ((readUnsigned_accepts hsizeCount).bind (hacceptsSizes.bind
      ((readUnsigned_accepts hboundCount).bind (hacceptsBounds.map _)))))

/-- A level accepts types of one byte more than the step for the types inside. -/
theorem typeStep_accepts (haccepts : AcceptsWithin limit inner) :
    AcceptsWithin (limit + 1) (typeStep inner) := by
  intro t bytes hwithin hspelled
  cases hspelled with
  | primitive hlisted =>
    rename_i type code name
    have hcode : code = type.code := (primitiveTable_sound _ hlisted).1
    rw [hcode]
    exact typeStep_accepts_element (.primitive type) (Read.accepts_pure _)
  | named hkind hhandle =>
    have hacceptsHandle := readTypeHandle_accepts hhandle
    cases hkind with
    | valueType => exact typeStep_accepts_element .valueType (hacceptsHandle.map _)
    | classType => exact typeStep_accepts_element .classType (hacceptsHandle.map _)
  | vector helement =>
    have hacceptsElement := haccepts _ _ (Nat.le_of_succ_le_succ hwithin) helement
    exact typeStep_accepts_element .vector (hacceptsElement.map _)
  | pointer htarget =>
    have hacceptsTarget := haccepts _ _ (Nat.le_of_succ_le_succ hwithin) htarget
    exact typeStep_accepts_element .pointer (hacceptsTarget.map _)
  | byRef htarget =>
    have hacceptsTarget := haccepts _ _ (Nat.le_of_succ_le_succ hwithin) htarget
    exact typeStep_accepts_element .byRef (hacceptsTarget.map _)
  | pinned htype =>
    have hacceptsType := haccepts _ _ (Nat.le_of_succ_le_succ hwithin) htype
    exact typeStep_accepts_element .pinned (hacceptsType.map _)
  | typeVariable hnumber =>
    exact typeStep_accepts_element .typeVariable ((readUnsigned_accepts hnumber).map _)
  | methodVariable hnumber =>
    exact typeStep_accepts_element .methodVariable ((readUnsigned_accepts hnumber).map _)
  | genericInstance hkind hhandle hcount htypes =>
    simp only [List.length_cons, List.length_append] at hwithin
    exact typeStep_accepts_element .genericInstance
      (instanceStep_accepts haccepts (by omega) hkind hhandle hcount htypes)
  | array helement hrankNumber hsizeCount hsizeNumbers hboundCount hboundNumbers =>
    simp only [List.length_cons, List.length_append] at hwithin
    have hacceptsElement := haccepts _ _ (by omega) helement
    exact typeStep_accepts_element .array
      (arrayStep_accepts hacceptsElement hrankNumber hsizeCount hsizeNumbers hboundCount
        hboundNumbers)
  | function hmethod =>
    -- the header byte of the method keeps the types inside it within the limit
    have hacceptsMethod := methodStep_accepts haccepts (Nat.le_of_succ_le hwithin) hmethod
    exact typeStep_accepts_element .function (hacceptsMethod.map _)
  | requiredModifier hhandle htype =>
    simp only [List.length_cons, List.length_append] at hwithin
    have hacceptsType := haccepts _ _ (by omega) htype
    exact typeStep_accepts_element .requiredModifier
      ((readTypeHandle_accepts hhandle).bind (hacceptsType.map _))
  | optionalModifier hhandle htype =>
    simp only [List.length_cons, List.length_append] at hwithin
    have hacceptsType := haccepts _ _ (by omega) htype
    exact typeStep_accepts_element .optionalModifier
      ((readTypeHandle_accepts hhandle).bind (hacceptsType.map _))

/-! ### All levels -/

theorem readTypeUpTo_sound (depth : Nat) : Read.Sound SpellsType (readTypeUpTo depth) := by
  induction depth with
  | zero =>
    intro r t r' h
    cases h
  | succ depth ih => exact typeStep_sound ih

theorem readTypeUpTo_accepts (depth : Nat) : AcceptsWithin depth (readTypeUpTo depth) := by
  induction depth with
  | zero =>
    -- every type has a first byte, so none is spelled within no bytes
    intro t bytes hwithin hspelled
    obtain ⟨b, hfirst, -⟩ := hspelled.exists_head
    rw [List.eq_nil_of_length_eq_zero (Nat.le_zero.mp hwithin)] at hfirst
    cases hfirst
  | succ depth ih => exact typeStep_accepts ih

theorem readType_reads : Read.Reads SpellsType readType where
  sound := by
    intro r
    exact readTypeUpTo_sound (r.remaining + 1) r
  accepts := by
    -- the depth counts all bytes ahead, so those of the type are within it
    intro t bytes hspelled position rest
    apply readTypeUpTo_accepts _ t bytes _ hspelled
    show bytes.length ≤ (bytes ++ rest).length + 1
    rw [List.length_append]
    omega

theorem readMethod_reads : Read.Reads (SpellsMethod SpellsType) readMethod where
  sound := by
    intro r
    exact methodStep_sound (readTypeUpTo_sound (r.remaining + 1)) r
  accepts := by
    intro shape bytes hspelled position rest
    apply methodStep_accepts (readTypeUpTo_accepts _) _ hspelled
    show bytes.length ≤ (bytes ++ rest).length + 1 + 1
    rw [List.length_append]
    omega

theorem readArguments_reads :
    Read.Reads
      (fun arguments bytes => ∃ countBytes argumentBytes, bytes = countBytes ++ argumentBytes ∧
        SpellsNumber arguments.length countBytes ∧ SpellsEach SpellsType arguments argumentBytes)
      (do
        let count ← readUnsigned
        repeatRead readType count) where
  sound := by
    intro r arguments r' h
    obtain ⟨count, _, r₁, hahead₁, hcountNumber, h⟩ := readUnsigned_sound.bind_ok h
    obtain ⟨_, hahead₂, hcount, htypes⟩ := repeatRead_sound readType_reads.sound count r₁ _ r' h
    subst hcount
    exact ⟨_, hahead₁.trans hahead₂, _, _, rfl, hcountNumber, htypes⟩
  accepts := by
    rintro arguments _ ⟨_, _, rfl, hcountNumber, htypes⟩
    exact (readUnsigned_accepts hcountNumber).bind (counted_accepts readType_reads.accepts htypes)

/-- A type is spelled by no other type's bytes, nor by the beginning of them. -/
theorem SpellsType.unique {t t' : Ty} {front front' rest rest' : List UInt8}
    (hspelled : SpellsType t front) (hspelled' : SpellsType t' front')
    (hsame : front ++ rest = front' ++ rest') : t = t' ∧ front = front' :=
  readType_reads.unique hspelled hspelled' hsame

/-! ### Whole signatures -/

theorem isMethodHeader_iff (header : UInt8) :
    isMethodHeader header = true ↔ header &&& 0x0F ≠ 0x06 ∧ header &&& 0x0F ≠ 0x07 ∧
      header &&& 0x0F ≠ 0x08 ∧ header &&& 0x0F ≠ 0x0A := by
  simp [isMethodHeader, otherConventions]

theorem SpellsMethod.head {item : Ty → List UInt8 → Prop} {shape : MethodShape}
    {bytes : List UInt8} (hspelled : SpellsMethod item shape bytes) :
    bytes.head? = some shape.header := by
  cases hspelled
  rfl

theorem readMethodSignature_reads : Read.Reads SpellsMethodSignature readMethodSignature where
  sound := by
    intro r shape r' h
    obtain ⟨header, hhead, h⟩ := peekByte_bind_ok_iff.mp h
    split at h
    · next hisMethod =>
      obtain ⟨front, hahead, hmethod⟩ := readMethod_reads.sound _ _ _ h
      -- the byte looked at is the one that the method starts with
      have hsame : shape.header = header := by
        rw [hahead.rest_eq, List.head?_append, hmethod.head] at hhead
        exact Option.some.inj hhead
      obtain ⟨hnotField, hnotLocals, hnotProperty, hnotInstance⟩ :=
        (isMethodHeader_iff shape.header).mp (hsame ▸ hisMethod)
      exact ⟨front, hahead, .intro hmethod hnotField hnotLocals hnotProperty hnotInstance⟩
    · cases h
  accepts := by
    rintro shape bytes ⟨hmethod, hnotField, hnotLocals, hnotProperty, hnotInstance⟩ position rest
    have hisMethod : isMethodHeader shape.header = true :=
      (isMethodHeader_iff shape.header).mpr ⟨hnotField, hnotLocals, hnotProperty, hnotInstance⟩
    rw [readMethodSignature, peekByte_bind_ok_iff]
    refine ⟨shape.header, ?_, ?_⟩
    · show (bytes ++ rest).head? = _
      rw [List.head?_append, hmethod.head]
      rfl
    · rw [if_pos hisMethod]
      exact readMethod_reads.accepts hmethod position rest

theorem readFieldSignature_reads : Read.Reads SpellsField readFieldSignature where
  sound := by
    intro r t r' h
    obtain ⟨header, _, r₁, hahead, rfl, h⟩ := readByte_sound.bind_ok h
    split at h
    · next hfield =>
      obtain ⟨bytes, hahead', htype⟩ := readType_reads.sound _ _ _ h
      exact ⟨_, hahead.cons hahead', .intro hfield htype⟩
    · cases h
  accepts := by
    rintro t _ ⟨hfield, htype⟩
    refine (readByte_accepts _).bind ?_
    rw [if_pos hfield]
    exact readType_reads.accepts htype

theorem readMethodInstance_reads : Read.Reads SpellsMethodInstance readMethodInstance where
  sound := by
    intro r arguments r' h
    obtain ⟨header, _, r₁, hahead, rfl, h⟩ := readByte_sound.bind_ok h
    split at h
    · next hinstance =>
      obtain ⟨_, hahead', _, _, rfl, hcount, htypes⟩ := readArguments_reads.sound _ _ _ h
      rw [hinstance] at hahead
      exact ⟨_, hahead.cons hahead', .intro hcount htypes⟩
    · cases h
  accepts := by
    rintro arguments _ ⟨hcount, htypes⟩
    exact (readByte_accepts 0x0A).bind (readArguments_reads.accepts ⟨_, _, rfl, hcount, htypes⟩)

/-! ### Generic instances behind custom modifiers -/

theorem skipModifiersUpTo_succ (limit : Nat) :
    skipModifiersUpTo (limit + 1) = (do
      let b ← peekByte
      if b = 0x1F ∨ b = 0x20 then
        let _ ← readByte
        let _ ← readTypeHandle
        skipModifiersUpTo limit
      else pure ()) := by
  refine congrArg (peekByte >>= ·) (funext fun b => ?_)
  split
  · next helement => rw [if_pos (.inl (code_of_ofByte? helement).symm)]
  · next helement => rw [if_pos (.inr (code_of_ofByte? helement).symm)]
  · next hnotRequired hnotOptional =>
    rw [if_neg]
    rintro (rfl | rfl)
    · exact hnotRequired rfl
    · exact hnotOptional rfl

theorem skipModifiersUpTo_sound (limit : Nat) :
    Read.Sound (fun _ bytes => SpellsModifiers bytes) (skipModifiersUpTo limit) := by
  induction limit with
  | zero =>
    intro r u r' h
    obtain ⟨-, rfl⟩ := Read.pure_ok_iff.mp h
    exact ⟨[], .refl r, .nil⟩
  | succ limit ih =>
    rw [skipModifiersUpTo_succ]
    intro r u r' h
    obtain ⟨b, hhead, h⟩ := peekByte_bind_ok_iff.mp h
    split at h
    · next hmodifier =>
      obtain ⟨b', _, r₁, hahead₁, rfl, h⟩ := readByte_sound.bind_ok h
      obtain ⟨_, _, r₂, hahead₂, hhandle, h⟩ := readTypeHandle_sound.bind_ok h
      obtain ⟨_, hahead₃, hothers⟩ := ih r₂ u r' h
      -- the byte looked at is the one read next
      have hb : b = b' := by
        rw [hahead₁.rest_eq] at hhead
        exact (Option.some.inj hhead).symm
      exact ⟨_, hahead₁.cons (hahead₂.trans hahead₃), .cons (hb ▸ hmodifier) hhandle hothers⟩
    · obtain ⟨-, rfl⟩ := Read.pure_ok_iff.mp h
      exact ⟨[], .refl r, .nil⟩

/-- Modifiers are passed over up to a byte that starts none. -/
theorem skipModifiersUpTo_ok {limit : Nat} {modifierBytes : List UInt8}
    (hmodifiers : SpellsModifiers modifierBytes) (hwithin : modifierBytes.length < limit)
    {b : UInt8} (hother : ¬ (b = 0x1F ∨ b = 0x20)) (position : Nat) (rest : List UInt8) :
    skipModifiersUpTo limit ⟨position, modifierBytes ++ b :: rest⟩ =
      .ok () ⟨position + modifierBytes.length, b :: rest⟩ := by
  induction hmodifiers generalizing limit position with
  | nil =>
    obtain ⟨limit, rfl⟩ := Nat.exists_eq_add_of_lt hwithin
    rw [skipModifiersUpTo_succ, peekByte_bind_ok_iff]
    refine ⟨b, rfl, ?_⟩
    rw [if_neg hother]
    rfl
  | @cons b' h handleBytes bytes hmodifier hhandle hothers ih =>
    obtain ⟨limit, rfl⟩ : ∃ l, limit = l + 1 := Nat.exists_eq_succ_of_ne_zero (by omega)
    simp only [List.length_cons, List.length_append] at hwithin
    rw [skipModifiersUpTo_succ, peekByte_bind_ok_iff]
    refine ⟨b', rfl, ?_⟩
    rw [if_pos hmodifier, Read.bind_ok_iff]
    refine ⟨b', ⟨position + 1, handleBytes ++ (bytes ++ b :: rest)⟩, ?_, ?_⟩
    · rw [List.cons_append, List.append_assoc]
      rfl
    · rw [Read.bind_ok_iff]
      refine ⟨h, _, readTypeHandle_accepts hhandle _ _, ?_⟩
      rw [ih (by omega)]
      simp only [List.length_cons, List.length_append]
      congr 2
      omega

/-- A generic type with its arguments, no modifiers in front. -/
def readBareInstance : Read (Handle × List Ty) := do
  let element ← readByte
  if Element.ofByte? element = some .genericInstance then
    let kindByte ← readByte
    if (namedKind? kindByte).isSome then
      let type ← readTypeHandle
      let count ← readUnsigned
      let arguments ← repeatRead readType count
      return (type, arguments)
    else throw .badInstanceHead
  else throw .notTypeInstance

theorem readTypeInstance_eq : readTypeInstance = (do skipModifiers; readBareInstance) :=
  rfl

theorem readBareInstance_sound :
    Read.Sound (fun found bytes => ∃ tail, bytes = 0x15 :: tail ∧
      ∀ modifierBytes, SpellsModifiers modifierBytes →
        SpellsTypeInstance found (modifierBytes ++ (0x15 :: tail))) readBareInstance := by
  intro r found r' h
  obtain ⟨element, _, r₁, hahead₁, rfl, h⟩ := readByte_sound.bind_ok h
  split at h
  · next helement =>
    obtain ⟨kindByte, _, r₂, hahead₂, rfl, h⟩ := readByte_sound.bind_ok h
    split at h
    · next hkind =>
      obtain ⟨kind, hkind⟩ := Option.isSome_iff_exists.mp hkind
      obtain ⟨type, _, r₃, hahead₃, hhandle, h⟩ := readTypeHandle_sound.bind_ok h
      obtain ⟨count, _, r₄, hahead₄, hcountNumber, h⟩ := readUnsigned_sound.bind_ok h
      obtain ⟨arguments, _, r₅, hahead₅, ⟨hcount, htypes⟩, h⟩ :=
        (repeatRead_sound readType_reads.sound count).bind_ok h
      obtain ⟨rfl, rfl⟩ := Read.pure_ok_iff.mp h
      subst hcount
      have hnamed := (namedKind?_eq_some_iff kindByte kind).mp hkind
      rw [← code_of_ofByte? helement] at hahead₁
      refine ⟨_, hahead₁.cons (hahead₂.cons (hahead₃.trans (hahead₄.trans hahead₅))), _, rfl, ?_⟩
      intro _ hmodifiers
      exact .intro hmodifiers hnamed hhandle hcountNumber htypes
    · cases h
  · cases h

theorem readBareInstance_accepts {kind : NamedKind} {kindByte : UInt8} {h : Handle}
    {arguments : List Ty} {handleBytes countBytes argumentBytes : List UInt8}
    (hnamed : SpellsKind kind kindByte) (hhandle : SpellsHandle h handleBytes)
    (hcount : SpellsNumber arguments.length countBytes)
    (htypes : SpellsEach SpellsType arguments argumentBytes) :
    readBareInstance.Accepts
      (0x15 :: kindByte :: (handleBytes ++ (countBytes ++ argumentBytes))) (h, arguments) := by
  have hkind : (namedKind? kindByte).isSome = true := by
    rw [(namedKind?_eq_some_iff kindByte kind).mpr hnamed]
    rfl
  have hacceptsArguments := counted_accepts readType_reads.accepts htypes
  refine (readByte_accepts 0x15).bind ?_
  rw [if_pos (show Element.ofByte? 0x15 = some .genericInstance from rfl)]
  refine (readByte_accepts kindByte).bind ?_
  rw [if_pos hkind]
  exact (readTypeHandle_accepts hhandle).bind ((readUnsigned_accepts hcount).bind
    (hacceptsArguments.map _))

theorem readTypeInstance_reads : Read.Reads SpellsTypeInstance readTypeInstance where
  sound := by
    rw [readTypeInstance_eq]
    intro r found r' h
    obtain ⟨_, r₁, hskip, h⟩ := Read.bind_ok_iff.mp h
    obtain ⟨modifierBytes, hahead₁, hmodifiers⟩ := skipModifiersUpTo_sound _ r _ r₁ hskip
    obtain ⟨_, hahead₂, tail, rfl, hspelled⟩ := readBareInstance_sound r₁ found r' h
    exact ⟨_, hahead₁.trans hahead₂, hspelled modifierBytes hmodifiers⟩
  accepts := by
    rintro _ _ ⟨hmodifiers, hkind, hhandle, hcount, htypes⟩ position rest
    rw [readTypeInstance_eq, Read.bind_ok_iff, List.append_assoc]
    refine ⟨(), _, skipModifiersUpTo_ok hmodifiers ?_ (by decide) position _, ?_⟩
    · simp only [Reader.remaining, List.length_append, List.length_cons]
      omega
    · have haccepted := readBareInstance_accepts hkind hhandle hcount htypes
      rw [List.length_append, ← Nat.add_assoc]
      exact haccepted _ rest

end Signature
end CilAtlas
