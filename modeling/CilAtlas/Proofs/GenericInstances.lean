import CilAtlas.Proofs.SignatureText

/-!
# Generic instances, taken apart and written out

A blob that holds a generic instance is read for two purposes.  To bind a call, its generic
type and its arguments are wanted; to print it, its text.  The two readers pass over the
leading custom modifiers in different ways: one skips them, the other keeps each as a level
around the type behind it.

Both are compared with the grammar, where the modifiers come off: behind them stands a type
that starts with no modifier, and its first byte alone says whether it is an instance.
-/

namespace CilAtlas
namespace Signature

open Blob

/-- The type behind the custom modifiers around it. -/
def Ty.bare : Ty → Ty
  | .modified _ _ type => type.bare
  | type => type

/-- A type is not a modified one. -/
def Ty.IsBare (t : Ty) : Prop :=
  ∀ required modifier type, t ≠ .modified required modifier type

theorem Ty.isBare_bare (t : Ty) : t.bare.IsBare := by
  fun_induction Ty.bare with
  | case1 required modifier type ih => exact ih
  | case2 type hplain => exact hplain

theorem Ty.text_bare (names : Naming) (t : Ty) : t.bare.text names = t.text names := by
  fun_induction Ty.bare with
  | case1 required modifier type ih => rw [ih, Ty.text]
  | case2 type hplain => rfl

/-! ### Modifiers in front of a type -/

/-- The bytes of a type are those of its modifiers and those of the type behind them. -/
theorem SpellsType.exists_bare {t : Ty} {bytes : List UInt8} (hspelled : SpellsType t bytes) :
    ∃ modifierBytes bareBytes, bytes = modifierBytes ++ bareBytes ∧
      SpellsModifiers modifierBytes ∧ SpellsType t.bare bareBytes := by
  fun_induction Ty.bare generalizing bytes with
  | case1 required modifier type ih =>
    cases hspelled with
    | requiredModifier hhandle hinner =>
      obtain ⟨modifierBytes, bareBytes, rfl, hmodifiers, hbare⟩ := ih hinner
      refine ⟨_, bareBytes, ?_, .cons (.inl rfl) hhandle hmodifiers, hbare⟩
      rw [List.cons_append, List.append_assoc]
    | optionalModifier hhandle hinner =>
      obtain ⟨modifierBytes, bareBytes, rfl, hmodifiers, hbare⟩ := ih hinner
      refine ⟨_, bareBytes, ?_, .cons (.inr rfl) hhandle hmodifiers, hbare⟩
      rw [List.cons_append, List.append_assoc]
  | case2 type hplain => exact ⟨[], bytes, rfl, .nil, hspelled⟩

/-- Modifiers in front of a type spell a type that is the same behind them. -/
theorem SpellsModifiers.exists_modified {modifierBytes : List UInt8}
    (hmodifiers : SpellsModifiers modifierBytes) {t : Ty} {bytes : List UInt8}
    (hspelled : SpellsType t bytes) :
    ∃ modified : Ty, SpellsType modified (modifierBytes ++ bytes) ∧ modified.bare = t.bare := by
  induction hmodifiers with
  | nil => exact ⟨t, hspelled, rfl⟩
  | @cons b h handleBytes others hmodifier hhandle _ ih =>
    obtain ⟨modified, hspelledInner, hsame⟩ := ih
    rw [List.cons_append, List.append_assoc]
    rcases hmodifier with rfl | rfl
    · exact ⟨.modified true h modified, .requiredModifier hhandle hspelledInner, hsame⟩
    · exact ⟨.modified false h modified, .optionalModifier hhandle hspelledInner, hsame⟩

/-! ### The byte behind the modifiers -/

/-- The first byte of a blob behind the custom modifiers that lead it. -/
inductive LeadByte (b : UInt8) : List UInt8 → Prop
  | intro {modifierBytes : List UInt8} (hmodifiers : SpellsModifiers modifierBytes)
      (hother : ¬ (b = 0x1F ∨ b = 0x20)) (rest : List UInt8) :
      LeadByte b (modifierBytes ++ b :: rest)

/-- The reader stops in front of the lead byte. -/
theorem LeadByte.skipModifiers_ok {b : UInt8} {blob : List UInt8} (hlead : LeadByte b blob) :
    ∃ position rest, skipModifiers (Reader.ofBytes blob) = .ok () ⟨position, b :: rest⟩ := by
  obtain ⟨hmodifiers, hother, rest⟩ := hlead
  refine ⟨_, rest, skipModifiersUpTo_ok hmodifiers ?_ hother 0 rest⟩
  simp only [Reader.remaining, Reader.ofBytes, List.length_append]
  omega

theorem LeadByte.unique {b b' : UInt8} {blob : List UInt8} (hlead : LeadByte b blob)
    (hlead' : LeadByte b' blob) : b = b' := by
  obtain ⟨position, rest, hskipped⟩ := hlead.skipModifiers_ok
  obtain ⟨position', rest', hskipped'⟩ := hlead'.skipModifiers_ok
  rw [hskipped] at hskipped'
  cases hskipped'
  rfl

theorem LeadByte.append {b : UInt8} {front : List UInt8} (hlead : LeadByte b front)
    (back : List UInt8) : LeadByte b (front ++ back) := by
  obtain ⟨hmodifiers, hother, rest⟩ := hlead
  rw [List.append_assoc, List.cons_append]
  exact .intro hmodifiers hother (rest ++ back)

/-- A bare type starts with a byte that is no modifier's, and an instance is the only one
that starts with `0x15`. -/
theorem SpellsType.exists_head_of_isBare {t : Ty} {bytes : List UInt8}
    (hspelled : SpellsType t bytes) (hbare : t.IsBare) :
    ∃ b rest, bytes = b :: rest ∧ ¬ (b = 0x1F ∨ b = 0x20) ∧
      (b = 0x15 ↔ ∃ kind h arguments, t = .genericInstance kind h arguments) := by
  cases hspelled with
  | primitive hlisted =>
    rename_i type code name
    have hcode : code = type.code := (primitiveTable_sound _ hlisted).1
    have hapart : ∀ primitive : Primitive, ¬ (primitive.code = 0x1F ∨ primitive.code = 0x20) ∧
        primitive.code ≠ 0x15 := by
      intro primitive
      cases primitive <;> decide
    refine ⟨code, [], rfl, hcode ▸ (hapart type).1, ?_⟩
    simpa [hcode] using (hapart type).2
  | named hkind _ =>
    cases hkind with
    | valueType => exact ⟨0x11, _, rfl, by decide, by simp⟩
    | classType => exact ⟨0x12, _, rfl, by decide, by simp⟩
  | genericInstance => exact ⟨0x15, _, rfl, by decide, by simp⟩
  | requiredModifier => exact absurd rfl (hbare _ _ _)
  | optionalModifier => exact absurd rfl (hbare _ _ _)
  | _ => exact ⟨_, _, rfl, by decide, by simp⟩

/-- The lead byte of a type's bytes says whether the type is an instance behind its
modifiers. -/
theorem SpellsType.leadByte_iff {t : Ty} {front : List UInt8} (hspelled : SpellsType t front)
    (rest : List UInt8) :
    LeadByte 0x15 (front ++ rest) ↔
      ∃ kind h arguments, t.bare = .genericInstance kind h arguments := by
  obtain ⟨modifierBytes, bareBytes, rfl, hmodifiers, hbare⟩ := hspelled.exists_bare
  obtain ⟨b, tail, rfl, hother, hinstance⟩ := hbare.exists_head_of_isBare t.isBare_bare
  have hlead : LeadByte b (modifierBytes ++ b :: tail ++ rest) :=
    (LeadByte.intro hmodifiers hother tail).append rest
  rw [← hinstance]
  constructor
  · exact fun hfirst => hlead.unique hfirst
  · rintro rfl
    exact hlead

/-! ### Taking apart and writing out -/

/-- The instances that blobs spell are the types that are instances behind their
modifiers. -/
theorem spellsTypeInstance_iff {h : Handle} {arguments : List Ty} {bytes : List UInt8} :
    SpellsTypeInstance (h, arguments) bytes ↔
      ∃ t kind, SpellsType t bytes ∧ t.bare = .genericInstance kind h arguments := by
  constructor
  · rintro ⟨hmodifiers, hkind, hhandle, hcount, htypes⟩
    obtain ⟨t, hspelled, hbare⟩ :=
      hmodifiers.exists_modified (.genericInstance hkind hhandle hcount htypes)
    exact ⟨t, _, hspelled, hbare⟩
  · rintro ⟨t, kind, hspelled, hinstance⟩
    obtain ⟨modifierBytes, bareBytes, rfl, hmodifiers, hbare⟩ := hspelled.exists_bare
    rw [hinstance] at hbare
    cases hbare with
    | genericInstance hkind hhandle hcount htypes =>
      exact .intro hmodifiers hkind hhandle hcount htypes

theorem decodeType_ok_iff {names : Naming} {blob : List UInt8} {text : Text} :
    names.decodeType blob = .ok text ↔
      ∃ front rest t, blob = front ++ rest ∧ SpellsType t front ∧ text = t.text names :=
  map_run_ok_iff readType_reads _

theorem decodeTypeInstance_ok_iff {names : Naming} {blob : List UInt8} {h : Handle}
    {texts : List Text} :
    names.decodeTypeInstance blob = .ok (h, texts) ↔
      ∃ front rest t kind arguments, blob = front ++ rest ∧ SpellsType t front ∧
        t.bare = .genericInstance kind h arguments ∧ texts = textList names arguments := by
  rw [Naming.decodeTypeInstance, map_run_ok_iff readTypeInstance_reads]
  constructor
  · rintro ⟨front, rest, ⟨h', arguments⟩, rfl, hspelled, hparts⟩
    obtain ⟨rfl, rfl⟩ := Prod.mk.inj hparts
    obtain ⟨t, kind, hspelledType, hbare⟩ := spellsTypeInstance_iff.mp hspelled
    exact ⟨front, rest, t, kind, arguments, rfl, hspelledType, hbare, rfl⟩
  · rintro ⟨front, rest, t, kind, arguments, rfl, hspelled, hbare, rfl⟩
    exact ⟨front, rest, (h, arguments), rfl, spellsTypeInstance_iff.mpr ⟨t, kind, hspelled, hbare⟩,
      rfl⟩

/-- A blob can be taken apart as a generic instance exactly when it can be read as a type and
the first byte behind its leading modifiers is that of an instance.  The text of the type is
then that of the parts: the generic type's name, and the arguments between angle brackets
with commas between them. -/
theorem instance_parts_agree_with_text (names : Naming) (blob : List UInt8) :
    ((∃ h texts, names.decodeTypeInstance blob = .ok (h, texts)) ↔
      (∃ text, names.decodeType blob = .ok text) ∧ LeadByte 0x15 blob) ∧
    ∀ h texts, names.decodeTypeInstance blob = .ok (h, texts) →
      names.decodeType blob =
        .ok (names.typeName h ++ lit "<" ++ List.intercalate (lit ",") texts ++ lit ">") := by
  refine ⟨⟨?_, ?_⟩, ?_⟩
  · rintro ⟨h, texts, hdecoded⟩
    obtain ⟨front, rest, t, kind, arguments, rfl, hspelled, hbare, -⟩ :=
      decodeTypeInstance_ok_iff.mp hdecoded
    exact ⟨⟨_, decodeType_ok_iff.mpr ⟨front, rest, t, rfl, hspelled, rfl⟩⟩,
      (hspelled.leadByte_iff rest).mpr ⟨kind, h, arguments, hbare⟩⟩
  · rintro ⟨⟨text, hdecoded⟩, hlead⟩
    obtain ⟨front, rest, t, rfl, hspelled, -⟩ := decodeType_ok_iff.mp hdecoded
    obtain ⟨kind, h, arguments, hbare⟩ := (hspelled.leadByte_iff rest).mp hlead
    exact ⟨h, _, decodeTypeInstance_ok_iff.mpr
      ⟨front, rest, t, kind, arguments, rfl, hspelled, hbare, rfl⟩⟩
  · intro h texts hdecoded
    obtain ⟨front, rest, t, kind, arguments, rfl, hspelled, hbare, rfl⟩ :=
      decodeTypeInstance_ok_iff.mp hdecoded
    refine decodeType_ok_iff.mpr ⟨front, rest, t, rfl, hspelled, ?_⟩
    -- the modifiers leave no trace in the text
    rw [← t.text_bare names, hbare, Ty.text, commaList, join_eq_intercalate]

end Signature
end CilAtlas
