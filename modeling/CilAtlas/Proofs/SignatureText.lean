import CilAtlas.Proofs.Numerals
import CilAtlas.Proofs.SignatureReading

/-!
# Signature texts follow the grammar

The written form of a type is the one that the rules of the grammar give it, so
together with the readers the texts of a blob are just those of the types that
its bytes spell.  The result holds for every naming, including one whose names
contain commas or brackets; it does not say that a text determines its type.
-/

namespace CilAtlas
namespace Signature

open Blob

theorem join_eq_intercalate (separator : Text) (parts : List Text) :
    Text.join separator parts = List.intercalate separator parts := by
  induction parts with
  | nil => rfl
  | cons part rest ih =>
    cases rest with
    | nil => rw [List.intercalate_singleton]; rfl
    | cons next rest => rw [List.intercalate_cons_cons, ← ih]; rfl

theorem flatten_replicate_comma (count : Nat) :
    (List.replicate count (lit ",")).flatten = List.replicate count (CodePoint.ofChar ',') := by
  induction count with
  | zero => rfl
  | succ count ih => rw [List.replicate_succ, List.flatten_cons, ih]; rfl

theorem rendersVariable_iff {names : List Text} {mark : String} {index : Nat} {s : Text} :
    RendersVariable names mark index s ↔ s = variableText names index (lit mark) := by
  have hmark : lit (mark ++ toString index) = lit mark ++ Text.ofNat index := by
    rw [Text.ofNat_eq_lit]
    simp [lit, Text.ofString]
  unfold variableText
  constructor
  · intro hrenders
    cases hrenders with
    | named hfound hnonempty =>
      obtain ⟨c, name, rfl⟩ := List.exists_cons_of_ne_nil hnonempty
      rw [hfound]
    | unnamed hmissing =>
      -- an empty name counts as no name
      split
      · next c name hfound => cases hmissing _ hfound
      · exact hmark
  · rintro rfl
    split
    · next c name hfound => exact .named hfound (List.cons_ne_nil c name)
    · next hunnamed =>
      rw [← hmark]
      refine .unnamed fun name hfound => ?_
      cases name with
      | nil => rfl
      | cons c name => exact absurd hfound (hunnamed c name)

mutual

theorem rendersType_text (names : Naming) : (t : Ty) → RendersType names t (t.text names)
  | .primitive type => by
    obtain ⟨name, hlisted⟩ := exists_mem_primitiveTable type
    have hname : type.name = lit name := (primitiveTable_sound _ hlisted).2
    rw [Ty.text, hname]
    exact .primitive hlisted
  | .named kind type => .named kind type
  | .vector element => .vector (rendersType_text names element)
  | .pointer target => .pointer (rendersType_text names target)
  | .byRef target => .byRef (rendersType_text names target)
  | .pinned type => .pinned (rendersType_text names type)
  | .typeVariable _ => .typeVariable (rendersVariable_iff.mpr rfl)
  | .methodVariable _ => .methodVariable (rendersVariable_iff.mpr rfl)
  | .genericInstance _ _ arguments => by
    rw [Ty.text, commaList, join_eq_intercalate]
    exact .genericInstance (rendersEach_textList names arguments)
  | .array element _ _ _ => by
    rw [Ty.text, ← flatten_replicate_comma]
    exact .array (rendersType_text names element)
  | .function _ _ result parameters => by
    rw [Ty.text, commaList, join_eq_intercalate]
    exact .function (rendersType_text names result) (rendersEach_textList names parameters)
  | .modified _ _ type => .modified (rendersType_text names type)

theorem rendersEach_textList (names : Naming) :
    (types : List Ty) → List.Forall₂ (RendersType names) types (textList names types)
  | [] => .nil
  | type :: rest => .cons (rendersType_text names type) (rendersEach_textList names rest)

end

mutual

/-- The rules give a type one written form only. -/
theorem text_of_rendersType (names : Naming) :
    (t : Ty) → {s : Text} → RendersType names t s → s = t.text names
  | .primitive type, _, hrenders => by
    cases hrenders with
    | primitive hlisted => exact (primitiveTable_sound _ hlisted).2.symm
  | .named _ _, _, hrenders => by
    cases hrenders
    rfl
  | .vector t, _, hrenders => by
    cases hrenders with
    | vector helement => rw [text_of_rendersType names t helement, Ty.text]
  | .pointer t, _, hrenders => by
    cases hrenders with
    | pointer htarget => rw [text_of_rendersType names t htarget, Ty.text]
  | .byRef t, _, hrenders => by
    cases hrenders with
    | byRef htarget => rw [text_of_rendersType names t htarget, Ty.text]
  | .pinned t, _, hrenders => by
    cases hrenders with
    | pinned htype => rw [text_of_rendersType names t htype, Ty.text]
  | .typeVariable _, _, hrenders => by
    cases hrenders with
    | typeVariable htext => exact rendersVariable_iff.mp htext
  | .methodVariable _, _, hrenders => by
    cases hrenders with
    | methodVariable htext => exact rendersVariable_iff.mp htext
  | .genericInstance _ _ arguments, _, hrenders => by
    cases hrenders with
    | genericInstance htypes =>
      rw [textList_of_rendersEach names arguments htypes, Ty.text, commaList, join_eq_intercalate]
  | .array t _ _ _, _, hrenders => by
    cases hrenders with
    | array helement => rw [text_of_rendersType names t helement, Ty.text, flatten_replicate_comma]
  | .function _ _ result parameters, _, hrenders => by
    cases hrenders with
    | function hresultType htypes =>
      rw [text_of_rendersType names result hresultType,
        textList_of_rendersEach names parameters htypes, Ty.text, commaList, join_eq_intercalate]
  | .modified _ _ t, _, hrenders => by
    cases hrenders with
    | modified htype => rw [text_of_rendersType names t htype, Ty.text]

theorem textList_of_rendersEach (names : Naming) :
    (types : List Ty) → {texts : List Text} → List.Forall₂ (RendersType names) types texts →
      texts = textList names types
  | [], _, hrenders => by
    cases hrenders
    rfl
  | type :: rest, _, hrenders => by
    cases hrenders with
    | cons hfirst hothers =>
      rw [text_of_rendersType names type hfirst,
        textList_of_rendersEach names rest hothers, textList]

end

theorem rendersType_iff {names : Naming} {t : Ty} {s : Text} :
    RendersType names t s ↔ s = t.text names := by
  constructor
  · exact text_of_rendersType names t
  · rintro rfl
    exact rendersType_text names t

theorem rendersEach_iff {names : Naming} {types : List Ty} {texts : List Text} :
    List.Forall₂ (RendersType names) types texts ↔ texts = textList names types := by
  constructor
  · exact textList_of_rendersEach names types
  · rintro rfl
    exact rendersEach_textList names types

theorem rendersMethod_iff {names : Naming} {shape : MethodShape} {m : MethodText} :
    RendersMethod names shape m ↔ m = shape.text names := by
  constructor
  · rintro ⟨hresultType, htypes⟩
    rw [rendersType_iff.mp hresultType, rendersEach_iff.mp htypes]
    rfl
  · rintro rfl
    exact .intro (rendersType_text names shape.result) (rendersEach_textList names shape.parameters)

/-- A reader's values written out: its texts are those of the values spelled. -/
theorem map_run_ok_iff {α β : Type} {spells : α → List UInt8 → Prop} {step : Read α}
    (hreads : Read.Reads spells step) (write : α → β) {blob : List UInt8} {b : β} :
    (step.run blob).map write = .ok b ↔
      ∃ front rest a, blob = front ++ rest ∧ spells a front ∧ b = write a := by
  rw [Outcome.map_eq_ok_iff]
  constructor
  · rintro ⟨a, hrun, hwrite⟩
    obtain ⟨front, rest, hblob, hspelled⟩ := hreads.run_ok_iff.mp hrun
    exact ⟨front, rest, a, hblob, hspelled, hwrite.symm⟩
  · rintro ⟨front, rest, a, hblob, hspelled, hwrite⟩
    exact ⟨a, hreads.run_ok_iff.mpr ⟨front, rest, hblob, hspelled⟩, hwrite.symm⟩

/-- The readers of signatures succeed on exactly the bytes that the grammar
spells, consume just those bytes, and return the written form that the grammar
gives what they spell.  The first part is about a type anywhere in a blob, the
others about whole blobs, where bytes left over are ignored. -/
theorem signature_texts_follow_grammar (names : Naming) :
    (∀ r s r', (Ty.text names <$> readType) r = .ok s r' ↔
      ∃ front t, r.Ahead front r' ∧ SpellsType t front ∧ RendersType names t s) ∧
    (∀ blob s, names.decodeType blob = .ok s ↔
      ∃ front rest t, blob = front ++ rest ∧ SpellsType t front ∧ RendersType names t s) ∧
    (∀ blob s, names.decodeField blob = .ok s ↔
      ∃ front rest t, blob = front ++ rest ∧ SpellsField t front ∧ RendersType names t s) ∧
    (∀ blob m, names.decodeMethod blob = .ok m ↔
      ∃ front rest shape, blob = front ++ rest ∧ SpellsMethodSignature shape front ∧
        RendersMethod names shape m) ∧
    (∀ blob texts, names.decodeMethodInstance blob = .ok texts ↔
      ∃ front rest types, blob = front ++ rest ∧ SpellsMethodInstance types front ∧
        List.Forall₂ (RendersType names) types texts) ∧
    ∀ blob h texts, names.decodeTypeInstance blob = .ok (h, texts) ↔
      ∃ front rest types, blob = front ++ rest ∧ SpellsTypeInstance (h, types) front ∧
        List.Forall₂ (RendersType names) types texts := by
  simp only [rendersType_iff, rendersEach_iff, rendersMethod_iff]
  refine ⟨?_, ?_, ?_, ?_, ?_, ?_⟩
  · intro r s r'
    rw [map_eq_pure_bind, Read.bind_ok_iff]
    constructor
    · rintro ⟨t, r₁, hread, hpure⟩
      obtain ⟨rfl, rfl⟩ := Read.pure_ok_iff.mp hpure
      obtain ⟨front, hahead, hspelled⟩ := readType_reads.ok_iff.mp hread
      exact ⟨front, t, hahead, hspelled, rfl⟩
    · rintro ⟨front, t, hahead, hspelled, rfl⟩
      exact ⟨t, r', readType_reads.ok_iff.mpr ⟨front, hahead, hspelled⟩, rfl⟩
  · intro blob s
    exact map_run_ok_iff readType_reads _
  · intro blob s
    exact map_run_ok_iff readFieldSignature_reads _
  · intro blob m
    exact map_run_ok_iff readMethodSignature_reads _
  · intro blob texts
    exact map_run_ok_iff readMethodInstance_reads _
  · intro blob h texts
    rw [Naming.decodeTypeInstance, map_run_ok_iff readTypeInstance_reads]
    constructor
    · rintro ⟨front, rest, ⟨_, types⟩, hblob, hspelled, heq⟩
      cases heq
      exact ⟨front, rest, types, hblob, hspelled, rfl⟩
    · rintro ⟨front, rest, types, hblob, hspelled, rfl⟩
      exact ⟨front, rest, (h, types), hblob, hspelled, rfl⟩

end Signature
end CilAtlas
