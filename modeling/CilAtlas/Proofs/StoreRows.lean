import CilAtlas.Metadata.Store
import Mathlib.Data.List.Basic
import Mathlib.Tactic.Common

/-!
# Stores whose rows stand where they say

A store is a set of maps from handles to rows, and a row carries its own handle.
Nothing in the types makes the two agree, so what a loaded assembly guarantees is
stated here: every row is stored under its own handle, row numbers fit in 24
bits, and the owner of every method is a type of the store.
-/

namespace CilAtlas
namespace OrderedMap

variable {κ α : Type} [DecidableEq κ]

theorem mem_of_lookup?_eq_some {k : κ} {a : α} {entries : List (κ × α)}
    (h : lookup? k entries = some a) : (k, a) ∈ entries := by
  induction entries with
  | nil => simp [lookup?] at h
  | cons entry rest ih =>
    rw [lookup?] at h
    split at h
    · next hkey =>
      have hvalue : entry.2 = a := Option.some.inj h
      rw [← hkey, ← hvalue]
      exact List.mem_cons_self
    · exact List.mem_cons_of_mem _ (ih h)

theorem lookup?_eq_some_of_mem {k : κ} {a : α} {entries : List (κ × α)}
    (hnodup : (entries.map (·.1)).Nodup) (h : (k, a) ∈ entries) :
    lookup? k entries = some a := by
  induction entries with
  | nil => cases h
  | cons entry rest ih =>
    rw [List.map_cons, List.nodup_cons] at hnodup
    rcases List.mem_cons.mp h with rfl | hrest
    · simp [lookup?]
    · have hne : entry.1 ≠ k := by
        intro heq
        exact hnodup.1 (heq ▸ List.mem_map_of_mem (f := Prod.fst) hrest)
      rw [lookup?, if_neg hne]
      exact ih hnodup.2 hrest

/-- Looking up a key finds exactly the entry that holds it. -/
theorem get?_eq_some_iff (m : OrderedMap κ α) (k : κ) (a : α) :
    m.get? k = some a ↔ (k, a) ∈ m.entries :=
  ⟨mem_of_lookup?_eq_some, lookup?_eq_some_of_mem m.nodup⟩

theorem get?_mem_keys {m : OrderedMap κ α} {k : κ} {a : α} (h : m.get? k = some a) :
    k ∈ m.keys :=
  List.mem_map_of_mem (f := Prod.fst) ((get?_eq_some_iff m k a).mp h)

theorem contains_iff (m : OrderedMap κ α) (k : κ) :
    m.contains k = true ↔ ∃ a, m.get? k = some a := by
  rw [contains, Option.isSome_iff_exists]

theorem exists_get?_of_mem_keys {m : OrderedMap κ α} {k : κ} (h : k ∈ m.keys) :
    ∃ a, m.get? k = some a := by
  obtain ⟨⟨k', a⟩, hentry, rfl⟩ := List.mem_map.mp h
  exact ⟨a, (get?_eq_some_iff m k' a).mpr hentry⟩

theorem mem_values_of_get? {m : OrderedMap κ α} {k : κ} {a : α} (h : m.get? k = some a) :
    a ∈ m.values :=
  List.mem_map_of_mem (f := Prod.snd) ((get?_eq_some_iff m k a).mp h)

/-! ### Maps of distinct keys -/

theorem put_of_notMem {k : κ} (a : α) {entries : List (κ × α)} (habsent : k ∉ entries.map (·.1)) :
    put k a entries = entries ++ [(k, a)] := by
  induction entries with
  | nil => rfl
  | cons entry rest ih =>
    rw [List.map_cons, List.mem_cons, not_or] at habsent
    rw [put, if_neg (Ne.symm habsent.1), ih habsent.2]
    rfl

theorem entries_insertAll (m : OrderedMap κ α) {entries : List (κ × α)}
    (hnodup : (m.keys ++ entries.map (·.1)).Nodup) :
    (m.insertAll entries).entries = m.entries ++ entries := by
  induction entries generalizing m with
  | nil => exact (List.append_nil _).symm
  | cons entry rest ih =>
    have habsent : entry.1 ∉ m.keys := by
      intro hlisted
      exact (List.nodup_append.mp hnodup).2.2 _ hlisted _ (by simp) rfl
    have hput : (m.insert entry.1 entry.2).entries = m.entries ++ [entry] :=
      put_of_notMem entry.2 habsent
    have hkeys : (m.insert entry.1 entry.2).keys = m.keys ++ [entry.1] := by
      rw [keys_insert, if_neg habsent]
    have hlater : ((m.insert entry.1 entry.2).keys ++ rest.map (·.1)).Nodup := by
      rw [hkeys, List.append_assoc]
      exact hnodup
    show ((m.insert entry.1 entry.2).insertAll rest).entries = _
    rw [ih _ hlater, hput, List.append_assoc]
    rfl

/-- Distinct keys keep their order. -/
theorem entries_ofList {entries : List (κ × α)} (hnodup : (entries.map (·.1)).Nodup) :
    (ofList entries).entries = entries :=
  entries_insertAll empty hnodup

/-- A key whose entries agree has their value. -/
theorem get?_insertAll_of_agree {k : κ} {a : α} {entries : List (κ × α)}
    (hagree : ∀ entry ∈ entries, entry.1 = k → entry.2 = a) (m : OrderedMap κ α)
    (hpresent : m.get? k = some a ∨ k ∈ entries.map (·.1)) :
    (m.insertAll entries).get? k = some a := by
  induction entries generalizing m with
  | nil =>
    rcases hpresent with hfound | hlisted
    · exact hfound
    · cases hlisted
  | cons entry entries ih =>
    obtain ⟨hfirst, hothers⟩ := List.forall_mem_cons.mp hagree
    refine ih hothers (m.insert entry.1 entry.2) ?_
    rw [get?_insert]
    by_cases hsame : entry.1 = k
    · rw [if_pos hsame, hfirst hsame]
      exact .inl rfl
    · rw [if_neg hsame]
      rcases hpresent with hfound | hlisted
      · exact .inl hfound
      · rw [List.map_cons, List.mem_cons] at hlisted
        exact .inr (hlisted.resolve_left (Ne.symm hsame))

end OrderedMap

/-- A handle that a token of four bytes can write. -/
structure Handle.Narrow (h : Handle) : Prop where
  table_nonneg : (0 : Int) ≤ h.table
  table_lt : (0x80 : Int) > h.table
  rid_nonneg : 0 ≤ h.rid
  rid_lt : h.rid < 0x1000000

/-- Every row of a map is stored under its own handle, which names the given
table. -/
def OrderedMap.KeyedBy {α : Type} (rows : OrderedMap Handle α) (table : TableNumber)
    (handleOf : α → Handle) : Prop :=
  ∀ entry ∈ rows.entries, handleOf entry.2 = entry.1 ∧ entry.1.table = table

instance {α : Type} (rows : OrderedMap Handle α) (table : TableNumber) (handleOf : α → Handle) :
    Decidable (rows.KeyedBy table handleOf) :=
  inferInstanceAs (Decidable (∀ entry ∈ rows.entries, _))

/-- Every row number of a map fits in 24 bits. -/
def OrderedMap.RidsFit {α : Type} (rows : OrderedMap Handle α) : Prop :=
  ∀ entry ∈ rows.entries, 0 ≤ entry.1.rid ∧ entry.1.rid < 0x1000000

instance {α : Type} (rows : OrderedMap Handle α) : Decidable rows.RidsFit :=
  inferInstanceAs (Decidable (∀ entry ∈ rows.entries, _))

theorem OrderedMap.KeyedBy.of_get? {α : Type} {rows : OrderedMap Handle α} {table : TableNumber}
    {handleOf : α → Handle} (hkeyed : rows.KeyedBy table handleOf) {h : Handle} {row : α}
    (hfound : rows.get? h = some row) : handleOf row = h ∧ h.table = table :=
  hkeyed (h, row) ((OrderedMap.get?_eq_some_iff rows h row).mp hfound)

theorem OrderedMap.KeyedBy.get?_of_mem_values {α : Type} {rows : OrderedMap Handle α}
    {table : TableNumber} {handleOf : α → Handle} (hkeyed : rows.KeyedBy table handleOf) {row : α}
    (hmember : row ∈ rows.values) : rows.get? (handleOf row) = some row := by
  obtain ⟨entry, hlisted, rfl⟩ := List.mem_map.mp hmember
  rw [(hkeyed entry hlisted).1]
  exact (OrderedMap.get?_eq_some_iff _ _ _).mpr hlisted

theorem OrderedMap.RidsFit.of_get? {α : Type} {rows : OrderedMap Handle α} (hfit : rows.RidsFit)
    {h : Handle} {row : α} (hfound : rows.get? h = some row) : 0 ≤ h.rid ∧ h.rid < 0x1000000 :=
  hfit (h, row) ((OrderedMap.get?_eq_some_iff rows h row).mp hfound)

/-- The handle of a row in a table with a small number can be written in four
bytes. -/
theorem OrderedMap.KeyedBy.narrow {α : Type} {rows : OrderedMap Handle α} {table : TableNumber}
    {handleOf : α → Handle} (hkeyed : rows.KeyedBy table handleOf) (hfit : rows.RidsFit)
    (hsmall : (0 : Int) ≤ table ∧ (0x80 : Int) > table) {h : Handle} {row : α}
    (hfound : rows.get? h = some row) : h.Narrow := by
  obtain ⟨-, htable⟩ := hkeyed.of_get? hfound
  obtain ⟨hridNonneg, hridLt⟩ := hfit.of_get? hfound
  rw [← htable] at hsmall
  exact ⟨hsmall.1, hsmall.2, hridNonneg, hridLt⟩

namespace Store

/-- Every row of a store is stored under its own handle. -/
structure Keyed (store : Store) : Prop where
  typeDefs : store.typeDefs.KeyedBy TableNumber.typeDef TypeDef.handle
  typeRefs : store.typeRefs.KeyedBy TableNumber.typeRef TypeRef.handle
  exportedTypes : store.exportedTypes.KeyedBy TableNumber.exportedType ExportedType.handle
  methodDefs : store.methodDefs.KeyedBy TableNumber.methodDef MethodDef.handle
  memberRefs : store.memberRefs.KeyedBy TableNumber.memberRef MemberRef.handle
  methodSpecs : store.methodSpecs.KeyedBy TableNumber.methodSpec MethodSpec.handle
  typeSpecs : store.typeSpecs.KeyedBy TableNumber.typeSpec TypeSpec.handle

/-- Every method of a store is stored under its own handle. -/
abbrev MethodsKeyed (store : Store) : Prop :=
  store.methodDefs.KeyedBy TableNumber.methodDef MethodDef.handle

/-- The row numbers of the five tables whose rows have keys fit in 24 bits. -/
structure RidsFit (store : Store) : Prop where
  typeDefs : store.typeDefs.RidsFit
  typeRefs : store.typeRefs.RidsFit
  exportedTypes : store.exportedTypes.RidsFit
  methodDefs : store.methodDefs.RidsFit
  memberRefs : store.memberRefs.RidsFit

/-- The owner of every method is a type of the store. -/
def OwnersDefined (store : Store) : Prop :=
  ∀ entry ∈ store.methodDefs.entries, store.typeDefs.contains entry.2.owner = true

instance (store : Store) : Decidable store.OwnersDefined :=
  inferInstanceAs (Decidable (∀ entry ∈ store.methodDefs.entries, _))

theorem OwnersDefined.of_get? {store : Store} (howners : store.OwnersDefined) {h : Handle}
    {method : MethodDef} (hfound : store.methodDefs.get? h = some method) :
    ∃ owner, store.typeDefs.get? method.owner = some owner := by
  rw [← OrderedMap.contains_iff]
  exact howners (h, method) ((OrderedMap.get?_eq_some_iff _ _ _).mp hfound)

end Store
end CilAtlas
