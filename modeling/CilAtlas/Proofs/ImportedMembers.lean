import CilAtlas.Proofs.IdentityKeys
import CilAtlas.Report.Analysis
import Mathlib.Data.List.Nodup

/-!
# The methods that a report lists as imported

The list is made of the keys of member references, each key once.  A key ends with the
token of its row, so rows have different keys even when they refer to the same member of
the same type, and no key is ever left out: there is one entry for each row.  The list
has one entry for each member exactly when no two rows refer to the same one.

The names that the keys begin with play no part in this.
-/

namespace CilAtlas

/-! ### First occurrences -/

section FirstOccurrences

variable {α : Type} [BEq α]

theorem eraseDups_sublist : (items : List α) → items.eraseDups.Sublist items
  | [] => .slnil
  | item :: items => by
    rw [List.eraseDups_cons]
    exact ((eraseDups_sublist _).trans List.filter_sublist).cons_cons item
termination_by items => items.length
decreasing_by
  have := List.length_filter_le (fun other => !other == item) items
  simp only [List.length_cons]
  omega

variable [LawfulBEq α]

theorem nodup_eraseDups : (items : List α) → items.eraseDups.Nodup
  | [] => by simp
  | item :: items => by
    rw [List.eraseDups_cons, List.nodup_cons]
    exact ⟨by simp, nodup_eraseDups _⟩
termination_by items => items.length
decreasing_by
  have := List.length_filter_le (fun other => !other == item) items
  simp only [List.length_cons]
  omega

theorem eraseDups_eq_self_iff {items : List α} : items.eraseDups = items ↔ items.Nodup := by
  constructor
  · intro hsame
    rw [← hsame]
    exact nodup_eraseDups items
  · intro hnodup
    induction items with
    | nil => rfl
    | cons item items ih =>
      obtain ⟨hfresh, hlater⟩ := List.nodup_cons.mp hnodup
      have hkept : items.filter (fun other => !other == item) = items := by
        refine List.filter_eq_self.mpr fun other hmember => ?_
        simpa using fun hsame : other = item => hfresh (hsame ▸ hmember)
      rw [List.eraseDups_cons, hkept, ih hlater]

/-- Appending what is new, item by item, keeps the first occurrences. -/
theorem foldl_append_new (items : List α) :
    items.foldl (fun seen item => if seen.contains item then seen else seen ++ [item]) [] =
      items.eraseDups := by
  induction items using List.reverseRecOn with
  | nil => rfl
  | append_singleton items item ih =>
    rw [List.foldl_append, ih, List.eraseDups_append]
    by_cases hknown : item ∈ items
    · simp [hknown, List.removeAll]
    · simp [hknown, List.removeAll, List.eraseDups_cons]

end FirstOccurrences

/-- What a member reference refers to. -/
def MemberRef.member (row : MemberRef) : Option Handle × Text × List UInt8 :=
  (row.parent?, row.name, row.signature)

namespace Store

/-- The references to methods of types of other assemblies, with their handles. -/
def importedRows (store : Store) : List (Handle × MemberRef) :=
  store.memberRefs.entries.filter fun entry =>
    (entry.2.parent?.any fun parent => parent.table = TableNumber.typeRef)
      && Signature.isMethodBlob entry.2.signature

/-- What the imported rows refer to, with repetitions. -/
def importedMembers (store : Store) : List (Option Handle × Text × List UInt8) :=
  store.importedRows.map fun row => row.2.member

/-- The entries stand one for one for the members that are imported, in the order in
which they first appear. -/
def OncePerMember (store : Store) (entries : List Text) : Prop :=
  entries.Nodup ∧ List.Forall₂ (fun member entry => ∃ row ∈ store.importedRows,
    row.2.member = member ∧ store.keyOf row.1 .names = .ok entry)
    store.importedMembers.eraseDups entries

/-- Every member reference is stored under its own handle. -/
abbrev MembersKeyed (store : Store) : Prop :=
  store.memberRefs.KeyedBy TableNumber.memberRef MemberRef.handle

variable {store : Store}

theorem importedMethods_eq (store : Store) : store.importedMethods = do
    let keys ← store.importedRows.mapM fun row => store.keyOf row.1 .names
    return keys.eraseDups := by
  unfold importedMethods
  simp only [foldl_append_new]
  rfl

/-- An imported row has a key, and it ends with the token of the row. -/
theorem exists_entity_of_imported (hkeyed : store.MembersKeyed) {row : Handle × MemberRef}
    (himported : row ∈ store.importedRows) :
    ∃ e : Entity, store.keyOf row.1 .names = .ok e.key ∧ e.token? = some row.1.token := by
  obtain ⟨h, ref⟩ := row
  obtain ⟨hlisted, hwanted⟩ := List.mem_filter.mp himported
  obtain ⟨-, htable⟩ := hkeyed _ hlisted
  have hfound := (OrderedMap.get?_eq_some_iff _ _ _).mpr hlisted
  obtain ⟨parent, hparent, hofType⟩ : ∃ parent, ref.parent? = some parent ∧
      parent.table = TableNumber.typeRef := by
    rw [Bool.and_eq_true, Option.any_eq_true] at hwanted
    simpa using hwanted.1
  obtain ⟨e, hdescribed⟩ := exists_memberEntity_of_parent hfound
    (hparent ▸ exists_parentEntity_of_typeRef hofType)
  refine ⟨e, ?_, (row_of_memberEntity hdescribed).2⟩
  rw [keyOf_of_table_memberRef htable, hdescribed]
  rfl

theorem marks_of_imported (hkeyed : store.MembersKeyed) (hfit : store.memberRefs.RidsFit)
    {row : Handle × MemberRef} (himported : row ∈ store.importedRows) {key : Text}
    (hcomputed : store.keyOf row.1 .names = .ok key) : row.1.Marks key := by
  obtain ⟨e, hdescribed, htoken⟩ := exists_entity_of_imported hkeyed himported
  obtain rfl : e.key = key := Except.ok.inj (hdescribed.symm.trans hcomputed)
  have hfound := (OrderedMap.get?_eq_some_iff _ _ _).mpr (List.mem_filter.mp himported).1
  exact Entity.key_marks (hkeyed.narrow hfit (by decide) hfound) htoken

/-- The handle has the key, and the key ends with its token. -/
def KeyedAs (store : Store) (h : Handle) (key : Text) : Prop :=
  store.keyOf h .names = .ok key ∧ h.Marks key

theorem keyedAs_biUnique (store : Store) : Relator.BiUnique store.KeyedAs := by
  constructor
  · rintro h key h' ⟨-, hmarks⟩ ⟨-, hmarks'⟩
    exact hmarks.unique hmarks'
  · rintro h key key' ⟨hcomputed, -⟩ ⟨hcomputed', -⟩
    exact Except.ok.inj (hcomputed.symm.trans hcomputed')

theorem nodup_importedRows (store : Store) : (store.importedRows.map Prod.fst).Nodup :=
  store.memberRefs.nodup.sublist (List.filter_sublist.map _)

/-- The keys of the imported rows, one for each row. -/
def RowKeys (store : Store) (keys : List Text) : Prop :=
  List.Forall₂ (fun row key => store.keyOf row.1 .names = .ok key) store.importedRows keys

theorem exists_rowKeys (hkeyed : store.MembersKeyed) : ∃ keys, store.RowKeys keys := by
  have heach : ∀ row ∈ store.importedRows, ∃ key, store.keyOf row.1 .names = .ok key := by
    intro row himported
    obtain ⟨e, hcomputed, -⟩ := exists_entity_of_imported hkeyed himported
    exact ⟨e.key, hcomputed⟩
  obtain ⟨keys, hcomputed⟩ := Outcome.exists_mapM_ok heach
  exact ⟨keys, Outcome.mapM_eq_ok_iff.mp hcomputed⟩

theorem RowKeys.importedMethods_eq {keys : List Text} (hmatched : store.RowKeys keys) :
    store.importedMethods = .ok keys.eraseDups := by
  rw [Store.importedMethods_eq, Outcome.bind_of_ok (Outcome.mapM_eq_ok_iff.mpr hmatched)]
  rfl

theorem RowKeys.importedMethods_of_nodup {keys : List Text} (hmatched : store.RowKeys keys)
    (hnodup : keys.Nodup) : store.importedMethods = .ok keys := by
  rw [hmatched.importedMethods_eq, eraseDups_eq_self_iff.mpr hnodup]

theorem RowKeys.nodup {keys : List Text} (hmatched : store.RowKeys keys)
    (hkeyed : store.MembersKeyed) (hfit : store.memberRefs.RidsFit) : keys.Nodup := by
  -- the token at the end of a key gives its handle back, and no handle has two rows
  have hmarked : List.Forall₂ store.KeyedAs (store.importedRows.map Prod.fst) keys := by
    rw [List.forall₂_map_left_iff]
    refine (forall₂_mem_left hmatched).imp ?_
    rintro row key ⟨himported, hcomputed⟩
    exact ⟨hcomputed, marks_of_imported hkeyed hfit himported hcomputed⟩
  exact (List.rel_nodup (keyedAs_biUnique store) hmarked).mp (nodup_importedRows store)

/-- One entry for each row is one entry for each member when no member repeats, and
only then: otherwise there are more rows than members. -/
theorem RowKeys.oncePerMember_iff {keys : List Text} (hmatched : store.RowKeys keys)
    (hnodup : keys.Nodup) : store.OncePerMember keys ↔ store.importedMembers.Nodup := by
  constructor
  · rintro ⟨-, hstands⟩
    -- as many members as entries, and as many entries as rows
    have hlengths : store.importedMembers.eraseDups.length = store.importedMembers.length := by
      rw [hstands.length_eq, ← hmatched.length_eq, importedMembers, List.length_map]
    rw [← (eraseDups_sublist _).eq_of_length hlengths]
    exact nodup_eraseDups _
  · intro hapart
    refine ⟨hnodup, ?_⟩
    rw [eraseDups_eq_self_iff.mpr hapart, importedMembers, List.forall₂_map_left_iff]
    refine (forall₂_mem_left hmatched).imp ?_
    rintro row key ⟨himported, hcomputed⟩
    exact ⟨row, himported, rfl, hcomputed⟩

/-- The imported methods are the keys of the imported rows, each key once.  As long as row
numbers have at most 24 bits, rows have different keys, whatever they refer to, so there
is one entry for each row.  That is one entry for each member exactly when no two rows
refer to the same one. -/
theorem importedMethods_one_per_row (hkeyed : store.MembersKeyed) :
    ∃ keys, store.RowKeys keys ∧ store.importedMethods = .ok keys.eraseDups ∧
      (store.memberRefs.RidsFit → keys.Nodup ∧ store.importedMethods = .ok keys ∧
        (store.OncePerMember keys ↔ store.importedMembers.Nodup)) := by
  obtain ⟨keys, hmatched⟩ := exists_rowKeys hkeyed
  refine ⟨keys, hmatched, hmatched.importedMethods_eq, fun hfit => ?_⟩
  have hnodup := hmatched.nodup hkeyed hfit
  exact ⟨hnodup, hmatched.importedMethods_of_nodup hnodup, hmatched.oncePerMember_iff hnodup⟩

/-- A store that refers to one type of another assembly and to the given members. -/
def referringTo (members : List MemberRef) : Store where
  typeDefs := OrderedMap.empty
  typeRefs := OrderedMap.ofList
    [(⟨TableNumber.typeRef, 1⟩, ⟨⟨TableNumber.typeRef, 1⟩, lit "System", lit "Console", none⟩)]
  exportedTypes := OrderedMap.empty
  methodDefs := OrderedMap.empty
  memberRefs := OrderedMap.ofList (members.map fun member => (member.handle, member))
  methodSpecs := OrderedMap.empty
  typeSpecs := OrderedMap.empty
  image := ⟨#[]⟩
  userStrings := fun _ => .ok none
  facts := ⟨0, 0, 0, 0, 0⟩

/-- Two methods whose keys differ in their tokens only, because the mark before a
name is left out of keys; a field; and a method of a type of the assembly itself. -/
def constructors : Store :=
  referringTo [
    ⟨⟨TableNumber.memberRef, 1⟩, some ⟨TableNumber.typeRef, 1⟩, lit ".ctor", [0x20, 0, 1]⟩,
    ⟨⟨TableNumber.memberRef, 2⟩, some ⟨TableNumber.typeRef, 1⟩, lit "color", [0x06, 8]⟩,
    ⟨⟨TableNumber.memberRef, 3⟩, some ⟨TableNumber.typeRef, 1⟩, lit "ctor", [0x20, 0, 1]⟩,
    ⟨⟨TableNumber.memberRef, 4⟩, some ⟨TableNumber.typeDef, 1⟩, lit "ctor", [0x20, 0, 1]⟩]

theorem constructors_listed_once :
    constructors.MembersKeyed ∧ constructors.memberRefs.RidsFit ∧
      ∃ keys, constructors.importedMethods = .ok keys ∧ keys.length = 2 ∧
        constructors.OncePerMember keys := by
  have hkeyed : constructors.MembersKeyed := by decide
  have hfit : constructors.memberRefs.RidsFit := by decide
  obtain ⟨keys, hmatched, -, hofFit⟩ := importedMethods_one_per_row hkeyed
  obtain ⟨-, hlisted, honce⟩ := hofFit hfit
  exact ⟨hkeyed, hfit, keys, hlisted, hmatched.length_eq.symm, honce.mpr (by decide)⟩

/-- The same method of the same type, referred to by two rows. -/
def repeatedReference : Store :=
  referringTo [
    ⟨⟨TableNumber.memberRef, 1⟩, some ⟨TableNumber.typeRef, 1⟩, lit "WriteLine", [0, 0, 1]⟩,
    ⟨⟨TableNumber.memberRef, 2⟩, some ⟨TableNumber.typeRef, 1⟩, lit "WriteLine", [0, 0, 1]⟩]

theorem repeatedReference_listed_twice :
    repeatedReference.importedMembers.eraseDups =
        [(some ⟨TableNumber.typeRef, 1⟩, lit "WriteLine", [0, 0, 1])] ∧
      ∃ keys, repeatedReference.importedMethods = .ok keys ∧ keys.length = 2 ∧
        ¬ repeatedReference.OncePerMember keys := by
  have hkeyed : repeatedReference.MembersKeyed := by decide
  obtain ⟨keys, hmatched⟩ := exists_rowKeys hkeyed
  have hnodup : keys.Nodup := hmatched.nodup hkeyed (by decide)
  refine ⟨by decide, keys, hmatched.importedMethods_of_nodup hnodup, hmatched.length_eq.symm, ?_⟩
  rw [hmatched.oncePerMember_iff hnodup]
  decide

end Store
end CilAtlas
