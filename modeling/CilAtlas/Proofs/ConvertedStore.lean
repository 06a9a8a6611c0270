import CilAtlas.Assembly.Convert
import CilAtlas.Proofs.AnalysisShape
import Mathlib.Data.List.Nodup

/-!
# The store of an assembly

Converting the tables of an assembly files every row under the handle of its
place, in the order of the table.  Methods are the exception: one is kept exactly
when some type lists it, and then its owner is a type of the store that lists it.
Where no method is listed twice, a report shows every kept method once, under its
owner, in the order of the owner's list.

Which of several types that list one method becomes its owner is not said here.
-/

namespace CilAtlas

namespace Conversion

/-! ### Rows under the handles of their places -/

/-- The rows of a map come from places of a table: one row for each place, in the
order of the places, stored under the handle of the place, which is its own. -/
def Files {α : Type} (table : TableNumber) (handleOf : α → Handle)
    (becomes : Handle → Cell → α → Prop) (places : List (Cell × Nat))
    (rows : OrderedMap Handle α) : Prop :=
  List.Forall₂ (fun place entry => entry.1 = ⟨table, place.2⟩ ∧ handleOf entry.2 = entry.1 ∧
    becomes entry.1 place.1 entry.2) places rows.entries

theorem Files.keyedBy {α : Type} {table : TableNumber} {handleOf : α → Handle}
    {becomes : Handle → Cell → α → Prop} {places : List (Cell × Nat)}
    {rows : OrderedMap Handle α} (hfiles : Files table handleOf becomes places rows) :
    rows.KeyedBy table handleOf := by
  intro entry hlisted
  obtain ⟨place, -, hhere, hown, -⟩ := exists_mem_of_forall₂_right hfiles hlisted
  exact ⟨hown, by rw [hhere]⟩

/-- Places are numbered from one. -/
theorem numbered_eq (table : TableNumber) (cells : List Cell) :
    numbered table cells =
      (cells.zipIdx 1).map fun place => ((⟨table, place.2⟩ : Handle), place.1) := by
  rw [numbered, List.mapIdx_eq_zipIdx_map, List.zipIdx_succ, List.map_map]
  rfl

theorem converted_eq_ok_iff {α : Type} {table : TableNumber} {name : String}
    {convert : Handle → Cell → Except CellFault α} {tables : Cell} {out : List α} :
    converted table name convert tables = .ok out ↔
      ∃ cells, rows tables name = .ok cells ∧
        List.Forall₂ (fun place row => convert ⟨table, place.2⟩ place.1 = .ok row)
          (cells.zipIdx 1) out := by
  rw [converted, Outcome.bind_eq_ok_iff]
  refine exists_congr fun cells => and_congr_right fun _ => ?_
  rw [Outcome.mapM_eq_ok_iff, numbered_eq, List.forall₂_map_left_iff]

theorem nodup_handles {α : Type} {table : TableNumber} {handleOf : α → Handle}
    {becomes : Handle → Cell → α → Prop} {places : List (Cell × Nat)} {out : List α}
    (hdistinct : (places.map Prod.snd).Nodup)
    (hown : ∀ h cell row, becomes h cell row → handleOf row = h)
    (hmatched : List.Forall₂ (fun place row => becomes ⟨table, place.2⟩ place.1 row) places out) :
    (out.map handleOf).Nodup := by
  have hhandles : out.map handleOf =
      (places.map Prod.snd).map fun n : Nat => (⟨table, n⟩ : Handle) := by
    rw [List.map_map, ← List.forall₂_eq_eq_eq, List.forall₂_map_left_iff,
      List.forall₂_map_right_iff]
    exact hmatched.flip.imp fun row place h => hown _ _ _ h
  rw [hhandles]
  refine hdistinct.map ?_
  intro n n' hsame
  exact Int.ofNat.inj (Handle.mk.inj hsame).2

theorem entries_byHandle {α : Type} {handleOf : α → Handle} {out : List α}
    (hnodup : (out.map handleOf).Nodup) :
    (byHandle handleOf out).entries = out.map fun row => (handleOf row, row) := by
  apply OrderedMap.entries_ofList
  rw [List.map_map]
  exact hnodup

theorem values_byHandle {α : Type} {handleOf : α → Handle} {out : List α}
    (hnodup : (out.map handleOf).Nodup) : (byHandle handleOf out).values = out := by
  rw [OrderedMap.values, entries_byHandle hnodup, List.map_map]
  exact List.map_id out

theorem files_byHandle {α : Type} {table : TableNumber} {handleOf : α → Handle}
    {becomes : Handle → Cell → α → Prop} {places : List (Cell × Nat)} {out : List α}
    (hdistinct : (places.map Prod.snd).Nodup)
    (hown : ∀ h cell row, becomes h cell row → handleOf row = h)
    (hmatched : List.Forall₂ (fun place row => becomes ⟨table, place.2⟩ place.1 row) places out) :
    Files table handleOf becomes places (byHandle handleOf out) := by
  rw [Files, entries_byHandle (nodup_handles hdistinct hown hmatched), List.forall₂_map_right_iff]
  refine hmatched.imp fun place row h => ?_
  have hhere := hown _ _ _ h
  refine ⟨hhere, rfl, ?_⟩
  show becomes (handleOf row) place.1 row
  rw [hhere]
  exact h

theorem nodup_places (cells : List Cell) : ((cells.zipIdx 1).map Prod.snd).Nodup := by
  rw [List.zipIdx_map_snd]
  exact List.nodup_range'

/-- A whole table with a row for each of its places. -/
def FilesAll {α : Type} (tables : Cell) (name : String) (table : TableNumber)
    (handleOf : α → Handle) (becomes : Handle → Cell → α → Prop)
    (rows : OrderedMap Handle α) : Prop :=
  ∃ cells, Conversion.rows tables name = .ok cells ∧
    Files table handleOf becomes (cells.zipIdx 1) rows

theorem filesAll_byHandle {α : Type} {tables : Cell} {name : String} {table : TableNumber}
    {handleOf : α → Handle} {convert : Handle → Cell → Except CellFault α} {out : List α}
    (hown : ∀ h cell row, convert h cell = .ok row → handleOf row = h)
    (hdone : converted table name convert tables = .ok out) :
    FilesAll tables name table handleOf (fun h cell row => convert h cell = .ok row)
      (byHandle handleOf out) := by
  obtain ⟨cells, hcells, hmatched⟩ := converted_eq_ok_iff.mp hdone
  exact ⟨cells, hcells, files_byHandle (nodup_places cells) hown hmatched⟩

theorem FilesAll.keyedBy {α : Type} {tables : Cell} {name : String} {table : TableNumber}
    {handleOf : α → Handle} {becomes : Handle → Cell → α → Prop} {rows : OrderedMap Handle α}
    (hfiles : FilesAll tables name table handleOf becomes rows) : rows.KeyedBy table handleOf := by
  obtain ⟨cells, -, hfiles⟩ := hfiles
  exact hfiles.keyedBy

/-! ### Each row keeps the handle of its place -/

theorem typeRef_handle {h : Handle} {cell : Cell} {row : TypeRef}
    (hdone : typeRef h cell = .ok row) : row.handle = h := by
  obtain ⟨nameSpace, -, hrest⟩ := Outcome.bind_eq_ok_iff.mp hdone
  obtain ⟨name, -, hrest⟩ := Outcome.bind_eq_ok_iff.mp hrest
  obtain ⟨scope?, -, hrest⟩ := Outcome.bind_eq_ok_iff.mp hrest
  cases Outcome.pure_eq_ok_iff.mp hrest
  rfl

theorem memberRef_handle {h : Handle} {cell : Cell} {row : MemberRef}
    (hdone : memberRef h cell = .ok row) : row.handle = h := by
  obtain ⟨parent?, -, hrest⟩ := Outcome.bind_eq_ok_iff.mp hdone
  obtain ⟨name, -, hrest⟩ := Outcome.bind_eq_ok_iff.mp hrest
  obtain ⟨signature, -, hrest⟩ := Outcome.bind_eq_ok_iff.mp hrest
  cases Outcome.pure_eq_ok_iff.mp hrest
  rfl

theorem exportedType_handle {h : Handle} {cell : Cell} {row : ExportedType}
    (hdone : exportedType h cell = .ok row) : row.handle = h := by
  obtain ⟨nameSpace, -, hrest⟩ := Outcome.bind_eq_ok_iff.mp hdone
  obtain ⟨name, -, hrest⟩ := Outcome.bind_eq_ok_iff.mp hrest
  cases Outcome.pure_eq_ok_iff.mp hrest
  rfl

theorem methodSpec_handle {h : Handle} {cell : Cell} {row : MethodSpec}
    (hdone : methodSpec h cell = .ok row) : row.handle = h := by
  obtain ⟨method?, -, hrest⟩ := Outcome.bind_eq_ok_iff.mp hdone
  cases Outcome.pure_eq_ok_iff.mp hrest
  rfl

theorem typeSpec_handle {h : Handle} {cell : Cell} {row : TypeSpec}
    (hdone : typeSpec h cell = .ok row) : row.handle = h := by
  obtain ⟨signature, -, hrest⟩ := Outcome.bind_eq_ok_iff.mp hdone
  cases Outcome.pure_eq_ok_iff.mp hrest
  rfl

/-! ### Method lists -/

/-- The methods that a row lists: its method list names rows of the method table
by their positions, and an index of row zero names none. -/
def Lists (row : Cell) (methods : List Handle) : Prop :=
  ∃ indices, (row.fieldOrNull "MethodList").toRun = .ok indices ∧
    List.Forall₂
      (fun index method => ∃ position, (rowIndex index).toInt = .ok position ∧
        method = ⟨TableNumber.methodDef, position⟩)
      (indices.filter fun index => (rowIndex index).isPresent) methods

theorem listedMethod?_eq_none {index : Cell} (hdone : listedMethod? index = .ok none) :
    (rowIndex index).isPresent = false := by
  unfold listedMethod? at hdone
  split at hdone
  · obtain ⟨position, -, hshown⟩ := Outcome.map_eq_ok_iff.mp hdone
    cases hshown
  · next habsent => exact Bool.eq_false_iff.mpr habsent

theorem listedMethod?_eq_some {index : Cell} {method : Handle}
    (hdone : listedMethod? index = .ok (some method)) :
    (rowIndex index).isPresent = true ∧ ∃ position, (rowIndex index).toInt = .ok position ∧
      method = ⟨TableNumber.methodDef, position⟩ := by
  unfold listedMethod? at hdone
  split at hdone
  · next hpresent =>
    obtain ⟨position, hcomputed, hshown⟩ := Outcome.map_eq_ok_iff.mp hdone
    exact ⟨hpresent, position, hcomputed, (Option.some.inj hshown).symm⟩
  · cases hdone

theorem lists_of_listedMethods {row : Cell} {methods : List Handle}
    (hlisted : listedMethods row = .ok methods) : Lists row methods := by
  obtain ⟨indices, hindices, hrest⟩ := Outcome.bind_eq_ok_iff.mp hlisted
  obtain ⟨handles, hhandles, hdone⟩ := Outcome.bind_eq_ok_iff.mp hrest
  cases Outcome.pure_eq_ok_iff.mp hdone
  exact ⟨indices, hindices, forall₂_filter_of_options (fun _ => listedMethod?_eq_none)
    (fun _ _ => listedMethod?_eq_some) (Outcome.mapM_eq_ok_iff.mp hhandles)⟩

theorem owner?_eq_some {types : List TypeOutline} {method : Handle} {type : TypeOutline}
    (howns : owner? types method = some type) : type ∈ types ∧ method ∈ type.methods := by
  unfold owner? at howns
  have hholds := List.find?_some howns
  exact ⟨List.mem_reverse.mp (List.mem_of_find?_eq_some howns), List.contains_iff_mem.mp hholds⟩

theorem owner?_isSome_iff {types : List TypeOutline} {method : Handle} :
    (owner? types method).isSome = true ↔ ∃ type ∈ types, method ∈ type.methods := by
  rw [owner?, List.find?_isSome]
  simp

/-! ### The rows of types and methods -/

theorem typeOutline_eq_ok {h : Handle} {cell : Cell} {outline : TypeOutline}
    (hdone : typeOutline h cell = .ok outline) :
    outline.handle = h ∧ Lists cell outline.methods := by
  obtain ⟨methods, hlisted, hrest⟩ := Outcome.bind_eq_ok_iff.mp hdone
  obtain ⟨nameSpace, -, hrest⟩ := Outcome.bind_eq_ok_iff.mp hrest
  obtain ⟨name, -, hrest⟩ := Outcome.bind_eq_ok_iff.mp hrest
  cases Outcome.pure_eq_ok_iff.mp hrest
  exact ⟨rfl, lists_of_listedMethods hlisted⟩

/-- What the row of a type owes to its cell. -/
def TypeFrom (generics : List GenericParam) (nesting : List (Handle × Handle)) (h : Handle)
    (cell : Cell) (row : TypeDef) : Prop :=
  Lists cell row.methods ∧
    ∃ outline, typeOutline h cell = .ok outline ∧ typeDef generics nesting outline = .ok row

theorem typeDef_eq_ok {generics : List GenericParam} {nesting : List (Handle × Handle)}
    {outline : TypeOutline} {row : TypeDef} (hdone : typeDef generics nesting outline = .ok row) :
    row.handle = outline.handle ∧ row.methods = outline.methods := by
  obtain ⟨base?, -, hrest⟩ := Outcome.bind_eq_ok_iff.mp hdone
  cases Outcome.pure_eq_ok_iff.mp hrest
  exact ⟨rfl, rfl⟩

theorem TypeFrom.handle {generics : List GenericParam} {nesting : List (Handle × Handle)}
    {h : Handle} {cell : Cell} {row : TypeDef} (hsource : TypeFrom generics nesting h cell row) :
    row.handle = h := by
  obtain ⟨-, outline, houtlined, hdone⟩ := hsource
  exact (typeDef_eq_ok hdone).1.trans (typeOutline_eq_ok houtlined).1

theorem methodDef_eq_ok {generics : List GenericParam} {marked : List Handle}
    {owner h : Handle} {cell : Cell} {method : MethodDef}
    (hdone : methodDef generics marked owner h cell = .ok method) :
    method.handle = h ∧ method.owner = owner := by
  obtain ⟨params, -, hrest⟩ := Outcome.bind_eq_ok_iff.mp hdone
  obtain ⟨name, -, hrest⟩ := Outcome.bind_eq_ok_iff.mp hrest
  obtain ⟨rva, -, hrest⟩ := Outcome.bind_eq_ok_iff.mp hrest
  obtain ⟨signature, -, hrest⟩ := Outcome.bind_eq_ok_iff.mp hrest
  cases Outcome.pure_eq_ok_iff.mp hrest
  exact ⟨rfl, rfl⟩

/-- The methods that are kept, with their places and owners. -/
theorem methodDefs_eq_ok {tables : Cell} {generics : List GenericParam}
    {types : List TypeOutline} {marked : List Handle} {methods : List MethodDef}
    (hdone : methodDefs tables generics types marked = .ok methods) :
    ∃ cells, rows tables "MethodDef" = .ok cells ∧
      List.Forall₂
        (fun place method => ∃ owner ∈ types, method.owner = owner.handle ∧
          method.handle ∈ owner.methods ∧
          methodDef generics marked method.owner ⟨TableNumber.methodDef, place.2⟩ place.1 =
            .ok method)
        ((cells.zipIdx 1).filter fun place =>
          (owner? types ⟨TableNumber.methodDef, place.2⟩).isSome) methods := by
  obtain ⟨found, hfound, hrest⟩ := Outcome.bind_eq_ok_iff.mp hdone
  cases Outcome.pure_eq_ok_iff.mp hrest
  obtain ⟨cells, hcells, hmatched⟩ := converted_eq_ok_iff.mp hfound
  refine ⟨cells, hcells, forall₂_filter_of_options ?_ ?_ hmatched⟩
  · intro place hmissing
    unfold methodDef? at hmissing
    split at hmissing
    · next hnone => rw [hnone]; rfl
    · obtain ⟨method, -, hshown⟩ := Outcome.map_eq_ok_iff.mp hmissing
      cases hshown
  · intro place method hkept
    unfold methodDef? at hkept
    split at hkept
    · cases hkept
    · next owner howns =>
      obtain ⟨method', hconverted, hshown⟩ := Outcome.map_eq_ok_iff.mp hkept
      cases hshown
      obtain ⟨hhandle, howner⟩ := methodDef_eq_ok hconverted
      obtain ⟨hmember, hlisted⟩ := owner?_eq_some howns
      refine ⟨by rw [howns]; rfl, owner, hmember, howner, by rw [hhandle]; exact hlisted, ?_⟩
      rw [howner]
      exact hconverted

/-! ### The store as a whole -/

/-- The store files the rows of the tables: six tables whole, and of the methods
those that some type lists. -/
structure Tabulates (tables : Cell) (store : Store) : Prop where
  typeRefs : FilesAll tables "TypeRef" TableNumber.typeRef TypeRef.handle
    (fun h cell row => typeRef h cell = .ok row) store.typeRefs
  memberRefs : FilesAll tables "MemberRef" TableNumber.memberRef MemberRef.handle
    (fun h cell row => memberRef h cell = .ok row) store.memberRefs
  exportedTypes : FilesAll tables "ExportedType" TableNumber.exportedType ExportedType.handle
    (fun h cell row => exportedType h cell = .ok row) store.exportedTypes
  methodSpecs : FilesAll tables "MethodSpec" TableNumber.methodSpec MethodSpec.handle
    (fun h cell row => methodSpec h cell = .ok row) store.methodSpecs
  typeSpecs : FilesAll tables "TypeSpec" TableNumber.typeSpec TypeSpec.handle
    (fun h cell row => typeSpec h cell = .ok row) store.typeSpecs
  /-- A type has the methods that its row lists. -/
  typeDefs : ∃ generics nesting, genericParams tables = .ok generics ∧
    Conversion.nesting tables = .ok nesting ∧
    FilesAll tables "TypeDef" TableNumber.typeDef TypeDef.handle (TypeFrom generics nesting)
      store.typeDefs
  /-- The places of the kept methods are, in order, those that some type lists. -/
  methodDefs : ∃ generics marked cells kept, genericParams tables = .ok generics ∧
    rows tables "MethodDef" = .ok cells ∧ kept.Sublist (cells.zipIdx 1) ∧
    (∀ place ∈ cells.zipIdx 1, place ∈ kept ↔
      ∃ type ∈ store.typeDefs.values, ⟨TableNumber.methodDef, place.2⟩ ∈ type.methods) ∧
    Files TableNumber.methodDef MethodDef.handle
      (fun h cell method => methodDef generics marked method.owner h cell = .ok method)
      kept store.methodDefs
  owners : ∀ entry ∈ store.methodDefs.entries, ∃ type,
    store.typeDefs.get? entry.2.owner = some type ∧ entry.1 ∈ type.methods

namespace Tabulates

variable {tables : Cell} {store : Store}

theorem keyed (htabulates : Tabulates tables store) : store.Keyed := by
  obtain ⟨_, _, -, -, htypeDefs⟩ := htabulates.typeDefs
  obtain ⟨_, _, _, _, -, -, -, -, hmethodDefs⟩ := htabulates.methodDefs
  exact ⟨htypeDefs.keyedBy, htabulates.typeRefs.keyedBy, htabulates.exportedTypes.keyedBy,
    hmethodDefs.keyedBy, htabulates.memberRefs.keyedBy, htabulates.methodSpecs.keyedBy,
    htabulates.typeSpecs.keyedBy⟩

theorem listed_of_get? (htabulates : Tabulates tables store) {h : Handle} {method : MethodDef}
    (hfound : store.methodDefs.get? h = some method) :
    ∃ type ∈ store.typeDefs.values, type.handle = method.owner ∧ h ∈ type.methods := by
  obtain ⟨type, howner, hlisted⟩ :=
    htabulates.owners (h, method) ((OrderedMap.get?_eq_some_iff _ _ _).mp hfound)
  have hentry := (OrderedMap.get?_eq_some_iff _ _ _).mp howner
  exact ⟨type, List.mem_map_of_mem hentry, (htabulates.keyed.typeDefs.of_get? howner).1, hlisted⟩

end Tabulates

end Conversion

namespace Store

/-! ### Every kept method is reported once -/

variable {store : Store} {lister : Lister} {options : AnalysisOptions}

theorem visitedMethods_of_all (hall : options.ignoreCompilerGenerated = false) (type : TypeDef) :
    store.visitedMethods options type = store.methodsOf type := by
  simp [visitedMethods, hall]

/-- The methods of a type are those of its list that were kept. -/
theorem map_handle_methodsOf (hkeyed : store.Keyed) (type : TypeDef) :
    (store.methodsOf type).map MethodDef.handle =
      type.methods.filter store.methodDefs.contains := by
  unfold methodsOf
  induction type.methods with
  | nil => rfl
  | cons h rest ih =>
    cases hfound : store.methodDefs.get? h with
    | none =>
      have hmissing : ¬ store.methodDefs.contains h = true := by
        rw [OrderedMap.contains, hfound]
        decide
      rw [List.filterMap_cons_none hfound, List.filter_cons_of_neg hmissing, ih]
    | some method =>
      have hpresent : store.methodDefs.contains h = true := by
        rw [OrderedMap.contains, hfound]
        rfl
      rw [List.filterMap_cons_some hfound, List.filter_cons_of_pos hpresent, List.map_cons, ih,
        (hkeyed.methodDefs.of_get? hfound).1]

/-- The entry of a type shows the kept methods of the type's list, in the order of
the list, and each of them is a method that the type owns. -/
def PresentsType (store : Store) (options : AnalysisOptions) (row : TypeDef)
    (type : ReportedType) : Prop :=
  store.keyOf row.handle .names = .ok type.name ∧ type.kind = store.kindWord row ∧
    type.methods.map ReportedMethod.handle = row.methods.filter store.methodDefs.contains ∧
    ∀ reported ∈ type.methods, ∃ method,
      store.methodDefs.get? reported.handle = some method ∧ method.owner = row.handle ∧
      store.keyOf method.handle options.style = .ok reported.name ∧ reported.rva = method.rva

/-- A report presents a store: it has an entry for each type, in order, and all
together the entries show every kept method once. -/
structure Presents (store : Store) (options : AnalysisOptions) (report : Report) : Prop where
  types : List.Forall₂ (store.PresentsType options) store.typeDefs.values report.types
  once : (report.methods.map ReportedMethod.handle).Perm store.methodDefs.keys

theorem map_handles_of_presentsType {rows : List TypeDef} {types : List ReportedType}
    (hpresents : List.Forall₂ (store.PresentsType options) rows types) :
    types.map (fun type => type.methods.map ReportedMethod.handle) =
      rows.map fun row => row.methods.filter store.methodDefs.contains := by
  rw [← List.forall₂_eq_eq_eq, List.forall₂_map_left_iff, List.forall₂_map_right_iff]
  exact hpresents.flip.imp fun type row h => h.2.2.1

end Store

theorem eq_of_mem_of_nodup_flatMap {α β : Type} {f : α → List β} {xs : List α}
    (hnodup : (xs.flatMap f).Nodup) {x y : α} (hx : x ∈ xs) (hy : y ∈ xs) {b : β}
    (hleft : b ∈ f x) (hright : b ∈ f y) : x = y := by
  induction xs with
  | nil => cases hx
  | cons a rest ih =>
    rw [List.flatMap_cons] at hnodup
    obtain ⟨-, hothers, hapart⟩ := List.nodup_append.mp hnodup
    rcases List.mem_cons.mp hx with rfl | hlaterX
    · rcases List.mem_cons.mp hy with rfl | hlaterY
      · rfl
      · exact absurd rfl (hapart b hleft b (List.mem_flatMap.mpr ⟨y, hlaterY, hright⟩))
    · rcases List.mem_cons.mp hy with rfl | hlaterY
      · exact absurd rfl (hapart b hright b (List.mem_flatMap.mpr ⟨x, hlaterX, hleft⟩))
      · exact ih hothers hlaterX hlaterY

namespace Conversion.Tabulates

open Store

variable {tables : Cell} {store : Store} {lister : Lister} {options : AnalysisOptions}

/-- Where no method is listed twice, only its owner lists it. -/
theorem owner_eq (htabulates : Tabulates tables store)
    (hnodup : (store.typeDefs.values.flatMap TypeDef.methods).Nodup) {row : TypeDef}
    (hmember : row ∈ store.typeDefs.values) {method : MethodDef}
    (hlisted : method ∈ store.methodsOf row) : method.owner = row.handle := by
  have hfound := get?_of_mem_methodsOf htabulates.keyed hlisted
  obtain ⟨type, htype, howner, hinside⟩ := htabulates.listed_of_get? hfound
  have hhere : method.handle ∈ row.methods := by
    have hshown : method.handle ∈ (store.methodsOf row).map MethodDef.handle :=
      List.mem_map_of_mem hlisted
    rw [map_handle_methodsOf htabulates.keyed] at hshown
    exact (List.mem_filter.mp hshown).1
  rw [← howner, eq_of_mem_of_nodup_flatMap hnodup htype hmember hinside hhere]

theorem presents (htabulates : Tabulates tables store)
    (hnodup : (store.typeDefs.values.flatMap TypeDef.methods).Nodup)
    (hall : options.ignoreCompilerGenerated = false) {report : Report}
    (hanalyzed : store.analyze lister options = .ok report) : store.Presents options report := by
  have hkeyed := htabulates.keyed
  obtain ⟨scanned, -, -, hshape⟩ := shape_of_analyze hkeyed hanalyzed
  have htypes : List.Forall₂ (store.PresentsType options) store.typeDefs.values report.types := by
    refine (forall₂_mem_left hshape).imp ?_
    rintro row type ⟨hmember, hnamed, hkind, hentries⟩
    rw [visitedMethods_of_all hall] at hentries
    refine ⟨hnamed, hkind, ?_, ?_⟩
    · rw [← map_handle_methodsOf hkeyed, ← List.forall₂_eq_eq_eq, List.forall₂_map_left_iff,
        List.forall₂_map_right_iff]
      refine hentries.flip.imp fun reported method h => ?_
      obtain ⟨_, _, _, _, _, -, -, -, rfl⟩ := Reports.parts h
      rfl
    · intro reported hinside
      obtain ⟨method, hlisted, hshown⟩ := exists_mem_of_forall₂_right hentries hinside
      obtain ⟨key, _, _, _, _, hcomputed, -, -, rfl⟩ := hshown.parts
      exact ⟨method, get?_of_mem_methodsOf hkeyed hlisted,
        htabulates.owner_eq hnodup hmember hlisted, hcomputed, rfl⟩
  refine ⟨htypes, ?_⟩
  have hhandles : report.methods.map ReportedMethod.handle =
      (store.typeDefs.values.flatMap TypeDef.methods).filter store.methodDefs.contains := by
    rw [List.filter_flatMap, Report.methods, List.map_flatMap, List.flatMap_def,
      map_handles_of_presentsType htypes, ← List.flatMap_def]
  rw [hhandles]
  refine (List.perm_ext_iff_of_nodup (hnodup.filter _) store.methodDefs.nodup).mpr fun h => ?_
  rw [List.mem_filter, OrderedMap.contains_iff]
  constructor
  · rintro ⟨-, method, hfound⟩
    exact OrderedMap.get?_mem_keys hfound
  · intro hkept
    obtain ⟨method, hfound⟩ := OrderedMap.exists_get?_of_mem_keys hkept
    obtain ⟨type, htype, -, hlisted⟩ := htabulates.listed_of_get? hfound
    exact ⟨List.mem_flatMap.mpr ⟨type, htype, hlisted⟩, method, hfound⟩

end Conversion.Tabulates

namespace RawAssembly

open Conversion

variable {raw : RawAssembly} {store : Store}

theorem tabulates_of_convertTables {facts : HeaderFacts}
    (hdone : raw.convertTables facts = .ok store) : Tabulates raw.tables store := by
  obtain ⟨generics, hgenerics, hrest⟩ := Outcome.bind_eq_ok_iff.mp hdone
  obtain ⟨nesting, hnesting, hrest⟩ := Outcome.bind_eq_ok_iff.mp hrest
  obtain ⟨typeRefs, htypeRefs, hrest⟩ := Outcome.bind_eq_ok_iff.mp hrest
  obtain ⟨types, htypes, hrest⟩ := Outcome.bind_eq_ok_iff.mp hrest
  obtain ⟨memberRefs, hmemberRefs, hrest⟩ := Outcome.bind_eq_ok_iff.mp hrest
  obtain ⟨marked, -, hrest⟩ := Outcome.bind_eq_ok_iff.mp hrest
  obtain ⟨typeDefs, htypeDefs, hrest⟩ := Outcome.bind_eq_ok_iff.mp hrest
  obtain ⟨methodDefs, hmethodDefs, hrest⟩ := Outcome.bind_eq_ok_iff.mp hrest
  obtain ⟨exportedTypes, hexportedTypes, hrest⟩ := Outcome.bind_eq_ok_iff.mp hrest
  obtain ⟨methodSpecs, hmethodSpecs, hrest⟩ := Outcome.bind_eq_ok_iff.mp hrest
  obtain ⟨typeSpecs, htypeSpecs, hrest⟩ := Outcome.bind_eq_ok_iff.mp hrest
  cases Outcome.pure_eq_ok_iff.mp hrest
  -- the types: outlines first, whole rows from them
  obtain ⟨typeCells, htypeCells, houtlined⟩ := converted_eq_ok_iff.mp htypes
  have hcompleted := Outcome.mapM_eq_ok_iff.mp htypeDefs
  have hsources : List.Forall₂
      (fun place row => TypeFrom generics nesting ⟨TableNumber.typeDef, place.2⟩ place.1 row)
      (typeCells.zipIdx 1) typeDefs := by
    refine (forall₂_trans houtlined hcompleted).imp ?_
    rintro place row ⟨outline, houtline, hrow⟩
    refine ⟨?_, outline, houtline, hrow⟩
    rw [(typeDef_eq_ok hrow).2]
    exact (typeOutline_eq_ok houtline).2
  have htypeOwn : ∀ h cell row, TypeFrom generics nesting h cell row → row.handle = h :=
    fun _ _ _ => TypeFrom.handle
  have htypesFiled := files_byHandle (nodup_places typeCells) htypeOwn hsources
  have htypeValues := values_byHandle (nodup_handles (nodup_places typeCells) htypeOwn hsources)
  -- the methods: those places for which a type is found
  obtain ⟨cells, hcells, hkept⟩ := methodDefs_eq_ok hmethodDefs
  have hkeptPlaces : (((cells.zipIdx 1).filter fun place =>
      (owner? types ⟨TableNumber.methodDef, place.2⟩).isSome).map Prod.snd).Nodup :=
    (nodup_places cells).sublist (List.filter_sublist.map _)
  have hmethodsMatched := hkept.imp fun place method h => h.choose_spec.2.2.2
  have hmethodOwn : ∀ h cell (method : MethodDef),
      methodDef generics marked method.owner h cell = .ok method → method.handle = h :=
    fun _ _ _ hdone => (methodDef_eq_ok hdone).1
  have hmethodsFiled := files_byHandle hkeptPlaces hmethodOwn hmethodsMatched
  have hmethodEntries := entries_byHandle (nodup_handles hkeptPlaces hmethodOwn hmethodsMatched)
  refine ⟨filesAll_byHandle (fun _ _ _ => typeRef_handle) htypeRefs,
    filesAll_byHandle (fun _ _ _ => memberRef_handle) hmemberRefs,
    filesAll_byHandle (fun _ _ _ => exportedType_handle) hexportedTypes,
    filesAll_byHandle (fun _ _ _ => methodSpec_handle) hmethodSpecs,
    filesAll_byHandle (fun _ _ _ => typeSpec_handle) htypeSpecs,
    ⟨generics, nesting, hgenerics, hnesting, typeCells, htypeCells, htypesFiled⟩,
    ⟨generics, marked, cells, _, hgenerics, hcells, List.filter_sublist, ?_, hmethodsFiled⟩, ?_⟩
  · intro place hmember
    rw [List.mem_filter, and_iff_right hmember, owner?_isSome_iff]
    show _ ↔ ∃ type ∈ (byHandle TypeDef.handle typeDefs).values, _
    rw [htypeValues]
    constructor
    · rintro ⟨outline, houtline, hinside⟩
      obtain ⟨row, hrow, hdone⟩ := exists_mem_of_forall₂_left hcompleted houtline
      exact ⟨row, hrow, by rw [(typeDef_eq_ok hdone).2]; exact hinside⟩
    · rintro ⟨row, hrow, hinside⟩
      obtain ⟨outline, houtline, hdone⟩ := exists_mem_of_forall₂_right hcompleted hrow
      exact ⟨outline, houtline, by rw [← (typeDef_eq_ok hdone).2]; exact hinside⟩
  · intro entry hinside
    replace hinside : entry ∈ (byHandle MethodDef.handle methodDefs).entries := hinside
    rw [hmethodEntries] at hinside
    obtain ⟨method, hmember, rfl⟩ := List.mem_map.mp hinside
    obtain ⟨place, -, outline, houtline, howner, hlisted, -⟩ :=
      exists_mem_of_forall₂_right hkept hmember
    obtain ⟨row, hrow, hdone⟩ := exists_mem_of_forall₂_left hcompleted houtline
    obtain ⟨hhandle, hmethods⟩ := typeDef_eq_ok hdone
    refine ⟨row, ?_, by rw [hmethods]; exact hlisted⟩
    have hfound := htypesFiled.keyedBy.get?_of_mem_values (by rw [htypeValues]; exact hrow)
    rw [hhandle, ← howner] at hfound
    exact hfound

theorem tabulates_of_toStore {fileSize : Int} (hdone : raw.toStore fileSize = .ok store) :
    Tabulates raw.tables store := by
  obtain ⟨facts, -, hrest⟩ := Outcome.bind_eq_ok_iff.mp hdone
  split at hrest
  · cases hrest
  · exact tabulates_of_convertTables (Outcome.mapError_eq_ok_iff.mp hrest)

/-- **A converted assembly loses no method and repeats none.**  Its store files
every row of the tables under its place, keeps exactly the methods that types
list, and gives each an owner that lists it.  Where no method is listed twice,
every report shows each kept method once, under its owner. -/
theorem toStore_files_and_reports {fileSize : Int} (hdone : raw.toStore fileSize = .ok store) :
    Tabulates raw.tables store ∧
      ((store.typeDefs.values.flatMap TypeDef.methods).Nodup →
        ∀ (lister : Lister) (options : AnalysisOptions), options.ignoreCompilerGenerated = false →
          ∀ report, store.analyze lister options = .ok report → store.Presents options report) := by
  have htabulates := tabulates_of_toStore hdone
  exact ⟨htabulates, fun hnodup lister options hall report hanalyzed =>
    htabulates.presents hnodup hall hanalyzed⟩

/-- An index into the method table. -/
def methodIndex (position : Int) : Cell :=
  .record [(lit "row_index", .int position)]

/-- Two types and three methods.  The first type lists the last method, the
second one the first method and a place after the end of the table. -/
def orphanedMethod : RawAssembly where
  header := .record [(lit "ImageBase", .int 0), (lit "AddressOfEntryPoint", .int 0),
    (lit "SectionAlignment", .int 0), (lit "FileAlignment", .int 0)]
  tables := .record [
    (lit "TypeDef", .list [
      .record [(lit "TypeNamespace", .null), (lit "TypeName", .text (lit "T")),
        (lit "MethodList", .list [methodIndex 3])],
      .record [(lit "TypeNamespace", .null), (lit "TypeName", .text (lit "U")),
        (lit "MethodList", .list [methodIndex 0, methodIndex 9, methodIndex 1])]]),
    (lit "MethodDef", .list [
      .record [(lit "Name", .text (lit "First")), (lit "Signature", .null)],
      .record [(lit "Name", .text (lit "Orphan")), (lit "Signature", .null)],
      .record [(lit "Name", .text (lit "Last")), (lit "Signature", .null)]])]
  userStrings? := none
  image := ⟨#[]⟩

theorem orphanedMethod_left_out :
    ∃ store report, orphanedMethod.toStore 0 = .ok store ∧
      (store.typeDefs.values.flatMap TypeDef.methods).Nodup ∧
      store.analyze (store.lister .plain) ⟨.names, false, false, []⟩ = .ok report ∧
      Tabulates orphanedMethod.tables store ∧ store.Presents ⟨.names, false, false, []⟩ report ∧
      report.types.map (fun type => type.methods.map ReportedMethod.handle) =
        [[⟨TableNumber.methodDef, 3⟩], [⟨TableNumber.methodDef, 1⟩]] := by
  obtain ⟨store, hdone⟩ : ∃ store, orphanedMethod.toStore 0 = .ok store :=
    Outcome.exists_of_isOk (by decide +kernel)
  have hlisted : (orphanedMethod.toStore 0).toOption.map
      (fun store => store.typeDefs.values.flatMap TypeDef.methods) =
      some [⟨TableNumber.methodDef, 3⟩, ⟨TableNumber.methodDef, 9⟩,
        ⟨TableNumber.methodDef, 1⟩] := by
    decide +kernel
  have hkept : (orphanedMethod.toStore 0).toOption.map (fun store => store.typeDefs.values.map
      fun row => row.methods.filter store.methodDefs.contains) =
      some [[⟨TableNumber.methodDef, 3⟩], [⟨TableNumber.methodDef, 1⟩]] := by
    decide +kernel
  have hreturns : (orphanedMethod.toStore 0).toOption.any (fun store =>
      (store.analyze (store.lister .plain) ⟨.names, false, false, []⟩).isOk) = true := by
    decide +kernel
  rw [hdone] at hlisted hkept hreturns
  obtain ⟨report, hanalyzed⟩ := Outcome.exists_of_isOk hreturns
  have hnodup : (store.typeDefs.values.flatMap TypeDef.methods).Nodup := by
    rw [show store.typeDefs.values.flatMap TypeDef.methods = _ from Option.some.inj hlisted]
    decide
  obtain ⟨htabulates, hreported⟩ := toStore_files_and_reports hdone
  have hpresents := hreported hnodup _ _ rfl report hanalyzed
  exact ⟨store, report, hdone, hnodup, hanalyzed, htabulates, hpresents,
    (Store.map_handles_of_presentsType hpresents.types).trans (Option.some.inj hkept)⟩

end RawAssembly

end CilAtlas
