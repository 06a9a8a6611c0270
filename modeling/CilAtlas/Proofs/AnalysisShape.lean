import CilAtlas.Proofs.CallResolution
import CilAtlas.Report.Analysis

/-!
# The shape of a report

A report lists the types in the order of the store, and under each the visited
methods in the order of the type.  The bodies are decoded ahead and found by handle,
which gives each method its own wherever rows are stored under their own handles.
There everything an entry shows comes from its own method's row, body and signature,
except the calls, which also need the table of all visited methods.
-/

namespace CilAtlas

/-! ### Runs of a list -/

section Runs

variable {α β γ δ : Type}

/-- Items that match a list of groups one by one, cut into runs of the lengths of
the groups, match them group by group. -/
theorem Store.forall₂_splitRuns {R : α → β → Prop} {groups : List (List α)} {items : List β}
    (hmatched : List.Forall₂ R groups.flatten items) :
    List.Forall₂ (List.Forall₂ R) groups (Store.splitRuns (groups.map List.length) items) := by
  induction groups generalizing items with
  | nil => exact .nil
  | cons group groups ih =>
    rw [List.flatten_cons] at hmatched
    -- the first run has the length of the first group, the others follow it
    have hfirst := List.forall₂_take group.length hmatched
    have hothers := List.forall₂_drop group.length hmatched
    rw [List.take_left] at hfirst
    rw [List.drop_left] at hothers
    exact .cons hfirst (ih hothers)

/-- Three lists put together item by item. -/
theorem forall₂_zip_map {A : α → β → Prop} {B : α → γ → Prop} {xs : List α} {ys : List β}
    {zs : List γ} (f : α → β → γ → δ) (hfirst : List.Forall₂ A xs ys)
    (hsecond : List.Forall₂ B xs zs) :
    List.Forall₂ (fun x d => ∃ y z, A x y ∧ B x z ∧ d = f x y z) xs
      (((xs.zip ys).zip zs).map fun ((x, y), z) => f x y z) := by
  induction hfirst generalizing zs with
  | nil =>
    cases hsecond
    exact .nil
  | cons hA _ ih =>
    cases hsecond with
    | cons hB hothers => exact .cons ⟨_, _, hA, hB, rfl⟩ (ih hothers)

/-- Parts taken off items and put together again. -/
theorem map_zip_zip_parts {A : α → δ → Prop} {xs : List α} {items : List δ} (f : α → β → γ → δ)
    (first : δ → β) (second : δ → γ) (hmatched : List.Forall₂ A xs items)
    (hwhole : ∀ x item, A x item → f x (first item) (second item) = item) :
    ((xs.zip (items.map first)).zip (items.map second)).map (fun ((x, y), z) => f x y z) =
      items := by
  induction hmatched with
  | nil => rfl
  | cons hA _ ih =>
    simp only [List.map_cons, List.zip_cons_cons, hwhole _ _ hA, ih]

/-- Groups put one behind the other and cut again at their lengths. -/
theorem Store.splitRuns_flatten (groups : List (List α)) :
    Store.splitRuns (groups.map List.length) groups.flatten = groups := by
  induction groups with
  | nil => rfl
  | cons group groups ih =>
    rw [List.map_cons, Store.splitRuns, List.flatten_cons, List.take_left, List.drop_left, ih]

/-- Results for pairs are results for their first parts. -/
theorem forall₂_of_zip {A : α → β → Prop} {R : α × β → γ → Prop} {xs : List α} {ys : List β}
    {zs : List γ} (hpaired : List.Forall₂ A xs ys) (hresults : List.Forall₂ R (xs.zip ys) zs) :
    List.Forall₂ (fun x z => ∃ y, A x y ∧ R (x, y) z) xs zs := by
  induction hpaired generalizing zs with
  | nil =>
    cases hresults
    exact .nil
  | cons hA _ ih =>
    cases hresults with
    | cons hR hothers => exact .cons ⟨_, hA, hR⟩ (ih hothers)

/-- Results for first parts, whatever goes with them, are results for pairs. -/
theorem forall₂_zip_of {A : α → β → Prop} {R : α × β → γ → Prop} {xs : List α} {ys : List β}
    {zs : List γ} (hpaired : List.Forall₂ A xs ys)
    (hresults : List.Forall₂ (fun x z => ∀ y, A x y → R (x, y) z) xs zs) :
    List.Forall₂ R (xs.zip ys) zs := by
  induction hpaired generalizing zs with
  | nil =>
    cases hresults
    exact .nil
  | cons hA _ ih =>
    cases hresults with
    | cons hR hothers => exact .cons (hR _ hA) (ih hothers)

end Runs

namespace Store

variable {store : Store} {lister : Lister} {options : AnalysisOptions}

/-- The methods that an analysis visits, in order. -/
def visited (store : Store) (options : AnalysisOptions) : List MethodDef :=
  (store.typeDefs.values.map (store.visitedMethods options)).flatten

theorem get?_of_mem_visited (hkeyed : store.Keyed) {method : MethodDef}
    (hmember : method ∈ store.visited options) :
    store.methodDefs.get? method.handle = some method := by
  obtain ⟨group, hgroup, hinside⟩ := List.mem_flatten.mp hmember
  obtain ⟨row, -, rfl⟩ := List.mem_map.mp hgroup
  exact get?_of_mem_methodsOf hkeyed (List.mem_filter.mp hinside).1

/-! ### Bodies decoded ahead -/

/-- The body that is used for a method: the one handed in, or its own. -/
def bodyFrom (store : Store) (bodies? : Option (Handle → Option Body)) (method : MethodDef) :
    Option Body :=
  match bodies? with
  | some bodies => bodies method.handle
  | none => store.readBody? method

/-- The bodies that an analysis decodes ahead. -/
def visitedBodies (store : Store) (options : AnalysisOptions) : Handle → Option Body :=
  store.sharedBodies (store.visited options)

/-- The body decoded ahead for a handle that no other method has is that of the method. -/
theorem sharedBodies_of_mem {methods : List MethodDef} {method : MethodDef}
    (halone : ∀ other ∈ methods, other.handle = method.handle → other = method)
    (hmember : method ∈ methods) :
    store.sharedBodies methods method.handle = store.readBody? method := by
  have hagree : ∀ entry ∈ methods.map (fun m => (m.handle, store.readBody? m)),
      entry.1 = method.handle → entry.2 = store.readBody? method := by
    intro entry hlisted hsame
    obtain ⟨other, hother, rfl⟩ := List.mem_map.mp hlisted
    rw [halone other hother hsame]
  have hlisted : method.handle ∈
      (methods.map fun m => (m.handle, store.readBody? m)).map (·.1) := by
    rw [List.map_map]
    exact List.mem_map_of_mem (f := MethodDef.handle) hmember
  have hfound := OrderedMap.get?_insertAll_of_agree hagree OrderedMap.empty (.inr hlisted)
  show Option.join _ = _
  rw [OrderedMap.ofList, hfound]
  rfl

/-- Rows that are stored under their own handles share none. -/
theorem alone_of_rows {methods : List MethodDef}
    (hrows : ∀ method ∈ methods, store.methodDefs.get? method.handle = some method)
    {method : MethodDef} (hmember : method ∈ methods) :
    ∀ other ∈ methods, other.handle = method.handle → other = method := by
  intro other hother hsame
  have hrow := hrows other hother
  rw [hsame, hrows method hmember] at hrow
  exact (Option.some.inj hrow).symm

theorem bodyFrom_visitedBodies (hkeyed : store.Keyed) {method : MethodDef}
    (hmember : method ∈ store.visited options) :
    store.bodyFrom (some (store.visitedBodies options)) method = store.bodyFrom none method :=
  sharedBodies_of_mem (alone_of_rows (fun _ => get?_of_mem_visited hkeyed) hmember) hmember

variable {bodies? bodies?' : Option (Handle → Option Body)}

theorem callsFrom_eq (store : Store) (bodies? : Option (Handle → Option Body))
    (method : MethodDef) :
    store.callsFrom bodies? method = store.callsOfBody? (store.bodyFrom bodies? method) := by
  cases bodies? with
  | none => rfl
  | some bodies => rfl

/-- Scanning looks at the body that is used for the method, wherever it comes from. -/
theorem scanEntry_congr {style : ParameterStyle} {method : MethodDef}
    (hsame : store.bodyFrom bodies? method = store.bodyFrom bodies?' method) :
    store.scanEntry style bodies? method = store.scanEntry style bodies?' method := by
  rw [scanEntry, scanEntry, callsFrom_eq, callsFrom_eq, hsame]

/-! ### The first pass -/

/-- What scanning notes about a method: its key and address, and its callees. -/
def ScannedAs (store : Store) (style : ParameterStyle) (method : MethodDef) (s : ScannedMethod) :
    Prop :=
  ∃ key, store.keyOf method.handle style = .ok key ∧
    s = ⟨⟨method.handle, key, method.rva⟩, store.callsOf method⟩

/-- A method is noted by its key and address. -/
theorem tableEntry_eq_ok_iff (hkeyed : store.Keyed) {method : MethodDef}
    (hfound : store.methodDefs.get? method.handle = some method) {style : ParameterStyle}
    {entry : TableEntry} :
    store.tableEntry style method = .ok entry ↔
      ∃ key, store.keyOf method.handle style = .ok key ∧
        entry = ⟨method.handle, key, method.rva⟩ := by
  rw [keyOf_methodDef hkeyed hfound, tableEntry, Outcome.bind_eq_ok_iff]
  constructor
  · rintro ⟨e, hdescribed, hdone⟩
    exact ⟨e.key, Outcome.map_eq_ok_iff.mpr ⟨e, hdescribed, rfl⟩,
      (Outcome.pure_eq_ok_iff.mp hdone).symm⟩
  · rintro ⟨key, hcomputed, rfl⟩
    obtain ⟨e, hdescribed, rfl⟩ := Outcome.map_eq_ok_iff.mp hcomputed
    exact ⟨e, hdescribed, rfl⟩

theorem exists_tableEntry (howners : store.OwnersDefined) {method : MethodDef}
    (hfound : store.methodDefs.get? method.handle = some method) (style : ParameterStyle) :
    ∃ entry, store.tableEntry style method = .ok entry := by
  obtain ⟨e, hdescribed⟩ := exists_methodEntity howners hfound style
  rw [tableEntry, hdescribed]
  exact ⟨_, rfl⟩

theorem scanEntry_eq_ok_iff (hkeyed : store.Keyed) {method : MethodDef}
    (hfound : store.methodDefs.get? method.handle = some method) {style : ParameterStyle}
    {s : ScannedMethod} :
    store.scanEntry style none method = .ok s ↔ store.ScannedAs style method s := by
  rw [ScannedAs, scanEntry, Outcome.bind_eq_ok_iff]
  constructor
  · rintro ⟨entry, hentry, hdone⟩
    obtain ⟨key, hcomputed, rfl⟩ := (tableEntry_eq_ok_iff hkeyed hfound).mp hentry
    exact ⟨key, hcomputed, (Outcome.pure_eq_ok_iff.mp hdone).symm⟩
  · rintro ⟨key, hcomputed, rfl⟩
    exact ⟨_, (tableEntry_eq_ok_iff hkeyed hfound).mpr ⟨key, hcomputed, rfl⟩, rfl⟩

theorem exists_scanEntry (howners : store.OwnersDefined) {method : MethodDef}
    (hfound : store.methodDefs.get? method.handle = some method) (style : ParameterStyle)
    (bodies? : Option (Handle → Option Body)) :
    ∃ s, store.scanEntry style bodies? method = .ok s := by
  obtain ⟨entry, hnoted⟩ := exists_tableEntry howners hfound style
  rw [scanEntry, hnoted]
  exact ⟨_, rfl⟩

/-- Methods of the store can always be scanned. -/
theorem exists_scan (howners : store.OwnersDefined) {methods : List MethodDef}
    (hfound : ∀ method ∈ methods, store.methodDefs.get? method.handle = some method)
    (style : ParameterStyle) (bodies? : Option (Handle → Option Body)) :
    ∃ scanned, store.scan style bodies? methods = .ok (tableOf scanned, scanned) := by
  obtain ⟨scanned, hscanned⟩ := Outcome.exists_mapM_ok fun method hmember =>
    exists_scanEntry howners (hfound method hmember) style bodies?
  refine ⟨scanned, ?_⟩
  rw [scan, hscanned]
  rfl

theorem length_of_scan {style : ParameterStyle} {methods : List MethodDef} {table : LookupTable}
    {scanned : List ScannedMethod}
    (hscan : store.scan style bodies? methods = .ok (table, scanned)) :
    methods.length = scanned.length := by
  obtain ⟨scanned', hscanned, hdone⟩ := Outcome.bind_eq_ok_iff.mp hscan
  cases Outcome.pure_eq_ok_iff.mp hdone
  exact (Outcome.mapM_eq_ok_iff.mp hscanned).length_eq

/-! ### Entries -/

/-- The calls that a report shows for a method. -/
def callRecords (store : Store) (options : AnalysisOptions) (scanned : List ScannedMethod)
    (self : TableEntry) (method : MethodDef) : List CallRecord :=
  (store.callsOf method).entries.map fun entry =>
    (tableOf scanned).recordOf (if options.selfReference then some self else none) entry.1 entry.2

/-- The entry that a report shows for a method. -/
def Reports (store : Store) (lister : Lister) (options : AnalysisOptions)
    (scanned : List ScannedMethod) (method : MethodDef) (reported : ReportedMethod) : Prop :=
  ∃ key, store.keyOf method.handle options.style = .ok key ∧
    store.reportMethod lister method ⟨method.handle, key, method.rva⟩ (store.readBody? method)
      (store.callRecords options scanned ⟨method.handle, key, method.rva⟩ method) = .ok reported

/-- An entry put together from its parts. -/
theorem Reports.parts {scanned : List ScannedMethod} {method : MethodDef}
    {reported : ReportedMethod} (hreports : store.Reports lister options scanned method reported) :
    ∃ key size text source literals,
      store.keyOf method.handle options.style = .ok key ∧
      store.ilBytes method (store.readBody? method) = .ok (size, text) ∧
      reportedSource lister method (store.readBody? method) = .ok (source, literals) ∧
      reported = ⟨method.handle, key, method.rva, size, (reportedSignature lister method).2,
        (reportedSignature lister method).1, literals, text, source,
        store.callRecords options scanned ⟨method.handle, key, method.rva⟩ method⟩ := by
  obtain ⟨key, hcomputed, hshown⟩ := hreports
  obtain ⟨⟨size, text⟩, hdumped, hshown⟩ := Outcome.bind_eq_ok_iff.mp hshown
  obtain ⟨⟨source, literals⟩, hlisted, hshown⟩ := Outcome.bind_eq_ok_iff.mp hshown
  exact ⟨key, size, text, source, literals, hcomputed, Outcome.mapError_eq_ok_iff.mp hdumped,
    Outcome.mapError_eq_ok_iff.mp hlisted, (Outcome.pure_eq_ok_iff.mp hshown).symm⟩

/-- The entry of a method, from what scanning noted about it and the body that is
used for it.  With its own body, and where rows are stored under their own handles,
it is `Reports`. -/
def Enters (store : Store) (lister : Lister) (options : AnalysisOptions)
    (bodies? : Option (Handle → Option Body)) (scanned : List ScannedMethod) (method : MethodDef)
    (reported : ReportedMethod) : Prop :=
  ∃ s, store.scanEntry options.style bodies? method = .ok s ∧
    store.reportMethod lister method s.method (store.bodyFrom bodies? method)
      (s.pending.entries.map fun entry =>
        (tableOf scanned).recordOf (if options.selfReference then some s.method else none)
          entry.1 entry.2) = .ok reported

theorem Enters.reports (hkeyed : store.Keyed) {scanned : List ScannedMethod} {method : MethodDef}
    (hfound : store.methodDefs.get? method.handle = some method) {reported : ReportedMethod}
    (henters : store.Enters lister options none scanned method reported) :
    store.Reports lister options scanned method reported := by
  obtain ⟨s, hs, hshown⟩ := henters
  obtain ⟨key, hcomputed, rfl⟩ := (scanEntry_eq_ok_iff hkeyed hfound).mp hs
  exact ⟨key, hcomputed, hshown⟩

theorem Enters.congr {scanned : List ScannedMethod} {method : MethodDef}
    {reported : ReportedMethod}
    (hsame : store.bodyFrom bodies? method = store.bodyFrom bodies?' method)
    (henters : store.Enters lister options bodies? scanned method reported) :
    store.Enters lister options bodies?' scanned method reported := by
  obtain ⟨s, hs, hshown⟩ := henters
  rw [scanEntry_congr hsame] at hs
  rw [hsame] at hshown
  exact ⟨s, hs, hshown⟩

theorem enters_of_reportMethods {bodies : Handle → Option Body} {scanned : List ScannedMethod}
    {entries : List ReportedMethod}
    (hscans : List.Forall₂
      (fun method s => store.scanEntry options.style (some bodies) method = .ok s)
      (store.visited options) scanned)
    (hreported : store.reportMethods lister options bodies (tableOf scanned)
      ((store.visited options).zip scanned) = .ok entries) :
    List.Forall₂ (store.Enters lister options (some bodies) scanned) (store.visited options)
      entries := by
  refine (forall₂_of_zip hscans (Outcome.mapM_eq_ok_iff.mp hreported)).imp ?_
  rintro method entry ⟨s, hs, hentry⟩
  simp only [recordsOf_tableOf] at hentry
  exact ⟨s, hs, hentry⟩

/-- Entries that match the visited methods of each type match all of them in
order. -/
theorem forall₂_methods_of_types {R : MethodDef → ReportedMethod → Prop} {report : Report}
    (htypes : List.Forall₂ (fun row type => List.Forall₂ R (store.visitedMethods options row)
      type.methods) store.typeDefs.values report.types) :
    List.Forall₂ R (store.visited options) report.methods := by
  have hgrouped : List.Forall₂ (List.Forall₂ R)
      (store.typeDefs.values.map (store.visitedMethods options))
      (report.types.map ReportedType.methods) := by
    rw [List.forall₂_map_left_iff, List.forall₂_map_right_iff]
    exact htypes
  exact List.rel_flatten hgrouped

theorem Enters.handle_eq {scanned : List ScannedMethod} {method : MethodDef}
    {reported : ReportedMethod}
    (henters : store.Enters lister options bodies? scanned method reported) :
    reported.handle = method.handle := by
  obtain ⟨s, -, hshown⟩ := henters
  obtain ⟨_, -, hshown⟩ := Outcome.bind_eq_ok_iff.mp hshown
  obtain ⟨_, -, hshown⟩ := Outcome.bind_eq_ok_iff.mp hshown
  rw [← Outcome.pure_eq_ok_iff.mp hshown]

theorem reportMethods_of_enters {bodies : Handle → Option Body} {scanned : List ScannedMethod}
    {entries : List ReportedMethod}
    (hscans : List.Forall₂
      (fun method s => store.scanEntry options.style (some bodies) method = .ok s)
      (store.visited options) scanned)
    (henters : List.Forall₂ (store.Enters lister options (some bodies) scanned)
      (store.visited options) entries) :
    store.reportMethods lister options bodies (tableOf scanned)
      ((store.visited options).zip scanned) = .ok entries := by
  refine Outcome.mapM_eq_ok_iff.mpr (forall₂_zip_of hscans (henters.imp ?_))
  rintro method entry ⟨s, hs, hentry⟩ s' hs'
  obtain rfl : s = s' := Except.ok.inj (hs.symm.trans hs')
  simp only [recordsOf_tableOf]
  exact hentry

/-- The entry of a type: its key, its kind, and the entries of its visited
methods. -/
def EntersType (store : Store) (lister : Lister) (options : AnalysisOptions)
    (bodies? : Option (Handle → Option Body)) (scanned : List ScannedMethod) (row : TypeDef)
    (type : ReportedType) : Prop :=
  store.keyOf row.handle .names = .ok type.name ∧ type.kind = store.kindWord row ∧
    List.Forall₂ (store.Enters lister options bodies? scanned) (store.visitedMethods options row)
      type.methods

/-- What the whole report of a store consists of. -/
structure Composes (store : Store) (lister : Lister) (options : AnalysisOptions)
    (bodies? : Option (Handle → Option Body)) (scanned : List ScannedMethod) (report : Report) :
    Prop where
  scans : List.Forall₂ (fun method s => store.scanEntry options.style bodies? method = .ok s)
    (store.visited options) scanned
  assembly_eq : report.assembly = options.assemblyName
  facts_eq : report.facts = store.facts
  types : List.Forall₂ (store.EntersType lister options bodies? scanned) store.typeDefs.values
    report.types
  importedMethods : store.importedMethods = .ok report.importedMethods
  importedTypes : (store.typeRefs.keys.mapM fun h => store.keyOf h .names) =
    .ok report.importedTypes
  exportedTypes : (store.exportedTypes.keys.mapM fun h => store.keyOf h .names) =
    .ok report.exportedTypes

/-- A report depends on the bodies that are used for the visited methods. -/
theorem Composes.congr {scanned : List ScannedMethod} {report : Report}
    (hsame : ∀ method ∈ store.visited options,
      store.bodyFrom bodies? method = store.bodyFrom bodies?' method)
    (hcomposes : store.Composes lister options bodies? scanned report) :
    store.Composes lister options bodies?' scanned report := by
  have hscans := (List.forall₂_and_left _ _).mpr ⟨hsame, hcomposes.scans⟩
  have htypes := (List.forall₂_and_left _ _).mpr ⟨fun row hrow => hrow, hcomposes.types⟩
  refine { hcomposes with scans := ?_, types := htypes.imp ?_ }
  · exact hscans.imp fun method s h => (scanEntry_congr h.1).symm.trans h.2
  · rintro row type ⟨hrow, hnamed, hkind, hmethods⟩
    have hsameHere : ∀ method ∈ store.visitedMethods options row,
        store.bodyFrom bodies? method = store.bodyFrom bodies?' method := fun method hmember =>
      hsame method (List.mem_flatten.mpr ⟨_, List.mem_map_of_mem hrow, hmember⟩)
    have hentries := (List.forall₂_and_left _ _).mpr ⟨hsameHere, hmethods⟩
    exact ⟨hnamed, hkind, hentries.imp fun method reported h => h.2.congr h.1⟩

/-- A report that an analysis returns, part by part. -/
theorem exists_composes_of_analyze {report : Report}
    (hanalyzed : store.analyze lister options = .ok report) :
    ∃ scanned,
      store.Composes lister options (some (store.visitedBodies options)) scanned report := by
  obtain ⟨names, hnames, hrest⟩ := Outcome.bind_eq_ok_iff.mp hanalyzed
  obtain ⟨⟨table, scanned⟩, hscan, hrest⟩ := Outcome.bind_eq_ok_iff.mp hrest
  obtain ⟨entries, hentries, hrest⟩ := Outcome.bind_eq_ok_iff.mp hrest
  obtain ⟨importedMethods, hmethods, hrest⟩ := Outcome.bind_eq_ok_iff.mp hrest
  obtain ⟨importedTypes, htypes, hrest⟩ := Outcome.bind_eq_ok_iff.mp hrest
  obtain ⟨exportedTypes, hexported, hrest⟩ := Outcome.bind_eq_ok_iff.mp hrest
  cases Outcome.pure_eq_ok_iff.mp hrest
  obtain ⟨scanned', hscanned, hdone⟩ :=
    Outcome.bind_eq_ok_iff.mp (Outcome.mapError_eq_ok_iff.mp hscan)
  cases Outcome.pure_eq_ok_iff.mp hdone
  have hscans := Outcome.mapM_eq_ok_iff.mp hscanned
  have hnamed := Outcome.mapM_eq_ok_iff.mp (Outcome.mapError_eq_ok_iff.mp hnames)
  have hgrouped := forall₂_splitRuns (enters_of_reportMethods hscans hentries)
  rw [List.forall₂_map_left_iff] at hgrouped
  have hentered := forall₂_zip_map
    (fun row name methods => (⟨name, store.kindWord row, methods⟩ : ReportedType)) hnamed hgrouped
  refine ⟨scanned, hscans, rfl, rfl, hentered.imp ?_, Outcome.mapError_eq_ok_iff.mp hmethods,
    Outcome.mapError_eq_ok_iff.mp htypes, Outcome.mapError_eq_ok_iff.mp hexported⟩
  rintro row type ⟨name, methods, hname, hmethods, rfl⟩
  exact ⟨hname, rfl, hmethods⟩

/-- The parts of a report make the analysis return it. -/
theorem Composes.analyze_eq {scanned : List ScannedMethod} {report : Report}
    (hcomposes : store.Composes lister options (some (store.visitedBodies options))
      scanned report) :
    store.analyze lister options = .ok report := by
  have hnames : (store.typeDefs.values.mapM fun row => store.keyOf row.handle .names) =
      .ok (report.types.map ReportedType.name) := by
    rw [Outcome.mapM_eq_ok_iff, List.forall₂_map_right_iff]
    exact hcomposes.types.imp fun row type h => h.1
  have hscan : store.scan options.style (some (store.visitedBodies options))
      (store.visited options) = .ok (tableOf scanned, scanned) := by
    rw [scan, Outcome.mapM_eq_ok_iff.mpr hcomposes.scans]
    rfl
  have hentries : store.reportMethods lister options (store.visitedBodies options)
      (tableOf scanned) ((store.visited options).zip scanned) = .ok report.methods :=
    reportMethods_of_enters hcomposes.scans
      (forall₂_methods_of_types (hcomposes.types.imp fun row type h => h.2.2))
  have hlengths : (store.typeDefs.values.map (store.visitedMethods options)).map List.length =
      (report.types.map ReportedType.methods).map List.length := by
    rw [List.map_map, List.map_map, ← List.forall₂_eq_eq_eq, List.forall₂_map_left_iff,
      List.forall₂_map_right_iff]
    exact hcomposes.types.imp fun row type h => h.2.2.length_eq
  have hgroups : splitRuns ((store.typeDefs.values.map (store.visitedMethods options)).map
      List.length) report.methods = report.types.map ReportedType.methods := by
    rw [hlengths, Report.methods, List.flatMap_def, splitRuns_flatten]
  have htypes := map_zip_zip_parts (fun row name methods =>
    (⟨name, store.kindWord row, methods⟩ : ReportedType)) ReportedType.name ReportedType.methods
    hcomposes.types fun row type h => by rw [← h.2.1]
  rw [← hgroups] at htypes
  refine Outcome.bind_eq_ok_iff.mpr ⟨_, Outcome.mapError_eq_ok_iff.mpr hnames, ?_⟩
  refine Outcome.bind_eq_ok_iff.mpr ⟨_, Outcome.mapError_eq_ok_iff.mpr hscan, ?_⟩
  refine Outcome.bind_eq_ok_iff.mpr ⟨_, hentries, ?_⟩
  refine Outcome.bind_eq_ok_iff.mpr
    ⟨_, Outcome.mapError_eq_ok_iff.mpr hcomposes.importedMethods, ?_⟩
  refine Outcome.bind_eq_ok_iff.mpr ⟨_, Outcome.mapError_eq_ok_iff.mpr hcomposes.importedTypes, ?_⟩
  refine Outcome.bind_eq_ok_iff.mpr ⟨_, Outcome.mapError_eq_ok_iff.mpr hcomposes.exportedTypes, ?_⟩
  rw [htypes, ← hcomposes.assembly_eq, ← hcomposes.facts_eq]
  rfl

/-- Where rows are stored under their own handles, decoding ahead gives the report that
each method's own body gives. -/
theorem composes_visitedBodies_iff (hkeyed : store.Keyed) {scanned : List ScannedMethod}
    {report : Report} :
    store.Composes lister options (some (store.visitedBodies options)) scanned report ↔
      store.Composes lister options none scanned report :=
  ⟨Composes.congr fun _ => bodyFrom_visitedBodies hkeyed,
    Composes.congr fun _ hmember => (bodyFrom_visitedBodies hkeyed hmember).symm⟩

/-- A report that an analysis returns, type by type and method by method. -/
theorem shape_of_analyze (hkeyed : store.Keyed) {report : Report}
    (hanalyzed : store.analyze lister options = .ok report) :
    ∃ scanned, List.Forall₂ (store.ScannedAs options.style) (store.visited options) scanned ∧
      report.assembly = options.assemblyName ∧
      List.Forall₂
        (fun row type => store.keyOf row.handle .names = .ok type.name ∧
          type.kind = store.kindWord row ∧
          List.Forall₂ (store.Reports lister options scanned)
            (store.visitedMethods options row) type.methods)
        store.typeDefs.values report.types := by
  obtain ⟨scanned, hshared⟩ := exists_composes_of_analyze hanalyzed
  have hcomposes := (composes_visitedBodies_iff hkeyed).mp hshared
  have hstored := (List.forall₂_and_left _ _).mpr
    ⟨fun method hmember => get?_of_mem_visited hkeyed hmember, hcomposes.scans⟩
  refine ⟨scanned, hstored.imp fun method s h => (scanEntry_eq_ok_iff hkeyed h.1).mp h.2,
    hcomposes.assembly_eq, hcomposes.types.imp ?_⟩
  rintro row type ⟨hnamed, hkind, hentries⟩
  have hstored := (List.forall₂_and_left _ _).mpr
    ⟨fun method hmember => get?_of_mem_methodsOf hkeyed (List.mem_filter.mp hmember).1, hentries⟩
  exact ⟨hnamed, hkind, hstored.imp fun method reported h => h.2.reports hkeyed h.1⟩

/-- The methods of a report are the visited ones, in order. -/
theorem reports_of_analyze (hkeyed : store.Keyed) {report : Report}
    (hanalyzed : store.analyze lister options = .ok report) :
    ∃ scanned, List.Forall₂ (store.ScannedAs options.style) (store.visited options) scanned ∧
      report.assembly = options.assemblyName ∧
      List.Forall₂ (store.Reports lister options scanned) (store.visited options)
        report.methods := by
  obtain ⟨scanned, hscans, hassembly, htypes⟩ := shape_of_analyze hkeyed hanalyzed
  exact ⟨scanned, hscans, hassembly,
    forall₂_methods_of_types (htypes.imp fun row type h => h.2.2)⟩

end Store
end CilAtlas
