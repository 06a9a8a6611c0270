import CilAtlas.Proofs.ScanOrder

/-!
# Leaving out generated methods

An analysis may skip the methods that are marked as made by a compiler.  A
skipped method has no entry and is not in the table, so the methods that call it
see it as one of another assembly.  Nothing else depends on it: the report is the
one of all methods with the entries of the marked ones taken out, and with the
records of calls to them replaced where they stand.

Whether the analysis of all methods returns is assumed.  The one that skips can
return when the other fails, since a listing that cannot be read may be that of a
marked method.
-/

namespace CilAtlas
namespace Store

variable {store : Store} {lister : Lister} {options : AnalysisOptions}

/-- Whether a handle is that of a method marked as made by a compiler. -/
def isGenerated (store : Store) (h : Handle) : Bool :=
  (store.methodDefs.get? h).any MethodDef.compilerGenerated

/-- The record of a call, given what it calls: a marked method is recorded under
the name that the call site gives it, without an address. -/
def withoutCallee (store : Store) (target : CallTarget) (record : CallRecord) : CallRecord :=
  if store.isGenerated target.handle then
    match store.callSiteName target.handle target.instantiation with
    | .ok name => ⟨name, 0⟩
    | .error _ => record
  else record

/-- An entry whose calls of marked methods are replaced in place.  A record stands
for the first call of its callee. -/
def withoutCallees (store : Store) (reported : ReportedMethod) : ReportedMethod :=
  match store.methodDefs.get? reported.handle with
  | some method =>
    { reported with
      calls := List.zipWith store.withoutCallee (firstCalls (store.callTargets method))
        reported.calls }
  | none => reported

/-- A report with the marked methods taken out. -/
def withoutGenerated (store : Store) (report : Report) : Report :=
  { report with
    types := report.types.map fun type =>
      { type with
        methods := (type.methods.filter fun reported => !store.isGenerated reported.handle).map
          store.withoutCallees } }

/-! ### What is skipped -/

theorem isGenerated_of_get? {method : MethodDef}
    (hfound : store.methodDefs.get? method.handle = some method) :
    store.isGenerated method.handle = method.compilerGenerated := by
  rw [isGenerated, hfound]
  rfl

/-- The analysis that skips visits the methods of the other that are not marked. -/
theorem visitedMethods_skipping (hkeyed : store.Keyed) (options : AnalysisOptions)
    (type : TypeDef) :
    store.visitedMethods { options with ignoreCompilerGenerated := true } type =
      (store.visitedMethods { options with ignoreCompilerGenerated := false } type).filter
        fun method => !store.isGenerated method.handle := by
  unfold visitedMethods
  rw [List.filter_filter]
  refine List.filter_congr fun method hlisted => ?_
  rw [isGenerated_of_get? (get?_of_mem_methodsOf hkeyed hlisted)]
  simp

theorem visited_skipping (hkeyed : store.Keyed) (options : AnalysisOptions) :
    store.visited { options with ignoreCompilerGenerated := true } =
      (store.visited { options with ignoreCompilerGenerated := false }).filter
        fun method => !store.isGenerated method.handle := by
  unfold visited
  rw [List.filter_flatten, List.map_map]
  refine congrArg List.flatten (List.map_congr_left fun type _ => ?_)
  exact visitedMethods_skipping hkeyed options type

/-! ### The two tables -/

theorem holds_visited (hkeyed : store.Keyed) (options : AnalysisOptions) :
    store.Holds (store.visited options) := by
  intro method hmember
  exact OrderedMap.mem_values_of_get? (get?_of_mem_visited hkeyed hmember)

/-- The tables of the two analyses differ in the marked methods only: these are
absent from the one that skips them. -/
theorem get?_tableOf_skipping (hkeyed : store.Keyed) {scanned kept : List ScannedMethod}
    (hscans : List.Forall₂ (fun method s => store.scanEntry options.style none method = .ok s)
      (store.visited { options with ignoreCompilerGenerated := false }) scanned)
    (hscansKept : List.Forall₂ (fun method s => store.scanEntry options.style none method = .ok s)
      (store.visited { options with ignoreCompilerGenerated := true }) kept) (h : Handle) :
    (tableOf kept).get? h = if store.isGenerated h then none else (tableOf scanned).get? h := by
  have hregistered := get?_tableOf_eq_some_iff hkeyed (holds_visited hkeyed _)
    (hscans.imp fun method s hs => scans_of_scanEntry hs) h
  have hregisteredKept := get?_tableOf_eq_some_iff hkeyed (holds_visited hkeyed _)
    (hscansKept.imp fun method s hs => scans_of_scanEntry hs) h
  apply Option.ext
  intro entry
  rw [hregisteredKept, visited_skipping hkeyed]
  by_cases hmarked : store.isGenerated h = true
  · rw [if_pos hmarked]
    constructor
    · rintro ⟨method, hmember, rfl, -⟩
      have hunmarked := (List.mem_filter.mp hmember).2
      rw [hmarked] at hunmarked
      cases hunmarked
    · intro habsurdity
      cases habsurdity
  · rw [if_neg hmarked, hregistered]
    constructor
    · rintro ⟨method, hmember, hrest⟩
      exact ⟨method, (List.mem_filter.mp hmember).1, hrest⟩
    · rintro ⟨method, hmember, rfl, hnoted⟩
      exact ⟨method, List.mem_filter.mpr ⟨hmember, by simpa using hmarked⟩, rfl, hnoted⟩

/-! ### Records -/

/-- The record of a callee in the analysis that skips is the other one's, replaced
when the callee is marked. -/
theorem recordOf_skipping {table kept : LookupTable}
    (hdiffer : ∀ h, kept.get? h = if store.isGenerated h then none else table.get? h)
    {target : CallTarget} {entry : Handle × Text} (hnoted : store.NotedAs target entry) :
    kept.recordOf none entry.1 entry.2 =
      store.withoutCallee target (table.recordOf none entry.1 entry.2) := by
  obtain ⟨hsame, hnamed⟩ := hnoted
  unfold LookupTable.recordOf withoutCallee
  rw [hdiffer, hnamed, hsame]
  by_cases hmarked : store.isGenerated entry.1 = true
  · rw [if_pos hmarked, if_pos hmarked]
  · rw [if_neg hmarked, if_neg hmarked]

/-- The same for all callees of a method. -/
theorem map_recordOf_skipping {table kept : LookupTable}
    (hdiffer : ∀ h, kept.get? h = if store.isGenerated h then none else table.get? h)
    {targets : List CallTarget} {entries : List (Handle × Text)}
    (hnoted : List.Forall₂ store.NotedAs targets entries) :
    (entries.map fun entry => kept.recordOf none entry.1 entry.2) =
      List.zipWith store.withoutCallee targets
        (entries.map fun entry => table.recordOf none entry.1 entry.2) := by
  induction hnoted with
  | nil => rfl
  | cons hfirst _ ih => rw [List.map_cons, List.map_cons, List.zipWith_cons_cons, ih,
      recordOf_skipping hdiffer hfirst]

/-! ### Entries -/

/-- The calls of an entry play no part in the rest of it. -/
theorem reportMethod_with_calls {method : MethodDef} {entry : TableEntry} {body? : Option Body}
    {calls : List CallRecord} {reported : ReportedMethod}
    (hshown : store.reportMethod lister method entry body? calls = .ok reported)
    (calls' : List CallRecord) :
    reported.calls = calls ∧
      store.reportMethod lister method entry body? calls' =
        .ok { reported with calls := calls' } := by
  obtain ⟨code, hdumped, hshown⟩ := Outcome.bind_eq_ok_iff.mp hshown
  obtain ⟨source, hlisted, hshown⟩ := Outcome.bind_eq_ok_iff.mp hshown
  cases Outcome.pure_eq_ok_iff.mp hshown
  refine ⟨rfl, ?_⟩
  exact Outcome.bind_eq_ok_iff.mpr
    ⟨code, hdumped, Outcome.bind_eq_ok_iff.mpr ⟨source, hlisted, rfl⟩⟩

/-- The entry of a method that is not skipped, in both analyses. -/
theorem Enters.skipping (hkeyed : store.Keyed) (howners : store.OwnersDefined)
    (hplain : options.selfReference = false) {scanned kept : List ScannedMethod}
    (hdiffer : ∀ h, (tableOf kept).get? h =
      if store.isGenerated h then none else (tableOf scanned).get? h)
    {method : MethodDef} (hfound : store.methodDefs.get? method.handle = some method)
    {reported : ReportedMethod}
    (henters : store.Enters lister { options with ignoreCompilerGenerated := false } none scanned
      method reported) :
    store.Enters lister { options with ignoreCompilerGenerated := true } none kept method
      (store.withoutCallees reported) := by
  have hnamed := henters.handle_eq
  obtain ⟨s, hs, hshown⟩ := henters
  have hpending : s.pending = store.callsOf method := (scans_of_scanEntry hs).2
  refine ⟨s, hs, ?_⟩
  -- without self reference both analyses look up the same pending calls
  simp only [hplain, Bool.false_eq_true, if_false] at hshown ⊢
  rw [hpending] at hshown ⊢
  obtain ⟨hcalls, hreplaced⟩ := reportMethod_with_calls hshown
    ((store.callsOf method).entries.map fun entry => (tableOf kept).recordOf none entry.1 entry.2)
  rw [hreplaced, map_recordOf_skipping hdiffer (notedAs_callsOf hkeyed howners method), ← hcalls]
  rw [withoutCallees, hnamed, hfound]

theorem EntersType.skipping (hkeyed : store.Keyed) (howners : store.OwnersDefined)
    (hplain : options.selfReference = false) {scanned kept : List ScannedMethod}
    (hdiffer : ∀ h, (tableOf kept).get? h =
      if store.isGenerated h then none else (tableOf scanned).get? h)
    {row : TypeDef} {type : ReportedType}
    (henters : store.EntersType lister { options with ignoreCompilerGenerated := false } none
      scanned row type) :
    store.EntersType lister { options with ignoreCompilerGenerated := true } none kept row
      { type with
        methods := (type.methods.filter fun reported => !store.isGenerated reported.handle).map
          store.withoutCallees } := by
  obtain ⟨hnamed, hkind, hmethods⟩ := henters
  refine ⟨hnamed, hkind, ?_⟩
  rw [visitedMethods_skipping hkeyed, List.forall₂_map_right_iff]
  have hstored := (List.forall₂_and_left _ _).mpr
    ⟨fun method hmember => get?_of_mem_methodsOf hkeyed (List.mem_filter.mp hmember).1, hmethods⟩
  -- an entry is taken out exactly when its method is skipped
  have hunmarked := List.rel_filter (p := fun method => !store.isGenerated method.handle)
    (q := fun reported => !store.isGenerated reported.handle)
    (fun method reported h => by
      show _ = true ↔ _ = true
      rw [h.2.handle_eq]) hstored
  exact hunmarked.imp fun method reported h => h.2.skipping hkeyed howners hplain hdiffer h.1

/-! ### Reports -/

theorem Composes.skipping (hkeyed : store.Keyed) (howners : store.OwnersDefined)
    (hplain : options.selfReference = false) {scanned : List ScannedMethod} {report : Report}
    (hcomposes : store.Composes lister { options with ignoreCompilerGenerated := false } none
      scanned report) :
    ∃ kept, store.Composes lister { options with ignoreCompilerGenerated := true } none kept
      (store.withoutGenerated report) := by
  obtain ⟨kept, hkept⟩ := Outcome.exists_mapM_ok fun method
      (hmember : method ∈ store.visited { options with ignoreCompilerGenerated := true }) =>
    exists_scanEntry howners (get?_of_mem_visited hkeyed hmember) options.style none
  have hscansKept := Outcome.mapM_eq_ok_iff.mp hkept
  have hdiffer := get?_tableOf_skipping hkeyed hcomposes.scans hscansKept
  refine ⟨kept, hscansKept, hcomposes.assembly_eq, hcomposes.facts_eq, ?_,
    hcomposes.importedMethods, hcomposes.importedTypes, hcomposes.exportedTypes⟩
  rw [withoutGenerated, List.forall₂_map_right_iff]
  exact hcomposes.types.imp fun row type h => h.skipping hkeyed howners hplain hdiffer

/-- **Skipping takes out the marked methods and nothing else.**  Where the analysis
of all methods returns, so does the one that skips those marked as made by a
compiler, and its report is the other one without their entries, with the records
of calls to them replaced in place by the name at the call site and no address.
Each entry has one record for the first call of each callee, in order. -/
theorem skipping_takes_out_marked (hkeyed : store.Keyed) (howners : store.OwnersDefined)
    (lister : Lister) (options : AnalysisOptions) (hplain : options.selfReference = false)
    {report : Report}
    (hanalyzed : store.analyze lister { options with ignoreCompilerGenerated := false } =
      .ok report) :
    store.analyze lister { options with ignoreCompilerGenerated := true } =
        .ok (store.withoutGenerated report) ∧
      ∀ reported ∈ report.methods, ∃ method, store.methodDefs.get? reported.handle = some method ∧
        reported.calls.length = (firstCalls (store.callTargets method)).length := by
  obtain ⟨scanned, hshared⟩ := exists_composes_of_analyze hanalyzed
  -- the two analyses decode different sets of methods ahead, but each gives its own body
  have hcomposes := (composes_visitedBodies_iff hkeyed).mp hshared
  obtain ⟨kept, hcomposesKept⟩ := hcomposes.skipping hkeyed howners hplain
  refine ⟨((composes_visitedBodies_iff hkeyed).mpr hcomposesKept).analyze_eq, ?_⟩
  intro reported hmember
  have hentries := forall₂_methods_of_types (hcomposes.types.imp fun row type h => h.2.2)
  obtain ⟨method, hvisited, henters⟩ := exists_mem_of_forall₂_right hentries hmember
  refine ⟨method, by rw [henters.handle_eq, get?_of_mem_visited hkeyed hvisited], ?_⟩
  obtain ⟨s, hs, hshown⟩ := henters
  rw [(reportMethod_with_calls hshown []).1, List.length_map, (scans_of_scanEntry hs).2]
  exact (notedAs_callsOf hkeyed howners method).length_eq.symm

/-! ### A caller of a marked method -/

/-- The method that `callingMethod` calls, marked. -/
def markedMethod : MethodDef :=
  { calledMethod with compilerGenerated := true }

/-- One type with a method and the marked one that it calls. -/
def markedCall : Store :=
  { forwardCall with
    methodDefs := OrderedMap.ofList
      [(callingMethod.handle, callingMethod), (markedMethod.handle, markedMethod)] }

theorem markedCall_keyed : markedCall.Keyed := by
  constructor <;> decide

/-- The caller's record gives way to the name at the call site, and the callee's
entry is gone. -/
theorem markedCall_taken_out :
    markedCall.Keyed ∧ markedCall.OwnersDefined ∧ plainAnalysis.selfReference = false ∧
      ∃ report, markedCall.analyze silentLister plainAnalysis = .ok report ∧
        report.methods.map (·.calls) =
          [[⟨lit "T`0|0x02000001.Leaf`0()|PrivateScope|0x06000002", 8⟩], []] ∧
        markedCall.analyze silentLister
          { plainAnalysis with ignoreCompilerGenerated := true } =
            .ok (markedCall.withoutGenerated report) ∧
        (markedCall.withoutGenerated report).methods.map (·.calls) =
          [[⟨lit "T.Leaf`0()|None|0x06000002", 0⟩]] := by
  have howners : markedCall.OwnersDefined := by decide
  have hcomputed : (markedCall.analyze silentLister plainAnalysis).map (fun report =>
      (report.methods.map (·.calls), (markedCall.withoutGenerated report).methods.map (·.calls))) =
      .ok ([[⟨lit "T`0|0x02000001.Leaf`0()|PrivateScope|0x06000002", 8⟩], []],
        [[⟨lit "T.Leaf`0()|None|0x06000002", 0⟩]]) := by
    decide +kernel
  obtain ⟨report, hanalyzed, hshown⟩ := Outcome.map_eq_ok_iff.mp hcomputed
  obtain ⟨hcalls, hcallsKept⟩ := Prod.mk.inj hshown
  obtain ⟨hskipped, -⟩ :=
    skipping_takes_out_marked markedCall_keyed howners silentLister plainAnalysis rfl hanalyzed
  exact ⟨markedCall_keyed, howners, rfl, report, hanalyzed, hcalls, hskipped, hcallsKept⟩

end Store
end CilAtlas
