import CilAtlas.Proofs.AnalysisGraph

/-!
# Methods may be scanned in any order

Calls are resolved after the last method is scanned, against a table that holds
them all.  So what is recorded for a method does not depend on where it stands
among the others: a callee that comes after its caller is found like one that
comes before it.  The records of a method are described by the set of scanned
methods, and every order of them yields the records described.

The bodies may be decoded during the scan or handed in.  Nothing is said here
about which callees a body has; that is `Store.Calls`.
-/

namespace CilAtlas
namespace Store

variable {store : Store} {style : ParameterStyle} {bodies? : Option (Handle → Option Body)}
  {selfReference : Bool} {methods order : List MethodDef} {scanned : List ScannedMethod}

/-- Both passes over a list of methods: each method with the records of its
calls. -/
def resolveAll (store : Store) (style : ParameterStyle)
    (bodies? : Option (Handle → Option Body)) (selfReference : Bool) (methods : List MethodDef) :
    Except AnalysisError (List (Handle × List CallRecord)) := do
  let (table, scanned) ← (store.scan style bodies? methods).mapError .lookup
  scanned.mapM fun s => do
    let calls ← (table.recordsOf s.pending (some s.method) selfReference).mapError .table
    return (s.method.handle, calls)

/-- The methods are rows of the store. -/
def Holds (store : Store) (methods : List MethodDef) : Prop :=
  ∀ method ∈ methods, method ∈ store.methodDefs.values

instance (store : Store) (methods : List MethodDef) : Decidable (store.Holds methods) :=
  inferInstanceAs (Decidable (∀ method ∈ methods, _))

theorem Holds.get? (hkeyed : store.Keyed) (hholds : store.Holds methods) (method : MethodDef)
    (hmember : method ∈ methods) : store.methodDefs.get? method.handle = some method :=
  hkeyed.methodDefs.get?_of_mem_values (hholds method hmember)

theorem Holds.of_perm (hholds : store.Holds methods) (hperm : order.Perm methods) :
    store.Holds order :=
  fun method hmember => hholds method (hperm.mem_iff.mp hmember)

/-! ### The table of a scan -/

/-- What a scan notes about a method. -/
def Scans (store : Store) (style : ParameterStyle) (bodies? : Option (Handle → Option Body))
    (method : MethodDef) (s : ScannedMethod) : Prop :=
  store.tableEntry style method = .ok s.method ∧ s.pending = store.callsFrom bodies? method

theorem scans_of_scanEntry {method : MethodDef} {s : ScannedMethod}
    (hs : store.scanEntry style bodies? method = .ok s) : store.Scans style bodies? method s := by
  obtain ⟨entry, hnoted, hdone⟩ := Outcome.bind_eq_ok_iff.mp hs
  cases Outcome.pure_eq_ok_iff.mp hdone
  exact ⟨hnoted, rfl⟩

theorem scans_of_scan {table : LookupTable}
    (hscan : store.scan style bodies? methods = .ok (table, scanned)) :
    List.Forall₂ (store.Scans style bodies?) methods scanned := by
  obtain ⟨scanned', hscanned, hdone⟩ := Outcome.bind_eq_ok_iff.mp hscan
  cases Outcome.pure_eq_ok_iff.mp hdone
  exact (Outcome.mapM_eq_ok_iff.mp hscanned).imp fun method s hs => scans_of_scanEntry hs

/-- The table as a map is known from the set of scanned methods alone. -/
theorem get?_tableOf_eq_some_iff (hkeyed : store.Keyed) (hholds : store.Holds methods)
    (hscans : List.Forall₂ (store.Scans style bodies?) methods scanned) (h : Handle)
    (entry : TableEntry) :
    (tableOf scanned).get? h = some entry ↔
      ∃ method ∈ methods, method.handle = h ∧ store.tableEntry style method = .ok entry := by
  have hregisters := tableOf_registers scanned
  have hsource : ∀ {h entry}, (tableOf scanned).get? h = some entry →
      ∃ method ∈ methods, method.handle = h ∧ store.tableEntry style method = .ok entry := by
    intro h entry hget
    obtain ⟨s, hs, rfl, rfl⟩ := hregisters.sound h entry hget
    obtain ⟨method, hmember, htabled, -⟩ := exists_mem_of_forall₂_right hscans hs
    obtain ⟨key, -, hentry⟩ :=
      (tableEntry_eq_ok_iff hkeyed (hholds.get? hkeyed _ hmember)).mp htabled
    exact ⟨method, hmember, by rw [hentry], htabled⟩
  constructor
  · exact hsource
  · rintro ⟨method, hmember, rfl, htabled⟩
    obtain ⟨s, hs, hnoted', -⟩ := exists_mem_of_forall₂_left hscans hmember
    obtain ⟨key, -, hentry⟩ :=
      (tableEntry_eq_ok_iff hkeyed (hholds.get? hkeyed _ hmember)).mp hnoted'
    obtain ⟨found, hfound⟩ := hregisters.complete s hs
    rw [hentry] at hfound
    -- a later method may have replaced the entry, but only by one of the same row
    obtain ⟨other, hother, hsame, hnoted⟩ := hsource hfound
    have hrow : other = method := by
      have hfirst := hholds.get? hkeyed _ hother
      rw [hsame, hholds.get? hkeyed _ hmember] at hfirst
      exact (Option.some.inj hfirst).symm
    rw [hrow, htabled] at hnoted
    rw [Except.ok.inj hnoted]
    exact hfound

theorem get?_tableOf_of_perm (hkeyed : store.Keyed) (hholds : store.Holds methods)
    (hperm : order.Perm methods) {scanned' : List ScannedMethod}
    (hscans : List.Forall₂ (store.Scans style bodies?) methods scanned)
    (hscans' : List.Forall₂ (store.Scans style bodies?) order scanned') (h : Handle) :
    (tableOf scanned').get? h = (tableOf scanned).get? h := by
  apply Option.ext
  intro entry
  rw [get?_tableOf_eq_some_iff hkeyed (hholds.of_perm hperm) hscans',
    get?_tableOf_eq_some_iff hkeyed hholds hscans]
  simp only [hperm.mem_iff]

/-! ### The records of one method -/

/-- The records of a method's calls against a table. -/
def recordsFor (store : Store) (style : ParameterStyle)
    (bodies? : Option (Handle → Option Body)) (selfReference : Bool) (table : LookupTable)
    (method : MethodDef) : List CallRecord :=
  (store.callsFrom bodies? method).entries.map fun entry =>
    table.recordOf (if selfReference then (store.tableEntry style method).toOption else none)
      entry.1 entry.2

theorem recordsOf_of_scans {method : MethodDef} {s : ScannedMethod}
    (hscans : store.Scans style bodies? method s) :
    (tableOf scanned).recordsOf s.pending (some s.method) selfReference =
      .ok (store.recordsFor style bodies? selfReference (tableOf scanned) method) := by
  obtain ⟨hnoted, hpending⟩ := hscans
  rw [recordsOf_tableOf, recordsFor, hnoted, hpending]
  rfl

theorem recordsFor_congr {table table' : LookupTable} (hsame : ∀ h, table.get? h = table'.get? h)
    (method : MethodDef) :
    store.recordsFor style bodies? selfReference table method =
      store.recordsFor style bodies? selfReference table' method := by
  unfold recordsFor LookupTable.recordOf
  simp only [hsame]

theorem resolveAll_of_scan (hkeyed : store.Keyed) (hholds : store.Holds methods)
    (hscan : store.scan style bodies? methods = .ok (tableOf scanned, scanned)) :
    store.resolveAll style bodies? selfReference methods = .ok (methods.map fun method =>
      (method.handle, store.recordsFor style bodies? selfReference (tableOf scanned) method)) := by
  rw [resolveAll, hscan]
  refine Outcome.mapM_eq_ok_iff.mpr ?_
  rw [List.forall₂_map_right_iff]
  have hstored := (List.forall₂_and_left _ _).mpr
    ⟨hholds.get? hkeyed, scans_of_scan hscan⟩
  refine hstored.flip.imp ?_
  rintro s method ⟨hfound, hs⟩
  obtain ⟨key, -, hentry⟩ := (tableEntry_eq_ok_iff hkeyed hfound).mp hs.1
  show Except.mapError _ _ >>= _ = _
  rw [recordsOf_of_scans hs, hentry]
  rfl

/-- What is recorded for a callee with its fallback name when the given methods
are scanned.  Where the callee stands among them plays no part. -/
inductive Records (store : Store) (style : ParameterStyle) (selfReference : Bool)
    (methods : List MethodDef) (caller : MethodDef) : Handle × Text → CallRecord → Prop
  | scanned (callee : MethodDef) (hmember : callee ∈ methods) (shown : MethodDef)
      (hwhich : shown = if selfReference then caller else callee) (fallback key : Text)
      (hnamed : store.keyOf shown.handle style = .ok key) :
      Records store style selfReference methods caller (callee.handle, fallback) ⟨key, shown.rva⟩
  | notScanned (h : Handle) (habsent : ∀ callee ∈ methods, callee.handle ≠ h) (fallback : Text) :
      Records store style selfReference methods caller (h, fallback) ⟨fallback, 0⟩

theorem records_recordOf (hkeyed : store.Keyed) (howners : store.OwnersDefined)
    (hholds : store.Holds methods)
    (hscans : List.Forall₂ (store.Scans style bodies?) methods scanned) {caller : MethodDef}
    (hmember : caller ∈ methods) (entry : Handle × Text) :
    store.Records style selfReference methods caller entry
      ((tableOf scanned).recordOf
        (if selfReference then (store.tableEntry style caller).toOption else none)
        entry.1 entry.2) := by
  obtain ⟨h, fallback⟩ := entry
  unfold LookupTable.recordOf
  cases hget : (tableOf scanned).get? h with
  | none =>
    refine .notScanned h ?_ fallback
    rintro callee hcallee rfl
    obtain ⟨found, hnoted⟩ := exists_tableEntry howners (hholds.get? hkeyed _ hcallee) style
    have hfound := (get?_tableOf_eq_some_iff hkeyed hholds hscans _ _).mpr
      ⟨callee, hcallee, rfl, hnoted⟩
    rw [hget] at hfound
    cases hfound
  | some found =>
    obtain ⟨callee, hcallee, rfl, hnoted⟩ :=
      (get?_tableOf_eq_some_iff hkeyed hholds hscans _ _).mp hget
    cases selfReference with
    | false =>
      obtain ⟨key, hnamed, rfl⟩ :=
        (tableEntry_eq_ok_iff hkeyed (hholds.get? hkeyed _ hcallee)).mp hnoted
      exact .scanned callee hcallee callee rfl fallback key hnamed
    | true =>
      obtain ⟨self, hself⟩ := exists_tableEntry howners (hholds.get? hkeyed _ hmember) style
      obtain ⟨key, hnamed, rfl⟩ :=
        (tableEntry_eq_ok_iff hkeyed (hholds.get? hkeyed _ hmember)).mp hself
      rw [hself]
      exact .scanned callee hcallee caller rfl fallback key hnamed

/-- **Scanning order is immaterial.**  Whatever the order in which the methods
are scanned, both passes return, each method gets the same records in the same
order, and these are the ones that the set of methods prescribes. -/
theorem records_independent_of_order (hkeyed : store.Keyed) (howners : store.OwnersDefined)
    (hholds : store.Holds methods) (style : ParameterStyle)
    (bodies? : Option (Handle → Option Body)) (selfReference : Bool) :
    ∃ records : Handle → List CallRecord,
      (∀ order : List MethodDef, order.Perm methods →
        store.resolveAll style bodies? selfReference order =
          .ok (order.map fun method => (method.handle, records method.handle))) ∧
      ∀ caller ∈ methods, List.Forall₂ (store.Records style selfReference methods caller)
        (store.callsFrom bodies? caller).entries (records caller.handle) := by
  obtain ⟨scanned, hscan⟩ := exists_scan howners (hholds.get? hkeyed) style bodies?
  have hscans := scans_of_scan hscan
  -- the records of a handle: those of its row, against the table of one of the orders
  refine ⟨fun h => (store.methodDefs.get? h).elim []
    (store.recordsFor style bodies? selfReference (tableOf scanned)), ?_, ?_⟩
  · intro order hperm
    have hholds' := hholds.of_perm hperm
    obtain ⟨scanned', hscan'⟩ := exists_scan howners (hholds'.get? hkeyed) style bodies?
    rw [resolveAll_of_scan hkeyed hholds' hscan']
    refine congrArg Except.ok (List.map_congr_left fun method hmember => ?_)
    beta_reduce
    rw [hholds'.get? hkeyed _ hmember, Option.elim_some,
      recordsFor_congr (get?_tableOf_of_perm hkeyed hholds hperm hscans (scans_of_scan hscan'))]
  · intro caller hmember
    beta_reduce
    rw [hholds.get? hkeyed _ hmember, Option.elim_some, recordsFor, List.forall₂_map_right_iff,
      List.forall₂_same]
    exact fun entry _ => records_recordOf hkeyed howners hholds hscans hmember entry

/-- The caller may come before its callee or after it. -/
theorem forwardCall_either_order :
    forwardCall.Keyed ∧ forwardCall.OwnersDefined ∧
      forwardCall.Holds [callingMethod, calledMethod] ∧
      ∃ records : Handle → List CallRecord,
        forwardCall.resolveAll .names none false [callingMethod, calledMethod] =
          .ok [(callingMethod.handle, records callingMethod.handle),
            (calledMethod.handle, records calledMethod.handle)] ∧
        forwardCall.resolveAll .names none false [calledMethod, callingMethod] =
          .ok [(calledMethod.handle, records calledMethod.handle),
            (callingMethod.handle, records callingMethod.handle)] ∧
        records callingMethod.handle =
          [⟨lit "T`0|0x02000001.Leaf`0()|PrivateScope|0x06000002", 8⟩] := by
  have howners : forwardCall.OwnersDefined := by decide
  have hholds : forwardCall.Holds [callingMethod, calledMethod] := by decide
  obtain ⟨records, horders, -⟩ :=
    records_independent_of_order forwardCall_keyed howners hholds .names none false
  refine ⟨forwardCall_keyed, howners, hholds, records, horders _ (List.Perm.refl _),
    horders _ (List.Perm.swap _ _ _), ?_⟩
  have hcomputed : forwardCall.resolveAll .names none false [callingMethod, calledMethod] =
      .ok [(callingMethod.handle, [⟨lit "T`0|0x02000001.Leaf`0()|PrivateScope|0x06000002", 8⟩]),
        (calledMethod.handle, [])] := by
    decide +kernel
  rw [horders _ (List.Perm.refl _)] at hcomputed
  exact congrArg Prod.snd (List.cons.inj (Except.ok.inj hcomputed)).1

end Store
end CilAtlas
