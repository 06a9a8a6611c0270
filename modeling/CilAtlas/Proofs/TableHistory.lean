import CilAtlas.Calls.Scan
import CilAtlas.Calls.TableStep
import CilAtlas.Proofs.StoreRows
import Mathlib.Data.List.Forall2
import Mathlib.Data.List.Infix

/-!
# The history of a table

A table is described by the additions that it took.  It finds a method under the
handle of its last addition and lists the handles in the order of their first,
whatever was read or refused in between.  It takes additions until it is frozen
and never again, so from then on it is one and the same table, and calls are
resolved against it as if nothing had come later.
-/

namespace CilAtlas
namespace LookupTable

/-! ### Additions taken -/

/-- The method that a step added, if its answer says so. -/
def taken? : TableStep × TableAnswer → Option TableEntry
  | (.add method, .done) => some method
  | _ => none

/-- The methods added in a sequence of steps, refused additions left out. -/
def taken (history : List (TableStep × TableAnswer)) : List TableEntry :=
  history.filterMap taken?

/-- The last method added under a handle. -/
def lastAdded (added : List TableEntry) (h : Handle) : Option TableEntry :=
  (added.filter (·.handle = h)).getLast?

theorem lastAdded_concat (added : List TableEntry) (method : TableEntry) (h : Handle) :
    lastAdded (added ++ [method]) h =
      if method.handle = h then some method else lastAdded added h := by
  unfold lastAdded
  rw [List.filter_append]
  by_cases hsame : method.handle = h
  · simp [hsame]
  · simp [hsame]

/-- The handles of the methods added, in the order of their first additions. -/
def firstHandles (added : List TableEntry) : List Handle :=
  (added.map TableEntry.handle).eraseDups

theorem firstHandles_concat (added : List TableEntry) (method : TableEntry) :
    firstHandles (added ++ [method]) =
      if method.handle ∈ firstHandles added then firstHandles added
      else firstHandles added ++ [method.handle] := by
  unfold firstHandles
  rw [List.map_append, List.eraseDups_append]
  generalize added.map TableEntry.handle = handles
  by_cases hknown : method.handle ∈ handles
  · simp [hknown, List.removeAll]
  · simp [hknown, List.removeAll, List.eraseDups_cons]

/-! ### One step -/

/-- The table with one method more. -/
def adding (table : LookupTable) (method : TableEntry) : LookupTable :=
  { table with entries := table.entries.insert method.handle method }

/-- A step adds a method to a table that is not frozen, or freezes the table, or
leaves it as it is. -/
theorem perform_cases (table : LookupTable) (step : TableStep) :
    (∃ method, step = .add method ∧ table.isFrozen = false ∧
      table.perform step = (.done, table.adding method)) ∨
    (step = .freeze ∧ table.perform step = (.done, table.freeze)) ∨
    (step ≠ .freeze ∧ (table.perform step).2 = table ∧
      taken? (step, (table.perform step).1) = none) := by
  cases step with
  | add method =>
    cases hfrozen : table.isFrozen with
    | false => exact .inl ⟨method, rfl, rfl, by simp [perform, add, hfrozen, adding]⟩
    | true => exact .inr (.inr ⟨nofun, by simp [perform, add, hfrozen, taken?]⟩)
  | freeze => exact .inr (.inl ⟨rfl, rfl⟩)
  | resolve pending caller? selfReference =>
    refine .inr (.inr ⟨nofun, ?_, rfl⟩)
    rw [perform]
    split <;> rfl
  | find h => exact .inr (.inr ⟨nofun, rfl, rfl⟩)
  | ask h => exact .inr (.inr ⟨nofun, rfl, rfl⟩)
  | count => exact .inr (.inr ⟨nofun, rfl, rfl⟩)
  | list => exact .inr (.inr ⟨nofun, rfl, rfl⟩)

theorem freeze_of_isFrozen {table : LookupTable} (hfrozen : table.isFrozen = true) :
    table.freeze = table := by
  rw [freeze, ← hfrozen]

theorem isFrozen_perform_iff (table : LookupTable) (step : TableStep) :
    (table.perform step).2.isFrozen = true ↔ table.isFrozen = true ∨ step = .freeze := by
  rcases table.perform_cases step with ⟨method, rfl, hgrowing, h⟩ | ⟨rfl, h⟩ | ⟨hother, h, -⟩
  · simp [h, adding, hgrowing]
  · simp [h, freeze]
  · simp [h, hother]

theorem perform_of_isFrozen {table : LookupTable} (hfrozen : table.isFrozen = true)
    (step : TableStep) : (table.perform step).2 = table := by
  rcases table.perform_cases step with ⟨method, -, hgrowing, -⟩ | ⟨-, h⟩ | ⟨-, h, -⟩
  · rw [hfrozen] at hgrowing
    cases hgrowing
  · rw [h, freeze_of_isFrozen hfrozen]
  · exact h

theorem handles_perform (table : LookupTable) (step : TableStep) :
    table.handles <+: (table.perform step).2.handles := by
  rcases table.perform_cases step with ⟨method, -, -, h⟩ | ⟨-, h⟩ | ⟨-, h, -⟩
  · rw [h]
    show table.entries.keys <+: (table.entries.insert method.handle method).keys
    rw [OrderedMap.keys_insert]
    split
    · exact List.prefix_refl _
    · exact List.prefix_append _ _
  · rw [h]
    exact List.prefix_refl _
  · rw [h]

/-- What a table shows is what these additions make of it. -/
structure Shows (table : LookupTable) (added : List TableEntry) : Prop where
  get?_eq : ∀ h, table.get? h = lastAdded added h
  contains_iff : ∀ h, table.contains h = true ↔ table.get? h ≠ none
  handles_eq : table.handles = firstHandles added
  size_eq : table.size = (firstHandles added).length

theorem shows_iff {table : LookupTable} {added : List TableEntry} :
    table.Shows added ↔
      (∀ h, table.get? h = lastAdded added h) ∧ table.handles = firstHandles added := by
  constructor
  · intro hshows
    exact ⟨hshows.get?_eq, hshows.handles_eq⟩
  · rintro ⟨hfinds, hlists⟩
    refine ⟨hfinds, ?_, hlists, ?_⟩
    · intro h
      exact Option.isSome_iff_ne_none
    · rw [← hlists]
      exact (List.length_map _).symm

theorem Shows.adding {table : LookupTable} {added : List TableEntry} (hshows : table.Shows added)
    (method : TableEntry) : (table.adding method).Shows (added ++ [method]) := by
  refine shows_iff.mpr ⟨?_, ?_⟩
  · intro h
    rw [lastAdded_concat, ← hshows.get?_eq]
    exact OrderedMap.get?_insert table.entries method.handle h method
  · rw [firstHandles_concat, ← hshows.handles_eq]
    exact OrderedMap.keys_insert table.entries method.handle method

theorem Shows.perform {table : LookupTable} {added : List TableEntry} (hshows : table.Shows added)
    (step : TableStep) :
    (table.perform step).2.Shows (added ++ taken [(step, (table.perform step).1)]) := by
  rcases table.perform_cases step with ⟨method, rfl, -, h⟩ | ⟨rfl, h⟩ | ⟨-, h, huntaken⟩
  · rw [h]
    exact hshows.adding method
  · rw [h]
    show table.freeze.Shows (added ++ [])
    rw [List.append_nil]
    exact ⟨hshows.get?_eq, hshows.contains_iff, hshows.handles_eq, hshows.size_eq⟩
  · rw [h, taken, List.filterMap_cons_none huntaken, List.filterMap_nil, List.append_nil]
    exact hshows

/-! ### Runs -/

theorem after_cons (table : LookupTable) (step : TableStep) (steps : List TableStep) :
    table.after (step :: steps) = (table.perform step).2.after steps :=
  rfl

theorem after_append (table : LookupTable) (steps later : List TableStep) :
    table.after (steps ++ later) = (table.after steps).after later :=
  List.foldl_append

theorem isFrozen_after_iff (table : LookupTable) (steps : List TableStep) :
    (table.after steps).isFrozen = true ↔ table.isFrozen = true ∨ .freeze ∈ steps := by
  induction steps generalizing table with
  | nil => simp [after]
  | cons step steps ih =>
    rw [after_cons, ih, isFrozen_perform_iff, List.mem_cons, or_assoc, @eq_comm _ step]

theorem after_of_isFrozen {table : LookupTable} (hfrozen : table.isFrozen = true)
    (steps : List TableStep) : table.after steps = table := by
  induction steps with
  | nil => rfl
  | cons step steps ih => rw [after_cons, perform_of_isFrozen hfrozen, ih]

theorem handles_after (table : LookupTable) (steps : List TableStep) :
    table.handles <+: (table.after steps).handles := by
  induction steps generalizing table with
  | nil => exact List.prefix_refl _
  | cons step steps ih => exact (table.handles_perform step).trans (ih _)

theorem Shows.after {table : LookupTable} {added : List TableEntry} (hshows : table.Shows added)
    (steps : List TableStep) :
    (table.after steps).Shows (added ++ taken (table.transcript steps)) := by
  induction steps generalizing table added with
  | nil =>
    show table.Shows (added ++ [])
    rwa [List.append_nil]
  | cons step steps ih =>
    have hlater := ih (hshows.perform step)
    rwa [List.append_assoc, taken, taken, ← List.filterMap_append] at hlater

theorem empty_shows : empty.Shows [] :=
  shows_iff.mpr ⟨fun _ => rfl, rfl⟩

/-! ### Resolved calls -/

/-- The record of a callee: a method that was added, or the one to show in its
place, and otherwise the name noted for the callee, at no address. -/
inductive Records (added : List TableEntry) (self? : Option TableEntry) :
    Handle × Text → CallRecord → Prop
  | foreign {h : Handle} {fallback : Text} (habsent : lastAdded added h = none) :
      Records added self? (h, fallback) ⟨fallback, 0⟩
  | callee {h : Handle} {fallback : Text} {found : TableEntry}
      (hlast : lastAdded added h = some found) (hplain : self? = none) :
      Records added self? (h, fallback) ⟨found.name, found.address⟩
  | caller {h : Handle} {fallback : Text} {found self : TableEntry}
      (hlast : lastAdded added h = some found) (hshown : self? = some self) :
      Records added self? (h, fallback) ⟨self.name, self.address⟩

theorem Shows.records {table : LookupTable} {added : List TableEntry} (hshows : table.Shows added)
    (self? : Option TableEntry) (entry : Handle × Text) :
    Records added self? entry (table.recordOf self? entry.1 entry.2) := by
  unfold recordOf
  cases hfound : table.get? entry.1 with
  | none => exact .foreign (by rw [← hshows.get?_eq, hfound])
  | some found =>
    have hlast : lastAdded added entry.1 = some found := by rw [← hshows.get?_eq, hfound]
    cases self? with
    | none => exact .callee hlast rfl
    | some self => exact .caller hlast rfl

theorem recordsOf_of_not_isFrozen {table : LookupTable} (hgrowing : ¬ table.isFrozen = true)
    (pending : PendingCalls) (caller? : Option TableEntry) (selfReference : Bool) :
    table.recordsOf pending caller? selfReference = .error .notFrozen := by
  simp [recordsOf, hgrowing]

theorem recordsOf_of_isFrozen {table : LookupTable} (hfrozen : table.isFrozen = true)
    (pending : PendingCalls) {caller? : Option TableEntry} {selfReference : Bool}
    (hnamed : selfReference = true → caller? ≠ none) :
    table.recordsOf pending caller? selfReference =
      .ok (pending.entries.map fun entry =>
        table.recordOf (if selfReference then caller? else none) entry.1 entry.2) := by
  have hallowed : ¬ (selfReference && caller?.isNone) = true := by
    simpa using hnamed
  rw [recordsOf, if_neg (by simp [hfrozen]), if_neg hallowed]

theorem Shows.records_each {table : LookupTable} {added : List TableEntry}
    (hshows : table.Shows added) (self? : Option TableEntry) (pending : PendingCalls) :
    List.Forall₂ (Records added self?) pending.entries
      (pending.entries.map fun entry => table.recordOf self? entry.1 entry.2) := by
  rw [List.forall₂_map_right_iff, List.forall₂_same]
  intro entry _
  exact hshows.records self? entry

/-- A table that starts empty is described by the additions it took, and its
handles are only ever added to.  Up to the first freeze it takes every addition
and resolves no calls.  From then on it refuses every addition and stays the same
table whatever is asked of it; it resolves any callees, one record for each in
their order, unless callers are to be shown in the place of callees and no caller
is given. -/
theorem table_grows_until_frozen (steps : List TableStep) :
    ((empty.after steps).isFrozen = true ↔ .freeze ∈ steps) ∧
    (empty.after steps).Shows (taken (empty.transcript steps)) ∧
    (∀ later, (empty.after steps).handles <+: (empty.after (steps ++ later)).handles) ∧
    (.freeze ∉ steps →
      (∀ method, ((empty.after steps).perform (.add method)).1 = .done) ∧
      ∀ pending caller? selfReference,
        (empty.after steps).recordsOf pending caller? selfReference = .error .notFrozen) ∧
    (.freeze ∈ steps →
      (∀ later, empty.after (steps ++ later) = empty.after steps) ∧
      (∀ method, (empty.after steps).perform (.add method) =
        (.refused .frozen, empty.after steps)) ∧
      (∀ pending, (empty.after steps).recordsOf pending none true = .error .callerMissing) ∧
      ∀ pending caller? selfReference, (selfReference = true → caller? ≠ none) →
        ∃ records,
          (∀ later, (empty.after (steps ++ later)).recordsOf pending caller? selfReference =
            .ok records) ∧
          List.Forall₂
            (Records (taken (empty.transcript steps)) (if selfReference then caller? else none))
            pending.entries records) := by
  have hisFrozen : (empty.after steps).isFrozen = true ↔ .freeze ∈ steps := by
    rw [isFrozen_after_iff]
    exact or_iff_right nofun
  have hshows : (empty.after steps).Shows (taken (empty.transcript steps)) :=
    empty_shows.after steps
  refine ⟨hisFrozen, hshows, ?_, ?_, ?_⟩
  · intro later
    rw [after_append]
    exact handles_after _ later
  · intro hgrowing
    rw [← hisFrozen] at hgrowing
    exact ⟨fun method => by simp [perform, add, hgrowing], recordsOf_of_not_isFrozen hgrowing⟩
  · intro hlisted
    have hfrozen := hisFrozen.mpr hlisted
    have hconstant : ∀ later, empty.after (steps ++ later) = empty.after steps := by
      intro later
      rw [after_append, after_of_isFrozen hfrozen]
    refine ⟨hconstant, ?_, ?_, ?_⟩
    · intro method
      simp [perform, add, hfrozen]
    · intro pending
      simp [recordsOf, hfrozen]
    · intro pending caller? selfReference hnamed
      refine ⟨_, ?_, hshows.records_each _ pending⟩
      intro later
      rw [hconstant, recordsOf_of_isFrozen hfrozen pending hnamed]

/-- Two methods, of which the first is added once more under another name, with
reads in between, and an addition that comes too late. -/
def renamedThenFrozen : List TableStep :=
  [.add ⟨⟨TableNumber.methodDef, 1⟩, lit "A.M", 0x10⟩, .count,
    .add ⟨⟨TableNumber.methodDef, 2⟩, lit "A.N", 0x20⟩, .find ⟨TableNumber.methodDef, 1⟩,
    .add ⟨⟨TableNumber.methodDef, 1⟩, lit "A.P", 0x30⟩, .freeze, .list,
    .add ⟨⟨TableNumber.methodDef, 3⟩, lit "A.Q", 0x40⟩]

/-- A callee outside the table before one that was added twice. -/
def foreignThenRenamed : PendingCalls :=
  OrderedMap.ofList
    [(⟨TableNumber.memberRef, 1⟩, lit "B.R"), (⟨TableNumber.methodDef, 1⟩, lit "A.?")]

theorem renamedThenFrozen_settled :
    .freeze ∈ renamedThenFrozen ∧
      (empty.after renamedThenFrozen).get? ⟨TableNumber.methodDef, 1⟩ =
        some ⟨⟨TableNumber.methodDef, 1⟩, lit "A.P", 0x30⟩ ∧
      (empty.after renamedThenFrozen).handles =
        [⟨TableNumber.methodDef, 1⟩, ⟨TableNumber.methodDef, 2⟩] ∧
      (empty.after renamedThenFrozen).contains ⟨TableNumber.methodDef, 3⟩ = false ∧
      ∀ later, (empty.after (renamedThenFrozen ++ later)).recordsOf foreignThenRenamed none false =
        .ok [⟨lit "B.R", 0⟩, ⟨lit "A.P", 0x30⟩] := by
  have hlisted : .freeze ∈ renamedThenFrozen := by simp [renamedThenFrozen]
  obtain ⟨-, hshows, -, -, hsettled⟩ := table_grows_until_frozen renamedThenFrozen
  obtain ⟨-, -, -, hresolves⟩ := hsettled hlisted
  obtain ⟨records, hresolved, -⟩ := hresolves foreignThenRenamed none false nofun
  have hcomputed : (empty.after renamedThenFrozen).recordsOf foreignThenRenamed none false =
      .ok [⟨lit "B.R", 0⟩, ⟨lit "A.P", 0x30⟩] := rfl
  have hsame := hresolved []
  rw [List.append_nil, hcomputed] at hsame
  refine ⟨hlisted, ?_, ?_, ?_, ?_⟩
  · rw [hshows.get?_eq]
    decide
  · rw [hshows.handles_eq]
    decide
  · rw [← Bool.not_eq_true, hshows.contains_iff, hshows.get?_eq]
    decide
  · intro later
    rw [hresolved, hsame]

end LookupTable

/-! ### The table of a scan -/

theorem LookupTable.after_adds {table : LookupTable} (hgrowing : table.isFrozen = false)
    (methods : List TableEntry) :
    table.after (methods.map .add) =
      { table with
        entries := methods.foldl (fun acc m => acc.insert m.handle m) table.entries } := by
  induction methods generalizing table with
  | nil => rfl
  | cons method methods ih =>
    have hfirst : (table.perform (.add method)).2 = table.adding method := by
      simp [perform, add, hgrowing, adding]
    have hstillGrowing : (table.adding method).isFrozen = false := hgrowing
    rw [List.map_cons, after_cons, hfirst, ih hstillGrowing]
    rfl

/-- The complete table of a scan is the one that takes the methods in order and is
frozen then. -/
theorem Store.tableOf_eq_after (scanned : List ScannedMethod) :
    Store.tableOf scanned =
      LookupTable.empty.after ((scanned.map (·.method)).map .add ++ [.freeze]) := by
  rw [LookupTable.after_append, LookupTable.after_adds rfl, List.foldl_map]
  rfl

end CilAtlas
