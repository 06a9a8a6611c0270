import CilAtlas.Calls.Scan
import CilAtlas.Proofs.IdentityKeys

/-!
# Collected callees and the table of methods

The callees of a body are collected with one name each, under the first call
that reaches them and in the order of those calls, and none is lost: in a store
whose methods have defined owners every callee can be named, so collecting never
gives up.  The table holds the methods scanned and no others.
-/

namespace CilAtlas

theorem OrderedMap.mem_entries_insert_iff {κ α : Type} [DecidableEq κ] (m : OrderedMap κ α)
    (k k' : κ) (a a' : α) :
    (k', a') ∈ (m.insert k a).entries ↔ k = k' ∧ a = a' ∨ k ≠ k' ∧ (k', a') ∈ m.entries := by
  rw [← get?_eq_some_iff, ← get?_eq_some_iff, get?_insert]
  by_cases hk : k = k'
  · simp [hk]
  · simp [hk]

namespace Store

variable {store : Store}

/-! ### Callees have rows -/

theorem row_of_mem_methodsOf (hmethods : store.MethodsKeyed) {type : TypeDef} {method : MethodDef}
    (hlisted : method ∈ store.methodsOf type) :
    store.methodDefs.get? method.handle = some method := by
  obtain ⟨h, -, hfound⟩ := List.mem_filterMap.mp hlisted
  rw [(hmethods.of_get? hfound).1]
  exact hfound

theorem get?_of_mem_methodsOf (hkeyed : store.Keyed) {type : TypeDef} {method : MethodDef}
    (hlisted : method ∈ store.methodsOf type) :
    store.methodDefs.get? method.handle = some method :=
  row_of_mem_methodsOf hkeyed.methodDefs hlisted

theorem hasCallableRow_of_bindMember (hmethods : store.MethodsKeyed) {h bound : Handle}
    (hbinds : store.bindMember h = some bound) : store.HasCallableRow bound := by
  unfold bindMember at hbinds
  split at hbinds
  · cases hbinds
  · split at hbinds
    · cases hbinds
    · obtain ⟨method, hfind, rfl⟩ := Option.map_eq_some_iff.mp hbinds
      have hfound := row_of_mem_methodsOf hmethods (List.mem_of_find?_eq_some hfind)
      exact .inl ((OrderedMap.contains_iff _ _).mpr ⟨method, hfound⟩)

theorem hasCallableRow_of_targetOf (hmethods : store.MethodsKeyed) {h : Handle}
    {instantiation : List Text} {target : CallTarget}
    (hresolves : store.targetOf h instantiation = some target) :
    store.HasCallableRow target.handle := by
  unfold targetOf at hresolves
  split at hresolves
  · split at hresolves
    · next hpresent =>
      cases hresolves
      exact .inl hpresent
    · cases hresolves
  · split at hresolves
    · next hpresent =>
      cases hresolves
      cases hbind : store.bindMember h with
      | none => exact .inr hpresent.2
      | some bound => exact hasCallableRow_of_bindMember hmethods hbind
    · cases hresolves

theorem hasCallableRow_of_callTarget (hmethods : store.MethodsKeyed) {token : Int}
    {target : CallTarget} (hresolves : store.callTarget token = some target) :
    store.HasCallableRow target.handle := by
  simp only [callTarget] at hresolves
  split at hresolves
  · split at hresolves
    · cases hresolves
    · split at hresolves
      · cases hresolves
      · exact hasCallableRow_of_targetOf hmethods hresolves
  · exact hasCallableRow_of_targetOf hmethods hresolves

theorem hasCallableRow_of_calleeOf (hmethods : store.MethodsKeyed) {i : Instruction}
    {target : CallTarget} (hcalls : store.calleeOf i = some target) :
    store.HasCallableRow target.handle := by
  unfold calleeOf at hcalls
  split at hcalls
  · obtain ⟨token, -, hresolves⟩ := Option.bind_eq_some_iff.mp hcalls
    exact hasCallableRow_of_callTarget hmethods hresolves
  · cases hcalls

/-! ### Collecting callees -/

/-- The callees collected from a list of targets: exactly their handles, each
under the name that one of the targets gives it. -/
structure Collects (store : Store) (targets : List CallTarget) (pending : PendingCalls) :
    Prop where
  mem_keys_iff : ∀ h, h ∈ pending.keys ↔ ∃ target ∈ targets, target.handle = h
  named : ∀ entry ∈ pending.entries, ∃ target ∈ targets, target.handle = entry.1 ∧
    store.callSiteName target.handle target.instantiation = .ok entry.2

theorem Collects.empty (store : Store) : store.Collects [] OrderedMap.empty where
  mem_keys_iff h := by simp [OrderedMap.empty, OrderedMap.keys]
  named := by
    intro entry hlisted
    cases hlisted

theorem Collects.step {targets : List CallTarget} {target : CallTarget}
    {pending pending' : PendingCalls} (hcollects : store.Collects targets pending)
    (hadded : store.addCall pending target = .ok pending') :
    store.Collects (targets ++ [target]) pending' := by
  have hearlier : ∀ entry ∈ pending.entries, ∃ target' ∈ targets ++ [target],
      target'.handle = entry.1 ∧
        store.callSiteName target'.handle target'.instantiation = .ok entry.2 := by
    intro entry hlisted
    obtain ⟨target', hmember, hrest⟩ := hcollects.named entry hlisted
    exact ⟨target', List.mem_append_left _ hmember, hrest⟩
  have hkeys : ∀ h, (∃ target' ∈ targets ++ [target], target'.handle = h) ↔
      h ∈ pending.keys ∨ target.handle = h := by
    intro h
    simp [hcollects.mem_keys_iff, or_and_right, exists_or]
  have hknown : target.handle ∈ pending.keys →
      ∀ h, h ∈ pending.keys ↔ h ∈ pending.keys ∨ target.handle = h := by
    rintro hlisted h
    constructor
    · exact Or.inl
    · rintro (hlisted' | rfl)
      · exact hlisted'
      · exact hlisted
  unfold addCall at hadded
  split at hadded
  · -- a callee seen before keeps its first name
    next hpresent =>
    cases hadded
    obtain ⟨name, hfound⟩ := (OrderedMap.contains_iff _ _).mp hpresent
    refine ⟨fun h => ?_, hearlier⟩
    rw [hkeys]
    exact hknown (OrderedMap.get?_mem_keys hfound) h
  · next habsent =>
    obtain ⟨name, hcomputed, hdone⟩ := Outcome.bind_eq_ok_iff.mp hadded
    cases Outcome.pure_eq_ok_iff.mp hdone
    refine ⟨fun h => ?_, ?_⟩
    · rw [hkeys, OrderedMap.keys_insert]
      split
      · next hlisted => exact hknown hlisted h
      · simp [eq_comm]
    · rintro ⟨h, shown⟩ hlisted
      rcases (OrderedMap.mem_entries_insert_iff _ _ _ _ _).mp hlisted with ⟨rfl, rfl⟩ | ⟨-, hlisted⟩
      · exact ⟨target, by simp, rfl, hcomputed⟩
      · exact hearlier _ hlisted

theorem Collects.foldlM {targets more : List CallTarget} {pending pending' : PendingCalls}
    (hcollects : store.Collects targets pending)
    (hadded : more.foldlM store.addCall pending = .ok pending') :
    store.Collects (targets ++ more) pending' := by
  induction more generalizing targets pending with
  | nil =>
    cases Outcome.pure_eq_ok_iff.mp hadded
    rwa [List.append_nil]
  | cons target more ih =>
    rw [List.foldlM_cons] at hadded
    obtain ⟨next, hfirst, hothers⟩ := Outcome.bind_eq_ok_iff.mp hadded
    have h := ih (hcollects.step hfirst) hothers
    rwa [List.append_assoc] at h

theorem exists_addCall (hmethods : store.MethodsKeyed) (howners : store.OwnersDefined)
    (pending : PendingCalls) {target : CallTarget}
    (hcallable : store.HasCallableRow target.handle) :
    ∃ pending', store.addCall pending target = .ok pending' := by
  unfold addCall
  split
  · exact ⟨pending, rfl⟩
  · obtain ⟨name, hcomputed⟩ :=
      exists_callSiteName_of_methods hmethods howners hcallable target.instantiation
    rw [hcomputed]
    exact ⟨_, rfl⟩

theorem exists_foldlM_addCall (hmethods : store.MethodsKeyed) (howners : store.OwnersDefined)
    {targets : List CallTarget} (pending : PendingCalls)
    (hcallable : ∀ target ∈ targets, store.HasCallableRow target.handle) :
    ∃ pending', targets.foldlM store.addCall pending = .ok pending' := by
  induction targets generalizing pending with
  | nil => exact ⟨pending, rfl⟩
  | cons target targets ih =>
    obtain ⟨next, hfirst⟩ := exists_addCall hmethods howners pending (hcallable target (by simp))
    obtain ⟨pending', hothers⟩ := ih next fun target' hmember =>
      hcallable target' (List.mem_cons_of_mem _ hmember)
    rw [List.foldlM_cons, hfirst]
    exact ⟨pending', hothers⟩

/-- The callees of every instruction list can be collected. -/
theorem exists_callsIn (hmethods : store.MethodsKeyed) (howners : store.OwnersDefined)
    (instructions : List Instruction) :
    ∃ pending, store.callsIn instructions = .ok pending := by
  refine exists_foldlM_addCall hmethods howners OrderedMap.empty ?_
  intro target hmember
  obtain ⟨i, -, hcalls⟩ := List.mem_filterMap.mp hmember
  exact hasCallableRow_of_calleeOf hmethods hcalls

/-- A body's callees are all collected: no error drops them. -/
theorem callsOfBody_collects (hkeyed : store.Keyed) (howners : store.OwnersDefined) (body : Body) :
    store.Collects (body.instructions.filterMap store.calleeOf) (store.callsOfBody body) := by
  -- collecting succeeds, so the branch that gives up all callees is not taken
  obtain ⟨pending, hcollected⟩ := exists_callsIn hkeyed.methodDefs howners body.instructions
  rw [callsOfBody, hcollected]
  exact (Collects.empty store).foldlM hcollected

/-- The method calls the target: its body decodes and holds a call, a virtual
call or a construction whose operand resolves to it. -/
def Calls (store : Store) (method : MethodDef) (target : CallTarget) : Prop :=
  ∃ body, store.readBody? method = some body ∧ ∃ i ∈ body.instructions,
    store.calleeOf i = some target

/-- Whether a method calls a handle can be computed. -/
instance (store : Store) (method : MethodDef) (h : Handle) :
    Decidable (∃ target, store.Calls method target ∧ target.handle = h) :=
  decidable_of_iff
    ((store.readBody? method).any (fun body => body.instructions.any fun i =>
      (store.calleeOf i).any fun target => target.handle = h) = true)
    (by
      simp only [Option.any_eq_true, List.any_eq_true, decide_eq_true_eq, Calls]
      constructor
      · rintro ⟨body, hbody, i, hinside, target, hcalls, hsame⟩
        exact ⟨target, ⟨body, hbody, i, hinside, hcalls⟩, hsame⟩
      · rintro ⟨target, ⟨body, hbody, i, hinside, hcalls⟩, hsame⟩
        exact ⟨body, hbody, i, hinside, target, hcalls, hsame⟩)

theorem mem_keys_callsOf_iff (hkeyed : store.Keyed) (howners : store.OwnersDefined)
    (method : MethodDef) (h : Handle) :
    h ∈ (store.callsOf method).keys ↔ ∃ target, store.Calls method target ∧ target.handle = h := by
  unfold callsOf Calls
  cases hbody : store.readBody? method with
  | none => simp [callsOfBody?, OrderedMap.empty, OrderedMap.keys]
  | some body =>
    show h ∈ (store.callsOfBody body).keys ↔ _
    rw [(callsOfBody_collects hkeyed howners body).mem_keys_iff]
    simp [List.mem_filterMap]

theorem named_of_mem_callsOf (hkeyed : store.Keyed) (howners : store.OwnersDefined)
    {method : MethodDef} {entry : Handle × Text}
    (hlisted : entry ∈ (store.callsOf method).entries) :
    ∃ target, store.Calls method target ∧ target.handle = entry.1 ∧
      store.callSiteName target.handle target.instantiation = .ok entry.2 := by
  unfold callsOf at hlisted
  cases hbody : store.readBody? method with
  | none =>
    rw [hbody] at hlisted
    cases hlisted
  | some body =>
    rw [hbody] at hlisted
    obtain ⟨target, hmember, hrest⟩ :=
      (callsOfBody_collects hkeyed howners body).named entry hlisted
    obtain ⟨i, hinside, hcalls⟩ := List.mem_filterMap.mp hmember
    exact ⟨target, ⟨body, hbody, i, hinside, hcalls⟩, hrest⟩

/-! ### The order of the callees -/

/-- The first call of each callee, in order. -/
def firstCalls : List CallTarget → List CallTarget
  | [] => []
  | target :: rest => target :: (firstCalls rest).filter (·.handle ≠ target.handle)

/-- A callee is noted under the name that this call of it gives. -/
def NotedAs (store : Store) (target : CallTarget) (entry : Handle × Text) : Prop :=
  target.handle = entry.1 ∧ store.callSiteName target.handle target.instantiation = .ok entry.2

/-- Collecting appends the first calls of the callees that were not there yet. -/
theorem notedAs_of_foldlM {targets : List CallTarget} {pending pending' : PendingCalls}
    (hadded : targets.foldlM store.addCall pending = .ok pending') :
    ∃ entries, pending'.entries = pending.entries ++ entries ∧
      List.Forall₂ store.NotedAs ((firstCalls targets).filter (·.handle ∉ pending.keys))
        entries := by
  induction targets generalizing pending with
  | nil =>
    cases Outcome.pure_eq_ok_iff.mp hadded
    exact ⟨[], (List.append_nil _).symm, .nil⟩
  | cons target targets ih =>
    rw [List.foldlM_cons] at hadded
    obtain ⟨next, hfirst, hothers⟩ := Outcome.bind_eq_ok_iff.mp hadded
    obtain ⟨entries, hentries, hnoted⟩ := ih hothers
    rw [firstCalls, List.filter_cons, List.filter_filter]
    by_cases hknown : target.handle ∈ pending.keys
    · -- nothing is added, and later calls of this callee are not first ones either
      obtain ⟨name, hfound⟩ := OrderedMap.exists_get?_of_mem_keys hknown
      rw [addCall, if_pos ((OrderedMap.contains_iff _ _).mpr ⟨name, hfound⟩)] at hfirst
      cases hfirst
      refine ⟨entries, hentries, ?_⟩
      rw [if_neg (by simpa using hknown)]
      have hsame : ∀ later ∈ firstCalls targets,
          (decide (later.handle ∉ pending.keys) && decide (later.handle ≠ target.handle)) =
            decide (later.handle ∉ pending.keys) := by
        intro later _
        by_cases h : later.handle = target.handle
        · simp [h, hknown]
        · simp [h]
      rwa [List.filter_congr hsame]
    · have habsent : ¬ pending.contains target.handle = true := by
        rw [OrderedMap.contains_iff]
        rintro ⟨name, hfound⟩
        exact hknown (OrderedMap.get?_mem_keys hfound)
      rw [addCall, if_neg habsent] at hfirst
      obtain ⟨name, hcomputed, hdone⟩ := Outcome.bind_eq_ok_iff.mp hfirst
      cases Outcome.pure_eq_ok_iff.mp hdone
      have happended : (pending.insert target.handle name).entries =
          pending.entries ++ [(target.handle, name)] := OrderedMap.put_of_notMem name hknown
      refine ⟨(target.handle, name) :: entries, ?_, ?_⟩
      · rw [hentries, happended, List.append_assoc]
        rfl
      · rw [if_pos (by simpa using hknown)]
        refine .cons ⟨rfl, hcomputed⟩ ?_
        have hsame : ∀ later ∈ firstCalls targets,
            decide (later.handle ∉ (pending.insert target.handle name).keys) =
              (decide (later.handle ∉ pending.keys) &&
                decide (later.handle ≠ target.handle)) := by
          intro later _
          rw [OrderedMap.keys_insert, if_neg hknown]
          simp
        rwa [List.filter_congr hsame] at hnoted

theorem notedAs_of_callsIn {instructions : List Instruction} {pending : PendingCalls}
    (hcollected : store.callsIn instructions = .ok pending) :
    List.Forall₂ store.NotedAs (firstCalls (instructions.filterMap store.calleeOf))
      pending.entries := by
  obtain ⟨entries, hentries, hnoted⟩ := notedAs_of_foldlM hcollected
  have hfresh : ∀ target ∈ firstCalls (instructions.filterMap store.calleeOf),
      decide (target.handle ∉ (OrderedMap.empty : PendingCalls).keys) = true := by
    intro target _
    exact decide_eq_true List.not_mem_nil
  rw [List.filter_eq_self.mpr hfresh] at hnoted
  have hentries' : pending.entries = entries := hentries
  rwa [← hentries'] at hnoted

/-- The targets of a method's calls, in the order of the instructions. -/
def callTargets (store : Store) (method : MethodDef) : List CallTarget :=
  match store.readBody? method with
  | some body => body.instructions.filterMap store.calleeOf
  | none => []

/-- The callees of a method are those of its first calls, in their order, each
under the name that this call gives it. -/
theorem notedAs_callsOf (hkeyed : store.Keyed) (howners : store.OwnersDefined)
    (method : MethodDef) :
    List.Forall₂ store.NotedAs (firstCalls (store.callTargets method))
      (store.callsOf method).entries := by
  unfold callsOf callTargets
  cases store.readBody? method with
  | none => exact .nil
  | some body =>
    obtain ⟨pending, hcollected⟩ := exists_callsIn hkeyed.methodDefs howners body.instructions
    show List.Forall₂ _ _ (store.callsOfBody body).entries
    rw [callsOfBody, hcollected]
    exact notedAs_of_callsIn hcollected

/-! ### The table -/

/-- The entries of a table: those of the scanned methods, by handle. -/
structure Registers (scanned : List ScannedMethod) (entries : OrderedMap Handle TableEntry) :
    Prop where
  sound : ∀ h found, entries.get? h = some found →
    ∃ s ∈ scanned, s.method = found ∧ found.handle = h
  complete : ∀ s ∈ scanned, ∃ found, entries.get? s.method.handle = some found

theorem Registers.step {scanned : List ScannedMethod} {entries : OrderedMap Handle TableEntry}
    (hregisters : Registers scanned entries) (s : ScannedMethod) :
    Registers (scanned ++ [s]) (entries.insert s.method.handle s.method) where
  sound := by
    intro h found hget
    rw [OrderedMap.get?_insert] at hget
    split at hget
    · next hsame =>
      cases hget
      exact ⟨s, by simp, rfl, hsame⟩
    · obtain ⟨s', hmember, hrest⟩ := hregisters.sound h found hget
      exact ⟨s', List.mem_append_left _ hmember, hrest⟩
  complete := by
    intro s' hmember
    rw [OrderedMap.get?_insert]
    split
    · exact ⟨s.method, rfl⟩
    · next hdifferent =>
      rcases List.mem_append.mp hmember with hearlier | hlast
      · exact hregisters.complete s' hearlier
      · rw [List.mem_singleton] at hlast
        exact absurd (by rw [hlast]) hdifferent

theorem Registers.foldl {scanned more : List ScannedMethod}
    {entries : OrderedMap Handle TableEntry} (hregisters : Registers scanned entries) :
    Registers (scanned ++ more)
      (more.foldl (fun acc s => acc.insert s.method.handle s.method) entries) := by
  induction more generalizing scanned entries with
  | nil => rwa [List.append_nil]
  | cons s more ih =>
    have h := ih (hregisters.step s)
    rwa [List.append_assoc] at h

theorem tableOf_registers (scanned : List ScannedMethod) :
    Registers scanned (tableOf scanned).entries := by
  have hstart : Registers [] OrderedMap.empty := by
    constructor
    · intro h found hget
      cases hget
    · intro s hmember
      cases hmember
  exact hstart.foldl

theorem recordsOf_tableOf (scanned : List ScannedMethod) (pending : PendingCalls)
    (caller : TableEntry) (selfReference : Bool) :
    (tableOf scanned).recordsOf pending (some caller) selfReference =
      .ok (pending.entries.map fun entry =>
        (tableOf scanned).recordOf (if selfReference then some caller else none)
          entry.1 entry.2) := by
  cases selfReference with
  | false => rfl
  | true => rfl

end Store
end CilAtlas
