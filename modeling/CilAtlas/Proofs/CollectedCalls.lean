import CilAtlas.Proofs.CallResolution
import Mathlib.Data.List.Forall2

/-!
# The callees of an instruction list

Collecting the callees of an instruction list never fails.  It notes every callee
once, in the order of the first calls, under the name that its first call gives
it: later calls of the same callee may resolve through another operand and with
other type arguments, and they change nothing.  A list that is continued keeps
what it had noted and adds the callees that are new.
-/

namespace CilAtlas
namespace Store

variable {store : Store}

/-! ### Call instructions -/

/-- The instruction calls the target: it is a call, a virtual call or a
construction, and the number that is its operand resolves to the target. -/
def CallsAt (store : Store) (i : Instruction) (target : CallTarget) : Prop :=
  (i.mnemonic = lit "call" ∨ i.mnemonic = lit "callvirt" ∨ i.mnemonic = lit "newobj") ∧
    ∃ token, i.operand.tokenValue? = some token ∧ store.callTarget token = some target

theorem calleeOf_eq_some_iff {i : Instruction} {target : CallTarget} :
    store.calleeOf i = some target ↔ store.CallsAt i target := by
  have hcalls : i.isCall = true ↔
      i.mnemonic = lit "call" ∨ i.mnemonic = lit "callvirt" ∨ i.mnemonic = lit "newobj" := by
    simp [Instruction.isCall, Instruction.callOperations]
  unfold calleeOf CallsAt
  rw [← hcalls]
  split
  · next hcall => simp [hcall, Option.bind_eq_some_iff]
  · next hother => simp [hother]

/-! ### First calls -/

/-- The first calls outside a set of callees have the callees that are left, each
once and in order. -/
theorem map_handle_filter_firstCalls (targets : List CallTarget) (known : List Handle) :
    ((firstCalls targets).filter (·.handle ∉ known)).map CallTarget.handle =
      ((targets.map CallTarget.handle).filter (· ∉ known)).eraseDups := by
  induction targets generalizing known with
  | nil => rfl
  | cons target rest ih =>
    rw [firstCalls, List.filter_cons, List.filter_filter, List.map_cons, List.filter_cons]
    by_cases hknown : target.handle ∈ known
    · have hsame : ∀ later ∈ firstCalls rest,
          (decide (later.handle ∉ known) && decide (later.handle ≠ target.handle)) =
            decide (later.handle ∉ known) := by
        intro later _
        by_cases h : later.handle = target.handle
        · simp [h, hknown]
        · simp [h]
      rw [if_neg (by simpa using hknown), if_neg (by simpa using hknown), List.filter_congr hsame]
      exact ih known
    · -- the callee joins the known ones for the rest of the list
      have hjoined : ∀ later ∈ firstCalls rest,
          (decide (later.handle ∉ known) && decide (later.handle ≠ target.handle)) =
            decide (later.handle ∉ target.handle :: known) := by
        intro later _
        by_cases h : later.handle = target.handle
        · simp [h]
        · simp [h]
      have hjoinedHandles : ∀ later ∈ rest.map CallTarget.handle,
          (decide (later ∉ known) && !(later == target.handle)) =
            decide (later ∉ target.handle :: known) := by
        intro later _
        by_cases h : later = target.handle
        · simp [h]
        · simp [h]
      rw [if_pos (by simpa using hknown), if_pos (by simpa using hknown), List.map_cons,
        List.eraseDups_cons, List.filter_filter, List.filter_congr hjoined, ih]
      congr 2
      refine List.filter_congr ?_
      intro later hlisted
      rw [← hjoinedHandles later hlisted, Bool.and_comm]

theorem map_handle_firstCalls (targets : List CallTarget) :
    (firstCalls targets).map CallTarget.handle =
      (targets.map CallTarget.handle).eraseDups := by
  simpa using map_handle_filter_firstCalls targets []

theorem mem_firstCalls {before after : List CallTarget} {target : CallTarget}
    (hfresh : ∀ earlier ∈ before, earlier.handle ≠ target.handle) :
    target ∈ firstCalls (before ++ target :: after) := by
  induction before with
  | nil => exact List.mem_cons_self
  | cons earlier before ih =>
    have hlater := ih fun e hmember => hfresh e (List.mem_cons_of_mem _ hmember)
    have hdifferent : target.handle ≠ earlier.handle :=
      Ne.symm (hfresh earlier List.mem_cons_self)
    exact List.mem_cons_of_mem _ (List.mem_filter.mpr ⟨hlater, by simpa using hdifferent⟩)

/-! ### Noted callees -/

/-- A call gives its callee one name only. -/
theorem notedAs_rightUnique : Relator.RightUnique store.NotedAs := by
  rintro target ⟨h, name⟩ ⟨h', name'⟩ ⟨rfl, hcomputed⟩ ⟨rfl, hcomputed'⟩
  rw [hcomputed] at hcomputed'
  cases hcomputed'
  rfl

theorem keys_of_notedAs {targets : List CallTarget} {entries : List (Handle × Text)}
    (hnoted : List.Forall₂ store.NotedAs targets entries) :
    entries.map Prod.fst = targets.map CallTarget.handle := by
  induction hnoted with
  | nil => rfl
  | cons hfirst _ ih => rw [List.map_cons, List.map_cons, ih, hfirst.1]

theorem notedAs_filter {targets : List CallTarget} {entries : List (Handle × Text)}
    (keep : Handle → Bool) (hnoted : List.Forall₂ store.NotedAs targets entries) :
    List.Forall₂ store.NotedAs (targets.filter fun target => keep target.handle)
      (entries.filter fun entry => keep entry.1) := by
  induction hnoted with
  | nil => exact .nil
  | cons hfirst _ ih =>
    rw [List.filter_cons, List.filter_cons, ← hfirst.1]
    split
    · exact .cons hfirst ih
    · exact ih

theorem keys_of_callsIn {instructions : List Instruction} {pending : PendingCalls}
    (hcollected : store.callsIn instructions = .ok pending) :
    pending.keys = ((instructions.filterMap store.calleeOf).map CallTarget.handle).eraseDups := by
  rw [← map_handle_firstCalls]
  exact keys_of_notedAs (notedAs_of_callsIn hcollected)

/-- A callee has the name that its first call gives it. -/
theorem name_of_firstCall {before after : List Instruction} {i : Instruction}
    {target : CallTarget} {pending : PendingCalls}
    (hcollected : store.callsIn (before ++ i :: after) = .ok pending)
    (hcalls : store.CallsAt i target)
    (hfresh : ∀ j ∈ before, ∀ earlier, store.CallsAt j earlier → earlier.handle ≠ target.handle) :
    ∃ name, store.callSiteName target.handle target.instantiation = .ok name ∧
      pending.get? target.handle = some name := by
  have hnoted := notedAs_of_callsIn hcollected
  rw [List.filterMap_append, List.filterMap_cons_some (calleeOf_eq_some_iff.mpr hcalls)] at hnoted
  have hfirst : target ∈ firstCalls (before.filterMap store.calleeOf ++
      target :: after.filterMap store.calleeOf) := by
    refine mem_firstCalls ?_
    intro earlier hmember
    obtain ⟨j, hinside, hfound⟩ := List.mem_filterMap.mp hmember
    exact hfresh j hinside earlier (calleeOf_eq_some_iff.mp hfound)
  obtain ⟨⟨h, name⟩, hlisted, rfl, hcomputed⟩ := exists_mem_of_forall₂_left hnoted hfirst
  exact ⟨name, hcomputed, (OrderedMap.get?_eq_some_iff _ _ _).mpr hlisted⟩

/-- Going on with more instructions adds the callees that are new. -/
theorem entries_of_callsIn_append {xs ys : List Instruction} {first second whole : PendingCalls}
    (hcollectedFirst : store.callsIn xs = .ok first)
    (hcollectedSecond : store.callsIn ys = .ok second)
    (hcollected : store.callsIn (xs ++ ys) = .ok whole) :
    whole.entries = first.entries ++ second.entries.filter (·.1 ∉ first.keys) := by
  rw [callsIn, List.filterMap_append, List.foldlM_append] at hcollected
  obtain ⟨reached, hreached, hadded⟩ := Outcome.bind_eq_ok_iff.mp hcollected
  cases hreached.symm.trans hcollectedFirst
  obtain ⟨entries, hentries, hnoted⟩ := notedAs_of_foldlM hadded
  have hkept := notedAs_filter (fun h => decide (h ∉ first.keys))
    (notedAs_of_callsIn hcollectedSecond)
  rw [hentries, List.right_unique_forall₂' notedAs_rightUnique hnoted hkept]

/-- **Collecting notes each callee once, by its first call.**  For every instruction
list it succeeds, also where the callees of a body are asked for; the callees are
those of the call instructions, each once and in the order of their first calls;
each has the name that its first call gives it; and the callees of a continued list
are those of the list, followed by those of the continuation that are new. -/
theorem callsIn_by_first_call (hmethods : store.MethodsKeyed) (howners : store.OwnersDefined) :
    (∀ i target, store.calleeOf i = some target ↔ store.CallsAt i target) ∧
    (∀ instructions, ∃ pending, store.callsIn instructions = .ok pending ∧
      pending.keys =
        ((instructions.filterMap store.calleeOf).map CallTarget.handle).eraseDups ∧
      ∀ before i after target, instructions = before ++ i :: after → store.CallsAt i target →
        (∀ j ∈ before, ∀ earlier, store.CallsAt j earlier → earlier.handle ≠ target.handle) →
        ∃ name, store.callSiteName target.handle target.instantiation = .ok name ∧
          pending.get? target.handle = some name) ∧
    (∀ xs ys, ∃ first second whole, store.callsIn xs = .ok first ∧ store.callsIn ys = .ok second ∧
      store.callsIn (xs ++ ys) = .ok whole ∧
      whole.entries = first.entries ++ second.entries.filter (·.1 ∉ first.keys)) ∧
    ∀ body, store.callsIn body.instructions = .ok (store.callsOfBody body) := by
  refine ⟨fun i target => calleeOf_eq_some_iff, ?_, ?_, ?_⟩
  · intro instructions
    obtain ⟨pending, hcollected⟩ := exists_callsIn hmethods howners instructions
    refine ⟨pending, hcollected, keys_of_callsIn hcollected, ?_⟩
    rintro before i after target rfl hcalls hfresh
    exact name_of_firstCall hcollected hcalls hfresh
  · intro xs ys
    obtain ⟨first, hfirst⟩ := exists_callsIn hmethods howners xs
    obtain ⟨second, hsecond⟩ := exists_callsIn hmethods howners ys
    obtain ⟨whole, hwhole⟩ := exists_callsIn hmethods howners (xs ++ ys)
    exact ⟨first, second, whole, hfirst, hsecond, hwhole,
      entries_of_callsIn_append hfirst hsecond hwhole⟩
  · intro body
    obtain ⟨pending, hcollected⟩ := exists_callsIn hmethods howners body.instructions
    rw [callsOfBody, hcollected]

/-! ### A generic method that is called with different arguments -/

/-- A generic method with one parameter, of the type that it is called with. -/
def genericMethod : MethodDef where
  handle := ⟨TableNumber.methodDef, 1⟩
  name := lit "M"
  owner := ⟨TableNumber.typeDef, 1⟩
  flags := .bits 0
  implFlags := .bits 0
  rva := 0
  signature := [0x10, 0x01, 0x01, 0x01, 0x1E, 0x00]
  params := []
  genericParameters := [lit "X"]
  compilerGenerated := false

/-- The type of the generic method. -/
def genericMethodOwner : TypeDef where
  handle := ⟨TableNumber.typeDef, 1⟩
  nameSpace := []
  name := lit "T"
  flags := .bits 0
  extends? := none
  declaringType? := none
  methods := [⟨TableNumber.methodDef, 1⟩]
  genericParameters := []

/-- The generic method, instantiated with integers and with strings. -/
def twoInstances : Store where
  typeDefs := OrderedMap.ofList [(⟨TableNumber.typeDef, 1⟩, genericMethodOwner)]
  typeRefs := OrderedMap.empty
  exportedTypes := OrderedMap.empty
  methodDefs := OrderedMap.ofList [(⟨TableNumber.methodDef, 1⟩, genericMethod)]
  memberRefs := OrderedMap.empty
  methodSpecs := OrderedMap.ofList
    [(⟨TableNumber.methodSpec, 1⟩, ⟨⟨TableNumber.methodSpec, 1⟩,
      some ⟨TableNumber.methodDef, 1⟩, [0x0A, 0x01, 0x08]⟩),
    (⟨TableNumber.methodSpec, 2⟩, ⟨⟨TableNumber.methodSpec, 2⟩,
      some ⟨TableNumber.methodDef, 1⟩, [0x0A, 0x01, 0x0E]⟩)]
  typeSpecs := OrderedMap.empty
  image := ⟨#[]⟩
  userStrings := fun _ => .ok none
  facts := ⟨0, 0, 0, 0, 0⟩

/-- A call with a token as its operand. -/
def callOf (mnemonic : Text) (token : Int) : Instruction where
  offset := 0
  mnemonic := mnemonic
  operand := .token token
  bytes := []

/-- The first call decides: the method is noted once, under its name for strings,
and not under the one for integers, which a later call gives it. -/
theorem twoInstances_noted_once :
    twoInstances.MethodsKeyed ∧ twoInstances.OwnersDefined ∧ ∃ pending name,
      twoInstances.callsIn [callOf (lit "ldtoken") 0x2B000001, callOf (lit "call") 0x0A000001,
        callOf (lit "callvirt") 0x2B000002, callOf (lit "call") 0x2B000001] = .ok pending ∧
      pending.keys = [⟨TableNumber.methodDef, 1⟩] ∧
      pending.get? ⟨TableNumber.methodDef, 1⟩ = some name ∧
      twoInstances.callSiteName ⟨TableNumber.methodDef, 1⟩ [lit "System.String"] = .ok name ∧
      twoInstances.callSiteName ⟨TableNumber.methodDef, 1⟩ [lit "System.Int32"] ≠ .ok name := by
  have hmethods : twoInstances.MethodsKeyed := by decide
  have howners : twoInstances.OwnersDefined := by decide
  obtain ⟨hcalls, hcollects, -⟩ := callsIn_by_first_call hmethods howners
  obtain ⟨pending, hcollected, hkeys, hnamed⟩ := hcollects [callOf (lit "ldtoken") 0x2B000001,
    callOf (lit "call") 0x0A000001, callOf (lit "callvirt") 0x2B000002,
    callOf (lit "call") 0x2B000001]
  -- the two instructions before the first call have no callee at all
  obtain ⟨name, hcomputed, hfound⟩ := hnamed
    [callOf (lit "ldtoken") 0x2B000001, callOf (lit "call") 0x0A000001]
    (callOf (lit "callvirt") 0x2B000002) [callOf (lit "call") 0x2B000001]
    ⟨⟨TableNumber.methodDef, 1⟩, [lit "System.String"]⟩ rfl ((hcalls _ _).mp (by decide)) (by
      simp only [← hcalls]
      decide)
  have hkeys' : pending.keys = [⟨TableNumber.methodDef, 1⟩] := hkeys.trans (by decide)
  have hapart : twoInstances.callSiteName ⟨TableNumber.methodDef, 1⟩ [lit "System.Int32"] ≠
      twoInstances.callSiteName ⟨TableNumber.methodDef, 1⟩ [lit "System.String"] := by decide
  exact ⟨hmethods, howners, pending, name, hcollected, hkeys', hfound, hcomputed,
    hcomputed ▸ hapart⟩

end Store
end CilAtlas
