import CilAtlas.Proofs.ListedStrings
import CilAtlas.Proofs.LocalAccess
import Mathlib.Logic.Function.Basic

/-!
# Stores to variables that are never read

A listing can show a store to a dead variable as dropping the value.  This is
the listing of another program, in which every such store is replaced by `pop`.
The two programs do the same on every stack machine that touches local variables
only through the accesses: step by step they are at the same instruction, with
the same stack and the same other state, and their variables differ at most in
the dead slots.  The machine is otherwise open, so an instruction may branch
anywhere, fail to step, or step in several ways.
-/

namespace CilAtlas

open Body

namespace Instruction

/-! ### The program without dead stores -/

/-- The code of the operation that drops the top of the stack. -/
def popCode : UInt8 := 0x26

/-- The instruction at the same place that drops the top of the stack. -/
def asPop (i : Instruction) : Instruction where
  offset := i.offset
  mnemonic := (Opcode.ofByte popCode).mnemonic
  operand := .none
  bytes := [popCode]

/-- The instruction stores to one of the slots. -/
def storesTo (dead : List Int) (i : Instruction) : Bool :=
  (i.localSlot? (lit "stloc")).any dead.contains

/-- The instructions with every store to a dead slot replaced. -/
def withoutDeadStores (instructions : List Instruction) : List Instruction :=
  instructions.map fun i => if i.storesTo (deadSlots instructions) then i.asPop else i

/-- The instruction stores to a slot that no instruction of the list reads. -/
def IsDeadStore (instructions : List Instruction) (i : Instruction) : Prop :=
  ∃ slot, Access.store.Encodes slot i.bytes ∧ NeverRead instructions slot

theorem popCode_not_encodes (access : Access) (slot : Nat) : ¬ access.Encodes slot [popCode] :=
  Access.not_encodes_of_unlisted (by decide) access slot

theorem getElem?_withoutDeadStores (instructions : List Instruction) (position : Nat) :
    (withoutDeadStores instructions)[position]? = instructions[position]?.map fun i =>
      if i.storesTo (deadSlots instructions) then i.asPop else i :=
  List.getElem?_map

theorem Coded.storesTo_iff {i : Instruction} (hcoded : i.Coded) {dead : List Int} :
    i.storesTo dead = true ↔
      ∃ slot : Nat, Access.store.Encodes slot i.bytes ∧ (slot : Int) ∈ dead := by
  have hstored : ∀ n, i.localSlot? (lit "stloc") = some n ↔ _ :=
    fun n => hcoded.localSlot?_eq_some_iff .store
  simp only [storesTo, Option.any_eq_true, hstored, List.contains_eq_mem, decide_eq_true_eq]
  constructor
  · rintro ⟨_, ⟨slot, rfl, hencodes⟩, hmember⟩
    exact ⟨slot, hencodes, hmember⟩
  · rintro ⟨slot, hencodes, hmember⟩
    exact ⟨slot, ⟨slot, rfl, hencodes⟩, hmember⟩

/-- Exactly the dead stores are replaced. -/
theorem storesTo_deadSlots_iff {instructions : List Instruction}
    (hcoded : ∀ i ∈ instructions, i.Coded) {i : Instruction} (hmember : i ∈ instructions) :
    i.storesTo (deadSlots instructions) = true ↔ IsDeadStore instructions i := by
  rw [(hcoded i hmember).storesTo_iff]
  constructor
  · rintro ⟨slot, hencodes, hdead⟩
    exact ⟨slot, hencodes, ((mem_deadSlots_iff hcoded).mp hdead).2⟩
  · rintro ⟨slot, hencodes, hnever⟩
    exact ⟨slot, hencodes, (mem_deadSlots_iff hcoded).mpr ⟨⟨i, hmember, hencodes⟩, hnever⟩⟩

theorem IsDeadStore.asPop_ne {instructions : List Instruction} {i : Instruction}
    (hdeadStore : IsDeadStore instructions i) : i.asPop ≠ i := by
  obtain ⟨slot, hencodes, -⟩ := hdeadStore
  intro hsame
  rw [← hsame] at hencodes
  exact popCode_not_encodes _ _ hencodes

end Instruction

/-! ### Its listing -/

namespace Store

open Instruction

variable {store : Store}

theorem asPop_mnemonic (i : Instruction) : i.asPop.mnemonic = lit "pop" := by
  show (Opcode.ofByte popCode).mnemonic = _
  decide +kernel

/-- A store is shown as `pop` where it is dead, and otherwise as it is. -/
theorem instructionLine_dead (options : ListingOptions) (dead : List Int) (base : Int)
    (i : Instruction) :
    store.instructionLine options dead base i =
      store.instructionLine options [] base (if i.storesTo dead then i.asPop else i) := by
  have hnone : ∀ j : Instruction,
      (j.localSlot? (lit "stloc")).any ([] : List Int).contains = false := by
    intro j
    cases j.localSlot? (lit "stloc") <;> rfl
  by_cases hstores : i.storesTo dead = true
  · -- a store is no operation that is left out
    have hnotNop : i.mnemonic ≠ lit "nop" := by
      intro hnop
      have hapart : SlotForm.ofMnemonic (lit "stloc") (lit "nop") = .absent := by decide
      rw [storesTo, localSlot?_eq, hnop, hapart] at hstores
      cases hstores
    have hpopNotNop : lit "pop" ≠ lit "nop" := by decide
    have hdropped : (i.localSlot? (lit "stloc")).any dead.contains = true := hstores
    rw [if_pos hstores, instructionLine, instructionLine, if_neg (by simp [hnotNop]),
      if_pos hdropped, asPop_mnemonic, if_neg (by simp [hpopNotNop]), hnone,
      if_neg Bool.false_ne_true]
    show _ = Except.ok (some (_ ++ []))
    rw [List.append_nil]
    rfl
  · have hkept : (i.localSlot? (lit "stloc")).any dead.contains = false := by
      simpa [storesTo] using hstores
    rw [if_neg hstores, instructionLine, instructionLine, hkept, hnone]

theorem bodyLines_withoutDeadStores (options : ListingOptions) (body : Body) :
    store.bodyLines { options with removeDeadStores := true } body =
      store.bodyLines { options with removeDeadStores := false }
        { body with instructions := withoutDeadStores body.instructions } := by
  have hlines : ∀ base, body.instructions.mapM
      (store.instructionLine { options with removeDeadStores := true }
        (deadSlots body.instructions) base) =
      (withoutDeadStores body.instructions).mapM
        (store.instructionLine { options with removeDeadStores := false } [] base) := by
    intro base
    rw [withoutDeadStores, List.mapM_map]
    exact Outcome.mapM_congr fun i _ => instructionLine_dead _ _ base i
  simp only [bodyLines, if_true, Bool.false_eq_true, if_false, hlines]

/-- The listing without dead stores is the listing of the program without them. -/
theorem listing_withoutDeadStores (options : ListingOptions) (h : Handle) (body : Body) :
    store.listing { options with removeDeadStores := true } h (some body) =
      store.listing { options with removeDeadStores := false } h
        (some { body with instructions := withoutDeadStores body.instructions }) := by
  cases hfound : store.methodDefs.get? h with
  | none =>
    rw [listing, listing, methodDef, hfound]
    rfl
  | some method =>
    cases hpresent : method.hasBody with
    | false =>
      rw [listing_of_noBody hfound hpresent, listing_of_noBody hfound hpresent]
      rfl
    | true =>
      rw [listing_of_body hfound hpresent, listing_of_body hfound hpresent,
        bodyLines_withoutDeadStores]
      rfl

end Store

/-! ### Stack machines with local variables -/

/-- What a machine has besides local variables: the number of the next
instruction, the stack, and everything else. -/
structure Core (V R : Type) where
  position : Nat
  stack : List V
  others : R

/-- A state of a machine. -/
structure Frame (V R : Type) where
  core : Core V R
  slots : Nat → V

/-- What a machine is free in: how it takes the address of a variable, which may
read and write the variable, and how it executes the instructions that neither
access variables nor drop a value. -/
structure Machine (V R : Type) where
  takeAddress : Instruction → Core V R → V → Core V R → V → Prop
  execute : Instruction → Core V R → Core V R → Prop

namespace Machine

open Instruction

variable {V R : Type} (machine : Machine V R)

/-- The effect of one instruction. -/
inductive Exec (i : Instruction) : Frame V R → Frame V R → Prop
  | load {slot position : Nat} {stack : List V} {others : R} {slots : Nat → V}
      (hencodes : Access.load.Encodes slot i.bytes) :
      Exec i ⟨⟨position, stack, others⟩, slots⟩ ⟨⟨position + 1, slots slot :: stack, others⟩, slots⟩
  | address {slot : Nat} {before after : Core V R} {slots : Nat → V} {value : V}
      (hencodes : Access.address.Encodes slot i.bytes)
      (hacts : machine.takeAddress i before (slots slot) after value) :
      Exec i ⟨before, slots⟩ ⟨after, Function.update slots slot value⟩
  | store {slot position : Nat} {value : V} {stack : List V} {others : R} {slots : Nat → V}
      (hencodes : Access.store.Encodes slot i.bytes) :
      Exec i ⟨⟨position, value :: stack, others⟩, slots⟩
        ⟨⟨position + 1, stack, others⟩, Function.update slots slot value⟩
  | pop {position : Nat} {value : V} {stack : List V} {others : R} {slots : Nat → V}
      (hpop : i.bytes = [popCode]) :
      Exec i ⟨⟨position, value :: stack, others⟩, slots⟩ ⟨⟨position + 1, stack, others⟩, slots⟩
  | other {before after : Core V R} {slots : Nat → V}
      (hnoAccess : ∀ (access : Access) slot, ¬ access.Encodes slot i.bytes)
      (hnoPop : i.bytes ≠ [popCode]) (hacts : machine.execute i before after) :
      Exec i ⟨before, slots⟩ ⟨after, slots⟩

/-- One step of a program. -/
def Step (program : List Instruction) (f f' : Frame V R) : Prop :=
  ∃ i, program[f.core.position]? = some i ∧ machine.Exec i f f'

/-- The states that a run of a program goes through after its start. -/
inductive Runs (program : List Instruction) : Frame V R → List (Frame V R) → Prop
  | stop (f : Frame V R) : Runs program f []
  | step {f f' : Frame V R} {later : List (Frame V R)} (hfirst : machine.Step program f f')
      (hrest : Runs program f' later) : Runs program f (f' :: later)

end Machine

/-- The states are equal but for the given slots. -/
structure Frame.Agrees {V R : Type} (dead : List Int) (f g : Frame V R) : Prop where
  core_eq : f.core = g.core
  slots_eq : ∀ slot : Nat, (slot : Int) ∉ dead → f.slots slot = g.slots slot

namespace Frame.Agrees

variable {V R : Type} {dead : List Int} {f g : Frame V R}

theorem refl (f : Frame V R) : f.Agrees dead f :=
  ⟨rfl, fun _ _ => rfl⟩

theorem symm (hagrees : f.Agrees dead g) : g.Agrees dead f :=
  ⟨hagrees.core_eq.symm, fun slot hlive => (hagrees.slots_eq slot hlive).symm⟩

/-- Both sides write the same value. -/
theorem update_both (hagrees : f.Agrees dead g) (core : Core V R) (slot : Nat) (value : V) :
    Frame.Agrees dead ⟨core, Function.update f.slots slot value⟩
      ⟨core, Function.update g.slots slot value⟩ := by
  refine ⟨rfl, ?_⟩
  intro other hlive
  by_cases hsame : other = slot
  · simp [hsame]
  · simpa [hsame] using hagrees.slots_eq other hlive

/-- A value written to a dead slot is not seen. -/
theorem update_dead (hagrees : f.Agrees dead g) (core : Core V R) {slot : Nat}
    (hdead : (slot : Int) ∈ dead) (value : V) :
    Frame.Agrees dead ⟨core, Function.update f.slots slot value⟩ ⟨core, g.slots⟩ := by
  refine ⟨rfl, ?_⟩
  intro other hlive
  have hapart : other ≠ slot := by
    rintro rfl
    exact hlive hdead
  simpa [hapart] using hagrees.slots_eq other hlive

end Frame.Agrees

namespace Machine

open Instruction

variable {V R : Type} {machine : Machine V R} {dead : List Int} {f g f' g' : Frame V R}
  {i : Instruction}

/-! ### One instruction -/

/-- An instruction that reads no dead slot does the same in states that agree. -/
theorem exec_of_agrees
    (hlive : ∀ slot, Access.load.Encodes slot i.bytes ∨ Access.address.Encodes slot i.bytes →
      (slot : Int) ∉ dead)
    (hagrees : f.Agrees dead g) (hexec : machine.Exec i f f') :
    ∃ g', machine.Exec i g g' ∧ f'.Agrees dead g' := by
  obtain ⟨core, slots⟩ := g
  obtain rfl : f.core = core := hagrees.core_eq
  cases hexec with
  | @load slot position stack others slots' hencodes =>
    have hsame : slots' slot = slots slot := hagrees.slots_eq slot (hlive slot (.inl hencodes))
    refine ⟨_, .load hencodes, ?_, hagrees.slots_eq⟩
    show Core.mk _ (slots' slot :: stack) _ = Core.mk _ (slots slot :: stack) _
    rw [hsame]
  | @address slot before after slots' value hencodes hacts =>
    have hsame : slots' slot = slots slot := hagrees.slots_eq slot (hlive slot (.inr hencodes))
    rw [hsame] at hacts
    exact ⟨_, .address hencodes hacts, hagrees.update_both _ slot value⟩
  | @store slot position value stack others _ hencodes =>
    exact ⟨_, .store hencodes, hagrees.update_both _ slot value⟩
  | pop hpop => exact ⟨_, .pop hpop, rfl, hagrees.slots_eq⟩
  | other hnoAccess hnoPop hacts => exact ⟨_, .other hnoAccess hnoPop hacts, rfl, hagrees.slots_eq⟩

/-- A store takes the value from the stack and puts it into its slot. -/
theorem exec_store_iff {slot : Nat} (hencodes : Access.store.Encodes slot i.bytes) :
    machine.Exec i f f' ↔ ∃ position value stack others,
      f.core = ⟨position, value :: stack, others⟩ ∧
      f' = ⟨⟨position + 1, stack, others⟩, Function.update f.slots slot value⟩ := by
  constructor
  · intro hexec
    cases hexec with
    | load hencodes' => cases (hencodes.unique hencodes').1
    | address hencodes' _ => cases (hencodes.unique hencodes').1
    | store hencodes' =>
      obtain ⟨-, rfl⟩ := hencodes.unique hencodes'
      exact ⟨_, _, _, _, rfl, rfl⟩
    | pop hpop =>
      rw [hpop] at hencodes
      exact absurd hencodes (popCode_not_encodes _ _)
    | other hnoAccess _ _ => exact absurd hencodes (hnoAccess _ _)
  · rintro ⟨position, value, stack, others, hcore, rfl⟩
    obtain ⟨core, slots⟩ := f
    obtain rfl : core = _ := hcore
    exact .store hencodes

/-- The instruction in the place of a store takes the value from the stack. -/
theorem exec_asPop_iff :
    machine.Exec i.asPop f f' ↔ ∃ position value stack others,
      f.core = ⟨position, value :: stack, others⟩ ∧
      f' = ⟨⟨position + 1, stack, others⟩, f.slots⟩ := by
  constructor
  · intro hexec
    cases hexec with
    | load hencodes => exact absurd hencodes (popCode_not_encodes _ _)
    | address hencodes _ => exact absurd hencodes (popCode_not_encodes _ _)
    | store hencodes => exact absurd hencodes (popCode_not_encodes _ _)
    | pop _ => exact ⟨_, _, _, _, rfl, rfl⟩
    | other _ hnoPop _ => exact absurd rfl hnoPop
  · rintro ⟨position, value, stack, others, hcore, rfl⟩
    obtain ⟨core, slots⟩ := f
    obtain rfl : core = _ := hcore
    exact .pop rfl

/-! ### Steps and runs -/

variable {instructions : List Instruction}

/-- No instruction of the list reads a dead slot. -/
theorem live_of_mem (hcoded : ∀ i ∈ instructions, i.Coded) (hmember : i ∈ instructions) (slot : Nat)
    (hreads : Access.load.Encodes slot i.bytes ∨ Access.address.Encodes slot i.bytes) :
    (slot : Int) ∉ deadSlots instructions := by
  intro hdead
  obtain ⟨-, hnever⟩ := (mem_deadSlots_iff hcoded).mp hdead
  rcases hreads with hloads | htakesAddress
  · exact (hnever i hmember).1 hloads
  · exact (hnever i hmember).2 htakesAddress

theorem step_withoutDeadStores (hcoded : ∀ i ∈ instructions, i.Coded)
    (hagrees : f.Agrees (deadSlots instructions) g) (hstep : machine.Step instructions f f') :
    ∃ g', machine.Step (withoutDeadStores instructions) g g' ∧
      f'.Agrees (deadSlots instructions) g' := by
  obtain ⟨i, hfound, hexec⟩ := hstep
  have hmember := List.mem_of_getElem? hfound
  rw [hagrees.core_eq] at hfound
  by_cases hstores : i.storesTo (deadSlots instructions) = true
  · -- the value goes into a dead slot on one side, and nowhere on the other
    obtain ⟨slot, hencodes, hdead⟩ := (hcoded i hmember).storesTo_iff.mp hstores
    obtain ⟨position, value, stack, others, hcore, rfl⟩ := (exec_store_iff hencodes).mp hexec
    refine ⟨⟨⟨position + 1, stack, others⟩, g.slots⟩, ⟨i.asPop, ?_, ?_⟩,
      hagrees.update_dead _ hdead value⟩
    · rw [getElem?_withoutDeadStores, hfound, Option.map_some, if_pos hstores]
    · exact exec_asPop_iff.mpr ⟨_, _, _, _, hagrees.core_eq ▸ hcore, rfl⟩
  · obtain ⟨g', hexec', hagrees'⟩ := exec_of_agrees (live_of_mem hcoded hmember) hagrees hexec
    refine ⟨g', ⟨i, ?_, hexec'⟩, hagrees'⟩
    rw [getElem?_withoutDeadStores, hfound, Option.map_some, if_neg hstores]

theorem step_of_withoutDeadStores (hcoded : ∀ i ∈ instructions, i.Coded)
    (hagrees : f.Agrees (deadSlots instructions) g)
    (hstep : machine.Step (withoutDeadStores instructions) g g') :
    ∃ f', machine.Step instructions f f' ∧ f'.Agrees (deadSlots instructions) g' := by
  obtain ⟨i', hfound', hexec⟩ := hstep
  rw [getElem?_withoutDeadStores, ← hagrees.core_eq] at hfound'
  obtain ⟨i, hfound, rfl⟩ := Option.map_eq_some_iff.mp hfound'
  have hmember := List.mem_of_getElem? hfound
  by_cases hstores : i.storesTo (deadSlots instructions) = true
  · obtain ⟨slot, hencodes, hdead⟩ := (hcoded i hmember).storesTo_iff.mp hstores
    rw [if_pos hstores] at hexec
    obtain ⟨position, value, stack, others, hcore, rfl⟩ := exec_asPop_iff.mp hexec
    exact ⟨_, ⟨i, hfound, (exec_store_iff hencodes).mpr
      ⟨_, _, _, _, hagrees.core_eq.trans hcore, rfl⟩⟩, hagrees.update_dead _ hdead value⟩
  · rw [if_neg hstores] at hexec
    obtain ⟨f', hexec', hagrees'⟩ := exec_of_agrees (live_of_mem hcoded hmember) hagrees.symm hexec
    exact ⟨f', ⟨i, hfound, hexec'⟩, hagrees'.symm⟩

/-- Programs that match step by step match run by run. -/
theorem runs_of_steps {program program' : List Instruction}
    (Matches : Frame V R → Frame V R → Prop)
    (hsteps : ∀ {f g f'}, Matches f g → machine.Step program f f' →
      ∃ g', machine.Step program' g g' ∧ Matches f' g')
    {frames : List (Frame V R)} (hstart : Matches f g) (hruns : machine.Runs program f frames) :
    ∃ frames', machine.Runs program' g frames' ∧ List.Forall₂ Matches frames frames' := by
  induction hruns generalizing g with
  | stop f => exact ⟨[], .stop g, .nil⟩
  | step hfirst _ ih =>
    obtain ⟨g', hfirst', hagrees⟩ := hsteps hstart hfirst
    obtain ⟨later', hrest', hall⟩ := ih hagrees
    exact ⟨g' :: later', .step hfirst' hrest', .cons hagrees hall⟩

end Machine

open Instruction

/-- **Removing dead stores preserves meaning.**  For a decoded body: the listing
without dead stores is the listing of the program in which they are replaced by
`pop`; a store is replaced exactly when no instruction of the body loads its slot
or takes its address, in any encoding, and nothing else is replaced; the dead
slots are those that are stored to and never read; and on every machine, from
every state, each run of one program is matched by a run of the other that goes
through the same positions with the same stacks and the same other state, and
with the same values in all slots that are not dead. -/
theorem withoutDeadStores_preserves_runs {image : Image} {rva : Int} {limit? : Option Int}
    {body : Body} (hdecoded : Body.decode image rva limit? = .ok body) :
    (∀ (store : Store) (options : ListingOptions) (h : Handle),
      store.listing { options with removeDeadStores := true } h (some body) =
        store.listing { options with removeDeadStores := false } h
          (some { body with instructions := withoutDeadStores body.instructions })) ∧
    (∀ (position : Nat) (i : Instruction), body.instructions[position]? = some i →
      (IsDeadStore body.instructions i →
        (withoutDeadStores body.instructions)[position]? = some i.asPop ∧ i.asPop ≠ i) ∧
      (¬ IsDeadStore body.instructions i →
        (withoutDeadStores body.instructions)[position]? = some i)) ∧
    (∀ slot : Nat, (slot : Int) ∈ deadSlots body.instructions ↔
      (∃ i ∈ body.instructions, Access.store.Encodes slot i.bytes) ∧
        NeverRead body.instructions slot) ∧
    ∀ (V R : Type) (machine : Machine V R) (start : Frame V R),
      (∀ frames, machine.Runs body.instructions start frames →
        ∃ frames', machine.Runs (withoutDeadStores body.instructions) start frames' ∧
          List.Forall₂ (Frame.Agrees (deadSlots body.instructions)) frames frames') ∧
      ∀ frames', machine.Runs (withoutDeadStores body.instructions) start frames' →
        ∃ frames, machine.Runs body.instructions start frames ∧
          List.Forall₂ (Frame.Agrees (deadSlots body.instructions)) frames frames' := by
  have hcoded := Body.instructions_coded hdecoded
  refine ⟨fun store options h => store.listing_withoutDeadStores options h body, ?_,
    fun slot => mem_deadSlots_iff hcoded, ?_⟩
  · intro position i hfound
    have hreplaced := storesTo_deadSlots_iff hcoded (List.mem_of_getElem? hfound)
    rw [getElem?_withoutDeadStores, hfound, Option.map_some]
    constructor
    · intro hdeadStore
      rw [if_pos (hreplaced.mpr hdeadStore)]
      exact ⟨rfl, hdeadStore.asPop_ne⟩
    · intro hkept
      rw [if_neg (fun hstores => hkept (hreplaced.mp hstores))]
  · intro V R machine start
    constructor
    · intro frames hruns
      exact Machine.runs_of_steps (Frame.Agrees _) (Machine.step_withoutDeadStores hcoded)
        (.refl start) hruns
    · intro frames' hruns
      obtain ⟨frames, hruns', hall⟩ := Machine.runs_of_steps
        (fun g f => f.Agrees (deadSlots body.instructions) g)
        (Machine.step_of_withoutDeadStores hcoded) (.refl start) hruns
      exact ⟨frames, hruns', hall.flip⟩

/-! ### A dead store before a live one -/

/-- A body that stores 1 to slot 0, stores 2 to slot 4 with a short code, and loads
slot 4 with a long one. -/
def storesTwice : Image :=
  ⟨#[0x00, 0x2A, 0x17, 0x0A, 0x18, 0x13, 0x04, 0xFE, 0x0C, 0x04, 0x00, 0x2A]⟩

/-- The instruction at a position, from the bytes of all. -/
theorem exists_of_bytes {instructions : List Instruction} {codes : List (List UInt8)}
    (hcodes : instructions.map Instruction.bytes = codes) (position : Nat) {bytes : List UInt8}
    (hfound : codes[position]? = some bytes) :
    ∃ i, instructions[position]? = some i ∧ i.bytes = bytes := by
  rw [← hcodes, List.getElem?_map] at hfound
  exact Option.map_eq_some_iff.mp hfound

/-- An instruction of one byte that is no access and no `pop` is the machine's own. -/
theorem Machine.exec_of_code {V R : Type} {machine : Machine V R} {i : Instruction} {code : UInt8}
    (hcode : i.bytes = [code]) (hunlisted : ∀ row ∈ Access.fixedCodes, row.2.1 ≠ code)
    (hnotPop : code ≠ popCode) {before after : Core V R} {slots : Nat → V}
    (hacts : machine.execute i before after) : machine.Exec i ⟨before, slots⟩ ⟨after, slots⟩ := by
  refine .other ?_ ?_ hacts
  · rw [hcode]
    exact Access.not_encodes_of_unlisted hunlisted
  · rw [hcode]
    simpa using hnotPop

theorem Frame.stacks_eq {V R : Type} {dead : List Int} {frames frames' : List (Frame V R)}
    (hagree : List.Forall₂ (Frame.Agrees dead) frames frames') :
    frames'.map (·.core.stack) = frames.map (·.core.stack) := by
  induction hagree with
  | nil => rfl
  | cons hfirst _ ih => rw [List.map_cons, List.map_cons, ih, hfirst.core_eq]

/-- A machine that knows the two constants of that body and nothing else. -/
def constants : Machine Nat Unit where
  takeAddress _ _ _ _ _ := False
  execute i before after :=
    (i.bytes = [0x17] ∧ after = ⟨before.position + 1, 1 :: before.stack, ()⟩) ∨
    (i.bytes = [0x18] ∧ after = ⟨before.position + 1, 2 :: before.stack, ()⟩)

/-- The first store is replaced, the second is not, and the stacks of the run stay
the same. -/
theorem storesTwice_runs_alike : ∃ body, Body.decode storesTwice 1 none = .ok body ∧
    (withoutDeadStores body.instructions).map Instruction.bytes =
      [[0x17], [popCode], [0x18], [0x13, 0x04], [0xFE, 0x0C, 0x04, 0x00], [0x2A]] ∧
    ∃ frames frames', constants.Runs body.instructions ⟨⟨0, [], ()⟩, fun _ => 0⟩ frames ∧
      constants.Runs (withoutDeadStores body.instructions) ⟨⟨0, [], ()⟩, fun _ => 0⟩ frames' ∧
      frames'.map (·.core.stack) = [[1], [], [2], [], [2]] := by
  have hshown : (Body.decode storesTwice 1 none).toOption.map (fun body =>
      (body.instructions.map Instruction.bytes,
        (withoutDeadStores body.instructions).map Instruction.bytes)) =
      some ([[0x17], [0x0A], [0x18], [0x13, 0x04], [0xFE, 0x0C, 0x04, 0x00], [0x2A]],
        [[0x17], [popCode], [0x18], [0x13, 0x04], [0xFE, 0x0C, 0x04, 0x00], [0x2A]]) := by
    decide +kernel
  obtain ⟨body, hdecodes, hbytes⟩ := Option.map_eq_some_iff.mp hshown
  have hdecoded := Outcome.toOption_eq_some_iff.mp hdecodes
  obtain ⟨hprogram, hrewritten⟩ := Prod.mk.inj hbytes
  obtain ⟨-, -, -, halike⟩ := withoutDeadStores_preserves_runs hdecoded
  obtain ⟨i₀, h₀, hb₀⟩ := exists_of_bytes hprogram 0 rfl
  obtain ⟨i₁, h₁, hb₁⟩ := exists_of_bytes hprogram 1 rfl
  obtain ⟨i₂, h₂, hb₂⟩ := exists_of_bytes hprogram 2 rfl
  obtain ⟨i₃, h₃, hb₃⟩ := exists_of_bytes hprogram 3 rfl
  obtain ⟨i₄, h₄, hb₄⟩ := exists_of_bytes hprogram 4 rfl
  have hdead : Access.store.Encodes 0 i₁.bytes := by
    rw [hb₁]
    exact .fixed (by decide)
  have hlive : Access.store.Encodes 4 i₃.bytes := by
    rw [hb₃]
    exact .short 0x04
  have hloads : Access.load.Encodes 4 i₄.bytes := by
    rw [hb₄]
    exact .long 0x04 0x00
  have hrun : constants.Runs body.instructions ⟨⟨0, [], ()⟩, fun _ => 0⟩ _ :=
    .step ⟨i₀, h₀, Machine.exec_of_code hb₀ (by decide) (by decide) (.inl ⟨hb₀, rfl⟩)⟩ <|
    .step ⟨i₁, h₁, .store hdead⟩ <|
    .step ⟨i₂, h₂, Machine.exec_of_code hb₂ (by decide) (by decide) (.inr ⟨hb₂, rfl⟩)⟩ <|
    .step ⟨i₃, h₃, .store hlive⟩ <| .step ⟨i₄, h₄, .load hloads⟩ (.stop _)
  obtain ⟨frames', hrun', hagree⟩ := (halike _ _ constants _).1 _ hrun
  refine ⟨body, hdecoded, hrewritten, _, frames', hrun, hrun', ?_⟩
  rw [Frame.stacks_eq hagree]
  rfl

end CilAtlas
