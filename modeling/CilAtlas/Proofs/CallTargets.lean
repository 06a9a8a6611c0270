import CilAtlas.Proofs.CallResolution
import CilAtlas.Proofs.SignatureText

/-!
# What the operand of a call resolves to

The operand of a call names a row, directly or through one generic method with
its arguments.  A method stands for itself.  A member reference stands for the
first method with its name and signature among those that its parent type lists,
and for itself when there is none.  Which type the parent is, is said here by the
grammar of signatures and not by a decoder.

An operand resolves unless it names neither a method nor a member reference, and
what it resolves to resolves to itself.  The type arguments of a call play no
part in this, and whether they can be decoded neither.
-/

namespace CilAtlas

open Signature

/-- The token of a handle that fits in four bytes is read back as the handle. -/
theorem Handle.Narrow.ofToken_token {h : Handle} (hnarrow : h.Narrow) :
    Handle.ofToken h.token = h := by
  have htablePart : ∀ t r : Int, 0 ≤ t → t < 0x80 → 0 ≤ r → r < 0x1000000 →
      (Bits.low 8 ((t * 0x1000000 + r) / 0x1000000) : Int) = t := by
    intro t r _ _ _ _
    have hquotient : (t * 0x1000000 + r) / 0x1000000 = t := by omega
    rw [hquotient]
    show (((t % 256).toNat : Nat) : Int) = t
    omega
  have hridPart : ∀ t r : Int, 0 ≤ r → r < 0x1000000 →
      (Bits.low 24 (t * 0x1000000 + r) : Int) = r := by
    intro t r _ _
    show ((((t * 0x1000000 + r) % 16777216).toNat : Nat) : Int) = r
    omega
  rw [hnarrow.token_eq]
  show Handle.mk _ _ = Handle.mk h.table h.rid
  congr 1
  · exact htablePart _ _ hnarrow.table_nonneg hnarrow.table_lt hnarrow.rid_nonneg hnarrow.rid_lt
  · exact hridPart _ _ hnarrow.rid_nonneg hnarrow.rid_lt

namespace Store

variable {store : Store}

/-- A token denotes a handle: the one it writes, or the method of the generic
method with arguments that it writes. -/
inductive Denotes (store : Store) (token : Int) : Handle → Prop
  | direct : Denotes store token (Handle.ofToken token)
  | instantiated {spec : MethodSpec} {h : Handle}
      (hfound : store.methodSpecs.get? (Handle.ofToken token) = some spec)
      (hmethod : spec.method? = some h) : Denotes store token h

/-- The signature of a type row begins with an instance of the generic type. -/
inductive IsInstanceOf (store : Store) (h generic : Handle) : Prop
  | intro {spec : TypeSpec} {arguments : List Ty} {front rest : List UInt8}
      (hfound : store.typeSpecs.get? h = some spec) (hsignature : spec.signature = front ++ rest)
      (hspelled : SpellsTypeInstance (generic, arguments) front) : IsInstanceOf store h generic

/-- The type of the assembly that a member reference goes through. -/
inductive GoesThrough (store : Store) (member : MemberRef) : TypeDef → Prop
  | parent {h : Handle} {type : TypeDef} (hparent : member.parent? = some h)
      (hfound : store.typeDefs.get? h = some type) : GoesThrough store member type
  | generic {h generic : Handle} {type : TypeDef} (hparent : member.parent? = some h)
      (hinstance : store.IsInstanceOf h generic)
      (hfound : store.typeDefs.get? generic = some type) : GoesThrough store member type

/-- The store has a method with the handle that has the name and the signature of
the reference. -/
def MatchesAt (store : Store) (member : MemberRef) (h : Handle) : Prop :=
  ∃ method, store.methodDefs.get? h = some method ∧ method.name = member.name ∧
    method.signature = member.signature

/-- The first match among the methods that a type lists.  Listed methods that the
store does not have are passed over. -/
def FirstMatch (store : Store) (member : MemberRef) (type : TypeDef) (h : Handle) : Prop :=
  ∃ before after, type.methods = before ++ h :: after ∧ store.MatchesAt member h ∧
    ∀ earlier ∈ before, ¬ store.MatchesAt member earlier

/-- What a member reference with handle `h` stands for. -/
inductive StandsFor (store : Store) (h : Handle) (member : MemberRef) : Handle → Prop
  | bound {type : TypeDef} {d : Handle} (hthrough : store.GoesThrough member type)
      (hfirst : store.FirstMatch member type d) : StandsFor store h member d
  | unbound (hunmatched : ∀ type, store.GoesThrough member type →
      ∀ d ∈ type.methods, ¬ store.MatchesAt member d) : StandsFor store h member h

/-! ### Member references -/

theorem map_fst_instanceParts_iff {h generic : Handle} :
    (store.instanceParts h).map Prod.fst = some generic ↔ store.IsInstanceOf h generic := by
  have hdecodes : ∀ {signature : List UInt8} {texts : List Text},
      (store.naming [] []).decodeTypeInstance signature = .ok (generic, texts) ↔
        ∃ front rest found, signature = front ++ rest ∧ SpellsTypeInstance found front ∧
          (generic, texts) = (found.1, textList (store.naming [] []) found.2) :=
    map_run_ok_iff readTypeInstance_reads _
  constructor
  · intro hparts
    obtain ⟨⟨_, texts⟩, hsplit, rfl⟩ := Option.map_eq_some_iff.mp hparts
    unfold instanceParts at hsplit
    split at hsplit
    · cases hsplit
    · next spec hfound =>
      cases hread : (store.naming [] []).decodeTypeInstance spec.signature with
      | error fault =>
        rw [hread] at hsplit
        cases hsplit
      | ok parts =>
        rw [hread] at hsplit
        cases Option.some.inj hsplit
        obtain ⟨front, rest, ⟨_, arguments⟩, hsignature, hspelled, hsame⟩ := hdecodes.mp hread
        cases hsame
        exact .intro hfound hsignature hspelled
  · rintro ⟨hfound, hsignature, hspelled⟩
    have hread := hdecodes.mpr ⟨_, _, (generic, _), hsignature, hspelled, rfl⟩
    rw [instanceParts, hfound]
    show (Except.toOption _).map Prod.fst = _
    rw [hread]
    rfl

/-- In a store whose rows stand under their own handles the table of a handle need
not be looked at before the type is. -/
theorem referencedType_eq (hkeyed : store.Keyed) {member : MemberRef} {h : Handle}
    (hparent : member.parent? = some h) :
    store.referencedType member =
      (if h.table = TableNumber.typeSpec then (store.instanceParts h).map Prod.fst
        else some h).bind store.typeDefs.get? := by
  have hlooked : ∀ owner : Handle,
      (if owner.table = TableNumber.typeDef then store.typeDefs.get? owner else none) =
        store.typeDefs.get? owner := by
    intro owner
    split
    · rfl
    · next hother =>
      cases hfound : store.typeDefs.get? owner with
      | none => rfl
      | some type => exact absurd (hkeyed.typeDefs.of_get? hfound).2 hother
  rw [referencedType, hparent]
  simp only [hlooked]
  cases (if h.table = TableNumber.typeSpec then (store.instanceParts h).map Prod.fst
    else some h) with
  | none => rfl
  | some owner => rfl

theorem referencedType_eq_some_iff (hkeyed : store.Keyed) {member : MemberRef} {type : TypeDef} :
    store.referencedType member = some type ↔ store.GoesThrough member type := by
  have hspecTable : ∀ {h generic : Handle}, store.IsInstanceOf h generic →
      h.table = TableNumber.typeSpec := by
    rintro h generic ⟨hfound, -, -⟩
    exact (hkeyed.typeSpecs.of_get? hfound).2
  constructor
  · intro hrefers
    cases hparent : member.parent? with
    | none =>
      rw [referencedType, hparent] at hrefers
      cases hrefers
    | some h =>
      rw [referencedType_eq hkeyed hparent] at hrefers
      obtain ⟨owner, howner, hfound⟩ := Option.bind_eq_some_iff.mp hrefers
      split at howner
      · exact .generic hparent (map_fst_instanceParts_iff.mp howner) hfound
      · cases howner
        exact .parent hparent hfound
  · rintro (⟨hparent, hfound⟩ | ⟨hparent, hinstance, hfound⟩)
    · have hother : ¬ @Eq Int TableNumber.typeDef TableNumber.typeSpec := by decide
      rw [referencedType_eq hkeyed hparent, (hkeyed.typeDefs.of_get? hfound).2, if_neg hother]
      exact hfound
    · rw [referencedType_eq hkeyed hparent, if_pos (hspecTable hinstance),
        map_fst_instanceParts_iff.mpr hinstance]
      exact hfound

theorem bindMember_eq (hkeyed : store.Keyed) {h : Handle} {member : MemberRef}
    (hfound : store.memberRefs.get? h = some member) :
    store.bindMember h = (store.referencedType member).bind fun type =>
      type.methods.find? fun d => (store.methodDefs.get? d).any fun method =>
        method.name = member.name ∧ method.signature = member.signature := by
  rw [bindMember, hfound]
  dsimp only
  cases store.referencedType member with
  | none => rfl
  | some type =>
    show Option.map _ (List.find? _ (List.filterMap _ _)) = List.find? _ _
    rw [List.find?_filterMap]
    cases hfind : List.find? _ _ with
    | none => rfl
    | some d =>
      -- the row found at a handle carries that handle
      have hmatch := List.find?_some hfind
      obtain ⟨method, hrow, -⟩ := (Option.any_eq_true _ _).mp hmatch
      rw [Option.bind_some, hrow, Option.map_some, (hkeyed.methodDefs.of_get? hrow).1]

theorem any_match_iff {member : MemberRef} {d : Handle} :
    ((store.methodDefs.get? d).any fun method =>
      method.name = member.name ∧ method.signature = member.signature) = true ↔
      store.MatchesAt member d := by
  simp only [Option.any_eq_true, decide_eq_true_eq, MatchesAt]

theorem bindMember_eq_some_iff (hkeyed : store.Keyed) {h d : Handle} {member : MemberRef}
    (hfound : store.memberRefs.get? h = some member) :
    store.bindMember h = some d ↔
      ∃ type, store.GoesThrough member type ∧ store.FirstMatch member type d := by
  rw [bindMember_eq hkeyed hfound, Option.bind_eq_some_iff]
  simp only [referencedType_eq_some_iff hkeyed, List.find?_eq_some_iff_append, any_match_iff,
    Bool.not_eq_true', ← Bool.not_eq_true]
  constructor
  · rintro ⟨type, hthrough, hmatch, before, after, hlisted, hfirst⟩
    exact ⟨type, hthrough, before, after, hlisted, hmatch, hfirst⟩
  · rintro ⟨type, hthrough, before, after, hlisted, hmatch, hfirst⟩
    exact ⟨type, hthrough, hmatch, before, after, hlisted, hfirst⟩

theorem bindMember_eq_none_iff (hkeyed : store.Keyed) {h : Handle} {member : MemberRef}
    (hfound : store.memberRefs.get? h = some member) :
    store.bindMember h = none ↔ ∀ type, store.GoesThrough member type →
      ∀ d ∈ type.methods, ¬ store.MatchesAt member d := by
  rw [bindMember_eq hkeyed hfound, Option.bind_eq_none_iff]
  simp only [referencedType_eq_some_iff hkeyed, List.find?_eq_none, any_match_iff]

/-- The rules of `StandsFor` give a member reference one meaning, the one that it
is bound to. -/
theorem standsFor_iff (hkeyed : store.Keyed) {h d : Handle} {member : MemberRef}
    (hfound : store.memberRefs.get? h = some member) :
    store.StandsFor h member d ↔ (store.bindMember h).getD h = d := by
  constructor
  · rintro (⟨hthrough, hfirst⟩ | hunmatched)
    · rw [(bindMember_eq_some_iff hkeyed hfound).mpr ⟨_, hthrough, hfirst⟩]
      rfl
    · rw [(bindMember_eq_none_iff hkeyed hfound).mpr hunmatched]
      rfl
  · rintro rfl
    cases hbound : store.bindMember h with
    | none => exact .unbound ((bindMember_eq_none_iff hkeyed hfound).mp hbound)
    | some d =>
      obtain ⟨type, hthrough, hfirst⟩ := (bindMember_eq_some_iff hkeyed hfound).mp hbound
      exact .bound hthrough hfirst

/-! ### Operands -/

/-- A handle that stands for itself: a method, or a member reference that is bound
to none. -/
def IsSettled (store : Store) (h : Handle) : Prop :=
  store.methodDefs.contains h ∨ store.memberRefs.contains h ∧ store.bindMember h = none

theorem targetOf_method (hkeyed : store.Keyed) {h : Handle} (hpresent : store.methodDefs.contains h)
    (instantiation : List Text) :
    store.targetOf h instantiation = some ⟨h, instantiation⟩ := by
  obtain ⟨method, hfound⟩ := (OrderedMap.contains_iff _ _).mp hpresent
  rw [targetOf, if_pos (hkeyed.methodDefs.of_get? hfound).2, if_pos hpresent]

theorem targetOf_member (hkeyed : store.Keyed) {h : Handle} (hpresent : store.memberRefs.contains h)
    (instantiation : List Text) :
    store.targetOf h instantiation = some ⟨(store.bindMember h).getD h, instantiation⟩ := by
  obtain ⟨member, hfound⟩ := (OrderedMap.contains_iff _ _).mp hpresent
  have htable := (hkeyed.memberRefs.of_get? hfound).2
  have hother : ¬ @Eq Int h.table TableNumber.methodDef := by
    rw [htable]
    decide
  rw [targetOf, if_neg hother, if_pos ⟨htable, hpresent⟩]

/-- Only methods and member references are resolved. -/
theorem hasCallableRow_of_operand {h : Handle} {instantiation : List Text} {target : CallTarget}
    (hresolves : store.targetOf h instantiation = some target) : store.HasCallableRow h := by
  unfold targetOf at hresolves
  split at hresolves
  · split at hresolves
    · next hpresent => exact .inl hpresent
    · cases hresolves
  · split at hresolves
    · next hpresent => exact .inr hpresent.2
    · cases hresolves

/-- Resolving ends with a handle that stands for itself. -/
theorem settled_of_targetOf (hkeyed : store.Keyed) {h : Handle} {instantiation : List Text}
    {target : CallTarget} (hresolves : store.targetOf h instantiation = some target) :
    store.IsSettled target.handle := by
  rcases hasCallableRow_of_operand hresolves with hpresent | hpresent
  · rw [targetOf_method hkeyed hpresent] at hresolves
    cases hresolves
    exact .inl hpresent
  · rw [targetOf_member hkeyed hpresent] at hresolves
    cases hresolves
    cases hbound : store.bindMember h with
    | none => exact .inr ⟨hpresent, hbound⟩
    | some d =>
      obtain ⟨member, hfound⟩ := (OrderedMap.contains_iff _ _).mp hpresent
      obtain ⟨type, -, before, after, -, ⟨method, hrow, -⟩, -⟩ :=
        (bindMember_eq_some_iff hkeyed hfound).mp hbound
      exact .inl ((OrderedMap.contains_iff _ _).mpr ⟨method, hrow⟩)

theorem targetOf_of_settled (hkeyed : store.Keyed) {h : Handle} (hsettled : store.IsSettled h)
    (instantiation : List Text) : store.targetOf h instantiation = some ⟨h, instantiation⟩ := by
  rcases hsettled with hpresent | ⟨hpresent, hunbound⟩
  · exact targetOf_method hkeyed hpresent instantiation
  · rw [targetOf_member hkeyed hpresent, hunbound]
    rfl

theorem IsSettled.hasCallableRow {h : Handle} (hsettled : store.IsSettled h) :
    store.HasCallableRow h :=
  hsettled.imp_right And.left

/-- The handle of a method or of a member reference is that of no generic method
with arguments. -/
theorem HasCallableRow.table_ne (hkeyed : store.Keyed) {h : Handle}
    (hcallable : store.HasCallableRow h) : ¬ @Eq Int h.table TableNumber.methodSpec := by
  simp only [HasCallableRow, OrderedMap.contains_iff] at hcallable
  rcases hcallable with ⟨method, hfound⟩ | ⟨member, hfound⟩
  · rw [(hkeyed.methodDefs.of_get? hfound).2]
    decide
  · rw [(hkeyed.memberRefs.of_get? hfound).2]
    decide

theorem HasCallableRow.narrow (hkeyed : store.Keyed) (hfit : store.RidsFit) {h : Handle}
    (hcallable : store.HasCallableRow h) : h.Narrow := by
  simp only [HasCallableRow, OrderedMap.contains_iff] at hcallable
  rcases hcallable with ⟨method, hfound⟩ | ⟨member, hfound⟩
  · exact hkeyed.methodDefs.narrow hfit.methodDefs (by decide) hfound
  · exact hkeyed.memberRefs.narrow hfit.memberRefs (by decide) hfound

/-- A token is resolved through the callable row that it denotes. -/
theorem callTarget_of_denotes (hkeyed : store.Keyed) {token : Int} {h : Handle}
    (hdenotes : store.Denotes token h) (hcallable : store.HasCallableRow h) :
    ∃ instantiation, store.callTarget token = store.targetOf h instantiation := by
  cases hdenotes with
  | direct => exact ⟨[], if_neg (hcallable.table_ne hkeyed)⟩
  | @instantiated spec _ hfound hmethod =>
    have htable := (hkeyed.methodSpecs.of_get? hfound).2
    simp only [callTarget, if_pos htable, hfound, hmethod]
    exact ⟨_, rfl⟩

theorem denotes_of_callTarget {token : Int} {target : CallTarget}
    (hresolves : store.callTarget token = some target) :
    ∃ h instantiation, store.Denotes token h ∧ store.targetOf h instantiation = some target := by
  simp only [callTarget] at hresolves
  split at hresolves
  · split at hresolves
    · cases hresolves
    · next spec hfound =>
      split at hresolves
      · cases hresolves
      · next h hmethod => exact ⟨h, _, .instantiated hfound hmethod, hresolves⟩
  · exact ⟨_, [], .direct, hresolves⟩

theorem callTarget_eq_none_iff (hkeyed : store.Keyed) {token : Int} :
    store.callTarget token = none ↔ ∀ h, store.Denotes token h → ¬ store.HasCallableRow h := by
  constructor
  · intro hunresolved h hdenotes hcallable
    obtain ⟨instantiation, hresolves⟩ := callTarget_of_denotes hkeyed hdenotes hcallable
    rw [hunresolved] at hresolves
    rcases hcallable with hpresent | hpresent
    · rw [targetOf_method hkeyed hpresent] at hresolves
      cases hresolves
    · rw [targetOf_member hkeyed hpresent] at hresolves
      cases hresolves
  · intro hnothing
    rw [Option.eq_none_iff_forall_not_mem]
    intro target hresolves
    obtain ⟨h, instantiation, hdenotes, hfound⟩ := denotes_of_callTarget hresolves
    exact hnothing h hdenotes (hasCallableRow_of_operand hfound)

/-- **Resolving a call is sound, complete and stable.**  An operand resolves to
nothing exactly when it denotes no method and no member reference; a method that
it denotes is the target itself, and a member reference resolves to what it stands
for and to nothing else; a target is a method or a member reference of the store,
and its own token resolves to it again. -/
theorem callTarget_exact (hkeyed : store.Keyed) (hfit : store.RidsFit) (token : Int) :
    (store.callTarget token = none ↔
      ∀ h, store.Denotes token h → ¬ store.HasCallableRow h) ∧
    (∀ h, store.Denotes token h → store.methodDefs.contains h →
      ∃ target, store.callTarget token = some target ∧ target.handle = h) ∧
    (∀ h member, store.Denotes token h → store.memberRefs.get? h = some member →
      ∃ target, store.callTarget token = some target ∧
        ∀ d, store.StandsFor h member d ↔ target.handle = d) ∧
    ∀ target, store.callTarget token = some target →
      store.HasCallableRow target.handle ∧ target.handle.table ≠ TableNumber.methodSpec ∧
        store.callTarget target.handle.token = some ⟨target.handle, []⟩ := by
  refine ⟨callTarget_eq_none_iff hkeyed, ?_, ?_, ?_⟩
  · intro h hdenotes hpresent
    obtain ⟨instantiation, hresolves⟩ := callTarget_of_denotes hkeyed hdenotes (.inl hpresent)
    exact ⟨_, hresolves.trans (targetOf_method hkeyed hpresent _), rfl⟩
  · intro h member hdenotes hfound
    have hpresent := (OrderedMap.contains_iff _ _).mpr ⟨member, hfound⟩
    obtain ⟨instantiation, hresolves⟩ := callTarget_of_denotes hkeyed hdenotes (.inr hpresent)
    exact ⟨_, hresolves.trans (targetOf_member hkeyed hpresent _),
      fun d => standsFor_iff hkeyed hfound⟩
  · intro target hresolves
    obtain ⟨h, instantiation, -, hfound⟩ := denotes_of_callTarget hresolves
    have hsettled := settled_of_targetOf hkeyed hfound
    have hcallable := hsettled.hasCallableRow
    refine ⟨hcallable, hcallable.table_ne hkeyed, ?_⟩
    have hreadBack := (hcallable.narrow hkeyed hfit).ofToken_token
    rw [callTarget, hreadBack, if_neg (hcallable.table_ne hkeyed)]
    exact targetOf_of_settled hkeyed hsettled []

/-! ### An overloaded method of a generic type -/

/-- An overload in the first type. -/
def overload (rid : Int) (signature : List UInt8) : MethodDef where
  handle := ⟨TableNumber.methodDef, rid⟩
  name := lit "M"
  owner := ⟨TableNumber.typeDef, 1⟩
  flags := .bits 0
  implFlags := .bits 0
  rva := 0
  signature := signature
  params := []
  genericParameters := []
  compilerGenerated := false

/-- A generic type that lists a method which is missing, and three overloads of
which two have one signature. -/
def overloadedType : TypeDef where
  handle := ⟨TableNumber.typeDef, 1⟩
  nameSpace := []
  name := lit "T"
  flags := .bits 0
  extends? := none
  declaringType? := none
  methods := [⟨TableNumber.methodDef, 9⟩, ⟨TableNumber.methodDef, 1⟩, ⟨TableNumber.methodDef, 2⟩,
    ⟨TableNumber.methodDef, 3⟩]
  genericParameters := [lit "X"]

/-- A reference through an instance of the type to the overload with a parameter. -/
def overloadReference : MemberRef where
  handle := ⟨TableNumber.memberRef, 1⟩
  parent? := some ⟨TableNumber.typeSpec, 1⟩
  name := lit "M"
  signature := [0x20, 0x01, 0x01, 0x08]

/-- The reference is used with type arguments that cannot be decoded. -/
def overloads : Store where
  typeDefs := OrderedMap.ofList [(⟨TableNumber.typeDef, 1⟩, overloadedType)]
  typeRefs := OrderedMap.empty
  exportedTypes := OrderedMap.empty
  methodDefs := OrderedMap.ofList
    [(⟨TableNumber.methodDef, 1⟩, overload 1 [0x20, 0x00, 0x01]),
      (⟨TableNumber.methodDef, 2⟩, overload 2 [0x20, 0x01, 0x01, 0x08]),
      (⟨TableNumber.methodDef, 3⟩, overload 3 [0x20, 0x01, 0x01, 0x08])]
  memberRefs := OrderedMap.ofList [(⟨TableNumber.memberRef, 1⟩, overloadReference)]
  methodSpecs := OrderedMap.ofList
    [(⟨TableNumber.methodSpec, 1⟩, ⟨⟨TableNumber.methodSpec, 1⟩, some ⟨TableNumber.memberRef, 1⟩,
      [0xFF]⟩)]
  typeSpecs := OrderedMap.ofList
    [(⟨TableNumber.typeSpec, 1⟩, ⟨⟨TableNumber.typeSpec, 1⟩,
      [0x20, 0x05, 0x15, 0x12, 0x04, 0x01, 0x0E]⟩)]
  image := ⟨#[]⟩
  userStrings := fun _ => .ok none
  facts := ⟨0, 0, 0, 0, 0⟩

theorem overloads_keyed : overloads.Keyed := by
  constructor <;> decide

theorem overloads_ridsFit : overloads.RidsFit := by
  constructor <;> decide

/-- The parent of the reference is an instance of the type, behind a modifier. -/
theorem overloadReference_goesThrough : overloads.GoesThrough overloadReference overloadedType := by
  have hmodifiers : SpellsModifiers [0x20, 0x05] :=
    .cons (.inr rfl) (@SpellsHandle.typeRef 1 _ (.intro .oneByte (by decide))) .nil
  have hgeneric : SpellsHandle ⟨TableNumber.typeDef, 1⟩ [0x04] :=
    @SpellsHandle.typeDef 1 _ (.intro .oneByte (by decide))
  have hstring : SpellsType (.primitive .string) [0x0E] :=
    @SpellsType.primitive .string 0x0E "System.String" (by decide)
  have hspelled : SpellsTypeInstance (⟨TableNumber.typeDef, 1⟩, [.primitive .string])
      [0x20, 0x05, 0x15, 0x12, 0x04, 0x01, 0x0E] :=
    .intro hmodifiers .classType hgeneric (.intro .oneByte (by decide)) (.cons hstring .nil)
  exact .generic rfl (.intro rfl (List.append_nil _).symm hspelled) rfl

/-- The first of the two overloads with the signature is called. -/
theorem overloads_resolved :
    overloads.Keyed ∧ overloads.RidsFit ∧ ∃ target,
      overloads.callTarget 0x2B000001 = some target ∧
      target.handle = ⟨TableNumber.methodDef, 2⟩ ∧
      overloads.callTarget 0x06000002 = some ⟨⟨TableNumber.methodDef, 2⟩, []⟩ := by
  obtain ⟨-, -, hmember, hagain⟩ := callTarget_exact overloads_keyed overloads_ridsFit 0x2B000001
  obtain ⟨target, hresolves, hmeaning⟩ := hmember ⟨TableNumber.memberRef, 1⟩ overloadReference
    (.instantiated rfl rfl) rfl
  have hfirst : overloads.FirstMatch overloadReference overloadedType
      ⟨TableNumber.methodDef, 2⟩ := by
    refine ⟨[⟨TableNumber.methodDef, 9⟩, ⟨TableNumber.methodDef, 1⟩], _, rfl,
      ⟨overload 2 [0x20, 0x01, 0x01, 0x08], rfl, rfl, rfl⟩, ?_⟩
    simp only [← any_match_iff]
    decide
  have hbound := (hmeaning _).mp (.bound overloadReference_goesThrough hfirst)
  obtain ⟨-, -, hstable⟩ := hagain target hresolves
  rw [hbound] at hstable
  exact ⟨overloads_keyed, overloads_ridsFit, target, hresolves, hbound, hstable⟩

end Store
end CilAtlas
