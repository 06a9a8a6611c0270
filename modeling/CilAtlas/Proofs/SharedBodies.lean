import CilAtlas.Proofs.ListedStrings

/-!
# Bodies that are decoded once

Bodies can be decoded ahead and handed to the scan and to the listings, or be
decoded where they are needed.  Both ways give the same: no body stands for a
method without instructions and for one whose body does not decode, and each
user of the bodies tells the two apart by the method's row.  What a listing can
fail with is stated exactly: a body that does not decode, or a heap that gives no
text for a string that the body loads.
-/

namespace CilAtlas
namespace Store

open Outcome

variable {store : Store} {options : ListingOptions} {method : MethodDef} {h : Handle}

/-! ### Scanning -/

/-- The methods are rows of the store, and their owners are types of the store. -/
def Lists (store : Store) (methods : List MethodDef) : Prop :=
  ∀ method ∈ methods, store.methodDefs.get? method.handle = some method ∧
    store.typeDefs.contains method.owner = true

theorem scan_sharedBodies {methods : List MethodDef}
    (hrows : ∀ m ∈ methods, store.methodDefs.get? m.handle = some m) (style : ParameterStyle) :
    store.scan style (some (store.sharedBodies methods)) methods =
      store.scan style none methods := by
  have hentries : ∀ m ∈ methods, store.scanEntry style (some (store.sharedBodies methods)) m =
      store.scanEntry style none m :=
    fun m hmember => scanEntry_congr (sharedBodies_of_mem (alone_of_rows hrows hmember) hmember)
  rw [scan, scan, mapM_congr hentries]

theorem exists_scan_of_lists {methods : List MethodDef} (hlists : store.Lists methods)
    (style : ParameterStyle) (bodies? : Option (Handle → Option Body)) :
    ∃ table scanned, store.scan style bodies? methods = .ok (table, scanned) := by
  have hentries : ∀ m ∈ methods, ∃ s, store.scanEntry style bodies? m = .ok s := by
    intro m hmember
    obtain ⟨hfound, howned⟩ := hlists m hmember
    obtain ⟨owner, howner⟩ := (OrderedMap.contains_iff _ _).mp howned
    obtain ⟨e, hdescribed⟩ := exists_methodEntity_of_owner hfound howner style
    rw [scanEntry, tableEntry, hdescribed]
    exact ⟨_, rfl⟩
  obtain ⟨scanned, hscanned⟩ := exists_mapM_ok hentries
  rw [scan, hscanned]
  exact ⟨_, _, rfl⟩

/-! ### Listings of bodies at hand -/

/-- A listing without a body at hand decodes the body first. -/
theorem listing_none (hfound : store.methodDefs.get? h = some method)
    (hpresent : method.hasBody = true) :
    store.listing options h none = (do
      let body ← (store.readBody method).mapError ListingError.body
      store.listing options h (some body)) := by
  have hgiven : (fun body => store.listing options h (some body)) = _ :=
    funext (listing_of_body hfound hpresent)
  rw [hgiven, listing, methodDef, hfound]
  show (if method.hasBody then _ else _) = _
  rw [if_pos hpresent]

theorem listing_none_of_decoded (hfound : store.methodDefs.get? h = some method) {body : Body}
    (hdecoded : store.readBody? method = some body) :
    store.listing options h none = store.listing options h (some body) := by
  rw [listing_none hfound (readBody?_eq_some_iff.mp hdecoded).1, toOption_eq_some_iff.mp hdecoded]
  rfl

theorem listing_none_of_undecoded (hfound : store.methodDefs.get? h = some method)
    (hpresent : method.hasBody = true) (hundecoded : store.readBody? method = none) :
    ∃ reason, store.listing options h none = .error (.body reason) := by
  rw [readBody?] at hundecoded
  cases hresult : store.readBody method with
  | ok body =>
    rw [hresult] at hundecoded
    cases hundecoded
  | error reason =>
    rw [listing_none hfound hpresent, hresult]
    exact ⟨reason, rfl⟩

/-! ### When a listing fails -/

/-- The heap of user strings answers with a text, with texts, or with nothing. -/
def Answers (store : Store) (offset : Int) : Prop :=
  ∀ fault, store.userStrings offset = .error fault → ∃ values, fault = .pieces values

/-- The heap answers for the string that the instruction loads, if it loads one. -/
def LoadAnswered (store : Store) (i : Instruction) : Prop :=
  ∀ token, i.operand = .string token → store.Answers (Handle.ofToken token).rid

theorem loadAnswered_of_plain {i : Instruction} (hplain : i.operand.Plain) :
    store.LoadAnswered i := by
  intro token hoperand
  rw [hoperand] at hplain
  cases hplain

theorem stringText_returnsIff (store : Store) (token : Int) :
    ReturnsIff (store.Answers (Handle.ofToken token).rid) id (store.stringText token) := by
  unfold stringText Answers
  cases hanswer : store.userStrings (Handle.ofToken token).rid with
  | ok value? => cases value? <;> exact .inl ⟨nofun, _, rfl⟩
  | error fault =>
    cases fault with
    | pieces values =>
      refine .inl ⟨?_, _, rfl⟩
      intro fault hsame
      exact ⟨values, (Except.error.inj hsame).symm⟩
    | notText found =>
      refine .inr ⟨?_, _, rfl⟩
      intro hanswers
      obtain ⟨values, hsame⟩ := hanswers _ rfl
      cases hsame
    | refused reason =>
      refine .inr ⟨?_, _, rfl⟩
      intro hanswers
      obtain ⟨values, hsame⟩ := hanswers _ rfl
      cases hsame

theorem operandText_returnsIff {i : Instruction} (hlistable : i.Listable) :
    ReturnsIff (store.LoadAnswered i) id (store.operandText i.operand) := by
  rcases hlistable.operand with ⟨-, token, hoperand⟩ | ⟨-, hplain⟩
  · have hsame : store.LoadAnswered i ↔ store.Answers (Handle.ofToken token).rid := by
      simp [LoadAnswered, hoperand]
    rw [hoperand, operandText, propext hsame]
    exact stringText_returnsIff store token
  · obtain ⟨text, hwritten⟩ : ∃ text, store.operandText i.operand = .ok text :=
      exists_operandText hplain
    exact .inl ⟨loadAnswered_of_plain hplain, text, hwritten⟩

/-- Lines that are left out or replaced load no string. -/
theorem instructionLine_returnsIff {i : Instruction} (hlistable : i.Listable) (dead : List Int)
    (base : Int) :
    ReturnsIff (store.LoadAnswered i) id (store.instructionLine options dead base i) := by
  have hnoLoad : i.mnemonic ≠ lit "ldstr" → store.LoadAnswered i := by
    intro hother
    rcases hlistable.operand with ⟨hloads, -⟩ | ⟨-, hplain⟩
    · exact absurd hloads hother
    · exact loadAnswered_of_plain hplain
  simp only [instructionLine]
  split
  · next hskipped =>
    have hnop : i.mnemonic = lit "nop" := by
      simp only [Bool.and_eq_true, decide_eq_true_eq] at hskipped
      exact hskipped.2
    exact .inl ⟨hnoLoad (by rw [hnop]; decide), _, rfl⟩
  · split
    · next hdropped =>
      refine .inl ⟨hnoLoad ?_, _, rfl⟩
      intro hloads
      rw [localSlot?_of_load hloads] at hdropped
      cases hdropped
    · exact (operandText_returnsIff hlistable).bind fun text _ => ⟨_, rfl⟩

theorem listing_returnsIff (hfound : store.methodDefs.get? h = some method) {body : Body}
    (hdecoded : store.readBody? method = some body) :
    ReturnsIff (∀ i ∈ body.instructions, store.LoadAnswered i) ListingError.userString
      (store.listing options h (some body)) := by
  obtain ⟨hpresent, hdecodes⟩ := readBody?_eq_some_iff.mp hdecoded
  have hlines : ReturnsIff (∀ i ∈ body.instructions, store.LoadAnswered i) id
      (store.bodyLines options body) := by
    refine ReturnsIff.bind (ReturnsIff.mapM ?_) fun lines _ => ⟨_, rfl⟩
    intro i hmember
    exact instructionLine_returnsIff (Body.instructions_listable hdecodes i hmember) _ _
  rw [listing_of_body hfound hpresent]
  exact (hlines.mapError ListingError.userString).bind fun lines _ => ⟨_, rfl⟩

/-- A listing without a body at hand is written exactly when the body, if the
method has one, decodes and the heap answers for all that it loads. -/
theorem listing_none_fails_iff (hfound : store.methodDefs.get? h = some method) :
    (∃ error, store.listing options h none = .error error) ↔
      (method.hasBody = true ∧ store.readBody? method = none) ∨
      ∃ body, store.readBody? method = some body ∧
        ∃ i ∈ body.instructions, ¬ store.LoadAnswered i := by
  cases hdecoded : store.readBody? method with
  | some body =>
    rw [listing_none_of_decoded hfound hdecoded]
    have hreturns : ReturnsIff _ _ (store.listing options h (some body)) :=
      listing_returnsIff hfound hdecoded
    rcases hreturns with ⟨hanswered, text, hwritten⟩ | ⟨hunanswered, fault, hfailed⟩
    · simp only [hwritten, Option.some.injEq]
      constructor
      · rintro ⟨error, hsame⟩
        cases hsame
      · rintro (⟨-, hnone⟩ | ⟨_, rfl, i, hmember, hfailing⟩)
        · cases hnone
        · exact absurd (hanswered i hmember) hfailing
    · simp only [not_forall] at hunanswered
      obtain ⟨i, hmember, hfailing⟩ := hunanswered
      exact iff_of_true ⟨_, hfailed⟩ (.inr ⟨body, rfl, i, hmember, hfailing⟩)
  | none =>
    cases hpresent : method.hasBody with
    | true =>
      obtain ⟨reason, hfailed⟩ : ∃ reason, store.listing options h none = .error (.body reason) :=
        listing_none_of_undecoded hfound hpresent hdecoded
      exact iff_of_true ⟨_, hfailed⟩ (.inl ⟨rfl, rfl⟩)
    | false => simp [listing_of_noBody hfound hpresent]

theorem HeapOfTexts.loadAnswered (hheap : store.HeapOfTexts) (i : Instruction) :
    store.LoadAnswered i := by
  intro token _ fault hfailed
  obtain ⟨value?, hanswered⟩ := hheap (Handle.ofToken token).rid
  rw [hanswered] at hfailed
  cases hfailed

theorem listing_none_eq (hfound : store.methodDefs.get? h = some method)
    (husable : (store.readBody? method).isSome = true ∨ method.hasBody = false) :
    store.listing options h none = store.listing options h (store.readBody? method) := by
  rcases husable with hdecodes | habsent
  · obtain ⟨body, hdecoded⟩ := Option.isSome_iff_exists.mp hdecodes
    rw [hdecoded, listing_none_of_decoded hfound hdecoded]
  · rw [listing_of_noBody hfound habsent, listing_of_noBody hfound habsent]

theorem listing_none_body_error_iff (hfound : store.methodDefs.get? h = some method) :
    (∃ reason, store.listing options h none = .error (.body reason)) ↔
      method.hasBody = true ∧ store.readBody? method = none := by
  constructor
  · rintro ⟨reason, hfailed⟩
    rcases (listing_none_fails_iff hfound).mp ⟨_, hfailed⟩ with hundecoded | ⟨body, hdecoded, -⟩
    · exact hundecoded
    · -- the errors of a decoded body are those of the heap
      rw [listing_none_of_decoded hfound hdecoded] at hfailed
      obtain ⟨fault, hsame⟩ := (listing_returnsIff hfound hdecoded).exists_fault hfailed
      cases hsame
  · rintro ⟨hpresent, hundecoded⟩
    exact listing_none_of_undecoded hfound hpresent hundecoded

/-- **Sharing decoded bodies changes nothing.**  Scanning methods of the store with
their bodies decoded ahead gives the table and the callees that scanning without
them gives.  A method's listing is the same with its body at hand as without,
when the body decodes or the method has none; and without it, the listing fails
because of the body exactly when the method has one that does not decode.  The
only other failure is that of a heap which has no answer for a string that the
body loads, so with a heap of texts there is none. -/
theorem shared_bodies_change_nothing (store : Store) :
    (∀ style methods, store.Lists methods → ∃ table scanned,
      store.scan style none methods = .ok (table, scanned) ∧
      store.scan style (some (store.sharedBodies methods)) methods = .ok (table, scanned)) ∧
    ∀ h method, store.methodDefs.get? h = some method → ∀ options,
      ((store.readBody? method).isSome = true ∨ method.hasBody = false →
        store.listing options h none = store.listing options h (store.readBody? method)) ∧
      ((∃ reason, store.listing options h none = .error (.body reason)) ↔
        method.hasBody = true ∧ store.readBody? method = none) ∧
      ((∃ error, store.listing options h none = .error error) ↔
        (method.hasBody = true ∧ store.readBody? method = none) ∨
        ∃ body, store.readBody? method = some body ∧
          ∃ i ∈ body.instructions, ¬ store.LoadAnswered i) ∧
      (store.HeapOfTexts → ((∃ error, store.listing options h none = .error error) ↔
        method.hasBody = true ∧ store.readBody? method = none)) := by
  refine ⟨?_, ?_⟩
  · intro style methods hlists
    obtain ⟨table, scanned, hscans⟩ := exists_scan_of_lists hlists style none
    exact ⟨table, scanned, hscans,
      (scan_sharedBodies (fun m hmember => (hlists m hmember).1) style).trans hscans⟩
  · intro h method hfound options
    refine ⟨listing_none_eq hfound, listing_none_body_error_iff hfound,
      listing_none_fails_iff hfound, ?_⟩
    intro hheap
    rw [listing_none_fails_iff hfound]
    constructor
    · rintro (hundecoded | ⟨body, -, i, -, hfailing⟩)
      · exact hundecoded
      · exact absurd (hheap.loadAnswered i) hfailing
    · exact Or.inl

/-! ### A body that decodes, none, and one that does not decode -/

/-- A method that calls the next one, one without body, and one whose body lies
outside the image. -/
def mixedMethods : List MethodDef :=
  [bareMethod 1 (lit "Caller") 1, bareMethod 2 (lit "Bodiless") 0, bareMethod 3 (lit "Broken") 99]

/-- One type with the three methods. -/
def mixedBodies : Store :=
  typeWith mixedMethods #[0x00, 0x1A, 0x28, 0x02, 0x00, 0x00, 0x06, 0x2A]

/-- The methods are scanned alike with and without their bodies; listing without
the body gives what the body gives for the first two, and fails for the third. -/
theorem mixedBodies_shared :
    mixedBodies.Lists mixedMethods ∧ mixedBodies.HeapOfTexts ∧
      (∃ table scanned, mixedBodies.scan .names none mixedMethods = .ok (table, scanned) ∧
        mixedBodies.scan .names (some (mixedBodies.sharedBodies mixedMethods)) mixedMethods =
          .ok (table, scanned)) ∧
      (∀ options, mixedBodies.listing options ⟨TableNumber.methodDef, 1⟩ none =
        mixedBodies.listing options ⟨TableNumber.methodDef, 1⟩
          (mixedBodies.readBody? (bareMethod 1 (lit "Caller") 1))) ∧
      (∀ options, ¬ ∃ error, mixedBodies.listing options ⟨TableNumber.methodDef, 2⟩ none =
        .error error) ∧
      ∀ options, ∃ reason, mixedBodies.listing options ⟨TableNumber.methodDef, 3⟩ none =
        .error (.body reason) := by
  have hlists : mixedBodies.Lists mixedMethods := by
    intro method hmember
    simp only [mixedMethods, List.mem_cons, List.not_mem_nil, or_false] at hmember
    rcases hmember with rfl | rfl | rfl
    · exact ⟨rfl, by decide⟩
    · exact ⟨rfl, by decide⟩
    · exact ⟨rfl, by decide⟩
  have hheap : mixedBodies.HeapOfTexts := fun offset => ⟨none, rfl⟩
  have hdecodes : (mixedBodies.readBody? (bareMethod 1 (lit "Caller") 1)).isSome = true := by
    decide +kernel
  have hundecoded : mixedBodies.readBody? (bareMethod 3 (lit "Broken") 99) = none := by
    decide +kernel
  obtain ⟨hscans, hlistings⟩ := shared_bodies_change_nothing mixedBodies
  refine ⟨hlists, hheap, hscans .names mixedMethods hlists, ?_, ?_, ?_⟩
  · intro options
    exact (hlistings _ _ rfl options).1 (.inl hdecodes)
  · intro options hfailed
    obtain ⟨-, -, -, honlyThen⟩ :=
      hlistings ⟨TableNumber.methodDef, 2⟩ (bareMethod 2 (lit "Bodiless") 0) rfl options
    obtain ⟨hpresent, -⟩ := (honlyThen hheap).mp hfailed
    exact absurd hpresent (by decide)
  · intro options
    exact (hlistings _ (bareMethod 3 (lit "Broken") 99) rfl options).2.1.mpr ⟨by decide, hundecoded⟩

end Store
end CilAtlas
