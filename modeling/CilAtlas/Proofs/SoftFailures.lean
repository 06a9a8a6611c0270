import CilAtlas.Proofs.AnalysisShape
import CilAtlas.Proofs.BodyExtent
import CilAtlas.Proofs.Escapes

/-!
# What can make an analysis fail

In a store whose methods have defined owners, everything that cannot be decoded
shows in the entry of its own method: a body, a signature or a user string that
is malformed leaves a mark or an empty list there, and all other entries are as
they would be.  One thing is not confined: listings hold names as they are, so a
name can bring a literal into a listing, and a literal whose escape names a
number above the last code point makes the whole analysis fail.  Nothing else
does.
-/

namespace CilAtlas
namespace Store

variable {store : Store} {listing : ListingOptions} {options : AnalysisOptions}
  {method : MethodDef}

/-! ### The parts of an entry -/

/-- What a report may show of a method's code. -/
inductive CodeShown (store : Store) (method : MethodDef) : Int → Text → Prop
  | absent (hnoAddress : method.rva = 0) : CodeShown store method 0 absentCode
  | unreadable (haddress : method.rva ≠ 0) (hundecoded : store.readBody? method = none) :
      CodeShown store method 0 unreadableCode
  | dumped {body : Body} {code : List UInt8} (hdecoded : store.readBody? method = some body)
      (hbytes : store.codeBytes method body = .ok code) :
      CodeShown store method body.codeSize (if code.isEmpty then emptyCode else ilBytesText code)

/-- What a report may show of a method's signature. -/
inductive SignatureShown (store : Store) (method : MethodDef) :
    Text → List ReportParameter → Prop
  | undecoded {fault : SignatureFault} (hmalformed : store.methodText method = .error fault) :
      SignatureShown store method [] []
  | decoded {signature : Signature.MethodText} (hread : store.methodText method = .ok signature) :
      SignatureShown store method signature.result
        (signature.parameters.mapIdx fun i type => ⟨reportedName method.params (i + 1), type⟩)

/-- What a report may show of a method's listing and its literals. -/
inductive SourceShown (store : Store) (listing : ListingOptions) (method : MethodDef) :
    Text → List Text → Prop
  | undecoded (hpresent : method.hasBody = true) (hundecoded : store.readBody? method = none) :
      SourceShown store listing method listingFailed []
  | unlisted {error : ListingError}
      (hfails : store.listing listing method.handle (store.readBody? method) = .error error) :
      SourceShown store listing method listingFailed []
  | listed {text : Text} {literals : List Text}
      (hlists : store.listing listing method.handle (store.readBody? method) = .ok text)
      (hread : Quoted.literals text = .ok literals) :
      SourceShown store listing method text literals

/-- An entry shows its own method: what was decoded as it is, and a mark or
nothing in the place of the rest. -/
structure EntryShown (store : Store) (listing : ListingOptions) (options : AnalysisOptions)
    (scanned : List ScannedMethod) (method : MethodDef) (reported : ReportedMethod) : Prop where
  handle_eq : reported.handle = method.handle
  named : store.keyOf method.handle options.style = .ok reported.name
  rva_eq : reported.rva = method.rva
  code : store.CodeShown method reported.size reported.ilBytes
  signature : store.SignatureShown method reported.returnType reported.parameters
  source : store.SourceShown listing method reported.source reported.stringLiterals
  calls_eq : reported.calls =
    store.callRecords options scanned ⟨method.handle, reported.name, method.rva⟩ method
  calls_nil : store.readBody? method = none → reported.calls = []

theorem exists_ilBytes (store : Store) (method : MethodDef) :
    ∃ size text, store.ilBytes method (store.readBody? method) = .ok (size, text) ∧
      store.CodeShown method size text := by
  unfold ilBytes
  split
  · next hnoAddress => exact ⟨0, absentCode, rfl, .absent hnoAddress⟩
  · next haddress =>
    split
    · next hundecoded => exact ⟨0, unreadableCode, rfl, .unreadable haddress hundecoded⟩
    · next body hdecoded =>
      obtain ⟨code, hbytes, hlength⟩ := exists_codeBytes hdecoded
      refine ⟨body.codeSize, _, ?_, .dumped hdecoded hbytes⟩
      rw [hbytes, ← hlength]
      rfl

theorem signatureShown_of_get? (hfound : store.methodDefs.get? method.handle = some method) :
    store.SignatureShown method (reportedSignature (store.lister listing) method).1
      (reportedSignature (store.lister listing) method).2 := by
  have htexts : store.signatureTexts method.handle = (do
      let signature ← (store.methodText method).mapError .inr
      return (signature.result, signature.parameters)) := by
    rw [signatureTexts, methodDef, hfound]
    rfl
  have hasked : (store.lister listing).signature? method.handle =
      (store.signatureTexts method.handle).toOption := rfl
  unfold reportedSignature
  rw [hasked, htexts]
  cases hread : store.methodText method with
  | error fault => exact .undecoded hread
  | ok signature => exact .decoded hread

/-! ### Listings and their literals -/

/-- No escape in a literal of the method's listing names a number above the last
code point. -/
def LiteralsReadable (store : Store) (listing : ListingOptions) (method : MethodDef) : Prop :=
  (method.hasBody = true → (store.readBody? method).isSome = true) →
    ∀ text, store.listing listing method.handle (store.readBody? method) = .ok text →
      ∀ body ∈ Quoted.bodies text, ¬ Quoted.HasWide body

/-- Of what a report shows as source, only reading the literals can fail. -/
theorem reportedSource_cases (store : Store) (listing : ListingOptions) (method : MethodDef) :
    (store.LiteralsReadable listing method ∧ ∃ source literals,
      reportedSource (store.lister listing) method (store.readBody? method) =
        .ok (source, literals) ∧ store.SourceShown listing method source literals) ∨
    ¬ store.LiteralsReadable listing method ∧ ∃ error,
      reportedSource (store.lister listing) method (store.readBody? method) = .error error := by
  -- a body that should be there but did not decode is never handed to the lister
  by_cases hmissing : (method.hasBody && (store.readBody? method).isNone) = true
  · obtain ⟨hpresent, hundecoded⟩ := Bool.and_eq_true_iff.mp hmissing
    rw [Option.isNone_iff_eq_none] at hundecoded
    refine .inl ⟨fun hdecodes => ?_, _, _, if_pos hmissing, .undecoded hpresent hundecoded⟩
    have hdecoded := hdecodes hpresent
    rw [hundecoded] at hdecoded
    cases hdecoded
  · have hdecoded : method.hasBody = true → (store.readBody? method).isSome = true := by
      intro hpresent
      cases hbody : store.readBody? method with
      | none => exact absurd (by rw [hpresent, hbody]; rfl) hmissing
      | some body => rfl
    rw [reportedSource, if_neg hmissing]
    cases hlists : (store.lister listing).listing method.handle (store.readBody? method) with
    | error error =>
      refine .inl ⟨fun _ text hlists' => ?_, _, _, rfl, .unlisted hlists⟩
      cases hlists'.symm.trans hlists
    | ok text =>
      have hreadable : store.LiteralsReadable listing method ↔
          ∃ values, Quoted.literals text = .ok values := by
        rw [Quoted.literals_ok_iff]
        constructor
        · intro h
          exact h hdecoded text hlists
        · intro h _ text' hlists'
          cases hlists'.symm.trans hlists
          exact h
      rw [hreadable]
      cases hread : Quoted.literals text with
      | ok literals =>
        exact .inl ⟨⟨literals, rfl⟩, _, _, Outcome.bind_of_ok hread _, .listed hlists hread⟩
      | error error =>
        refine .inr ⟨?_, error, Outcome.bind_of_error hread _⟩
        rintro ⟨values, h⟩
        cases h

/-! ### Entries -/

theorem entryShown_of_reports (hfound : store.methodDefs.get? method.handle = some method)
    {scanned : List ScannedMethod} {reported : ReportedMethod}
    (hreports : store.Reports (store.lister listing) options scanned method reported) :
    store.EntryShown listing options scanned method reported := by
  obtain ⟨key, size, text, source, literals, hcomputed, hdumped, hlisted, rfl⟩ := hreports.parts
  refine ⟨rfl, hcomputed, rfl, ?_, signatureShown_of_get? hfound, ?_, rfl, ?_⟩
  · obtain ⟨size', text', hdumped', hshown⟩ := store.exists_ilBytes method
    rw [hdumped] at hdumped'
    cases hdumped'
    exact hshown
  · rcases store.reportedSource_cases listing method with
      ⟨-, source', literals', hlisted', hshown⟩ | ⟨-, error, hfails⟩
    · rw [hlisted] at hlisted'
      cases hlisted'
      exact hshown
    · rw [hlisted] at hfails
      cases hfails
  · intro hundecoded
    show (store.callsOfBody? (store.readBody? method)).entries.map _ = []
    rw [hundecoded]
    rfl

theorem reportMethod_returnsIff (store : Store) (listing : ListingOptions) (method : MethodDef)
    (entry : TableEntry) (calls : List CallRecord) :
    Outcome.ReturnsIff (store.LiteralsReadable listing method) AnalysisError.escape
      (store.reportMethod (store.lister listing) method entry (store.readBody? method) calls) := by
  obtain ⟨size, text, hdumped, -⟩ := store.exists_ilBytes method
  rw [reportMethod, hdumped]
  rcases store.reportedSource_cases listing method with
    ⟨hreadable, source, literals, hlisted, -⟩ | ⟨hunreadable, error, hfails⟩
  · rw [hlisted]
    exact .inl ⟨hreadable, _, rfl⟩
  · rw [hfails]
    exact .inr ⟨hunreadable, error, rfl⟩

theorem reportMethods_returnsIff (hkeyed : store.Keyed) {scanned : List ScannedMethod}
    (hsameLength : (store.visited options).length = scanned.length) :
    Outcome.ReturnsIff (∀ method ∈ store.visited options, store.LiteralsReadable listing method)
      AnalysisError.escape (store.reportMethods (store.lister listing) options
        (store.visitedBodies options) (tableOf scanned)
        ((store.visited options).zip scanned)) := by
  -- the steps run over methods paired with their scans, the condition over methods
  have hfirsts : ((store.visited options).zip scanned).map Prod.fst = store.visited options :=
    List.map_fst_zip (Nat.le_of_eq hsameLength)
  have hconditions : (∀ pair ∈ (store.visited options).zip scanned,
      store.LiteralsReadable listing pair.1) ↔
      ∀ method ∈ store.visited options, store.LiteralsReadable listing method := by
    nth_rewrite 2 [← hfirsts]
    rw [List.forall_mem_map]
  rw [← hconditions]
  refine Outcome.ReturnsIff.mapM ?_
  rintro ⟨method, s⟩ hpair
  have hown : store.visitedBodies options method.handle = store.readBody? method :=
    bodyFrom_visitedBodies hkeyed (List.of_mem_zip hpair).1
  simp only [recordsOf_tableOf, hown]
  exact store.reportMethod_returnsIff listing method s.method _

/-! ### Analyses -/

theorem exists_keys (hkeyed : store.Keyed) (howners : store.OwnersDefined) {α : Type}
    (items : List α) (handleOf : α → Handle)
    (hpresent : ∀ item ∈ items, store.HasKeyedRow (handleOf item)) :
    ∃ keys, (items.mapM fun item => store.keyOf (handleOf item) .names) = .ok keys :=
  Outcome.exists_mapM_ok fun item hmember =>
    exists_keyOf hkeyed howners (hpresent item hmember) .names

theorem hasKeyedRow_of_mem_values (hkeyed : store.Keyed) {row : TypeDef}
    (hmember : row ∈ store.typeDefs.values) : store.HasKeyedRow row.handle := by
  obtain ⟨⟨h, row⟩, hlisted, rfl⟩ := List.mem_map.mp hmember
  have hfound := (OrderedMap.get?_eq_some_iff _ _ _).mpr hlisted
  rw [(hkeyed.typeDefs.of_get? hfound).1]
  exact .inl ((OrderedMap.contains_iff _ _).mpr ⟨row, hfound⟩)

theorem exists_importedMethods (hkeyed : store.Keyed) (howners : store.OwnersDefined) :
    ∃ names, store.importedMethods = .ok names := by
  unfold importedMethods
  obtain ⟨keys, hcomputed⟩ := exists_keys hkeyed howners
    (store.memberRefs.entries.filter fun entry =>
      (entry.2.parent?.any fun parent => parent.table = TableNumber.typeRef)
        && Signature.isMethodBlob entry.2.signature) Prod.fst (by
      intro entry hmember
      have hfound := (OrderedMap.get?_eq_some_iff _ _ _).mpr (List.mem_filter.mp hmember).1
      exact .inr (.inr (.inr (.inr ((OrderedMap.contains_iff _ _).mpr ⟨_, hfound⟩)))))
  exact ⟨_, Outcome.bind_of_ok hcomputed _⟩

theorem analyze_returnsIff (store : Store) (listing : ListingOptions) (options : AnalysisOptions)
    (hkeyed : store.Keyed) (howners : store.OwnersDefined) :
    Outcome.ReturnsIff (∀ method ∈ store.visited options, store.LiteralsReadable listing method)
      AnalysisError.escape (store.analyze (store.lister listing) options) := by
  obtain ⟨names, hnames⟩ := exists_keys hkeyed howners store.typeDefs.values TypeDef.handle
    fun row hmember => hasKeyedRow_of_mem_values hkeyed hmember
  obtain ⟨scanned, hscan⟩ := exists_scan howners
    (fun method (hmember : method ∈ store.visited options) => get?_of_mem_visited hkeyed hmember)
    options.style (some (store.visitedBodies options))
  obtain ⟨importedMethods, hmethods⟩ := exists_importedMethods hkeyed howners
  obtain ⟨importedTypes, htypes⟩ := exists_keys hkeyed howners store.typeRefs.keys id
    fun h hmember => .inr (.inl ((OrderedMap.contains_iff _ _).mpr
      (OrderedMap.exists_get?_of_mem_keys hmember)))
  obtain ⟨exportedTypes, hexported⟩ := exists_keys hkeyed howners store.exportedTypes.keys id
    fun h hmember => .inr (.inr (.inl ((OrderedMap.contains_iff _ _).mpr
      (OrderedMap.exists_get?_of_mem_keys hmember))))
  -- naming and scanning never fail, so the entries decide
  refine Outcome.ReturnsIff.after (Outcome.mapError_eq_ok_iff.mpr hnames) ?_
  refine Outcome.ReturnsIff.after (Outcome.mapError_eq_ok_iff.mpr hscan) ?_
  refine (reportMethods_returnsIff hkeyed (length_of_scan hscan)).bind fun entries _ => ?_
  refine Outcome.exists_bind_ok (Outcome.mapError_eq_ok_iff.mpr hmethods) ?_
  refine Outcome.exists_bind_ok (Outcome.mapError_eq_ok_iff.mpr htypes) ?_
  exact Outcome.exists_bind_ok (Outcome.mapError_eq_ok_iff.mpr hexported) ⟨_, rfl⟩

/-- An analysis returns exactly when no literal of a visited method's listing has
an escape above the last code point, and fails in no other way.  A report has an
entry for each visited method, in the order of the types, and each shows its own
method whatever could not be decoded elsewhere. -/
theorem analyze_fails_only_on_wide_escapes (hkeyed : store.Keyed) (howners : store.OwnersDefined)
    (listing : ListingOptions) (options : AnalysisOptions) :
    ((∃ report, store.analyze (store.lister listing) options = .ok report) ↔
      ∀ method ∈ store.visited options, store.LiteralsReadable listing method) ∧
    (∀ error, store.analyze (store.lister listing) options = .error error →
      ∃ escape, error = .escape escape) ∧
    ∀ report, store.analyze (store.lister listing) options = .ok report →
      ∃ scanned, List.Forall₂ (store.ScannedAs options.style) (store.visited options) scanned ∧
        List.Forall₂
          (fun row type => store.keyOf row.handle .names = .ok type.name ∧
            type.kind = store.kindWord row ∧
            List.Forall₂ (store.EntryShown listing options scanned)
              (store.visitedMethods options row) type.methods)
          store.typeDefs.values report.types := by
  have hreturns := store.analyze_returnsIff listing options hkeyed howners
  refine ⟨hreturns.exists_ok_iff, fun error hfails => hreturns.exists_fault hfails, ?_⟩
  intro report hanalyzed
  obtain ⟨scanned, hscans, -, htypes⟩ := shape_of_analyze hkeyed hanalyzed
  refine ⟨scanned, hscans, htypes.imp ?_⟩
  rintro row type ⟨hnamed, hkind, hentries⟩
  refine ⟨hnamed, hkind, ?_⟩
  have hstored := (List.forall₂_and_left _ _).mpr
    ⟨fun method hmember => get?_of_mem_methodsOf hkeyed (List.mem_filter.mp hmember).1, hentries⟩
  exact hstored.imp fun method reported h => entryShown_of_reports h.1 h.2

/-! ### Two stores -/

/-- A method of the first type, without signature. -/
def bareMethod (rid : Int) (name : Text) (rva : Int) : MethodDef where
  handle := ⟨TableNumber.methodDef, rid⟩
  name := name
  owner := ⟨TableNumber.typeDef, 1⟩
  flags := .bits 0
  implFlags := .bits 0
  rva := rva
  signature := []
  params := []
  genericParameters := []
  compilerGenerated := false

/-- One type with the given methods. -/
def typeWith (methods : List MethodDef) (image : Array UInt8) : Store where
  typeDefs := OrderedMap.ofList
    [(⟨TableNumber.typeDef, 1⟩, ⟨⟨TableNumber.typeDef, 1⟩, [], lit "T", .bits 0, none, none,
      methods.map MethodDef.handle, []⟩)]
  typeRefs := OrderedMap.empty
  exportedTypes := OrderedMap.empty
  methodDefs := OrderedMap.ofList (methods.map fun method => (method.handle, method))
  memberRefs := OrderedMap.empty
  methodSpecs := OrderedMap.empty
  typeSpecs := OrderedMap.empty
  image := ⟨image⟩
  userStrings := fun _ => .ok none
  facts := ⟨0, 0, 0, 0, 0⟩

/-- Keys by parameter names, no assembly name, nothing left out. -/
def unnamedAnalysis : AnalysisOptions :=
  ⟨.names, false, false, []⟩

/-- The body of the first method lies outside the image. -/
def brokenBody : Store :=
  typeWith [bareMethod 1 (lit "Broken") 9, bareMethod 2 (lit "Leaf") 1] #[0x00, 0x06, 0x2A]

/-- The name of the method is a literal with an escape above the last code
point. -/
def wideName : Store :=
  typeWith [bareMethod 1 (lit "\"\\U00110000\"") 0] #[]

theorem brokenBody_keyed : brokenBody.Keyed := by
  constructor <;> decide

theorem wideName_keyed : wideName.Keyed := by
  constructor <;> decide

theorem brokenBody_reported :
    brokenBody.Keyed ∧ brokenBody.OwnersDefined ∧ ∃ report type broken leaf,
      brokenBody.analyze (brokenBody.lister .plain) unnamedAnalysis = .ok report ∧
      report.types = [type] ∧ type.methods = [broken, leaf] ∧
      broken.ilBytes = unreadableCode ∧ broken.calls = [] ∧ leaf.size = 1 := by
  have howners : brokenBody.OwnersDefined := by decide
  obtain ⟨report, hanalyzed⟩ : ∃ report,
      brokenBody.analyze (brokenBody.lister .plain) unnamedAnalysis = .ok report :=
    Outcome.exists_of_isOk (by decide +kernel)
  obtain ⟨-, -, hshown⟩ :=
    analyze_fails_only_on_wide_escapes brokenBody_keyed howners .plain unnamedAnalysis
  obtain ⟨scanned, -, hshape⟩ := hshown report hanalyzed
  obtain ⟨type, rest, ⟨-, -, hentries⟩, hlast, htypes⟩ := List.forall₂_cons_left_iff.mp hshape
  obtain ⟨broken, rest', hfirst, hlater, hmethods⟩ := List.forall₂_cons_left_iff.mp hentries
  obtain ⟨leaf, rest'', hsecond, hlast', hrest⟩ := List.forall₂_cons_left_iff.mp hlater
  cases hlast
  cases hlast'
  subst hrest
  have hundecoded : brokenBody.readBody? (bareMethod 1 (lit "Broken") 9) = none := by decide +kernel
  have hsized : (brokenBody.readBody? (bareMethod 2 (lit "Leaf") 1)).map Body.codeSize =
      some 1 := by
    decide +kernel
  refine ⟨brokenBody_keyed, howners, report, type, broken, leaf, hanalyzed, htypes, hmethods,
    ?_, hfirst.calls_nil hundecoded, ?_⟩
  · have hcode := hfirst.code
    generalize broken.size = size, broken.ilBytes = text at hcode ⊢
    cases hcode with
    | absent hnoAddress => exact absurd hnoAddress (by decide)
    | unreadable => rfl
    | dumped hdecoded _ =>
      rw [hundecoded] at hdecoded
      cases hdecoded
  · have hcode := hsecond.code
    generalize leaf.size = size, leaf.ilBytes = text at hcode ⊢
    cases hcode with
    | absent hnoAddress => exact absurd hnoAddress (by decide)
    | unreadable _ hmissing =>
      rw [hmissing] at hsized
      cases hsized
    | dumped hdecoded _ =>
      rw [hdecoded] at hsized
      exact congrArg Int.ofNat (Option.some.inj hsized)

/-- A name can make the whole analysis fail, although every method has a defined
owner. -/
theorem wideName_aborts :
    wideName.Keyed ∧ wideName.OwnersDefined ∧
      wideName.analyze (wideName.lister .plain) unnamedAnalysis =
        .error (.escape .notCodePoint) :=
  ⟨wideName_keyed, by decide, by decide +kernel⟩

end Store
end CilAtlas
