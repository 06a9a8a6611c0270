import CilAtlas.Proofs.BodyConfinement
import CilAtlas.Proofs.SoftFailures

/-!
# An entry depends on its own body's bytes

Of all that an analysis shows, only the bodies come from the image: names, keys,
signatures and the table of methods are made from rows.  So when two stores
differ in their images alone, and these agree on the extent of a method's body,
the entries of that method are the same, whatever the other methods look like in
each of them.

The bodies are decoded once and found again by handle, so of visited methods with
one handle all are shown with the body of the last.  For the entries the method's
handle is therefore to be its own, as it is wherever rows are stored under their own
handles; nothing else about the stores is assumed.  Nothing is said about whether an
analysis returns: a change elsewhere in the image can bring another method to fail
it.
-/

namespace CilAtlas
namespace Store

variable {store : Store} {image : Image}

/-- The store with another image. -/
def withImage (store : Store) (image : Image) : Store :=
  { store with image := image }

/-! ### What does not look at the image -/

theorem fullName_withImage : (store.withImage image).fullName = store.fullName := by
  have hupTo (depth : Nat) (h : Handle) :
      (store.withImage image).fullNameUpTo depth h = store.fullNameUpTo depth h := by
    induction depth generalizing h with
    | zero => rfl
    | succ depth ih =>
      have hsame : (store.withImage image).fullNameUpTo depth = store.fullNameUpTo depth :=
        funext ih
      simp only [fullNameUpTo, hsame]
      rfl
  exact funext (hupTo _)

theorem naming_withImage : (store.withImage image).naming = store.naming := by
  funext typeParameters methodParameters
  simp only [naming, fullName_withImage]

theorem methodText_withImage : (store.withImage image).methodText = store.methodText := by
  funext method
  simp only [methodText, methodNaming, naming_withImage]
  rfl

theorem typeEntity_withImage : (store.withImage image).typeEntity = store.typeEntity := by
  have hchain (fuel : Nat) (met : List Handle) (h : Handle) :
      (store.withImage image).declaringChain fuel met h = store.declaringChain fuel met h := by
    induction fuel generalizing met h with
    | zero => rfl
    | succ fuel ih =>
      simp only [declaringChain, ih]
      rfl
  funext h
  simp only [typeEntity, hchain]
  rfl

theorem methodEntity_withImage : (store.withImage image).methodEntity = store.methodEntity := by
  funext h style
  simp only [methodEntity, keyParameters, typeEntity_withImage, methodText_withImage]
  rfl

theorem tableEntry_withImage : (store.withImage image).tableEntry = store.tableEntry := by
  funext style method
  simp only [tableEntry, methodEntity_withImage]

theorem callTarget_withImage : (store.withImage image).callTarget = store.callTarget := by
  funext token
  simp only [callTarget, targetOf, bindMember, referencedType, instanceParts, naming_withImage]
  rfl

theorem resolveMethod_withImage :
    (store.withImage image).resolveMethod = store.resolveMethod := by
  funext h instantiation
  simp only [resolveMethod, resolveLocal, resolveMember, declaringTypeOf, instanceParts,
    fullName_withImage, naming_withImage]
  rfl

theorem callSiteName_withImage : (store.withImage image).callSiteName = store.callSiteName := by
  funext h instantiation
  simp only [callSiteName, memberEntity, parentEntity, typeEntity_withImage, fullName_withImage,
    methodEntity_withImage, resolveMethod_withImage]
  rfl

/-- The callees of a body that is already decoded. -/
theorem callsOfBody?_withImage : (store.withImage image).callsOfBody? = store.callsOfBody? := by
  have hcallee : (store.withImage image).calleeOf = store.calleeOf := by
    funext i
    simp only [calleeOf, callTarget_withImage]
  have hadd : (store.withImage image).addCall = store.addCall := by
    funext pending target
    simp only [addCall, callSiteName_withImage]
  funext body?
  simp only [callsOfBody?, callsOfBody, callsIn, hcallee, hadd]

theorem tokenText_withImage : (store.withImage image).tokenText = store.tokenText := by
  funext token
  simp only [tokenText, fullName_withImage, callTarget_withImage, resolveMethod_withImage]
  rfl

mutual

theorem operandText_withImage (operand : Operand) :
    (store.withImage image).operandText operand = store.operandText operand := by
  cases operand with
  | token value => simp only [operandText, tokenText_withImage]
  | string value => rfl
  | list items => simp only [operandText, operandTexts_withImage items]
  | none => rfl
  | truth value => rfl
  | int value => rfl
  | float value => rfl
  | argument index => rfl
  | «local» index => rfl
  | other text => rfl

theorem operandTexts_withImage (operands : List Operand) :
    (store.withImage image).operandTexts operands = store.operandTexts operands := by
  cases operands with
  | nil => rfl
  | cons operand rest =>
    simp only [operandTexts, operandText_withImage operand, operandTexts_withImage rest]

end

theorem bodyLines_withImage (listing : ListingOptions) (body : Body) :
    (store.withImage image).bodyLines listing body = store.bodyLines listing body := by
  have hline (dead : List Int) (base : Int) :
      (store.withImage image).instructionLine listing dead base =
        store.instructionLine listing dead base := by
    funext i
    simp only [instructionLine, operandText_withImage]
  simp only [bodyLines, hline]

theorem listing_withImage (listing : ListingOptions) (h : Handle) (body : Body) :
    (store.withImage image).listing listing h (some body) =
      store.listing listing h (some body) := by
  simp only [Store.listing, listingHeader, methodText_withImage, fullName_withImage,
    bodyLines_withImage]
  rfl

theorem reportedSignature_withImage (listing : ListingOptions) (method : MethodDef) :
    reportedSignature ((store.withImage image).lister listing) method =
      reportedSignature (store.lister listing) method := by
  have htexts : (store.withImage image).signatureTexts = store.signatureTexts := by
    funext h
    simp only [signatureTexts, methodText_withImage]
    rfl
  simp only [reportedSignature, lister, htexts]

/-- A method with a body is listed from the body that was decoded for it, never from
the image. -/
theorem reportedSource_withImage {method : MethodDef} (hpresent : method.hasBody = true)
    (listing : ListingOptions) (body? : Option Body) :
    reportedSource ((store.withImage image).lister listing) method body? =
      reportedSource (store.lister listing) method body? := by
  cases body? with
  | none => simp only [reportedSource, hpresent, Option.isNone_none, Bool.and_self, if_true]
  | some body => simp only [reportedSource, lister, listing_withImage]

/-! ### What looks at the body only -/

variable {method : MethodDef} {stop : Nat}

theorem readBody?_withImage (hcovers : Body.extent store.image method.rva = .ok stop)
    (hagree : store.image.AgreeOn image method.rva stop) :
    (store.withImage image).readBody? method = store.readBody? method := by
  apply Option.ext
  intro body
  rw [readBody?_eq_some_iff, readBody?_eq_some_iff]
  show method.hasBody = true ∧ Body.decode image method.rva none = .ok body ↔ _
  rcases Body.decode_of_agreeOn hcovers hagree with
    ⟨decoded, hleft, hright⟩ | ⟨⟨fault, hleft⟩, fault', hright⟩
  · rw [hleft, hright]
  · -- the faults may differ, but neither image gives a body
    rw [hleft, hright]
    simp

theorem codeBytes_withImage {body : Body} (hcovers : Body.extent store.image method.rva = .ok stop)
    (hagree : store.image.AgreeOn image method.rva stop)
    (hdecoded : store.readBody? method = some body) :
    (store.withImage image).codeBytes method body = store.codeBytes method body := by
  obtain ⟨-, hdecodes⟩ := readBody?_eq_some_iff.mp hdecoded
  obtain ⟨stop', hcovers', hinside⟩ := Body.code_inside_of_decode hdecodes
  obtain rfl : stop = stop' := Except.ok.inj (hcovers.symm.trans hcovers')
  obtain ⟨hnonneg, -⟩ := Body.extent_ok hcovers
  show image.range _ _ = store.image.range _ _
  unfold Image.range
  rw [hagree.size_eq, hagree.slice_eq (by omega) (by omega) hinside (by omega)]

theorem ilBytes_withImage (hcovers : Body.extent store.image method.rva = .ok stop)
    (hagree : store.image.AgreeOn image method.rva stop) :
    (store.withImage image).ilBytes method (store.readBody? method) =
      store.ilBytes method (store.readBody? method) := by
  cases hdecoded : store.readBody? method with
  | none => rfl
  | some body => simp only [ilBytes, codeBytes_withImage hcovers hagree hdecoded]

theorem callsOf_withImage (hcovers : Body.extent store.image method.rva = .ok stop)
    (hagree : store.image.AgreeOn image method.rva stop) :
    (store.withImage image).callsOf method = store.callsOf method := by
  simp only [callsOf, callsOfBody?_withImage, readBody?_withImage hcovers hagree]

theorem scanEntry_withImage (hcovers : Body.extent store.image method.rva = .ok stop)
    (hagree : store.image.AgreeOn image method.rva stop) (style : ParameterStyle) :
    (store.withImage image).scanEntry style none method = store.scanEntry style none method := by
  simp only [scanEntry, callsFrom, tableEntry_withImage, callsOf_withImage hcovers hagree]

theorem reportMethod_withImage (hpresent : method.hasBody = true)
    (hcovers : Body.extent store.image method.rva = .ok stop)
    (hagree : store.image.AgreeOn image method.rva stop) (listing : ListingOptions)
    (entry : TableEntry) (calls : List CallRecord) :
    (store.withImage image).reportMethod ((store.withImage image).lister listing) method entry
        ((store.withImage image).readBody? method) calls =
      store.reportMethod (store.lister listing) method entry (store.readBody? method) calls := by
  rw [readBody?_withImage hcovers hagree]
  simp only [reportMethod, ilBytes_withImage hcovers hagree, reportedSignature_withImage,
    reportedSource_withImage hpresent]

/-! ### The table -/

variable {bodies? bodies?' : Option (Handle → Option Body)}

/-- The table holds what was noted about the methods, not their callees. -/
theorem tableOf_eq_of_methods_eq {scanned scanned' : List ScannedMethod}
    (hsame : scanned.map ScannedMethod.method = scanned'.map ScannedMethod.method) :
    tableOf scanned = tableOf scanned' := by
  have hfolded (scanned : List ScannedMethod) :
      scanned.foldl (fun (entries : OrderedMap Handle TableEntry) s =>
        entries.insert s.method.handle s.method) OrderedMap.empty =
      (scanned.map ScannedMethod.method).foldl (fun entries entry =>
        entries.insert entry.handle entry) OrderedMap.empty := by
    rw [List.foldl_map]
  unfold tableOf
  rw [hfolded, hfolded, hsame]

theorem tableEntries_of_scans {style : ParameterStyle} {methods : List MethodDef}
    {scanned : List ScannedMethod}
    (hscans : List.Forall₂ (fun method s => store.scanEntry style bodies? method = .ok s) methods
      scanned) :
    methods.mapM (store.tableEntry style) = .ok (scanned.map ScannedMethod.method) := by
  rw [Outcome.mapM_eq_ok_iff, List.forall₂_map_right_iff]
  refine hscans.imp fun method s hs => ?_
  obtain ⟨entry, hentry, hdone⟩ := Outcome.bind_eq_ok_iff.mp hs
  cases Outcome.pure_eq_ok_iff.mp hdone
  exact hentry

theorem tableOf_withImage {style : ParameterStyle} {methods : List MethodDef}
    {scanned scanned' : List ScannedMethod}
    (hscans : List.Forall₂ (fun method s => store.scanEntry style bodies? method = .ok s) methods
      scanned)
    (hscans' : List.Forall₂ (fun method s =>
      (store.withImage image).scanEntry style bodies?' method = .ok s) methods scanned') :
    tableOf scanned' = tableOf scanned := by
  have hentries' := tableEntries_of_scans hscans'
  rw [tableEntry_withImage, tableEntries_of_scans hscans] at hentries'
  exact (tableOf_eq_of_methods_eq (Except.ok.inj hentries')).symm

/-! ### Entries -/

/-- The entry at the position of a method whose handle no other visited one has. -/
theorem exists_enters_of_analyze {lister : Lister} {options : AnalysisOptions} {report : Report}
    (hanalyzed : store.analyze lister options = .ok report) {i : Nat}
    (hvisited : (store.visited options)[i]? = some method)
    (halone : ∀ other ∈ store.visited options, other.handle = method.handle → other = method) :
    ∃ scanned,
      List.Forall₂ (fun method s => store.scanEntry options.style
        (some (store.visitedBodies options)) method = .ok s) (store.visited options) scanned ∧
      ∃ reported, report.methods[i]? = some reported ∧
        store.Enters lister options none scanned method reported := by
  obtain ⟨scanned, hcomposes⟩ := exists_composes_of_analyze hanalyzed
  have hentries := forall₂_methods_of_types (hcomposes.types.imp fun row type h => h.2.2)
  obtain ⟨reported, hlisted, henters⟩ := exists_getElem?_of_forall₂ hentries hvisited
  have hown : store.bodyFrom (some (store.visitedBodies options)) method =
      store.bodyFrom none method :=
    sharedBodies_of_mem halone (List.mem_of_getElem? hvisited)
  exact ⟨scanned, hcomposes.scans, reported, hlisted, henters.congr hown⟩

theorem Enters.unique_withImage (hpresent : method.hasBody = true)
    (hcovers : Body.extent store.image method.rva = .ok stop)
    (hagree : store.image.AgreeOn image method.rva stop) {listing : ListingOptions}
    {options : AnalysisOptions} {scanned scanned' : List ScannedMethod}
    (hsameTable : tableOf scanned' = tableOf scanned) {reported reported' : ReportedMethod}
    (henters : store.Enters (store.lister listing) options none scanned method reported)
    (henters' : (store.withImage image).Enters ((store.withImage image).lister listing) options
      none scanned' method reported') : reported' = reported := by
  obtain ⟨s, hs, hshown⟩ := henters
  obtain ⟨s', hs', hshown'⟩ := henters'
  rw [scanEntry_withImage hcovers hagree, hs] at hs'
  obtain rfl : s = s' := Except.ok.inj hs'
  rw [bodyFrom, reportMethod_withImage hpresent hcovers hagree, hsameTable] at hshown'
  exact (Except.ok.inj (hshown.symm.trans hshown')).symm

/-- Two stores differ in their images, which have one size and agree on the extent
of a method's body.  Then the extent is the same in both, decoding gives the same
body or fails in both, and with that body the method has the same callees and is
described in the same way, given what its callees resolve to.  Wherever the two
analyses list the method, and list no other under its handle, their entries are
equal. -/
theorem entry_from_own_bytes (listing : ListingOptions) (options : AnalysisOptions)
    (hpresent : method.hasBody = true)
    (hcovers : Body.extent store.image method.rva = .ok stop)
    (hagree : store.image.AgreeOn image method.rva stop) :
    Body.extent image method.rva = .ok stop ∧
    ((∃ body, Body.decode store.image method.rva none = .ok body ∧
        Body.decode image method.rva none = .ok body) ∨
      (∃ fault, Body.decode store.image method.rva none = .error fault) ∧
        ∃ fault, Body.decode image method.rva none = .error fault) ∧
    (store.withImage image).callsOf method = store.callsOf method ∧
    (∀ entry calls,
      (store.withImage image).reportMethod ((store.withImage image).lister listing) method entry
          ((store.withImage image).readBody? method) calls =
        store.reportMethod (store.lister listing) method entry (store.readBody? method) calls) ∧
    ∀ report report',
      store.analyze (store.lister listing) options = .ok report →
      (store.withImage image).analyze ((store.withImage image).lister listing) options =
        .ok report' →
      ∀ i : Nat, (store.visited options)[i]? = some method →
        (∀ other ∈ store.visited options, other.handle = method.handle → other = method) →
        ∃ reported, report.methods[i]? = some reported ∧
          report'.methods[i]? = some reported ∧ reported.handle = method.handle := by
  refine ⟨Body.extent_of_agreeOn hcovers hagree, Body.decode_of_agreeOn hcovers hagree,
    callsOf_withImage hcovers hagree, reportMethod_withImage hpresent hcovers hagree listing, ?_⟩
  intro report report' hanalyzed hanalyzed' i hvisited halone
  -- both stores visit the same methods in the same order
  have hvisited' : ((store.withImage image).visited options)[i]? = some method := hvisited
  obtain ⟨scanned, hscans, reported, hlisted, henters⟩ :=
    exists_enters_of_analyze hanalyzed hvisited halone
  obtain ⟨scanned', hscans', reported', hlisted', henters'⟩ :=
    exists_enters_of_analyze hanalyzed' hvisited' halone
  obtain rfl : reported' = reported :=
    Enters.unique_withImage hpresent hcovers hagree (tableOf_withImage hscans hscans')
      henters henters'
  exact ⟨reported', hlisted, hlisted', henters.handle_eq⟩

/-- Two methods, of which the second breaks off in front of a branch table. -/
def cutSwitch : Store :=
  typeWith [bareMethod 1 (lit "Leaf") 1, bareMethod 2 (lit "Jump") 3]
    #[0x00, 0x06, 0x2A, 0x06, 0x45, 0x00, 0x00, 0x00, 0x00]

/-- The same image with other bytes around the second method and in the first. -/
def overwritten : Image :=
  ⟨#[0xFF, 0x0A, 0x00, 0x06, 0x45, 0xFF, 0xFF, 0xFF, 0xFF]⟩

theorem cutSwitch_keyed : cutSwitch.Keyed := by
  constructor <;> decide

theorem cutSwitch_agreeOn : cutSwitch.image.AgreeOn overwritten 3 5 where
  size_eq := rfl
  byteAt_eq := by
    intro place hbegins hends
    obtain rfl | rfl : place = 3 ∨ place = 4 := by omega
    · rfl
    · rfl

/-- The guard of the branch table sees two different counts behind the body, and
the entries are the same. -/
theorem cutSwitch_entry :
    Body.extent cutSwitch.image 3 = .ok 5 ∧ cutSwitch.image.AgreeOn overwritten 3 5 ∧
      Body.decode cutSwitch.image 3 none = .error (.switchOverrun 0 5) ∧
      Body.decode overwritten 3 none = .error (.switchOverrun 0xFFFFFFFF 5) ∧
      ∃ report report' reported,
        cutSwitch.analyze (cutSwitch.lister .plain) unnamedAnalysis = .ok report ∧
        (cutSwitch.withImage overwritten).analyze
          ((cutSwitch.withImage overwritten).lister .plain) unnamedAnalysis = .ok report' ∧
        report ≠ report' ∧ report.methods[1]? = some reported ∧
        report'.methods[1]? = some reported := by
  have hcovers : Body.extent cutSwitch.image 3 = .ok 5 := by decide +kernel
  obtain ⟨report, hanalyzed⟩ : ∃ report,
      cutSwitch.analyze (cutSwitch.lister .plain) unnamedAnalysis = .ok report :=
    Outcome.exists_of_isOk (by decide +kernel)
  obtain ⟨report', hanalyzed'⟩ : ∃ report', (cutSwitch.withImage overwritten).analyze
      ((cutSwitch.withImage overwritten).lister .plain) unnamedAnalysis = .ok report' :=
    Outcome.exists_of_isOk (by decide +kernel)
  have hdiffer : cutSwitch.analyze (cutSwitch.lister .plain) unnamedAnalysis ≠
      (cutSwitch.withImage overwritten).analyze
        ((cutSwitch.withImage overwritten).lister .plain) unnamedAnalysis := by decide +kernel
  have hpresent : (bareMethod 2 (lit "Jump") 3).hasBody = true := by decide +kernel
  have hjump : (cutSwitch.visited unnamedAnalysis)[1]? = some (bareMethod 2 (lit "Jump") 3) := by
    decide +kernel
  have halone := alone_of_rows (fun _ => get?_of_mem_visited cutSwitch_keyed)
    (List.mem_of_getElem? hjump)
  obtain ⟨-, -, -, -, hentries⟩ :=
    entry_from_own_bytes .plain unnamedAnalysis hpresent hcovers cutSwitch_agreeOn
  obtain ⟨reported, hlisted, hlisted', -⟩ :=
    hentries report report' hanalyzed hanalyzed' 1 hjump halone
  refine ⟨hcovers, cutSwitch_agreeOn, rfl, rfl, report, report', reported, hanalyzed, hanalyzed',
    ?_, hlisted, hlisted'⟩
  rintro rfl
  exact hdiffer (hanalyzed.trans hanalyzed'.symm)

end Store
end CilAtlas
