import CilAtlas.Proofs.SoftFailures

/-!
# Where a parameter's name is shown

A parameter is shown in three places: in the list of a reported method, in the
header of its listing and in the method's key.  The rows that name parameters
may stand in any order, leave positions out, repeat them, or name nothing.  The
report and the key go by the last row for the position that has a name.  The
header goes by the last row for the position, so a row without a name behind one
that has it takes the name away from the header only.  In all other cases the
three agree.
-/

namespace CilAtlas

/-! ### The row that counts -/

/-- Searching from the end finds the last element that has the property. -/
theorem find?_reverse_eq_some_iff {α : Type} {wanted : α → Bool} {items : List α} {item : α} :
    items.reverse.find? wanted = some item ↔ wanted item = true ∧
      ∃ before after, items = before ++ item :: after ∧ ∀ other ∈ after, wanted other = false := by
  rw [List.find?_eq_some_iff_append]
  refine and_congr_right fun _ => ⟨?_, ?_⟩
  · rintro ⟨after, before, hsplit, hothers⟩
    refine ⟨before.reverse, after.reverse, ?_, ?_⟩
    · have hback := congrArg List.reverse hsplit
      simpa using hback
    · intro other hmember
      simpa using hothers other (List.mem_reverse.mp hmember)
  · rintro ⟨before, after, rfl, hothers⟩
    refine ⟨after.reverse, before.reverse, by simp, ?_⟩
    intro other hmember
    simpa using hothers other (List.mem_reverse.mp hmember)

namespace MethodDef

/-- The last row for the position that has a name gives it this name. -/
def NamedLast (params : List Param) (position : Int) (name : Text) : Prop :=
  name ≠ [] ∧ ∃ before after, params = before ++ ⟨position, name⟩ :: after ∧
    ∀ other ∈ after, other.sequence = position → other.name = []

/-- The last row for the position has no name, but an earlier one does. -/
def Withdrawn (params : List Param) (position : Int) : Prop :=
  ∃ before after, params = before ++ ⟨position, []⟩ :: after ∧
    (∀ other ∈ after, other.sequence ≠ position) ∧
    ∃ earlier ∈ before, earlier.sequence = position ∧ earlier.name ≠ []

variable {params : List Param} {position : Int} {name : Text}

theorem paramName?_eq_map (params : List Param) (position : Int) :
    paramName? params position = (params.reverse.find? fun p =>
      p.sequence = position ∧ ¬ p.name.isEmpty).map Param.name := by
  unfold paramName?
  split
  · next row hrow => rw [hrow, Option.map_some]
  · next hnone => rw [hnone, Option.map_none]

theorem paramName?_eq_some_iff :
    paramName? params position = some name ↔ NamedLast params position name := by
  rw [paramName?_eq_map, Option.map_eq_some_iff]
  constructor
  · rintro ⟨⟨sequence, name⟩, hrow, rfl⟩
    obtain ⟨hmatched, before, after, hsplit, hothers⟩ := find?_reverse_eq_some_iff.mp hrow
    obtain ⟨rfl, hnamed⟩ : sequence = position ∧ name ≠ [] := by simpa using hmatched
    exact ⟨hnamed, before, after, hsplit, by simpa using hothers⟩
  · rintro ⟨hnamed, before, after, hsplit, hothers⟩
    refine ⟨⟨position, name⟩, find?_reverse_eq_some_iff.mpr ?_, rfl⟩
    exact ⟨by simpa using hnamed, before, after, hsplit, by simpa using hothers⟩

theorem paramName?_eq_none_iff :
    paramName? params position = none ↔
      ∀ row ∈ params, row.sequence = position → row.name = [] := by
  rw [paramName?_eq_map, Option.map_eq_none_iff, List.find?_eq_none]
  simp

end MethodDef

namespace Store

open MethodDef (paramName? NamedLast Withdrawn)

variable {store : Store} {method : MethodDef}
  {signature : Signature.MethodText} {params : List Param} {position : Int} {name : Text}

/-- Of the rows for a position, the header looks at the last one only. -/
theorem headerName?_of_last {before after : List Param}
    (hsplit : params = before ++ ⟨position, name⟩ :: after)
    (hothers : ∀ other ∈ after, other.sequence ≠ position) :
    headerName? params position = if name.isEmpty then none else some name := by
  have hlast : params.reverse.find? (·.sequence = position) = some ⟨position, name⟩ :=
    find?_reverse_eq_some_iff.mpr ⟨by simp, before, after, hsplit, by simpa using hothers⟩
  rw [headerName?, hlast]

theorem headerName?_of_absent (habsent : ∀ row ∈ params, row.sequence ≠ position) :
    headerName? params position = none := by
  have hunfound : params.reverse.find? (·.sequence = position) = none := by
    simpa using habsent
  rw [headerName?, hunfound]

/-- A position has no row, or a last one. -/
theorem exists_last_row (params : List Param) (position : Int) :
    (∀ row ∈ params, row.sequence ≠ position) ∨
      ∃ before name after, params = before ++ ⟨position, name⟩ :: after ∧
        ∀ other ∈ after, other.sequence ≠ position := by
  cases hfound : params.reverse.find? (·.sequence = position) with
  | none => exact .inl (by simpa using hfound)
  | some row =>
    obtain ⟨hmatched, before, after, hsplit, hothers⟩ := find?_reverse_eq_some_iff.mp hfound
    obtain rfl : row.sequence = position := by simpa using hmatched
    exact .inr ⟨before, row.name, after, hsplit, by simpa using hothers⟩

theorem headerName?_of_withdrawn (hwithdrawn : Withdrawn params position) :
    headerName? params position = none ∧ ∃ name, paramName? params position = some name := by
  obtain ⟨before, after, hsplit, hothers, earlier, hmember, hposition, hnamed⟩ := hwithdrawn
  refine ⟨headerName?_of_last hsplit hothers, Option.ne_none_iff_exists'.mp fun hunnamed => ?_⟩
  have hinside : earlier ∈ params := hsplit ▸ List.mem_append_left _ hmember
  exact hnamed (MethodDef.paramName?_eq_none_iff.mp hunnamed earlier hinside hposition)

theorem headerName?_of_not_withdrawn (hkept : ¬ Withdrawn params position) :
    headerName? params position = paramName? params position := by
  rcases exists_last_row params position with habsent | ⟨before, name, after, hsplit, hothers⟩
  · have hunnamed : paramName? params position = none :=
      MethodDef.paramName?_eq_none_iff.mpr fun row hmember hsame =>
        absurd hsame (habsent row hmember)
    rw [headerName?_of_absent habsent, hunnamed]
  · rw [headerName?_of_last hsplit hothers]
    by_cases hempty : name = []
    · subst hempty
      -- no row before the last one has a name, or the last one would withdraw it
      have hunnamed : paramName? params position = none := by
        refine MethodDef.paramName?_eq_none_iff.mpr fun row hmember hsame => ?_
        by_contra hnamed
        rw [hsplit] at hmember
        rcases List.mem_append.mp hmember with hearly | hlate
        · exact hkept ⟨before, after, hsplit, hothers, row, hearly, hsame, hnamed⟩
        · rcases List.mem_cons.mp hlate with rfl | hlate
          · exact hnamed rfl
          · exact hothers row hlate hsame
      rw [hunnamed]
      rfl
    · have hchosen : NamedLast params position name :=
        ⟨hempty, before, after, hsplit, fun other hmember hsame =>
          absurd hsame (hothers other hmember)⟩
      rw [MethodDef.paramName?_eq_some_iff.mpr hchosen, if_neg (by simpa using hempty)]

theorem withdrawn_iff :
    Withdrawn params position ↔ headerName? params position ≠ paramName? params position := by
  refine ⟨fun hwithdrawn hsame => ?_, fun hdiffer => ?_⟩
  · obtain ⟨hunlisted, name, hnamed⟩ := headerName?_of_withdrawn hwithdrawn
    rw [hunlisted, hnamed] at hsame
    cases hsame
  · by_contra hkept
    exact hdiffer (headerName?_of_not_withdrawn hkept)

instance : Decidable (Withdrawn params position) :=
  decidable_of_iff _ withdrawn_iff.symm

/-! ### The three places -/

/-- What stands between the brackets of a header, for parameters of these types. -/
def headerParameters (params : List Param) (types : List Text) : List Text :=
  types.mapIdx fun i type => headerParameter params (i + 1) type

/-- A type with a name behind it, if there is one. -/
def withName (type : Text) : Option Text → Text
  | some name => type ++ lit " " ++ name
  | none => type

theorem withName_injective (type : Text) : Function.Injective (withName type) := by
  have hlonger : ∀ name, type ++ lit " " ++ name ≠ type := by
    intro name hsame
    have hlengths := congrArg List.length hsame
    have hblank : (lit " ").length = 1 := rfl
    rw [List.length_append, List.length_append, hblank] at hlengths
    omega
  intro first second hsame
  cases first with
  | none =>
    cases second with
    | none => rfl
    | some name => exact absurd hsame.symm (hlonger name)
  | some name =>
    cases second with
    | none => exact absurd hsame (hlonger name)
    | some other => rw [List.append_cancel_left hsame]

/-- The parameter with the index `i` in the three places, with this name or none:
without a name the report makes one from the position, the header shows the type
alone, and the key shows the type. -/
structure ShownAs (store : Store) (listing : ListingOptions) (method : MethodDef)
    (types : List Text) (i : Nat) (type : Text) (name? : Option Text) : Prop where
  reported : (reportedSignature (store.lister listing) method).2[i]? =
    some ⟨name?.getD (lit "param" ++ Text.ofNat (i + 1)), type⟩
  listed : (headerParameters method.params types)[i]? = some (withName type name?)
  keyed : (store.keyParameters method .names)[i]? = some (name?.getD type)

theorem headerParameters_getElem? (params : List Param) {types : List Text} {i : Nat}
    {type : Text} (hindex : types[i]? = some type) :
    (headerParameters params types)[i]? =
      some (withName type (headerName? params (i + 1))) := by
  rw [headerParameters, List.getElem?_mapIdx, hindex, Option.map_some, headerParameter]
  cases headerName? params (i + 1) with
  | none => rfl
  | some name => rfl

theorem reportedSignature_getElem? (listing : ListingOptions)
    (hfound : store.methodDefs.get? method.handle = some method)
    (hread : store.methodText method = .ok signature) {i : Nat} {type : Text}
    (hindex : signature.parameters[i]? = some type) :
    (reportedSignature (store.lister listing) method).2[i]? =
      some ⟨(paramName? method.params (i + 1)).getD (lit "param" ++ Text.ofNat (i + 1)), type⟩ := by
  have hshown : store.SignatureShown method (reportedSignature (store.lister listing) method).1
      (reportedSignature (store.lister listing) method).2 := signatureShown_of_get? hfound
  generalize (reportedSignature (store.lister listing) method).1 = result,
    (reportedSignature (store.lister listing) method).2 = parameters at hshown ⊢
  cases hshown with
  | undecoded hmalformed => cases hread.symm.trans hmalformed
  | decoded hread' =>
    cases hread.symm.trans hread'
    rw [List.getElem?_mapIdx, hindex, Option.map_some, reportedName]
    rw [show ((i + 1 : Nat) : Int) = (i : Int) + 1 from rfl]
    cases paramName? method.params (i + 1) with
    | none => rfl
    | some name => rfl

theorem keyParameters_getElem? (hread : store.methodText method = .ok signature) {i : Nat}
    {type : Text} (hindex : signature.parameters[i]? = some type) :
    (store.keyParameters method .names)[i]? =
      some ((paramName? method.params (i + 1)).getD type) := by
  obtain ⟨hinside, -⟩ := List.getElem?_eq_some_iff.mp hindex
  have hwithin : i < max signature.parameters.length (MethodDef.lastNamed method.params) :=
    Nat.lt_of_lt_of_le hinside (Nat.le_max_left ..)
  simp only [keyParameters, hread, List.getElem?_map, List.getElem?_range hwithin, Option.map_some]
  rw [show ((i + 1 : Nat) : Int) = (i : Int) + 1 from rfl]
  cases paramName? method.params (i + 1) with
  | none => simp [List.getD_eq_getElem?_getD, hindex]
  | some name => rfl

/-- The header writes its parameters with a comma between them. -/
theorem listingHeader_eq (hread : store.methodText method = .ok signature) :
    store.listingHeader method =
      lit ".method " ++ MethodDef.attributesText method.flags.value ++ lit " "
        ++ signature.result ++ lit " " ++ store.fullName method.owner ++ lit "::" ++ method.name
        ++ lit "(" ++ Text.join (lit ", ") (headerParameters method.params signature.parameters)
        ++ lit ")" := by
  rw [listingHeader, hread]
  rfl

/-- The key of a method lists `keyParameters`. -/
theorem parameters_of_methodEntity (hfound : store.methodDefs.get? method.handle = some method)
    {style : ParameterStyle} {entity : Entity}
    (hdescribed : store.methodEntity method.handle style = .ok entity) :
    ∃ owner, entity = .methodDefinition (.typeDefinition owner) method.name
      method.genericParameters.length (store.keyParameters method style)
      (MethodDef.attributesText method.flags.value) method.handle.token := by
  obtain ⟨row, hrow, hdescribed⟩ := Outcome.bind_eq_ok_iff.mp hdescribed
  rw [methodDef, hfound] at hrow
  cases hrow
  obtain ⟨owner, -, hdescribed⟩ := Outcome.bind_eq_ok_iff.mp hdescribed
  exact ⟨owner, (Except.ok.inj hdescribed).symm⟩

/-- Whatever the rows are, report and key show each parameter by the last row
that names it, and the header shows the same exactly when no later row without a
name withdraws it. -/
theorem parameter_shown_by_last_name (listing : ListingOptions)
    (hfound : store.methodDefs.get? method.handle = some method)
    (hread : store.methodText method = .ok signature) :
    (store.listingHeader method =
      lit ".method " ++ MethodDef.attributesText method.flags.value ++ lit " "
        ++ signature.result ++ lit " " ++ store.fullName method.owner ++ lit "::" ++ method.name
        ++ lit "(" ++ Text.join (lit ", ") (headerParameters method.params signature.parameters)
        ++ lit ")") ∧
    (∀ entity, store.methodEntity method.handle .names = .ok entity →
      ∃ owner, entity = .methodDefinition (.typeDefinition owner) method.name
        method.genericParameters.length (store.keyParameters method .names)
        (MethodDef.attributesText method.flags.value) method.handle.token) ∧
    ∀ (i : Nat) (type : Text), signature.parameters[i]? = some type →
      ∃ name?, (∀ name, name? = some name ↔ NamedLast method.params (i + 1) name) ∧
        (reportedSignature (store.lister listing) method).2[i]? =
          some ⟨name?.getD (lit "param" ++ Text.ofNat (i + 1)), type⟩ ∧
        (store.keyParameters method .names)[i]? = some (name?.getD type) ∧
        (store.ShownAs listing method signature.parameters i type name? ↔
          ¬ Withdrawn method.params (i + 1)) := by
  refine ⟨listingHeader_eq hread, fun _ => parameters_of_methodEntity hfound, ?_⟩
  intro i type hindex
  have hreported := reportedSignature_getElem? listing hfound hread hindex
  have hkeyed := keyParameters_getElem? hread hindex
  have hlisted := headerParameters_getElem? method.params hindex
  refine ⟨paramName? method.params (i + 1), fun _ => MethodDef.paramName?_eq_some_iff,
    hreported, hkeyed, ?_⟩
  rw [withdrawn_iff, not_not]
  constructor
  · intro hshown
    exact withName_injective type (Option.some.inj (hlisted.symm.trans hshown.listed))
  · intro hsame
    exact ⟨hreported, hsame ▸ hlisted, hkeyed⟩

/-- The second parameter is named twice and before the first, which is named
only at the second attempt; a row is for the result, and the third parameter has
no name. -/
def scrambledMethod : MethodDef :=
  { bareMethod 1 (lit "M") 0 with
    signature := [0x00, 0x03, 0x01, 0x08, 0x0E, 0x1C]
    params := [⟨2, lit "old"⟩, ⟨2, lit "b"⟩, ⟨0, lit "result"⟩, ⟨1, []⟩, ⟨1, lit "a"⟩, ⟨3, []⟩] }

def scrambledNames : Store :=
  typeWith [scrambledMethod] #[]

def scrambledTypes : List Text :=
  [lit "System.Int32", lit "System.String", lit "System.Object"]

theorem scrambledMethod_shown :
    scrambledNames.methodDefs.get? scrambledMethod.handle = some scrambledMethod ∧
    scrambledNames.methodText scrambledMethod = .ok ⟨0, 0, lit "System.Void", scrambledTypes⟩ ∧
    scrambledNames.ShownAs .plain scrambledMethod scrambledTypes 0 (lit "System.Int32")
      (some (lit "a")) ∧
    scrambledNames.ShownAs .plain scrambledMethod scrambledTypes 1 (lit "System.String")
      (some (lit "b")) ∧
    scrambledNames.ShownAs .plain scrambledMethod scrambledTypes 2 (lit "System.Object") none := by
  have hfound : scrambledNames.methodDefs.get? scrambledMethod.handle = some scrambledMethod := by
    decide +kernel
  have hread : scrambledNames.methodText scrambledMethod =
      .ok ⟨0, 0, lit "System.Void", scrambledTypes⟩ := by
    decide +kernel
  have heach := (parameter_shown_by_last_name .plain hfound hread).2.2
  have hshown : ∀ (i : Nat) (type : Text), scrambledTypes[i]? = some type →
      ¬ Withdrawn scrambledMethod.params (i + 1) →
      scrambledNames.ShownAs .plain scrambledMethod scrambledTypes i type
        (paramName? scrambledMethod.params (i + 1)) := by
    intro i type hindex hkept
    obtain ⟨name?, hnamed, -, -, hshown⟩ := heach i type hindex
    have hsame : name? = paramName? scrambledMethod.params (i + 1) := by
      ext name
      rw [MethodDef.paramName?_eq_some_iff]
      exact hnamed name
    exact hsame ▸ hshown.mpr hkept
  exact ⟨hfound, hread, hshown 0 _ rfl (by decide +kernel), hshown 1 _ rfl (by decide +kernel),
    hshown 2 _ rfl (by decide +kernel)⟩

/-- The parameter is named, and then a row without a name follows. -/
def withdrawnMethod : MethodDef :=
  { bareMethod 1 (lit "M") 0 with
    signature := [0x00, 0x01, 0x01, 0x08]
    params := [⟨1, lit "x"⟩, ⟨1, []⟩] }

def withdrawnName : Store :=
  typeWith [withdrawnMethod] #[]

/-- The key has the name and the header does not, so neither a name nor its
absence is what all three places show. -/
theorem withdrawnName_shown_apart :
    withdrawnName.methodDefs.get? withdrawnMethod.handle = some withdrawnMethod ∧
    withdrawnName.methodText withdrawnMethod =
      .ok ⟨0, 0, lit "System.Void", [lit "System.Int32"]⟩ ∧
    ¬ ∃ name?, withdrawnName.ShownAs .plain withdrawnMethod [lit "System.Int32"] 0
      (lit "System.Int32") name? := by
  refine ⟨by decide +kernel, by decide +kernel, ?_⟩
  rintro ⟨name?, hshown⟩
  have hkeyed : (withdrawnName.keyParameters withdrawnMethod .names)[0]? = some (lit "x") := by
    decide +kernel
  have hlisted : (headerParameters withdrawnMethod.params [lit "System.Int32"])[0]? =
      some (lit "System.Int32") := by
    decide +kernel
  have hkey := hkeyed.symm.trans hshown.keyed
  have hheader := hlisted.symm.trans hshown.listed
  cases name? with
  | none => exact absurd hkey (by decide +kernel)
  | some name =>
    cases hkey
    exact absurd hheader (by decide +kernel)

end Store
end CilAtlas
