import CilAtlas.Listing.Basic
import CilAtlas.Proofs.LiteralExtraction
import CilAtlas.Proofs.StoreRows

/-!
# What a listing writes besides literals

Listings write names as they are.  If no name of the store has a double quote,
then neither has anything that is put together from names, numerals and the fixed
words of the listing: full names of types, texts of signatures, methods as calls
see them, and the header.
-/

namespace CilAtlas

open Quoted

/-! ### Numerals -/

namespace Text

theorem mark_ne_digitSign (d : Nat) : mark ≠ digitSign d := by
  intro hsame
  have hvalue : 0x22 = (digitSign d).toNat := congrArg CodePoint.toNat hsame
  unfold digitSign at hvalue
  split at hvalue
  · change 0x22 = 0x30 + d % 10 at hvalue
    omega
  · change 0x22 = 0x41 + (d - 10) % 6 at hvalue
    omega

theorem unquoted_digitSigns (ds : List Nat) : Unquoted (ds.map digitSign) := by
  intro hinside
  obtain ⟨d, -, hsame⟩ := List.mem_map.mp hinside
  exact mark_ne_digitSign d hsame.symm

theorem unquoted_ofNat (n : Nat) : Unquoted (ofNat n) :=
  unquoted_digitSigns _

theorem unquoted_ofInt (n : Int) : Unquoted (ofInt n) := by
  cases n with
  | ofNat n => exact unquoted_ofNat n
  | negSucc n => exact unquoted_append_iff.mpr ⟨by decide, unquoted_ofNat _⟩

theorem unquoted_replicate {c : CodePoint} (hother : mark ≠ c) (count : Nat) :
    Unquoted (List.replicate count c) :=
  fun hinside => hother (List.eq_of_mem_replicate hinside)

theorem unquoted_zeroPad {t : Text} (width : Nat) (hunquoted : Unquoted t) :
    Unquoted (zeroPad width t) :=
  unquoted_append_iff.mpr ⟨unquoted_replicate (by decide) _, hunquoted⟩

theorem unquoted_hexInt (width : Nat) (n : Int) : Unquoted (hexInt width n) := by
  cases n with
  | ofNat n => exact unquoted_zeroPad _ (unquoted_digitSigns _)
  | negSucc n =>
    exact unquoted_append_iff.mpr ⟨by decide, unquoted_zeroPad _ (unquoted_digitSigns _)⟩

end Text

theorem Decimal.unquoted_magnitudeText (s : Scientific) :
    Unquoted (listing.magnitudeText s) := by
  -- the digits are those of a numeral, less the zeroes at its end
  have hdigits : Unquoted
      ((Text.ofNat s.significand).reverse.dropWhile (· = CodePoint.ofChar '0')).reverse := by
    refine (Text.unquoted_ofNat s.significand).of_subset ?_
    intro c hmember
    exact List.mem_reverse.mp ((List.dropWhile_sublist _).subset (List.mem_reverse.mp hmember))
  have htaken := fun n => hdigits.of_subset (List.take_subset n _)
  have hdropped := fun n => hdigits.of_subset (List.drop_subset n _)
  have hzeroes := Text.unquoted_replicate (c := CodePoint.ofChar '0') (by decide)
  unfold Layout.magnitudeText
  simp only
  split
  · split
    · exact unquoted_append_iff.mpr ⟨unquoted_append_iff.mpr ⟨by decide, hzeroes _⟩, hdigits⟩
    · split
      · exact unquoted_append_iff.mpr
          ⟨unquoted_append_iff.mpr ⟨hdigits, hzeroes _⟩, by decide⟩
      · exact unquoted_append_iff.mpr
          ⟨unquoted_append_iff.mpr ⟨htaken _, by decide⟩, hdropped _⟩
  · refine unquoted_append_iff.mpr ⟨unquoted_append_iff.mpr ⟨unquoted_append_iff.mpr
      ⟨unquoted_append_iff.mpr ⟨htaken _, ?_⟩, by decide⟩, ?_⟩,
      Text.unquoted_zeroPad _ (Text.unquoted_ofNat _)⟩
    · split
      · exact unquoted_nil
      · exact unquoted_append_iff.mpr ⟨by decide, hdropped _⟩
    · split
      · decide
      · decide

theorem Decimal.unquoted_text (x : Double) : Unquoted (listing.text x) := by
  have hsign : Unquoted (if x.isNegative then lit "-" else []) := by
    split
    · decide
    · exact unquoted_nil
  unfold Layout.text
  simp only
  split
  · decide
  · exact unquoted_append_iff.mpr ⟨hsign, by decide⟩
  · exact unquoted_append_iff.mpr ⟨unquoted_append_iff.mpr ⟨hsign, by decide⟩, by decide⟩
  · exact unquoted_append_iff.mpr ⟨hsign, unquoted_magnitudeText _⟩

/-! ### Handles -/

theorem Handle.unquoted_text (h : Handle) : Unquoted h.text :=
  unquoted_append_iff.mpr ⟨by decide, Text.unquoted_hexInt _ _⟩

theorem Handle.unquoted_tableName (h : Handle) : Unquoted h.tableName := by
  have hwords : ∀ entry ∈ TableNumber.names, Unquoted (lit entry.2) := by decide
  unfold Handle.tableName TableNumber.name
  split
  · next entry hfound => exact hwords entry (List.mem_of_find?_eq_some hfound)
  · exact unquoted_append_iff.mpr ⟨by decide, Text.unquoted_hexInt _ _⟩

/-! ### Signatures -/

namespace Signature

/-- Names without quotes for everything that a signature refers to. -/
structure Naming.Unquoted (names : Naming) : Prop where
  typeName : ∀ h, Quoted.Unquoted (names.typeName h)
  typeParameters : ∀ name ∈ names.typeParameters, Quoted.Unquoted name
  methodParameters : ∀ name ∈ names.methodParameters, Quoted.Unquoted name

theorem Primitive.unquoted_name (type : Primitive) : Unquoted type.name := by
  cases type <;> decide

theorem unquoted_variableText {names : List Text} (heach : ∀ name ∈ names, Unquoted name)
    (index : Nat) {mark : Text} (hunquoted : Unquoted mark) :
    Unquoted (variableText names index mark) := by
  unfold variableText
  split
  · next c name hfound => exact heach _ (List.mem_of_getElem? hfound)
  · exact unquoted_append_iff.mpr ⟨hunquoted, Text.unquoted_ofNat index⟩

theorem unquoted_commaList {parts : List Text} (heach : ∀ part ∈ parts, Unquoted part) :
    Unquoted (commaList parts) :=
  unquoted_join (by decide) heach

variable {names : Naming}

mutual

theorem Ty.unquoted_text (hunquoted : names.Unquoted) : (t : Ty) → Unquoted (t.text names)
  | .primitive type => type.unquoted_name
  | .named _ type => hunquoted.typeName type
  | .vector element => by
    rw [Ty.text]
    exact unquoted_append_iff.mpr ⟨element.unquoted_text hunquoted, by decide⟩
  | .pointer target => by
    rw [Ty.text]
    exact unquoted_append_iff.mpr ⟨target.unquoted_text hunquoted, by decide⟩
  | .byRef target => by
    rw [Ty.text]
    exact unquoted_append_iff.mpr ⟨target.unquoted_text hunquoted, by decide⟩
  | .pinned type => by
    rw [Ty.text]
    exact type.unquoted_text hunquoted
  | .typeVariable index => unquoted_variableText hunquoted.typeParameters index (by decide)
  | .methodVariable index => unquoted_variableText hunquoted.methodParameters index (by decide)
  | .genericInstance _ type arguments => by
    rw [Ty.text]
    have hinner := unquoted_commaList (unquoted_textList hunquoted arguments)
    simp only [unquoted_append_iff]
    exact ⟨⟨⟨hunquoted.typeName type, by decide⟩, hinner⟩, by decide⟩
  | .array element rank _ _ => by
    rw [Ty.text]
    have hcommas := Text.unquoted_replicate (c := CodePoint.ofChar ',') (by decide) (rank - 1)
    simp only [unquoted_append_iff]
    exact ⟨⟨⟨element.unquoted_text hunquoted, by decide⟩, hcommas⟩, by decide⟩
  | .function _ _ result parameters => by
    rw [Ty.text]
    have hinner := unquoted_commaList (unquoted_textList hunquoted parameters)
    simp only [unquoted_append_iff]
    exact ⟨⟨⟨⟨by decide, result.unquoted_text hunquoted⟩, by decide⟩, hinner⟩, by decide⟩
  | .modified _ _ type => by
    rw [Ty.text]
    exact type.unquoted_text hunquoted

theorem unquoted_textList (hunquoted : names.Unquoted) :
    (types : List Ty) → ∀ text ∈ textList names types, Unquoted text
  | [] => by
    intro text hmember
    rw [textList] at hmember
    cases hmember
  | type :: rest => by
    intro text hmember
    rw [textList] at hmember
    rcases List.mem_cons.mp hmember with rfl | hlater
    · exact type.unquoted_text hunquoted
    · exact unquoted_textList hunquoted rest text hlater

end

theorem unquoted_decodeType (hunquoted : names.Unquoted) {blob : List UInt8} {text : Text}
    (hread : names.decodeType blob = .ok text) : Unquoted text := by
  obtain ⟨type, -, rfl⟩ := Outcome.map_eq_ok_iff.mp hread
  exact type.unquoted_text hunquoted

theorem unquoted_decodeMethod (hunquoted : names.Unquoted) {blob : List UInt8}
    {signature : MethodText} (hread : names.decodeMethod blob = .ok signature) :
    Unquoted signature.result ∧ ∀ type ∈ signature.parameters, Unquoted type := by
  obtain ⟨shape, -, rfl⟩ := Outcome.map_eq_ok_iff.mp hread
  exact ⟨shape.result.unquoted_text hunquoted, unquoted_textList hunquoted shape.parameters⟩

theorem unquoted_decodeTypeInstance (hunquoted : names.Unquoted) {blob : List UInt8}
    {found : Handle × List Text} (hread : names.decodeTypeInstance blob = .ok found) :
    ∀ argument ∈ found.2, Unquoted argument := by
  obtain ⟨parts, -, rfl⟩ := Outcome.map_eq_ok_iff.mp hread
  exact unquoted_textList hunquoted parts.2

theorem unquoted_decodeMethodInstance (hunquoted : names.Unquoted) {blob : List UInt8}
    {arguments : List Text} (hread : names.decodeMethodInstance blob = .ok arguments) :
    ∀ argument ∈ arguments, Unquoted argument := by
  obtain ⟨types, -, rfl⟩ := Outcome.map_eq_ok_iff.mp hread
  exact unquoted_textList hunquoted types

end Signature

namespace Store

/-! ### Names of a store -/

/-- No name of a type or a method has a quote: neither the names of types,
namespaces, methods and references to methods, nor those of parameters and
generic parameters. -/
structure NamesUnquoted (store : Store) : Prop where
  typeDefs : ∀ row ∈ store.typeDefs.values, Unquoted row.nameSpace ∧ Unquoted row.name ∧
    ∀ name ∈ row.genericParameters, Unquoted name
  typeRefs : ∀ row ∈ store.typeRefs.values, Unquoted row.nameSpace ∧ Unquoted row.name
  methodDefs : ∀ row ∈ store.methodDefs.values, Unquoted row.name ∧
    (∀ param ∈ row.params, Unquoted param.name) ∧ ∀ name ∈ row.genericParameters, Unquoted name
  methodRefs : ∀ row ∈ store.memberRefs.values, Signature.isMethodBlob row.signature = true →
    Unquoted row.name

/-- No name of a reference to a field, or to another member that is no method, has
a quote. -/
def FieldsUnquoted (store : Store) : Prop :=
  ∀ row ∈ store.memberRefs.values, Signature.isMethodBlob row.signature = false →
    Unquoted row.name

instance (store : Store) : Decidable store.FieldsUnquoted :=
  inferInstanceAs (Decidable (∀ row ∈ store.memberRefs.values, _))

theorem unquoted_qualified {nameSpace name : Text} (houter : Unquoted nameSpace)
    (hinner : Unquoted name) : Unquoted (Entity.qualified nameSpace name) := by
  unfold Entity.qualified
  split
  · exact hinner
  · exact unquoted_append_iff.mpr ⟨unquoted_append_iff.mpr ⟨houter, by decide⟩, hinner⟩

theorem unquoted_nested {outer name : Text} (haround : Unquoted outer) (hinner : Unquoted name) :
    Unquoted (outer ++ lit "." ++ name) :=
  unquoted_append_iff.mpr ⟨unquoted_append_iff.mpr ⟨haround, by decide⟩, hinner⟩

namespace NamesUnquoted

variable {store : Store} (hnames : store.NamesUnquoted)

include hnames

theorem fullNameUpTo (depth : Nat) (h : Handle) : Unquoted (store.fullNameUpTo depth h) := by
  induction depth generalizing h with
  | zero => exact h.unquoted_tableName
  | succ depth ih =>
    rw [Store.fullNameUpTo]
    split
    · split
      · exact h.unquoted_tableName
      · next row hfound =>
        obtain ⟨hnameSpace, hname, -⟩ := hnames.typeDefs row (OrderedMap.mem_values_of_get? hfound)
        split
        · split
          · exact unquoted_nested (ih _) hname
          · exact unquoted_qualified hnameSpace hname
        · exact unquoted_qualified hnameSpace hname
    · split
      · split
        · exact h.unquoted_tableName
        · next row hfound =>
          obtain ⟨hnameSpace, hname⟩ := hnames.typeRefs row (OrderedMap.mem_values_of_get? hfound)
          split
          · split
            · exact unquoted_nested (ih _) hname
            · exact unquoted_qualified hnameSpace hname
          · exact unquoted_qualified hnameSpace hname
      · split
        · split
          · exact h.unquoted_tableName
          · next row hfound =>
            -- a type given by a signature is named by the names of one level less
            have hinner : Signature.Naming.Unquoted ⟨store.fullNameUpTo depth, [], []⟩ :=
              ⟨ih, by simp, by simp⟩
            simp only
            split
            · next text hread => exact Signature.unquoted_decodeType hinner hread
            · exact h.unquoted_tableName
        · exact h.unquoted_tableName

theorem fullName (h : Handle) : Unquoted (store.fullName h) :=
  hnames.fullNameUpTo _ h

theorem naming {typeParameters methodParameters : List Text}
    (htypeNames : ∀ name ∈ typeParameters, Unquoted name)
    (hmethodNames : ∀ name ∈ methodParameters, Unquoted name) :
    (store.naming typeParameters methodParameters).Unquoted :=
  ⟨hnames.fullName, htypeNames, hmethodNames⟩

theorem ownerParameters (method : MethodDef) :
    ∀ name ∈ store.ownerParameters method, Unquoted name := by
  unfold Store.ownerParameters
  split
  · next owner hfound => exact (hnames.typeDefs owner (OrderedMap.mem_values_of_get? hfound)).2.2
  · simp

end NamesUnquoted

/-! ### What calls see -/

theorem targetOf_instantiation {store : Store} {h : Handle} {instantiation : List Text}
    {target : CallTarget} (hfound : store.targetOf h instantiation = some target) :
    target.instantiation = instantiation := by
  unfold targetOf at hfound
  split at hfound
  · split at hfound
    · cases hfound
      rfl
    · cases hfound
  · split at hfound
    · cases hfound
      rfl
    · cases hfound

theorem unquoted_headerParameters {params : List Param}
    (heach : ∀ param ∈ params, Unquoted param.name) {types : List Text}
    (hunquoted : ∀ type ∈ types, Unquoted type) :
    Unquoted (Text.join (lit ", ")
      (types.mapIdx fun i type => headerParameter params (i + 1) type)) := by
  refine unquoted_join (by decide) ?_
  intro part hmember
  obtain ⟨i, hinside, rfl⟩ := List.mem_mapIdx.mp hmember
  have htype := hunquoted _ (List.getElem_mem hinside)
  unfold headerParameter headerName?
  split
  · next name hfound =>
    split at hfound
    · next param hparam =>
      split at hfound
      · cases hfound
      · cases hfound
        have hname := heach param (List.mem_reverse.mp (List.mem_of_find?_eq_some hparam))
        exact unquoted_append_iff.mpr ⟨unquoted_append_iff.mpr ⟨htype, by decide⟩, hname⟩
    · cases hfound
  · exact htype

theorem unquoted_attributesText (flags : Int) : Unquoted (MethodDef.attributesText flags) := by
  have hlevels : ∀ level ∈ MethodDef.accessWords, Unquoted (lit level) := by decide
  have hwords : ∀ entry ∈ MethodDef.flagWords, Unquoted (lit entry.2) := by decide
  refine unquoted_join (by decide) ?_
  intro part hmember
  rcases List.mem_cons.mp hmember with rfl | hlater
  · rw [List.getD_eq_getElem?_getD]
    cases hfound : MethodDef.accessWords[Bits.low 3 flags]? with
    | none => decide
    | some level => exact hlevels level (List.mem_of_getElem? hfound)
  · obtain ⟨entry, hentry, rfl⟩ := List.mem_map.mp hlater
    exact hwords entry (List.mem_filter.mp hentry).1

/-- The parts of a method that a listing shows. -/
structure ShownUnquoted (method : ResolvedMethod) : Prop where
  declaringType : Unquoted method.declaringType
  name : Unquoted method.name
  parameters : ∀ type ∈ method.parameters, Unquoted type

namespace NamesUnquoted

variable {store : Store} (hnames : store.NamesUnquoted)

include hnames

theorem memberRef (hfields : store.FieldsUnquoted) {h : Handle} {member : MemberRef}
    (hfound : store.memberRefs.get? h = some member) : Unquoted member.name := by
  cases hkind : Signature.isMethodBlob member.signature with
  | true => exact hnames.methodRefs member (OrderedMap.mem_values_of_get? hfound) hkind
  | false => exact hfields member (OrderedMap.mem_values_of_get? hfound) hkind

theorem callTarget {token : Int} {target : CallTarget}
    (hfound : store.callTarget token = some target) :
    ∀ argument ∈ target.instantiation, Unquoted argument := by
  simp only [Store.callTarget] at hfound
  split at hfound
  · split at hfound
    · cases hfound
    · split at hfound
      · cases hfound
      · rw [targetOf_instantiation hfound]
        split
        · next arguments hread =>
          exact Signature.unquoted_decodeMethodInstance (hnames.naming (by simp) (by simp)) hread
        · simp
  · rw [targetOf_instantiation hfound]
    simp

theorem instanceParts {h : Handle} {parts : Handle × List Text}
    (hfound : store.instanceParts h = some parts) : ∀ argument ∈ parts.2, Unquoted argument := by
  unfold Store.instanceParts at hfound
  split at hfound
  · cases hfound
  · next row _ =>
    cases hread : (store.naming [] []).decodeTypeInstance row.signature with
    | error fault =>
      rw [hread] at hfound
      cases hfound
    | ok parts' =>
      rw [hread] at hfound
      cases hfound
      exact Signature.unquoted_decodeTypeInstance (hnames.naming (by simp) (by simp)) hread

theorem resolveLocal {h : Handle} {method : MethodDef}
    (hfound : store.methodDefs.get? h = some method) {instantiation : List Text}
    (harguments : ∀ argument ∈ instantiation, Unquoted argument) :
    ShownUnquoted (store.resolveLocal h method instantiation) := by
  obtain ⟨hname, -, hgenerics⟩ := hnames.methodDefs method (OrderedMap.mem_values_of_get? hfound)
  refine ⟨hnames.fullName _, hname, ?_⟩
  have hown : ∀ name ∈ (if instantiation.isEmpty then method.genericParameters else instantiation),
      Unquoted name := by
    split
    · exact hgenerics
    · exact harguments
  simp only [Store.resolveLocal]
  split
  · next signature hread =>
    exact (Signature.unquoted_decodeMethod (hnames.naming (hnames.ownerParameters method) hown)
      hread).2
  · simp

theorem declaringTypeOf (parent? : Option Handle) :
    Unquoted (store.declaringTypeOf parent?).1 ∧
      ∀ argument ∈ (store.declaringTypeOf parent?).2, Unquoted argument := by
  unfold Store.declaringTypeOf
  split
  · exact ⟨by decide, by simp⟩
  · split
    · split
      · next generic arguments hfound => exact ⟨hnames.fullName _, hnames.instanceParts hfound⟩
      · exact ⟨hnames.fullName _, by simp⟩
    · split
      · split
        · exact ⟨hnames.fullName _, by simp⟩
        · exact ⟨hnames.fullName _, by simp⟩
      · exact ⟨hnames.fullName _, by simp⟩

theorem resolveMember {h : Handle} {member : MemberRef} (hname : Unquoted member.name)
    {instantiation : List Text} (harguments : ∀ argument ∈ instantiation, Unquoted argument)
    {method : ResolvedMethod}
    (hresolved : store.resolveMember h member instantiation = some method) :
    ShownUnquoted method := by
  obtain ⟨hdeclaring, htypeArguments⟩ := hnames.declaringTypeOf member.parent?
  simp only [Store.resolveMember] at hresolved
  split at hresolved
  · cases hresolved
  · next signature hread =>
    cases hresolved
    exact ⟨hdeclaring, hname,
      (Signature.unquoted_decodeMethod (hnames.naming htypeArguments harguments) hread).2⟩

theorem resolveMethod (hfields : store.FieldsUnquoted) {h : Handle} {instantiation : List Text}
    (harguments : ∀ argument ∈ instantiation, Unquoted argument) {method : ResolvedMethod}
    (hresolved : store.resolveMethod h instantiation = some method) : ShownUnquoted method := by
  unfold Store.resolveMethod at hresolved
  split at hresolved
  · split at hresolved
    · next row hfound =>
      cases hresolved
      exact hnames.resolveLocal hfound harguments
    · cases hresolved
  · split at hresolved
    · split at hresolved
      · next member hfound =>
        exact hnames.resolveMember (hnames.memberRef hfields hfound) harguments hresolved
      · cases hresolved
    · cases hresolved

/-! ### What listings write -/

theorem tokenText (hfields : store.FieldsUnquoted) (token : Int) :
    Unquoted (store.tokenText token) := by
  simp only [Store.tokenText]
  split
  · exact hnames.fullName _
  · split
    · split
      · next method hresolved =>
        obtain ⟨target, hcalled, hresolved⟩ := Option.bind_eq_some_iff.mp hresolved
        have hshown := hnames.resolveMethod hfields (hnames.callTarget hcalled) hresolved
        have hlist := Signature.unquoted_commaList hshown.parameters
        have hlist : Unquoted (Entity.parameterList method.parameters) :=
          unquoted_append_iff.mpr ⟨unquoted_append_iff.mpr ⟨by decide, hlist⟩, by decide⟩
        simp only [unquoted_append_iff, hshown.declaringType, hshown.name, hlist,
          and_true, true_and]
        decide
      · split
        · next parent name hfound =>
          obtain ⟨member, hmember, hshown⟩ := Option.bind_eq_some_iff.mp hfound
          obtain ⟨parent', -, hsame⟩ := Option.map_eq_some_iff.mp hshown
          cases hsame
          simp only [unquoted_append_iff]
          exact ⟨⟨hnames.fullName _, by decide⟩, hnames.memberRef hfields hmember⟩
        · exact Handle.unquoted_text _
    · exact Handle.unquoted_text _

theorem methodText (method : MethodDef)
    (hgenerics : ∀ name ∈ method.genericParameters, Unquoted name)
    {signature : Signature.MethodText} (hread : store.methodText method = .ok signature) :
    Unquoted signature.result ∧ ∀ type ∈ signature.parameters, Unquoted type :=
  Signature.unquoted_decodeMethod (hnames.naming (hnames.ownerParameters method) hgenerics) hread

theorem listingHeader {method : MethodDef} (hmember : method ∈ store.methodDefs.values) :
    Unquoted (store.listingHeader method) := by
  obtain ⟨hname, hparams, hgenerics⟩ := hnames.methodDefs method hmember
  have howner := hnames.fullName method.owner
  have hattributes := unquoted_attributesText method.flags.value
  unfold Store.listingHeader
  cases hread : store.methodText method with
  | error fault =>
    have htypes : ∀ type ∈ ([] : List Text), Unquoted type := by simp
    have hlist := unquoted_headerParameters hparams htypes
    simp only [unquoted_append_iff, hattributes, howner, hname, hlist, and_true]
    decide
  | ok signature =>
    obtain ⟨hresult, htypes⟩ := hnames.methodText method hgenerics hread
    have hlist := unquoted_headerParameters hparams htypes
    simp only [unquoted_append_iff, hattributes, hresult, howner, hname, hlist, and_true]
    decide

end NamesUnquoted

end Store

end CilAtlas
