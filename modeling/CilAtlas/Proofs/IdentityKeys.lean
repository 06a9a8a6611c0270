import CilAtlas.Calls.Target
import CilAtlas.Proofs.Numerals
import CilAtlas.Proofs.Outcomes
import CilAtlas.Proofs.StoreRows

/-!
# Identity keys are distinct

A key is put together from names that may hold any code point, without escapes,
in a different layout for each kind of row, so the parts of a key cannot be told
apart in general.  Its last eight code points can: every layout ends with the
token of its row.  Two texts that end with the tokens of different rows differ,
whatever stands before, and that is all that is used about the layouts here.
-/

namespace CilAtlas

namespace Handle

/-- Table and row number share no bit, so the token is their sum. -/
theorem Narrow.token_eq {h : Handle} (hnarrow : h.Narrow) :
    h.token = h.table * 0x1000000 + h.rid := by
  obtain ⟨table, rid⟩ := h
  obtain ⟨htableNonneg, -, hridNonneg, hridLt⟩ := hnarrow
  obtain ⟨t, rfl⟩ := Int.eq_ofNat_of_zero_le htableNonneg
  obtain ⟨r, rfl⟩ := Int.eq_ofNat_of_zero_le hridNonneg
  have hr : r < 2 ^ 24 := by
    simp only at hridLt
    omega
  have hor : 2 ^ 24 * t + r = 2 ^ 24 * t ||| r := Nat.two_pow_add_eq_or_of_lt hr t
  have hmul : t * 0x1000000 = 2 ^ 24 * t := by omega
  show Int.ofNat (t * 0x1000000 ||| r) = _
  rw [hmul, ← hor]
  simp only [Int.ofNat_eq_natCast]
  omega

theorem Narrow.token_nonneg {h : Handle} (hnarrow : h.Narrow) : 0 ≤ h.token := by
  rw [hnarrow.token_eq]
  have := hnarrow.table_nonneg
  have := hnarrow.rid_nonneg
  omega

theorem Narrow.token_lt {h : Handle} (hnarrow : h.Narrow) : h.token < 0x100000000 := by
  rw [hnarrow.token_eq]
  have := hnarrow.table_lt
  have := hnarrow.rid_lt
  omega

theorem Narrow.eq_of_token_eq {h₁ h₂ : Handle} (hnarrow₁ : h₁.Narrow) (hnarrow₂ : h₂.Narrow)
    (hsame : h₁.token = h₂.token) : h₁ = h₂ := by
  rw [hnarrow₁.token_eq, hnarrow₂.token_eq] at hsame
  obtain ⟨-, -, hridNonneg₁, hridLt₁⟩ := hnarrow₁
  obtain ⟨-, -, hridNonneg₂, hridLt₂⟩ := hnarrow₂
  obtain ⟨table₁, rid₁⟩ := h₁
  obtain ⟨table₂, rid₂⟩ := h₂
  simp only at hsame hridNonneg₁ hridLt₁ hridNonneg₂ hridLt₂
  have htable : @Eq Int table₁ table₂ := by omega
  have hrid : rid₁ = rid₂ := by omega
  rw [htable, hrid]

/-- The text ends with the token of the handle, written in eight digits. -/
structure Marks (h : Handle) (t : Text) : Prop where
  narrow : h.Narrow
  ends : ∃ front, t = front ++ Entity.tokenSuffix h.token

theorem Marks.ne_nil {h : Handle} {t : Text} (hmarks : h.Marks t) : t ≠ [] := by
  obtain ⟨front, rfl⟩ := hmarks.ends
  exact List.append_ne_nil_of_right_ne_nil front (List.cons_ne_nil _ _)

theorem Narrow.tokenText_eq {h : Handle} (hnarrow : h.Narrow) :
    tokenText h.token = lit "0x" ++ Text.hexNat 8 h.token.toNat := by
  obtain ⟨n, hn⟩ := Int.eq_ofNat_of_zero_le hnarrow.token_nonneg
  rw [hn]
  rfl

/-- A text ends with the token of one handle only: its last eight code points
are the digits of the token. -/
theorem Marks.unique {h₁ h₂ : Handle} {t : Text} (hmarks₁ : h₁.Marks t) (hmarks₂ : h₂.Marks t) :
    h₁ = h₂ := by
  obtain ⟨hnarrow₁, front₁, hends₁⟩ := hmarks₁
  obtain ⟨hnarrow₂, front₂, hends₂⟩ := hmarks₂
  have hsame := hends₁.symm.trans hends₂
  rw [Entity.tokenSuffix, Entity.tokenSuffix, hnarrow₁.tokenText_eq, hnarrow₂.tokenText_eq] at hsame
  simp only [← List.append_assoc] at hsame
  have hbound₁ := hnarrow₁.token_lt
  have hbound₂ := hnarrow₂.token_lt
  have hdigits₁ : (Text.hexNat 8 h₁.token.toNat).length = 8 := Text.length_hexNat_eight (by omega)
  have hdigits₂ : (Text.hexNat 8 h₂.token.toNat).length = 8 := Text.length_hexNat_eight (by omega)
  -- the numerals have one length, so they are compared alone, whatever stands before
  have hnumerals := (List.append_inj' hsame (hdigits₁.trans hdigits₂.symm)).2
  have hnumbers : h₁.token.toNat = h₂.token.toNat := Text.hexNat_inj hnumerals
  have hnonneg₁ := hnarrow₁.token_nonneg
  have hnonneg₂ := hnarrow₂.token_nonneg
  exact hnarrow₁.eq_of_token_eq hnarrow₂ (by omega)

end Handle

namespace Entity

/-- The token of the row that an entity was made from; a bare word has none. -/
def token? : Entity → Option Int
  | label _ => none
  | typeDefinition type => some type.self.token
  | typeReference _ _ token => some token
  | exportedType _ _ token => some token
  | typeSpecification _ token => some token
  | methodDefinition _ _ _ _ _ token => some token
  | memberReference _ _ _ token => some token
  | resolvedMethod method => some method.token

/-- Every layout ends with the token of its row. -/
theorem key_ends_of_token? {e : Entity} {token : Int} (h : e.token? = some token) :
    ∃ front, e.key = front ++ tokenSuffix token := by
  cases e with
  | label text => cases h
  | typeDefinition type =>
    cases h
    exact ⟨_, rfl⟩
  | typeReference nameSpace name token =>
    cases h
    exact ⟨_, rfl⟩
  | exportedType nameSpace name token =>
    cases h
    exact ⟨_, rfl⟩
  | typeSpecification text token =>
    cases h
    exact ⟨_, rfl⟩
  | methodDefinition owner name arity parameters attributes token =>
    cases h
    exact ⟨_, rfl⟩
  | memberReference parent name signature token =>
    cases h
    exact ⟨_, rfl⟩
  | resolvedMethod method =>
    cases h
    exact ⟨_, rfl⟩

theorem key_marks {e : Entity} {h : Handle} (hnarrow : h.Narrow)
    (htoken : e.token? = some h.token) :
    h.Marks e.key :=
  ⟨hnarrow, key_ends_of_token? htoken⟩

end Entity

namespace Store

variable {store : Store}

theorem declaringChain_of_get? {h : Handle} {row : TypeDef} (fuel : Nat)
    (hfound : store.typeDefs.get? h = some row) :
    ∃ outer, store.declaringChain (fuel + 1) [] h = row :: outer := by
  rw [declaringChain, if_neg List.not_mem_nil, hfound]
  cases houter : row.declaringType? with
  | none => exact ⟨[], by simp [houter]⟩
  | some outer => exact ⟨store.declaringChain fuel [h] outer, by simp [houter]⟩

theorem declaringChain_of_get?_none {h : Handle} (fuel : Nat)
    (hmissing : store.typeDefs.get? h = none) : store.declaringChain (fuel + 1) [] h = [] := by
  rw [declaringChain, if_neg List.not_mem_nil, hmissing]

/-- A type of the store is described, and its own level comes from its row. -/
theorem exists_typeEntity {h : Handle} {row : TypeDef}
    (hfound : store.typeDefs.get? h = some row) :
    ∃ type, store.typeEntity h = .ok type ∧ type.self = levelOf row := by
  obtain ⟨outer, hchain⟩ := declaringChain_of_get? store.typeDefs.size hfound
  exact ⟨⟨levelOf row, outer.map levelOf⟩, by rw [typeEntity, hchain], rfl⟩

theorem row_of_typeEntity {h : Handle} {type : TypeDefinition}
    (hdescribed : store.typeEntity h = .ok type) :
    ∃ row, store.typeDefs.get? h = some row ∧ type.self = levelOf row := by
  cases hfound : store.typeDefs.get? h with
  | none =>
    rw [typeEntity, declaringChain_of_get?_none store.typeDefs.size hfound] at hdescribed
    cases hdescribed
  | some row =>
    obtain ⟨type', hdescribed', hself⟩ := exists_typeEntity hfound
    have hsame : type' = type := Except.ok.inj (hdescribed'.symm.trans hdescribed)
    exact ⟨row, rfl, hsame ▸ hself⟩

theorem row_of_methodEntity {h : Handle} {style : ParameterStyle} {e : Entity}
    (hdescribed : store.methodEntity h style = .ok e) :
    (∃ method, store.methodDefs.get? h = some method) ∧ e.token? = some h.token := by
  obtain ⟨method, hfound, hdescribed⟩ := Outcome.bind_eq_ok_iff.mp hdescribed
  obtain ⟨owner, -, hdescribed⟩ := Outcome.bind_eq_ok_iff.mp hdescribed
  have hrow : store.methodDefs.get? h = some method := by
    unfold methodDef at hfound
    split at hfound
    · next row hrow =>
      rw [hrow, Except.ok.inj hfound]
    · cases hfound
  cases hdescribed
  exact ⟨⟨method, hrow⟩, rfl⟩

theorem row_of_memberEntity {h : Handle} {e : Entity} (hdescribed : store.memberEntity h = .ok e) :
    (∃ member, store.memberRefs.get? h = some member) ∧ e.token? = some h.token := by
  unfold memberEntity at hdescribed
  split at hdescribed
  · cases hdescribed
  · next member hfound =>
    obtain ⟨parent, -, hdescribed⟩ := Outcome.bind_eq_ok_iff.mp hdescribed
    cases hdescribed
    exact ⟨⟨member, hfound⟩, rfl⟩

section Rows

variable (hkeyed : store.Keyed) (hfit : store.RidsFit)
include hkeyed hfit

/-- The entity of a row carries the token of the row's handle. -/
theorem row_of_entityOf {h : Handle} {style : ParameterStyle} {e : Entity}
    (hdescribed : store.entityOf h style = .ok e) : h.Narrow ∧ e.token? = some h.token := by
  unfold entityOf at hdescribed
  split at hdescribed
  · obtain ⟨type, htype, rfl⟩ := Outcome.map_eq_ok_iff.mp hdescribed
    obtain ⟨row, hfound, hself⟩ := row_of_typeEntity htype
    have hown : row.handle = h := (hkeyed.typeDefs.of_get? hfound).1
    refine ⟨hkeyed.typeDefs.narrow hfit.typeDefs (by decide) hfound, ?_⟩
    rw [Entity.token?, hself, levelOf, hown]
  split at hdescribed
  · split at hdescribed
    · next row hfound =>
      cases hdescribed
      exact ⟨hkeyed.typeRefs.narrow hfit.typeRefs (by decide) hfound, rfl⟩
    · cases hdescribed
  split at hdescribed
  · split at hdescribed
    · next row hfound =>
      cases hdescribed
      exact ⟨hkeyed.exportedTypes.narrow hfit.exportedTypes (by decide) hfound, rfl⟩
    · cases hdescribed
  split at hdescribed
  · obtain ⟨⟨method, hfound⟩, htoken⟩ := row_of_methodEntity hdescribed
    exact ⟨hkeyed.methodDefs.narrow hfit.methodDefs (by decide) hfound, htoken⟩
  split at hdescribed
  · obtain ⟨⟨member, hfound⟩, htoken⟩ := row_of_memberEntity hdescribed
    exact ⟨hkeyed.memberRefs.narrow hfit.memberRefs (by decide) hfound, htoken⟩
  · cases hdescribed

/-- The key of a row ends with its token. -/
theorem keyOf_marks {h : Handle} {style : ParameterStyle} {key : Text}
    (hcomputed : store.keyOf h style = .ok key) : h.Marks key := by
  obtain ⟨e, hdescribed, rfl⟩ := Outcome.map_eq_ok_iff.mp hcomputed
  obtain ⟨hnarrow, htoken⟩ := row_of_entityOf hkeyed hfit hdescribed
  exact Entity.key_marks hnarrow htoken

/-- What a call sees of a handle carries the handle's token. -/
theorem row_of_resolveMethod {h : Handle} {instantiation : List Text} {method : ResolvedMethod}
    (hresolved : store.resolveMethod h instantiation = some method) :
    h.Narrow ∧ method.token = h.token := by
  unfold resolveMethod at hresolved
  split at hresolved
  · split at hresolved
    · next row hfound =>
      cases hresolved
      exact ⟨hkeyed.methodDefs.narrow hfit.methodDefs (by decide) hfound, rfl⟩
    · cases hresolved
  split at hresolved
  · split at hresolved
    · next member hfound =>
      refine ⟨hkeyed.memberRefs.narrow hfit.memberRefs (by decide) hfound, ?_⟩
      simp only [resolveMember] at hresolved
      split at hresolved
      · cases hresolved
      · cases hresolved
        rfl
    · cases hresolved
  · cases hresolved

/-- The name of a callee ends with its token, however the call names it. -/
theorem callSiteName_marks {h : Handle} {instantiation : List Text} {name : Text}
    (hcomputed : store.callSiteName h instantiation = .ok name) : h.Marks name := by
  -- a callee is shown resolved if it can be, and as a member reference otherwise
  unfold callSiteName at hcomputed
  split at hcomputed
  · next method hresolved =>
    cases hcomputed
    obtain ⟨hnarrow, htoken⟩ := row_of_resolveMethod hkeyed hfit hresolved
    exact Entity.key_marks (e := .resolvedMethod method) hnarrow (congrArg some htoken)
  · obtain ⟨e, hdescribed, rfl⟩ := Outcome.map_eq_ok_iff.mp hcomputed
    obtain ⟨⟨member, hfound⟩, htoken⟩ := row_of_memberEntity hdescribed
    exact Entity.key_marks (hkeyed.memberRefs.narrow hfit.memberRefs (by decide) hfound) htoken

end Rows

/-- The store has a row with the handle in one of the tables whose rows have
keys. -/
def HasKeyedRow (store : Store) (h : Handle) : Prop :=
  store.typeDefs.contains h ∨ store.typeRefs.contains h ∨ store.exportedTypes.contains h ∨
    store.methodDefs.contains h ∨ store.memberRefs.contains h

/-- The store has a method or a member reference with the handle. -/
def HasCallableRow (store : Store) (h : Handle) : Prop :=
  store.methodDefs.contains h ∨ store.memberRefs.contains h

section Owners

theorem exists_methodEntity_of_owner {h : Handle} {method : MethodDef} {owner : TypeDef}
    (hfound : store.methodDefs.get? h = some method)
    (howner : store.typeDefs.get? method.owner = some owner) (style : ParameterStyle) :
    ∃ e, store.methodEntity h style = .ok e := by
  obtain ⟨type, hdescribed, -⟩ := exists_typeEntity howner
  have hmethod : store.methodDef h = .ok method := by rw [methodDef, hfound]
  exact ⟨_, Outcome.bind_eq_ok_iff.mpr ⟨method, hmethod,
    Outcome.bind_eq_ok_iff.mpr ⟨type, hdescribed, rfl⟩⟩⟩

theorem exists_methodEntity (howners : store.OwnersDefined) {h : Handle} {method : MethodDef}
    (hfound : store.methodDefs.get? h = some method) (style : ParameterStyle) :
    ∃ e, store.methodEntity h style = .ok e := by
  obtain ⟨owner, howner⟩ := howners.of_get? hfound
  exact exists_methodEntity_of_owner hfound howner style

/-- A type reference is described even when its row is missing. -/
theorem exists_parentEntity_of_typeRef {parent : Handle}
    (htable : parent.table = TableNumber.typeRef) :
    ∃ e, store.parentEntity (some parent) = .ok e := by
  simp only [parentEntity, if_pos htable]
  split
  · exact ⟨_, rfl⟩
  · exact ⟨_, rfl⟩

/-- Only a method without owner keeps a parent from being described. -/
theorem exists_parentEntity (howners : store.OwnersDefined) (parent? : Option Handle) :
    ∃ e, store.parentEntity parent? = .ok e := by
  cases parent? with
  | none => exact ⟨_, rfl⟩
  | some parent =>
    by_cases href : parent.table = TableNumber.typeRef
    · exact exists_parentEntity_of_typeRef href
    simp only [parentEntity, if_neg href]
    split
    · next htype =>
      obtain ⟨row, hfound⟩ := (OrderedMap.contains_iff _ _).mp htype.2
      obtain ⟨type, hdescribed, -⟩ := exists_typeEntity hfound
      exact ⟨_, Outcome.map_eq_ok_iff.mpr ⟨type, hdescribed, rfl⟩⟩
    split
    · exact ⟨_, rfl⟩
    split
    · next hmethod =>
      obtain ⟨method, hfound⟩ := (OrderedMap.contains_iff _ _).mp hmethod.2
      exact exists_methodEntity howners hfound .names
    · exact ⟨_, rfl⟩

theorem exists_memberEntity_of_parent {h : Handle} {member : MemberRef}
    (hfound : store.memberRefs.get? h = some member)
    (haround : ∃ parent, store.parentEntity member.parent? = .ok parent) :
    ∃ e, store.memberEntity h = .ok e := by
  obtain ⟨parent, hdescribed⟩ := haround
  refine ⟨.memberReference parent member.name member.signature h.token, ?_⟩
  rw [memberEntity, hfound]
  exact Outcome.bind_eq_ok_iff.mpr ⟨parent, hdescribed, rfl⟩

theorem exists_memberEntity (howners : store.OwnersDefined) {h : Handle} {member : MemberRef}
    (hfound : store.memberRefs.get? h = some member) : ∃ e, store.memberEntity h = .ok e :=
  exists_memberEntity_of_parent hfound (exists_parentEntity howners member.parent?)

theorem exists_keyOf_typeDef (hkeyed : store.Keyed) {h : Handle} {row : TypeDef}
    (hfound : store.typeDefs.get? h = some row) (style : ParameterStyle) :
    ∃ key, store.keyOf h style = .ok key := by
  obtain ⟨-, htable⟩ := hkeyed.typeDefs.of_get? hfound
  obtain ⟨type, hdescribed, -⟩ := exists_typeEntity hfound
  refine ⟨_, Outcome.map_eq_ok_iff.mpr ⟨.typeDefinition type, ?_, rfl⟩⟩
  rw [entityOf, if_pos htable]
  exact Outcome.map_eq_ok_iff.mpr ⟨type, hdescribed, rfl⟩

theorem exists_keyOf_typeRef (hkeyed : store.Keyed) {h : Handle} {row : TypeRef}
    (hfound : store.typeRefs.get? h = some row) (style : ParameterStyle) :
    ∃ key, store.keyOf h style = .ok key := by
  obtain ⟨-, htable⟩ := hkeyed.typeRefs.of_get? hfound
  refine ⟨_, Outcome.map_eq_ok_iff.mpr ⟨.typeReference row.nameSpace row.name h.token, ?_, rfl⟩⟩
  rw [entityOf, htable, if_neg (by decide), if_pos rfl, hfound]

theorem exists_keyOf_exportedType (hkeyed : store.Keyed) {h : Handle} {row : ExportedType}
    (hfound : store.exportedTypes.get? h = some row) (style : ParameterStyle) :
    ∃ key, store.keyOf h style = .ok key := by
  obtain ⟨-, htable⟩ := hkeyed.exportedTypes.of_get? hfound
  refine ⟨_, Outcome.map_eq_ok_iff.mpr ⟨.exportedType row.nameSpace row.name h.token, ?_, rfl⟩⟩
  rw [entityOf, htable, if_neg (by decide), if_neg (by decide), if_pos rfl, hfound]

theorem keyOf_methodDef (hkeyed : store.Keyed) {h : Handle} {method : MethodDef}
    (hfound : store.methodDefs.get? h = some method) (style : ParameterStyle) :
    store.keyOf h style = (store.methodEntity h style).map Entity.key := by
  obtain ⟨-, htable⟩ := hkeyed.methodDefs.of_get? hfound
  rw [keyOf, entityOf, htable, if_neg (by decide), if_neg (by decide), if_neg (by decide),
    if_pos rfl]

theorem keyOf_of_table_memberRef {h : Handle} (htable : h.table = TableNumber.memberRef)
    (style : ParameterStyle) : store.keyOf h style = (store.memberEntity h).map Entity.key := by
  rw [keyOf, entityOf, htable, if_neg (by decide), if_neg (by decide), if_neg (by decide),
    if_neg (by decide), if_pos rfl]

theorem keyOf_memberRef (hkeyed : store.Keyed) {h : Handle} {member : MemberRef}
    (hfound : store.memberRefs.get? h = some member) (style : ParameterStyle) :
    store.keyOf h style = (store.memberEntity h).map Entity.key :=
  keyOf_of_table_memberRef (hkeyed.memberRefs.of_get? hfound).2 style

/-- Every row of the five tables has a key. -/
theorem exists_keyOf (hkeyed : store.Keyed) (howners : store.OwnersDefined) {h : Handle}
    (hpresent : store.HasKeyedRow h) (style : ParameterStyle) :
    ∃ key, store.keyOf h style = .ok key := by
  simp only [HasKeyedRow, OrderedMap.contains_iff] at hpresent
  rcases hpresent with ⟨row, hfound⟩ | ⟨row, hfound⟩ | ⟨row, hfound⟩ | ⟨method, hfound⟩ |
    ⟨member, hfound⟩
  · exact exists_keyOf_typeDef hkeyed hfound style
  · exact exists_keyOf_typeRef hkeyed hfound style
  · exact exists_keyOf_exportedType hkeyed hfound style
  · obtain ⟨e, hdescribed⟩ := exists_methodEntity howners hfound style
    rw [keyOf_methodDef hkeyed hfound]
    exact ⟨_, Outcome.map_eq_ok_iff.mpr ⟨e, hdescribed, rfl⟩⟩
  · obtain ⟨e, hdescribed⟩ := exists_memberEntity howners hfound
    rw [keyOf_memberRef hkeyed hfound]
    exact ⟨_, Outcome.map_eq_ok_iff.mpr ⟨e, hdescribed, rfl⟩⟩

/-- Every method and every member reference has a name at every call.  It is enough
that the methods are stored under their own handles. -/
theorem exists_callSiteName_of_methods (hmethods : store.MethodsKeyed)
    (howners : store.OwnersDefined) {h : Handle} (hpresent : store.HasCallableRow h)
    (instantiation : List Text) : ∃ name, store.callSiteName h instantiation = .ok name := by
  unfold callSiteName
  split
  · exact ⟨_, rfl⟩
  · next hunresolved =>
    simp only [HasCallableRow, OrderedMap.contains_iff] at hpresent
    rcases hpresent with ⟨method, hfound⟩ | ⟨member, hfound⟩
    · obtain ⟨-, htable⟩ := hmethods.of_get? hfound
      rw [resolveMethod, if_pos htable, hfound] at hunresolved
      cases hunresolved
    · obtain ⟨e, hdescribed⟩ := exists_memberEntity howners hfound
      exact ⟨_, Outcome.map_eq_ok_iff.mpr ⟨e, hdescribed, rfl⟩⟩

theorem exists_callSiteName (hkeyed : store.Keyed) (howners : store.OwnersDefined) {h : Handle}
    (hpresent : store.HasCallableRow h) (instantiation : List Text) :
    ∃ name, store.callSiteName h instantiation = .ok name :=
  exists_callSiteName_of_methods hkeyed.methodDefs howners hpresent instantiation

end Owners

/-- The keys and call-site names of different rows are different, whatever their
names and signatures hold.  They exist for all rows of a store whose methods
have their owners. -/
theorem keys_and_callSiteNames_distinct (hkeyed : store.Keyed) (hfit : store.RidsFit) :
    (∀ h₁ h₂ style₁ style₂ key₁ key₂, h₁ ≠ h₂ →
      store.keyOf h₁ style₁ = .ok key₁ → store.keyOf h₂ style₂ = .ok key₂ → key₁ ≠ key₂) ∧
    (∀ h₁ h₂ instantiation₁ instantiation₂ name₁ name₂, h₁ ≠ h₂ →
      store.callSiteName h₁ instantiation₁ = .ok name₁ →
      store.callSiteName h₂ instantiation₂ = .ok name₂ → name₁ ≠ name₂) ∧
    (∀ h₁ h₂ instantiation style name key, h₁ ≠ h₂ →
      store.callSiteName h₁ instantiation = .ok name →
      store.keyOf h₂ style = .ok key → name ≠ key) ∧
    (store.OwnersDefined →
      (∀ h style, store.HasKeyedRow h → ∃ key, store.keyOf h style = .ok key) ∧
      (∀ h instantiation, store.HasCallableRow h →
        ∃ name, store.callSiteName h instantiation = .ok name)) := by
  refine ⟨?_, ?_, ?_, ?_⟩
  · rintro h₁ h₂ style₁ style₂ key₁ key₂ hdifferent hcomputed₁ hcomputed₂ rfl
    exact hdifferent
      ((keyOf_marks hkeyed hfit hcomputed₁).unique (keyOf_marks hkeyed hfit hcomputed₂))
  · rintro h₁ h₂ instantiation₁ instantiation₂ name₁ name₂ hdifferent hcomputed₁ hcomputed₂ rfl
    exact hdifferent
      ((callSiteName_marks hkeyed hfit hcomputed₁).unique
        (callSiteName_marks hkeyed hfit hcomputed₂))
  · rintro h₁ h₂ instantiation style name key hdifferent hcomputed₁ hcomputed₂ rfl
    exact hdifferent
      ((callSiteName_marks hkeyed hfit hcomputed₁).unique (keyOf_marks hkeyed hfit hcomputed₂))
  · intro howners
    exact ⟨fun h style hpresent => exists_keyOf hkeyed howners hpresent style,
      fun h instantiation hpresent => exists_callSiteName hkeyed howners hpresent instantiation⟩

/-- Two member references without parent whose keys look alike: the name of the
first one ends like the key of the second. -/
def lookalikes : Store where
  typeDefs := OrderedMap.empty
  typeRefs := OrderedMap.empty
  exportedTypes := OrderedMap.empty
  methodDefs := OrderedMap.empty
  memberRefs := OrderedMap.ofList
    [(⟨TableNumber.memberRef, 1⟩, ⟨⟨TableNumber.memberRef, 1⟩, none, lit "M|0x0A000002", []⟩),
      (⟨TableNumber.memberRef, 2⟩, ⟨⟨TableNumber.memberRef, 2⟩, none, lit "M", []⟩)]
  methodSpecs := OrderedMap.empty
  typeSpecs := OrderedMap.empty
  image := ⟨#[]⟩
  userStrings := fun _ => .ok none
  facts := ⟨0, 0, 0, 0, 0⟩

theorem lookalikes_keyed : lookalikes.Keyed := by
  constructor <;> decide

theorem lookalikes_ridsFit : lookalikes.RidsFit := by
  constructor <;> decide

theorem lookalikes_named_apart :
    lookalikes.Keyed ∧ lookalikes.RidsFit ∧
      ∃ key name, lookalikes.keyOf ⟨TableNumber.memberRef, 1⟩ .names = .ok key ∧
        lookalikes.callSiteName ⟨TableNumber.memberRef, 2⟩ [] = .ok name ∧
        name = lit "Nil.M|0x0A000002" ∧ key = name ++ lit "|0x0A000001" ∧ name ≠ key :=
  ⟨lookalikes_keyed, lookalikes_ridsFit, _, _, rfl, rfl, by decide, by decide,
    (keys_and_callSiteNames_distinct lookalikes_keyed lookalikes_ridsFit).2.2.1
      ⟨TableNumber.memberRef, 2⟩ ⟨TableNumber.memberRef, 1⟩ [] .names _ _ (by decide) rfl rfl⟩

end Store
end CilAtlas
