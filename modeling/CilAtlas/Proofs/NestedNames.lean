import CilAtlas.Proofs.IdentityKeys
import CilAtlas.Proofs.SignatureText
import Mathlib.Data.List.Perm.Subperm

/-!
# The two names of a nested type

A type of the assembly has a name in its key, where the types around it stand in front of it
with plus signs between them, and a full name with dots in their place.  The first is made
from the list of those types, the second by following them down to a fixed depth, and only
the first notices when types declare each other in a circle.

Both come from one path: the types from the given one outward, up to one that declares
nothing in the store or that leads back into the path.  There is exactly one such path, and
it is never longer than the table of types.
-/

namespace CilAtlas
namespace Store

variable {store : Store} {met : List Handle} {next? : Option Handle}
  {path : List (Handle × TypeDef)}

/-! ### Paths of declaring types -/

/-- Each type on the path is the one named before it: the first one by `next?`, and any other
as the declaring type of its predecessor. -/
def Follows : (next? : Option Handle) → List (Handle × TypeDef) → Prop
  | _, [] => True
  | next?, entry :: rest => next? = some entry.1 ∧ Follows entry.2.declaringType? rest

/-- The handle that is named at the end of a path, where nothing follows any more. -/
def beyond : (next? : Option Handle) → List (Handle × TypeDef) → Option Handle
  | next?, [] => next?
  | _, entry :: rest => beyond entry.2.declaringType? rest

/-- A path through rows of the store that meets no handle twice, nor any of those in `met`,
and ends only where the next type was met already, or has no row. -/
structure Walk (store : Store) (met : List Handle) (next? : Option Handle)
    (path : List (Handle × TypeDef)) : Prop where
  follows : Follows next? path
  rows : ∀ entry ∈ path, store.typeDefs.get? entry.1 = some entry.2
  distinct : (met ++ path.map Prod.fst).Nodup
  ends : ∀ outer, beyond next? path = some outer →
    outer ∈ met ++ path.map Prod.fst ∨ store.typeDefs.get? outer = none

/-- The type with the given handle and the types around it, the nearest first, cut before
the first one that is missing or repeated. -/
abbrev DeclaringPath (store : Store) (h : Handle) (path : List (Handle × TypeDef)) : Prop :=
  store.Walk [] (some h) path

/-- The path ends because its last type is declared by a type on the path. -/
def LeadsBack (h : Handle) (path : List (Handle × TypeDef)) : Prop :=
  ∃ outer, beyond (some h) path = some outer ∧ outer ∈ path.map Prod.fst

theorem Walk.tail {entry : Handle × TypeDef} (hwalk : store.Walk met next? (entry :: path)) :
    store.Walk (entry.1 :: met) entry.2.declaringType? path where
  follows := hwalk.follows.2
  rows other hlisted := hwalk.rows other (List.mem_cons_of_mem _ hlisted)
  distinct := List.perm_middle.nodup_iff.mp hwalk.distinct
  ends outer hnamed := by
    refine (hwalk.ends outer hnamed).imp_left fun hlisted => ?_
    exact List.perm_middle.mem_iff.mp hlisted

theorem Walk.cons {h : Handle} {row : TypeDef} (hfound : store.typeDefs.get? h = some row)
    (hwalk : store.Walk (h :: met) row.declaringType? path) :
    store.Walk met (some h) ((h, row) :: path) where
  follows := ⟨rfl, hwalk.follows⟩
  rows := List.forall_mem_cons.mpr ⟨hfound, hwalk.rows⟩
  distinct := List.perm_middle.nodup_iff.mpr hwalk.distinct
  ends outer hnamed := by
    refine (hwalk.ends outer hnamed).imp_left fun hlisted => ?_
    exact List.perm_middle.mem_iff.mpr hlisted

/-- Where the next type was met, has no row or is not named, the walk is over. -/
theorem walk_nil (hnodup : met.Nodup)
    (hstuck : ∀ h, next? = some h → h ∈ met ∨ store.typeDefs.get? h = none) :
    store.Walk met next? [] where
  follows := trivial
  rows _ hlisted := absurd hlisted List.not_mem_nil
  distinct := by simpa using hnodup
  ends outer hnamed := by simpa using hstuck outer hnamed

theorem Walk.not_cons_of_nil {entry : Handle × TypeDef} (hfinished : store.Walk met next? [])
    (hwalk : store.Walk met next? (entry :: path)) : False := by
  rcases hfinished.ends entry.1 hwalk.follows.1 with hlisted | hmissing
  · rw [List.map_nil, List.append_nil] at hlisted
    exact (List.nodup_append.mp hwalk.distinct).2.2 entry.1 hlisted entry.1 (by simp) rfl
  · rw [hwalk.rows entry List.mem_cons_self] at hmissing
    cases hmissing

theorem Walk.unique {path' : List (Handle × TypeDef)} (hwalk : store.Walk met next? path)
    (hwalk' : store.Walk met next? path') : path = path' := by
  induction path generalizing met next? path' with
  | nil =>
    cases path' with
    | nil => rfl
    | cons entry' rest' => exact (hwalk.not_cons_of_nil hwalk').elim
  | cons entry rest ih =>
    cases path' with
    | nil => exact (hwalk'.not_cons_of_nil hwalk).elim
    | cons entry' rest' =>
      -- the name before it determines the handle of the first entry, and the handle its row
      have hsameHandle : entry.1 = entry'.1 :=
        Option.some.inj (hwalk.follows.1.symm.trans hwalk'.follows.1)
      have hsameRow : entry.2 = entry'.2 := by
        have hfound := hwalk.rows entry List.mem_cons_self
        have hfound' := hwalk'.rows entry' List.mem_cons_self
        rw [hsameHandle, hfound'] at hfound
        exact (Option.some.inj hfound).symm
      obtain rfl : entry = entry' := Prod.ext hsameHandle hsameRow
      rw [ih hwalk.tail hwalk'.tail]

theorem size_eq_length_keys (rows : OrderedMap Handle TypeDef) : rows.size = rows.keys.length :=
  (List.length_map _).symm

theorem length_le_size_of_nodup {handles : List Handle} (hnodup : handles.Nodup)
    (hlisted : ∀ h ∈ handles, h ∈ store.typeDefs.keys) : handles.length ≤ store.typeDefs.size := by
  rw [size_eq_length_keys]
  exact (List.subperm_of_subset hnodup hlisted).length_le

/-- The rows that are collected outward are those of a walk, as long as the types met and
the types still to be read off make more than the store has. -/
theorem exists_walk (fuel : Nat) (h : Handle) (henough : store.typeDefs.size < fuel + met.length)
    (hnodup : met.Nodup) (hlisted : ∀ h ∈ met, h ∈ store.typeDefs.keys) :
    ∃ path, store.Walk met (some h) path ∧
      store.declaringChain fuel met h = path.map Prod.snd := by
  induction fuel generalizing met h with
  | zero =>
    have := length_le_size_of_nodup hnodup hlisted
    omega
  | succ fuel ih =>
    rw [declaringChain]
    by_cases hrepeated : h ∈ met
    · rw [if_pos hrepeated]
      refine ⟨[], walk_nil hnodup ?_, rfl⟩
      rintro _ ⟨⟩
      exact .inl hrepeated
    · rw [if_neg hrepeated]
      cases hfound : store.typeDefs.get? h with
      | none =>
        refine ⟨[], walk_nil hnodup ?_, rfl⟩
        rintro _ ⟨⟩
        exact .inr hfound
      | some row =>
        have hnodup' : (h :: met).Nodup := List.nodup_cons.mpr ⟨hrepeated, hnodup⟩
        cases hdeclared : row.declaringType? with
        | none =>
          have hfinished : store.Walk (h :: met) row.declaringType? [] := by
            refine walk_nil hnodup' fun outer hnamed => ?_
            cases hdeclared.symm.trans hnamed
          exact ⟨_, .cons hfound hfinished, by simp [hdeclared]⟩
        | some outer =>
          have hlisted' : ∀ k ∈ h :: met, k ∈ store.typeDefs.keys :=
            List.forall_mem_cons.mpr ⟨OrderedMap.get?_mem_keys hfound, hlisted⟩
          obtain ⟨path, hwalk, hrows⟩ :=
            ih outer (by rw [List.length_cons]; omega) hnodup' hlisted'
          rw [← hdeclared] at hwalk
          exact ⟨_, .cons hfound hwalk, by simp [hdeclared, hrows]⟩

/-- Every handle has one path, and the description of its type is made of the path's rows. -/
theorem exists_declaringPath (store : Store) (h : Handle) :
    ∃ path, (∀ other, store.DeclaringPath h other ↔ other = path) ∧
      store.declaringChain (store.typeDefs.size + 1) [] h = path.map Prod.snd := by
  obtain ⟨path, hwalk, hrows⟩ :=
    exists_walk (store.typeDefs.size + 1) h (Nat.lt_succ_self _) List.nodup_nil
      (fun _ hlisted => absurd hlisted List.not_mem_nil)
  refine ⟨path, fun other => ⟨fun hwalk' => hwalk'.unique hwalk, ?_⟩, hrows⟩
  rintro rfl
  exact hwalk

/-! ### Names along a path -/

/-- The names of the rows, outermost first, inside the namespace of the outermost. -/
def nestedName (separator : Text) (rows : List TypeDef) : Text :=
  Entity.qualified ((rows.getLast?.map TypeDef.nameSpace).getD [])
    (List.intercalate separator (rows.map TypeDef.name).reverse)

theorem qualified_append (nameSpace name more : Text) :
    Entity.qualified nameSpace (name ++ more) = Entity.qualified nameSpace name ++ more := by
  unfold Entity.qualified
  split
  · rfl
  · rw [List.append_assoc, List.append_assoc, List.append_assoc]

theorem intercalate_concat (separator : Text) {parts : List Text} (hnonempty : parts ≠ [])
    (part : Text) :
    List.intercalate separator (parts ++ [part]) =
      List.intercalate separator parts ++ (separator ++ part) := by
  induction parts with
  | nil => exact absurd rfl hnonempty
  | cons first rest ih =>
    cases rest with
    | nil => simp [List.intercalate]
    | cons second later =>
      have htail := ih (by simp)
      simp only [List.intercalate, List.cons_append, List.intersperse_cons_cons,
        List.flatten_cons] at htail ⊢
      rw [htail, List.append_assoc, List.append_assoc]

/-- A type inside another has the name of that one in front of its own. -/
theorem nestedName_cons (separator : Text) (row : TypeDef) {rows : List TypeDef}
    (hnonempty : rows ≠ []) :
    nestedName separator (row :: rows) =
      nestedName separator rows ++ (separator ++ row.name) := by
  have hlast : (row :: rows).getLast? = rows.getLast? := by
    cases rows with
    | nil => exact absurd rfl hnonempty
    | cons second later => rfl
  rw [nestedName, hlast, List.map_cons, List.reverse_cons,
    intercalate_concat separator (by simpa using hnonempty), qualified_append]
  rfl

theorem nestedName_singleton (separator : Text) (row : TypeDef) :
    nestedName separator [row] = Entity.qualified row.nameSpace row.name := by
  simp [nestedName, List.intercalate]

/-- In a key, a nested name is made from the levels of a type. -/
theorem nestedName_of_levels (row : TypeDef) (rows : List TypeDef) :
    TypeDefinition.nestedName ⟨levelOf row, rows.map levelOf⟩ =
      nestedName (lit "+") ((row :: rows).take Entity.maxNesting) := by
  have hlevels : TypeDefinition.levels ⟨levelOf row, rows.map levelOf⟩ =
      ((row :: rows).take Entity.maxNesting).map levelOf := by
    rw [TypeDefinition.levels, List.map_take, List.map_cons]
  have houtermost : (TypeDefinition.outermost ⟨levelOf row, rows.map levelOf⟩).nameSpace =
      (((row :: rows).take Entity.maxNesting).getLast?.map TypeDef.nameSpace).getD [] := by
    rw [TypeDefinition.outermost, hlevels, List.getLastD_eq_getLast?, List.getLast?_map]
    cases hlast : ((row :: rows).take Entity.maxNesting).getLast? with
    | none =>
      rw [List.getLast?_eq_none_iff] at hlast
      cases hlast
    | some outer => rfl
  rw [TypeDefinition.nestedName, houtermost, hlevels, Signature.join_eq_intercalate, nestedName,
    List.map_map]
  rfl

theorem fullNameUpTo_outermost {h : Handle} {row : TypeDef} (depth : Nat)
    (htable : h.table = TableNumber.typeDef) (hfound : store.typeDefs.get? h = some row)
    (houtermost : ∀ outer, row.declaringType? = some outer → store.typeDefs.get? outer = none) :
    store.fullNameUpTo (depth + 1) h = Entity.qualified row.nameSpace row.name := by
  rw [fullNameUpTo, if_pos htable, hfound]
  cases hdeclared : row.declaringType? with
  | none => simp [hdeclared]
  | some outer => simp [hdeclared, OrderedMap.contains, houtermost outer hdeclared]

theorem fullNameUpTo_nested {h outer : Handle} {row outerRow : TypeDef} (depth : Nat)
    (htable : h.table = TableNumber.typeDef) (hfound : store.typeDefs.get? h = some row)
    (hdeclared : row.declaringType? = some outer)
    (houterFound : store.typeDefs.get? outer = some outerRow) :
    store.fullNameUpTo (depth + 1) h =
      store.fullNameUpTo depth outer ++ (lit "." ++ row.name) := by
  rw [fullNameUpTo, if_pos htable, hfound]
  simp [hdeclared, OrderedMap.contains, houterFound]

/-- A full name is that of the path, when the path ends at a type that no type of the store
declares and is no longer than names are followed. -/
theorem fullNameUpTo_of_walk {h : Handle} {row : TypeDef} {depth : Nat}
    (hwalk : store.Walk met (some h) ((h, row) :: path)) (hwithin : path.length < depth)
    (htables : ∀ entry ∈ (h, row) :: path, entry.1.table = TableNumber.typeDef)
    (houtermost : ∀ outer, beyond (some h) ((h, row) :: path) = some outer →
      store.typeDefs.get? outer = none) :
    store.fullNameUpTo depth h = nestedName (lit ".") (row :: path.map Prod.snd) := by
  induction path generalizing met h row depth with
  | nil =>
    obtain ⟨depth, rfl⟩ := Nat.exists_eq_succ_of_ne_zero (Nat.ne_of_gt hwithin)
    obtain ⟨htable, -⟩ := List.forall_mem_cons.mp htables
    obtain ⟨hfound, -⟩ := List.forall_mem_cons.mp hwalk.rows
    rw [fullNameUpTo_outermost depth htable hfound houtermost, List.map_nil, nestedName_singleton]
  | cons entry rest ih =>
    obtain ⟨outer, outerRow⟩ := entry
    obtain ⟨depth, rfl⟩ := Nat.exists_eq_succ_of_ne_zero (Nat.ne_of_gt (Nat.zero_lt_of_lt hwithin))
    obtain ⟨htable, houterTables⟩ := List.forall_mem_cons.mp htables
    obtain ⟨hfound, houterRows⟩ := List.forall_mem_cons.mp hwalk.rows
    have hdeclared : row.declaringType? = some outer := hwalk.tail.follows.1
    have houterWalk : store.Walk (h :: met) (some outer) ((outer, outerRow) :: rest) :=
      hdeclared ▸ hwalk.tail
    rw [fullNameUpTo_nested depth htable hfound hdeclared (houterRows _ List.mem_cons_self),
      ih houterWalk (Nat.lt_of_succ_lt_succ hwithin) houterTables houtermost, List.map_cons,
      nestedName_cons _ row (by simp)]

/-! ### The two names -/

/-- The key of a type is that of its path, cut to the length that keys look at. -/
theorem key_of_path (row : TypeDef) (rows : List TypeDef) :
    TypeDefinition.key ⟨levelOf row, rows.map levelOf⟩ =
      nestedName (lit "+") ((row :: rows).take Entity.maxNesting) ++ lit "`" ++
        Text.ofInt row.genericParameters.length ++ lit "|" ++
        Handle.tokenText row.handle.token := by
  rw [TypeDefinition.key, nestedName_of_levels, Entity.tokenSuffix, ← List.append_assoc]
  rfl

/-- A type with the given row is described by the rows on its path.  Its key has their names,
64 at most, inside the namespace of the last one that it has, and its own arity and token.
Its full name has the same names with dots between them, unless the path leads back into
itself, is longer, or leaves the table of types. -/
structure NamedAlong (store : Store) (h : Handle) (row : TypeDef)
    (path : List (Handle × TypeDef)) (type : TypeDefinition) : Prop where
  described : store.typeEntity h = .ok type
  levels_eq : type.self :: type.enclosing = path.map fun entry => levelOf entry.2
  key_eq : type.key = nestedName (lit "+") ((path.map Prod.snd).take 64) ++ lit "`" ++
    Text.ofInt row.genericParameters.length ++ lit "|" ++ Handle.tokenText row.handle.token
  fullName_eq : ¬ LeadsBack h path → path.length ≤ 64 →
    (∀ entry ∈ path, entry.1.table = TableNumber.typeDef) →
    store.fullName h = nestedName (lit ".") (path.map Prod.snd)

theorem DeclaringPath.length_le {h : Handle} (hwalk : store.DeclaringPath h path) :
    path.length ≤ store.typeDefs.size := by
  rw [← List.length_map Prod.fst]
  refine length_le_size_of_nodup hwalk.distinct ?_
  intro outer hlisted
  obtain ⟨entry, honPath, rfl⟩ := List.mem_map.mp hlisted
  exact OrderedMap.get?_mem_keys (hwalk.rows entry honPath)

theorem DeclaringPath.exists_cons {h : Handle} {row : TypeDef}
    (hwalk : store.DeclaringPath h path) (hfound : store.typeDefs.get? h = some row) :
    ∃ rest, path = (h, row) :: rest := by
  cases path with
  | nil =>
    rcases hwalk.ends h rfl with hlisted | hmissing
    · cases hlisted
    · rw [hfound] at hmissing
      cases hmissing
  | cons entry rest =>
    obtain ⟨h', row'⟩ := entry
    obtain rfl : h = h' := Option.some.inj hwalk.follows.1
    have hfound' : store.typeDefs.get? h = some row' := hwalk.rows _ List.mem_cons_self
    exact ⟨rest, by rw [Option.some.inj (hfound.symm.trans hfound')]⟩

theorem DeclaringPath.namedAlong {h : Handle} {row : TypeDef} (hwalk : store.DeclaringPath h path)
    (hchain : store.declaringChain (store.typeDefs.size + 1) [] h = path.map Prod.snd)
    (hfound : store.typeDefs.get? h = some row) : ∃ type, store.NamedAlong h row path type := by
  obtain ⟨rest, rfl⟩ := hwalk.exists_cons hfound
  refine ⟨⟨levelOf row, (rest.map Prod.snd).map levelOf⟩, ?_, ?_, ?_, ?_⟩
  · rw [typeEntity, hchain]
    rfl
  · rw [List.map_map]
    rfl
  · exact key_of_path row (rest.map Prod.snd)
  · intro honward hwithin htables
    refine fullNameUpTo_of_walk hwalk (Nat.lt_succ_of_lt (Nat.lt_of_succ_le hwithin)) htables ?_
    -- the path ends at a type that was met, which would lead back, or at one that is missing
    intro outer hnamed
    refine (hwalk.ends outer hnamed).resolve_left fun hlisted => ?_
    exact honward ⟨outer, hnamed, hlisted⟩

/-- Every handle has one path of declaring types, also where types declare each other in a
circle, and a type is described and named along it.  Its token is that of its row; in a
store whose types are filed under their own handles this is the token of the handle, and no
path leaves the table of types. -/
theorem types_named_along_declaringPath (store : Store) (h : Handle) :
    ∃ path, (∀ other, store.DeclaringPath h other ↔ other = path) ∧
      path.length ≤ store.typeDefs.size ∧
      (store.typeDefs.get? h = none → store.typeEntity h = .error (.noTypeDef h)) ∧
      (∀ row, store.typeDefs.get? h = some row → ∃ type, store.NamedAlong h row path type) ∧
      (store.typeDefs.KeyedBy TableNumber.typeDef TypeDef.handle →
        ∀ entry ∈ path, entry.2.handle = entry.1 ∧ entry.1.table = TableNumber.typeDef) := by
  obtain ⟨path, hunique, hchain⟩ := exists_declaringPath store h
  have hwalk : store.DeclaringPath h path := (hunique path).mpr rfl
  refine ⟨path, hunique, hwalk.length_le, ?_, fun row hfound => hwalk.namedAlong hchain hfound, ?_⟩
  · intro hmissing
    rw [typeEntity, declaringChain_of_get?_none _ hmissing]
  · intro hkeyed entry honPath
    exact hkeyed.of_get? (hwalk.rows entry honPath)

end Store
end CilAtlas
