import CilAtlas.Proofs.GraphDrawing

/-!
# What a report document says

A report document need not come from an analysis.  Its entries may stand in any order,
share a name, have an empty name or none, and call what is listed later or nowhere.
Read off without a graph, it says which methods have names and which addresses they
have, and which calls stand between names.  The entries that a graph is drawn from say
the same, for every document whose lists are lists of objects.

Names are compared as node names show them; a text shows itself, and two values that
show the same text are one name.
-/

namespace CilAtlas
namespace Json

/-! ### What a document says -/

/-- An object in which the field of the given name, when it is there, lists such items. -/
def Lists (name : String) (item : Json → Prop) (document : Json) : Prop :=
  ∃ fields, document = object fields ∧
    ∀ value, lookup? (lit name) fields = some value →
      ∃ items, value = list items ∧ ∀ part ∈ items, item part

/-- Any object. -/
def IsObject (document : Json) : Prop :=
  ∃ fields, document = object fields

theorem lists_object_iff (name : String) (item : Json → Prop) (fields : List (Text × Json)) :
    (object fields).Lists name item ↔ ∀ value, lookup? (lit name) fields = some value →
      ∃ items, value = list items ∧ ∀ part ∈ items, item part := by
  simp [Lists]

instance (name : String) (item : Json → Prop) [DecidablePred item] :
    DecidablePred (Lists name item)
  | object fields =>
    match hfound : lookup? (lit name) fields with
    | some (list items) =>
      decidable_of_iff (∀ part ∈ items, item part) (by simp [lists_object_iff, hfound])
    | some null | some (bool _) | some (int _) | some (real _) | some (text _)
    | some (object _) => isFalse (by simp [lists_object_iff, hfound])
    | none => isTrue (by simp [lists_object_iff, hfound])
  | null | bool _ | int _ | real _ | text _ | list _ => isFalse (by simp [Lists])

instance : DecidablePred IsObject
  | object fields => isTrue ⟨fields, rfl⟩
  | null | bool _ | int _ | real _ | text _ | list _ => isFalse (by simp [IsObject])

/-- A list of types with lists of methods with lists of calls.  Any of the lists may be
missing, and nothing is said about names. -/
def IsReport (document : Json) : Prop :=
  document.Lists "types" (Lists "methods" (Lists "called_methods" IsObject))

instance : DecidablePred IsReport :=
  inferInstanceAs (DecidablePred (Lists "types" _))

/-- The items of a listed field. -/
def itemsOf (document : Json) (name : String) : List Json :=
  match document.field? (lit name) with
  | some (list items) => items
  | _ => []

/-- The value that an entry gives as its name. -/
def nameField (entry : Json) : Json :=
  (entry.field? (lit "name")).getD null

/-- The name of an entry as node names show it; an empty name is none. -/
def name? (entry : Json) : Option Text :=
  if entry.nameField.isPresent then some entry.nameField.display else none

/-- The method entries of a document in order, with and without names. -/
def methodItems (document : Json) : List Json :=
  (document.itemsOf "types").flatMap (·.itemsOf "methods")

end Json

/-- A method that a document lists under a name. -/
structure NamedMethod where
  name : Text
  address : Json

/-- A call that a document lists for a named method. -/
structure NamedCall where
  caller : Text
  callee : Text
  address : Json

namespace Json

/-- What a method entry says, when it has a name. -/
def namedMethod? (method : Json) : Option NamedMethod :=
  method.name?.map fun name => ⟨name, (method.field? (lit "rva")).getD (int 0)⟩

/-- The named methods of a document in order. -/
def namedMethods (document : Json) : List NamedMethod :=
  document.methodItems.filterMap namedMethod?

/-- What a call entry of a caller says, when it has a name. -/
def namedCall? (caller : Text) (call : Json) : Option NamedCall :=
  call.name?.map fun callee => ⟨caller, callee, (call.field? (lit "address")).getD (int 0)⟩

/-- The calls of a method entry; without a name it has none. -/
def callsFrom (method : Json) : List NamedCall :=
  match method.name? with
  | some caller => (method.itemsOf "called_methods").filterMap (namedCall? caller)
  | none => []

/-- The calls of the named methods of a document in order. -/
def namedCalls (document : Json) : List NamedCall :=
  document.methodItems.flatMap callsFrom

/-- Some entry of the caller lists the callee. -/
def ListsCall (document : Json) (caller callee : Text) : Prop :=
  ∃ method ∈ document.methodItems, method.name? = some caller ∧
    ∃ call ∈ method.itemsOf "called_methods", call.name? = some callee

/-- The names of the listed methods, with repetitions. -/
def methodNames (document : Json) : List Text :=
  document.namedMethods.map (·.name)

/-- The names of what the listed methods call, with repetitions. -/
def calleeNames (document : Json) : List Text :=
  document.namedCalls.map (·.callee)

/-- The last method that is listed under a name. -/
def lastMethod? (document : Json) (name : Text) : Option NamedMethod :=
  document.namedMethods.reverse.find? (·.name = name)

/-- The first call of a name. -/
def firstCall? (document : Json) (name : Text) : Option NamedCall :=
  document.namedCalls.find? (·.callee = name)

theorem mem_callsFrom_iff {method : Json} {call : NamedCall} :
    call ∈ callsFrom method ↔ method.name? = some call.caller ∧
      ∃ entry ∈ method.itemsOf "called_methods", namedCall? call.caller entry = some call := by
  unfold callsFrom
  split
  · next caller hnamed =>
    simp only [List.mem_filterMap, hnamed, Option.some.injEq]
    constructor
    · rintro ⟨entry, hmember, hshown⟩
      obtain ⟨callee, -, rfl⟩ := Option.map_eq_some_iff.mp hshown
      exact ⟨rfl, entry, hmember, hshown⟩
    · rintro ⟨rfl, hfound⟩
      exact hfound
  · next hunnamed => simp [hunnamed]

theorem listsCall_iff (document : Json) (caller callee : Text) :
    document.ListsCall caller callee ↔
      ∃ call ∈ document.namedCalls, call.caller = caller ∧ call.callee = callee := by
  simp only [ListsCall, namedCalls, List.mem_flatMap, mem_callsFrom_iff]
  constructor
  · rintro ⟨method, hlisted, hnamed, entry, hmember, hcalleeNamed⟩
    have hshown : namedCall? caller entry =
        some ⟨caller, callee, (entry.field? (lit "address")).getD (int 0)⟩ := by
      rw [namedCall?, hcalleeNamed, Option.map_some]
    exact ⟨⟨caller, callee, _⟩, ⟨method, hlisted, hnamed, entry, hmember, hshown⟩, rfl, rfl⟩
  · rintro ⟨⟨caller, callee, address⟩, ⟨method, hlisted, hnamed, entry, hmember, hshown⟩, rfl, rfl⟩
    obtain ⟨callee, hcalleeNamed, hsame⟩ := Option.map_eq_some_iff.mp hshown
    cases hsame
    exact ⟨method, hlisted, hnamed, entry, hmember, hcalleeNamed⟩

/-! ### Reading it -/

variable {document : Json} {name : String} {item : Json → Prop}

theorem Lists.isObject (hlists : document.Lists name item) : document.IsObject := by
  obtain ⟨fields, hsame, -⟩ := hlists
  exact ⟨fields, hsame⟩

theorem IsObject.member_eq (hobject : document.IsObject) (name : String) (otherwise : Json) :
    document.member name otherwise = .ok ((document.field? (lit name)).getD otherwise) := by
  obtain ⟨fields, rfl⟩ := hobject
  rfl

theorem Lists.mem_itemsOf (hlists : document.Lists name item) {part : Json}
    (hmember : part ∈ document.itemsOf name) : item part := by
  obtain ⟨fields, rfl, hlisted⟩ := hlists
  unfold itemsOf at hmember
  split at hmember
  · next items hfound =>
    obtain ⟨items', hsame, heach⟩ := hlisted _ hfound
    cases hsame
    exact heach part hmember
  · cases hmember

theorem Lists.memberElements_eq (hlists : document.Lists name item) :
    document.memberElements name = .ok (document.itemsOf name) := by
  rw [memberElements, hlists.isObject.member_eq, itemsOf]
  obtain ⟨fields, rfl, hlisted⟩ := hlists
  cases hfound : (object fields).field? (lit name) with
  | none => rfl
  | some value =>
    obtain ⟨items, rfl, -⟩ := hlisted value hfound
    rfl

end Json

namespace CallGraph

/-- A method entry with the type that lists it, named or not. -/
def entryAt (type method : Json) : MethodEntry :=
  ⟨type, method, method.nameField⟩

/-- A call entry of a method, named or not. -/
def callAt (caller call : Json) : CallEntry :=
  ⟨caller, call.nameField, (call.field? (lit "address")).getD (.int 0)⟩

/-- The named method entries of a type. -/
def entriesAt (type : Json) : List MethodEntry :=
  ((type.itemsOf "methods").map (entryAt type)).filter (·.name.isPresent)

/-- The named call entries of a method. -/
def callsAt (entry : MethodEntry) : List CallEntry :=
  ((entry.method.itemsOf "called_methods").map (callAt entry.name)).filter (·.callee.isPresent)

theorem entriesOfType_eq {type : Json}
    (hlists : type.Lists "methods" (Json.Lists "called_methods" Json.IsObject)) :
    entriesOfType type = .ok (entriesAt type) := by
  have hread : (type.itemsOf "methods").mapM (fun method => do
      return (⟨type, method, ← method.member "name" .null⟩ : MethodEntry)) =
      .ok ((type.itemsOf "methods").map (entryAt type)) := by
    refine Outcome.mapM_eq_ok_map fun method hmember => ?_
    rw [(hlists.mem_itemsOf hmember).isObject.member_eq]
    rfl
  rw [entriesOfType, hlists.memberElements_eq, Outcome.bind_of_ok rfl, Outcome.bind_of_ok hread]
  rfl

theorem methodEntries_eq {document : Json} (hreport : document.IsReport) :
    methodEntries document = .ok ((document.itemsOf "types").flatMap entriesAt) := by
  have hread : (document.itemsOf "types").mapM entriesOfType =
      .ok ((document.itemsOf "types").map entriesAt) := by
    exact Outcome.mapM_eq_ok_map fun type hmember => entriesOfType_eq (hreport.mem_itemsOf hmember)
  rw [methodEntries, hreport.memberElements_eq, Outcome.bind_of_ok rfl, Outcome.bind_of_ok hread]
  rfl

theorem callsOfEntry_eq {entry : MethodEntry}
    (hlists : entry.method.Lists "called_methods" Json.IsObject) :
    callsOfEntry entry = .ok (callsAt entry) := by
  have hread : (entry.method.itemsOf "called_methods").mapM (fun call => do
      let callee ← call.member "name" .null
      return (⟨entry.name, callee, ← call.member "address" (.int 0)⟩ : CallEntry)) =
      .ok ((entry.method.itemsOf "called_methods").map (callAt entry.name)) := by
    refine Outcome.mapM_eq_ok_map fun call hmember => ?_
    rw [(hlists.mem_itemsOf hmember).member_eq, (hlists.mem_itemsOf hmember).member_eq]
    rfl
  rw [callsOfEntry, hlists.memberElements_eq, Outcome.bind_of_ok rfl, Outcome.bind_of_ok hread]
  rfl

/-- What an entry says of its method. -/
def namedMethod (entry : MethodEntry) : NamedMethod :=
  ⟨entry.name.display, addressOf entry⟩

/-- What an entry says of its call. -/
def namedCall (call : CallEntry) : NamedCall :=
  ⟨call.caller.display, call.callee.display, call.address⟩

theorem map_namedMethod_entriesAt (type : Json) :
    (entriesAt type).map namedMethod = (type.itemsOf "methods").filterMap Json.namedMethod? := by
  unfold entriesAt
  induction type.itemsOf "methods" with
  | nil => rfl
  | cons method methods ih =>
    by_cases hpresent : method.nameField.isPresent
    · have hnamed : method.name? = some method.nameField.display := if_pos hpresent
      simp [entryAt, hpresent, Json.namedMethod?, hnamed, ih, namedMethod, addressOf]
    · have hunnamed : method.name? = none := if_neg hpresent
      simp [entryAt, hpresent, Json.namedMethod?, hunnamed, ih]

theorem map_namedCall_callsAt {type method : Json} (hpresent : method.nameField.isPresent = true) :
    (callsAt (entryAt type method)).map namedCall = method.callsFrom := by
  have hnamed : method.name? = some method.nameField.display := if_pos hpresent
  rw [callsAt, entryAt, Json.callsFrom, hnamed]
  dsimp only
  induction method.itemsOf "called_methods" with
  | nil => rfl
  | cons call calls ih =>
    by_cases hpresent : call.nameField.isPresent
    · have hcalleeNamed : call.name? = some call.nameField.display := if_pos hpresent
      simp [callAt, hpresent, Json.namedCall?, hcalleeNamed, ih, namedCall]
    · have hunnamed : call.name? = none := if_neg hpresent
      simp [callAt, hpresent, Json.namedCall?, hunnamed, ih]

theorem map_namedCall_entriesAt (type : Json) :
    ((entriesAt type).flatMap callsAt).map namedCall =
      (type.itemsOf "methods").flatMap Json.callsFrom := by
  unfold entriesAt
  induction type.itemsOf "methods" with
  | nil => rfl
  | cons method methods ih =>
    rw [List.map_cons, List.filter_cons, List.flatMap_cons, ← ih]
    by_cases hpresent : method.nameField.isPresent
    · rw [if_pos (show (entryAt type method).name.isPresent = true from hpresent),
        List.flatMap_cons, List.map_append, map_namedCall_callsAt hpresent]
    · have hunnamed : method.name? = none := if_neg hpresent
      rw [if_neg (show ¬ (entryAt type method).name.isPresent = true from hpresent),
        Json.callsFrom, hunnamed]
      rfl

/-- The named method entries of a document. -/
def documentEntries (document : Json) : List MethodEntry :=
  (document.itemsOf "types").flatMap entriesAt

theorem map_namedMethod_documentEntries (document : Json) :
    (documentEntries document).map namedMethod = document.namedMethods := by
  rw [documentEntries, List.map_flatMap, Json.namedMethods, Json.methodItems,
    List.filterMap_flatMap]
  simp only [map_namedMethod_entriesAt]

theorem map_namedCall_documentEntries (document : Json) :
    ((documentEntries document).flatMap callsAt).map namedCall = document.namedCalls := by
  rw [documentEntries, List.flatMap_assoc, List.map_flatMap, Json.namedCalls, Json.methodItems,
    List.flatMap_assoc]
  simp only [map_namedCall_entriesAt]

end CallGraph
end CilAtlas
