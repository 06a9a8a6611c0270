import CilAtlas.Graph.OfDocument
import CilAtlas.Proofs.Outcomes
import CilAtlas.Proofs.StoreRows
import CilAtlas.Report.Basic

/-!
# What the graph of a report shows

A graph is drawn from the listed methods first and the calls afterwards.  One
invariant says what has been drawn so far: the arcs are the calls, a node that
belongs to a listed method shows its address, and any other node shows the
address of a call that reaches it.  Each step of the drawing keeps it.

Several listed methods may share a node when they share a name; the node then
shows one of them.  Names that rule this out are not assumed here.
-/

namespace CilAtlas

namespace OrderedMap

variable {κ α : Type} [DecidableEq κ]

theorem get?_insertAll_of_not_mem (m : OrderedMap κ α) {k : κ} {entries : List (κ × α)}
    (habsent : k ∉ entries.map Prod.fst) : (m.insertAll entries).get? k = m.get? k := by
  induction entries generalizing m with
  | nil => rfl
  | cons entry entries ih =>
    rw [List.map_cons, List.mem_cons, not_or] at habsent
    have hlater := ih (m.insert entry.1 entry.2) habsent.2
    rw [get?_insert, if_neg (Ne.symm habsent.1)] at hlater
    exact hlater

/-- The last entry for a key is the one that counts. -/
theorem get?_insertAll_of_last (m : OrderedMap κ α) {k : κ} {a : α} (front : List (κ × α))
    {back : List (κ × α)} (habsent : k ∉ back.map Prod.fst) :
    (m.insertAll (front ++ (k, a) :: back)).get? k = some a := by
  have hsplit : m.insertAll (front ++ (k, a) :: back) =
      ((m.insertAll front).insert k a).insertAll back := by
    simp only [insertAll, List.foldl_append, List.foldl_cons]
  rw [hsplit, get?_insertAll_of_not_mem _ habsent, get?_insert, if_pos rfl]

end OrderedMap

namespace CallGraph

/-- What a node shows of its method: whether it is only called, and its address. -/
structure Shows (attributes : Attributes) (isExternal : Bool) (address : Json) : Prop where
  external_eq : attributes.get? (lit "is_external") = some (.bool isExternal)
  address_eq : attributes.get? (lit "address") = some address

/-- The address that a listed method's document gives. -/
def addressOf (entry : MethodEntry) : Json :=
  (entry.method.field? (lit "rva")).getD (.int 0)

/-- The attributes that a listed method's node takes from its document. -/
def keptAttributes (entry : MethodEntry) : List (Text × Json) :=
  keptFields.filterMap fun name => (entry.method.field? (lit name)).map (lit name, ·)

theorem not_mem_keptAttributes (entry : MethodEntry) {name : Text}
    (hother : name ∉ keptFields.map lit) : name ∉ (keptAttributes entry).map Prod.fst := by
  intro hmember
  obtain ⟨_, hlisted, rfl⟩ := List.mem_map.mp hmember
  obtain ⟨field, hfield, hshown⟩ := List.mem_filterMap.mp hlisted
  obtain ⟨value, -, rfl⟩ := Option.map_eq_some_iff.mp hshown
  exact hother (List.mem_map_of_mem hfield)

theorem shows_localAttributes (program : Json) (entry : MethodEntry) (attributes : Attributes) :
    Shows (attributes.insertAll (localAttributes program entry)) false (addressOf entry) where
  external_eq := by
    have habsent := not_mem_keptAttributes entry (show lit "is_external" ∉ _ by decide)
    exact OrderedMap.get?_insertAll_of_last attributes
      ((localAttributes program entry).take 5) habsent
  address_eq := by
    refine OrderedMap.get?_insertAll_of_last attributes
      ((localAttributes program entry).take 2) ?_
    have habsent := not_mem_keptAttributes entry (show lit "address" ∉ _ by decide)
    -- three attributes are set between the address and those kept from the document
    rintro (_ | ⟨_, _ | ⟨_, _ | ⟨_, hmember⟩⟩⟩)
    exact habsent hmember

theorem shows_externalAttributes (program : Json) (call : CallEntry) (attributes : Attributes) :
    Shows (attributes.insertAll (externalAttributes program call)) true call.address where
  external_eq := OrderedMap.get?_insertAll_of_last attributes
    ((externalAttributes program call).take 3) (List.not_mem_nil)
  address_eq := OrderedMap.get?_insertAll_of_last attributes
    ((externalAttributes program call).take 2) (by decide)

/-! ### The invariant of the drawing -/

/-- The graph shows the listed methods and the calls, and nothing else. -/
structure Draws (program : Json) (entries : List MethodEntry) (calls : List CallEntry)
    (graph : CallGraph) : Prop where
  mem_arcs_iff : ∀ arc, arc ∈ graph.arcs ↔
    ∃ call ∈ calls, arc = (nodeId program call.caller, nodeId program call.callee)
  node : ∀ id attributes, graph.nodes.get? id = some attributes →
    (∃ entry ∈ entries, id = nodeId program entry.name ∧
      Shows attributes false (addressOf entry)) ∨
    ((∀ entry ∈ entries, id ≠ nodeId program entry.name) ∧
      ∃ call ∈ calls, id = nodeId program call.callee ∧ Shows attributes true call.address)
  listed : ∀ entry ∈ entries, ∃ attributes,
    graph.nodes.get? (nodeId program entry.name) = some attributes
  called : ∀ call ∈ calls, ∃ attributes,
    graph.nodes.get? (nodeId program call.callee) = some attributes

variable {program : Json} {entries : List MethodEntry} {calls : List CallEntry}
  {graph : CallGraph}

theorem draws_empty (program : Json) (attributes : Attributes) :
    Draws program [] [] (empty attributes) where
  mem_arcs_iff arc := by simp [empty]
  node := by
    intro id attributes hfound
    cases hfound
  listed := by
    intro entry hmember
    cases hmember
  called := by
    intro call hmember
    cases hmember

theorem get?_addNode (graph : CallGraph) (id id' : Text) (attributes : List (Text × Json)) :
    (graph.addNode id attributes).nodes.get? id' =
      if id = id' then
        some (((graph.nodes.get? id).getD OrderedMap.empty).insertAll attributes)
      else graph.nodes.get? id' :=
  OrderedMap.get?_insert _ _ _ _

theorem Draws.addMethod (hdraws : Draws program entries [] graph) (entry : MethodEntry) :
    Draws program (entries ++ [entry]) [] (addMethod program graph entry) where
  mem_arcs_iff := hdraws.mem_arcs_iff
  node := by
    intro id attributes hfound
    rw [CallGraph.addMethod, get?_addNode] at hfound
    -- while methods are added no call is, so every node is a listed method's
    left
    split at hfound
    · next hsame =>
      cases hfound
      exact ⟨entry, by simp, hsame.symm, shows_localAttributes program entry _⟩
    · rcases hdraws.node id attributes hfound with ⟨entry', hmember, hrest⟩ | ⟨-, call, hmember, -⟩
      · exact ⟨entry', List.mem_append_left _ hmember, hrest⟩
      · cases hmember
  listed := by
    intro entry' hmember
    rw [CallGraph.addMethod, get?_addNode]
    split
    · exact ⟨_, rfl⟩
    · next hdifferent =>
      rcases List.mem_append.mp hmember with hearlier | hlast
      · exact hdraws.listed entry' hearlier
      · rw [List.mem_singleton] at hlast
        exact absurd (by rw [hlast]) hdifferent
  called := by
    intro call hmember
    cases hmember

theorem Draws.foldl_addMethod (hdraws : Draws program entries [] graph) (more : List MethodEntry) :
    Draws program (entries ++ more) [] (more.foldl (CallGraph.addMethod program) graph) := by
  induction more generalizing entries graph with
  | nil => rwa [List.append_nil]
  | cons entry more ih =>
    have h := ih (hdraws.addMethod entry)
    rwa [List.append_assoc] at h

/-- The node of a callee, added when there is none. -/
def addCallee (program : Json) (graph : CallGraph) (call : CallEntry) : CallGraph :=
  if graph.nodes.contains (nodeId program call.callee) then graph
  else graph.addNode (nodeId program call.callee) (externalAttributes program call)

theorem addCall_eq (program : Json) (graph : CallGraph) (call : CallEntry) :
    addCall program graph call = (addCallee program graph call).addArc
      (nodeId program call.caller) (nodeId program call.callee) :=
  rfl

theorem arcs_addCallee (program : Json) (graph : CallGraph) (call : CallEntry) :
    (addCallee program graph call).arcs = graph.arcs := by
  unfold addCallee
  split
  · rfl
  · rfl

theorem get?_addCallee (program : Json) (graph : CallGraph) (call : CallEntry) (id : Text) :
    (addCallee program graph call).nodes.get? id = graph.nodes.get? id ∨
      id = nodeId program call.callee ∧ graph.nodes.get? id = none ∧
        ∃ attributes, (addCallee program graph call).nodes.get? id = some attributes ∧
          Shows attributes true call.address := by
  unfold addCallee
  split
  · exact .inl rfl
  · next habsent =>
    rw [get?_addNode]
    split
    · next hsame =>
      subst hsame
      refine .inr ⟨rfl, ?_, _, rfl, shows_externalAttributes program call _⟩
      rw [OrderedMap.contains_iff] at habsent
      exact Option.eq_none_iff_forall_ne_some.mpr fun a hfound => habsent ⟨a, hfound⟩
    · exact .inl rfl

theorem exists_get?_addCallee (program : Json) (graph : CallGraph) (call : CallEntry) :
    ∃ attributes,
      (addCallee program graph call).nodes.get? (nodeId program call.callee) = some attributes := by
  unfold addCallee
  split
  · next hpresent => exact (OrderedMap.contains_iff _ _).mp hpresent
  · rw [get?_addNode, if_pos rfl]
    exact ⟨_, rfl⟩

theorem exists_get?_addCallee_of_get? {id : Text} {attributes : Attributes}
    (hfound : graph.nodes.get? id = some attributes) (program : Json) (call : CallEntry) :
    ∃ attributes', (addCallee program graph call).nodes.get? id = some attributes' := by
  rcases get?_addCallee program graph call id with hsame | ⟨-, -, attributes', hfound', -⟩
  · exact ⟨attributes, hsame.trans hfound⟩
  · exact ⟨attributes', hfound'⟩

theorem Draws.addCall (hdraws : Draws program entries calls graph) (call : CallEntry) :
    Draws program entries (calls ++ [call]) (addCall program graph call) where
  mem_arcs_iff arc := by
    rw [addCall_eq, mem_arcs_addArc, arcs_addCallee, hdraws.mem_arcs_iff]
    simp [or_and_right, exists_or]
  node := by
    intro id attributes hfound
    rw [addCall_eq, nodes_addArc] at hfound
    rcases get?_addCallee program graph call id with
      hsame | ⟨hid, habsent, attributes', hfound', hshows⟩
    · rw [hsame] at hfound
      rcases hdraws.node id attributes hfound with hlisted | ⟨hunlisted, call', hmember, hrest⟩
      · exact .inl hlisted
      · exact .inr ⟨hunlisted, call', List.mem_append_left _ hmember, hrest⟩
    · -- a new node is no listed method's, since those were all there already
      right
      rw [hfound'] at hfound
      cases hfound
      refine ⟨?_, call, by simp, hid, hshows⟩
      rintro entry hmember rfl
      obtain ⟨_, hpresent⟩ := hdraws.listed entry hmember
      rw [habsent] at hpresent
      cases hpresent
  listed := by
    intro entry hmember
    obtain ⟨attributes, hfound⟩ := hdraws.listed entry hmember
    rw [addCall_eq, nodes_addArc]
    exact exists_get?_addCallee_of_get? hfound program call
  called := by
    intro call' hmember
    rw [addCall_eq, nodes_addArc]
    rcases List.mem_append.mp hmember with hearlier | hlast
    · obtain ⟨attributes, hfound⟩ := hdraws.called call' hearlier
      exact exists_get?_addCallee_of_get? hfound program call
    · rw [List.mem_singleton] at hlast
      subst hlast
      exact exists_get?_addCallee program graph call'

theorem Draws.foldl_addCall (hdraws : Draws program entries calls graph) (more : List CallEntry) :
    Draws program entries (calls ++ more) (more.foldl (CallGraph.addCall program) graph) := by
  induction more generalizing calls graph with
  | nil => rwa [List.append_nil]
  | cons call more ih =>
    have h := ih (hdraws.addCall call)
    rwa [List.append_assoc] at h

theorem Draws.counted (hdraws : Draws program entries calls graph) :
    Draws program entries calls graph.counted :=
  ⟨hdraws.mem_arcs_iff, hdraws.node, hdraws.listed, hdraws.called⟩

/-- The graph of a document shows the methods and calls that the document has. -/
theorem exists_draws {document assembly : Json} {entries : List MethodEntry}
    {calls : List (List CallEntry)} (program source : Json)
    (hassembly : document.member "assembly" .null = .ok assembly)
    (hentries : methodEntries document = .ok entries)
    (hcalls : entries.mapM callsOfEntry = .ok calls) :
    ∃ graph, ofDocument document program source = .ok graph ∧
      Draws (programOf assembly program) entries calls.flatten graph := by
  refine ⟨_, Outcome.bind_eq_ok_iff.mpr ⟨_, hassembly, Outcome.bind_eq_ok_iff.mpr
    ⟨_, hentries, Outcome.bind_eq_ok_iff.mpr ⟨_, hcalls, rfl⟩⟩⟩, ?_⟩
  exact (((draws_empty _ _).foldl_addMethod entries).foldl_addCall calls.flatten).counted

end CallGraph

/-! ### Documents of reports -/

theorem CodePoint.ofChar_inj {c d : Char} (h : CodePoint.ofChar c = CodePoint.ofChar d) : c = d :=
  Char.toNat_inj.mp (congrArg CodePoint.toNat h)

theorem lit_inj {s t : String} : lit s = lit t ↔ s = t := by
  constructor
  · intro h
    exact String.toList_inj.mp (List.map_injective_iff.mpr (fun _ _ => CodePoint.ofChar_inj) h)
  · rintro rfl
    rfl

namespace Json

theorem lookup?_lit (name : String) (fields : List (String × Json)) :
    lookup? (lit name) (fields.map fun field => (lit field.1, field.2)) = fields.lookup name := by
  induction fields with
  | nil => rfl
  | cons field fields ih =>
    rw [List.map_cons, lookup?, List.lookup_cons, ih]
    by_cases hsame : field.1 = name
    · simp [hsame]
    · have hdifferent : (name == field.1) = false := by simpa using Ne.symm hsame
      simp [lit_inj, hsame, hdifferent]

/-- A field of a record is found by its name. -/
theorem member_record {fields : List (String × Json)} {name : String} {value : Json}
    (hfound : fields.lookup name = some value) (otherwise : Json) :
    (Json.record fields).member name otherwise = .ok value := by
  rw [Json.record, member, lookup?_lit, hfound]
  rfl

theorem memberElements_record {fields : List (String × Json)} {name : String} {items : List Json}
    (hfound : fields.lookup name = some (.list items)) :
    (Json.record fields).memberElements name = .ok items := by
  rw [memberElements, member_record hfound]
  rfl

theorem field?_record {fields : List (String × Json)} {name : String} {value : Json}
    (hfound : fields.lookup name = some value) :
    (Json.record fields).field? (lit name) = some value := by
  rw [Json.record, field?, lookup?_lit, hfound]

end Json

namespace CallGraph

/-- A reported method as its document lists it. -/
def entryOf (type : ReportedType) (method : ReportedMethod) : MethodEntry :=
  ⟨type.document, method.document, .text method.name⟩

/-- A call of a reported method as its document lists it. -/
def callOf (method : ReportedMethod) (call : CallRecord) : CallEntry :=
  ⟨.text method.name, .text call.name, .int call.address⟩

theorem isPresent_text_iff (t : Text) : (Json.text t).isPresent = true ↔ t ≠ [] := by
  cases t with
  | nil => simp [Json.isPresent]
  | cons c t => simp [Json.isPresent]

theorem entriesOfType_document (type : ReportedType) :
    entriesOfType type.document =
      .ok ((type.methods.map (entryOf type)).filter (·.name.isPresent)) := by
  have hmethods : type.document.memberElements "methods" =
      .ok (type.methods.map (·.document)) := Json.memberElements_record (by simp [List.lookup_cons])
  have hentries : (type.methods.map (·.document)).mapM (fun method => do
      return (⟨type.document, method, ← method.member "name" .null⟩ : MethodEntry)) =
      .ok (type.methods.map (entryOf type)) := by
    apply Outcome.mapM_map_eq_ok
    intro method _
    have hname : method.document.member "name" .null = .ok (.text method.name) :=
      Json.member_record (by simp) _
    exact Outcome.bind_eq_ok_iff.mpr ⟨_, hname, rfl⟩
  rw [entriesOfType, Outcome.bind_eq_ok_iff]
  exact ⟨_, hmethods, Outcome.bind_eq_ok_iff.mpr ⟨_, hentries, rfl⟩⟩

theorem callsOfEntry_entryOf (type : ReportedType) (method : ReportedMethod) :
    callsOfEntry (entryOf type method) =
      .ok ((method.calls.map (callOf method)).filter (·.callee.isPresent)) := by
  have hcalls : (entryOf type method).method.memberElements "called_methods" =
      .ok (method.calls.map (·.document)) := Json.memberElements_record (by simp [List.lookup_cons])
  have hentries : (method.calls.map (·.document)).mapM (fun call => do
      let callee ← call.member "name" .null
      return (⟨(entryOf type method).name, callee, ← call.member "address" (.int 0)⟩ :
        CallEntry)) = .ok (method.calls.map (callOf method)) := by
    apply Outcome.mapM_map_eq_ok
    intro call _
    have hname : call.document.member "name" .null = .ok (.text call.name) :=
      Json.member_record (by simp) _
    have haddress : call.document.member "address" (.int 0) = .ok (.int call.address) :=
      Json.member_record (by simp [List.lookup_cons]) _
    exact Outcome.bind_eq_ok_iff.mpr ⟨_, hname, Outcome.bind_eq_ok_iff.mpr ⟨_, haddress, rfl⟩⟩
  rw [callsOfEntry, Outcome.bind_eq_ok_iff]
  exact ⟨_, hcalls, Outcome.bind_eq_ok_iff.mpr ⟨_, hentries, rfl⟩⟩

/-- The listed methods of a report's document. -/
def entriesOf (report : Report) : List MethodEntry :=
  (report.types.map fun type =>
    (type.methods.map (entryOf type)).filter (·.name.isPresent)).flatten

theorem methodEntries_document (report : Report) :
    methodEntries report.document = .ok (entriesOf report) := by
  have htypes : report.document.memberElements "types" =
      .ok (report.types.map (·.document)) := Json.memberElements_record (by simp [List.lookup_cons])
  have hentries : (report.types.map (·.document)).mapM entriesOfType =
      .ok (report.types.map fun type =>
        (type.methods.map (entryOf type)).filter (·.name.isPresent)) :=
    Outcome.mapM_map_eq_ok fun type _ => entriesOfType_document type
  rw [methodEntries, Outcome.bind_eq_ok_iff]
  exact ⟨_, htypes, Outcome.bind_eq_ok_iff.mpr ⟨_, hentries, rfl⟩⟩

theorem mem_entriesOf_iff (report : Report) (entry : MethodEntry) :
    entry ∈ entriesOf report ↔ ∃ type ∈ report.types, ∃ method ∈ type.methods,
      method.name ≠ [] ∧ entry = entryOf type method := by
  simp only [entriesOf, List.mem_flatten, List.mem_map]
  constructor
  · rintro ⟨_, ⟨type, htype, rfl⟩, hmember⟩
    obtain ⟨hlisted, hpresent⟩ := List.mem_filter.mp hmember
    obtain ⟨method, hmethod, rfl⟩ := List.mem_map.mp hlisted
    exact ⟨type, htype, method, hmethod, (isPresent_text_iff _).mp hpresent, rfl⟩
  · rintro ⟨type, htype, method, hmethod, hnamed, rfl⟩
    exact ⟨_, ⟨type, htype, rfl⟩, List.mem_filter.mpr
      ⟨List.mem_map_of_mem hmethod, (isPresent_text_iff _).mpr hnamed⟩⟩

theorem addressOf_entryOf (type : ReportedType) (method : ReportedMethod) :
    addressOf (entryOf type method) = .int method.rva := by
  have hrva : method.document.field? (lit "rva") = some (.int method.rva) :=
    Json.field?_record (by simp [List.lookup_cons])
  rw [addressOf, entryOf, hrva]
  rfl

/-- What the graph of a report shows, by the report's own methods and calls.
Methods and calls without a name are left out. -/
structure DrawsReport (program : Json) (report : Report) (graph : CallGraph) : Prop where
  mem_arcs_iff : ∀ arc, arc ∈ graph.arcs ↔
    ∃ method ∈ report.methods, method.name ≠ [] ∧ ∃ call ∈ method.calls, call.name ≠ [] ∧
      arc = (nodeId program (.text method.name), nodeId program (.text call.name))
  node : ∀ id attributes, graph.nodes.get? id = some attributes →
    (∃ method ∈ report.methods, id = nodeId program (.text method.name) ∧
      Shows attributes false (.int method.rva)) ∨
    ((∀ method ∈ report.methods, method.name ≠ [] → id ≠ nodeId program (.text method.name)) ∧
      ∃ method ∈ report.methods, ∃ call ∈ method.calls,
        id = nodeId program (.text call.name) ∧ Shows attributes true (.int call.address))
  listed : ∀ method ∈ report.methods, method.name ≠ [] → ∃ attributes,
    graph.nodes.get? (nodeId program (.text method.name)) = some attributes
  called : ∀ method ∈ report.methods, method.name ≠ [] → ∀ call ∈ method.calls,
    call.name ≠ [] → ∃ attributes,
      graph.nodes.get? (nodeId program (.text call.name)) = some attributes

theorem mem_methods_iff (report : Report) (method : ReportedMethod) :
    method ∈ report.methods ↔ ∃ type ∈ report.types, method ∈ type.methods :=
  List.mem_flatMap

theorem exists_callsOfEntry (report : Report) :
    ∃ calls, (entriesOf report).mapM callsOfEntry = .ok calls ∧
      ∀ entry, entry ∈ calls.flatten ↔ ∃ method ∈ report.methods, method.name ≠ [] ∧
        ∃ call ∈ method.calls, call.name ≠ [] ∧ entry = callOf method call := by
  obtain ⟨calls, hcalls⟩ : ∃ calls, (entriesOf report).mapM callsOfEntry = .ok calls := by
    apply Outcome.exists_mapM_ok
    intro entry hmember
    obtain ⟨type, -, method, -, -, rfl⟩ := (mem_entriesOf_iff report entry).mp hmember
    exact ⟨_, callsOfEntry_entryOf type method⟩
  refine ⟨calls, hcalls, fun entry => ?_⟩
  have hpointwise := Outcome.mapM_eq_ok_iff.mp hcalls
  rw [List.mem_flatten]
  constructor
  · rintro ⟨group, hgroup, hinside⟩
    obtain ⟨_, hmember, hmethod⟩ := exists_mem_of_forall₂_right hpointwise hgroup
    obtain ⟨type, htype, method, hlisted, hnamed, rfl⟩ := (mem_entriesOf_iff report _).mp hmember
    rw [callsOfEntry_entryOf] at hmethod
    cases hmethod
    obtain ⟨hmade, hpresent⟩ := List.mem_filter.mp hinside
    obtain ⟨call, hcall, rfl⟩ := List.mem_map.mp hmade
    exact ⟨method, (mem_methods_iff report method).mpr ⟨type, htype, hlisted⟩, hnamed, call, hcall,
      (isPresent_text_iff _).mp hpresent, rfl⟩
  · rintro ⟨method, hmember, hnamed, call, hcall, hcalleeNamed, rfl⟩
    obtain ⟨type, htype, hlisted⟩ := (mem_methods_iff report method).mp hmember
    have hentry := (mem_entriesOf_iff report _).mpr ⟨type, htype, method, hlisted, hnamed, rfl⟩
    obtain ⟨group, hgroup, hmethod⟩ := exists_mem_of_forall₂_left hpointwise hentry
    rw [callsOfEntry_entryOf] at hmethod
    cases hmethod
    exact ⟨_, hgroup, List.mem_filter.mpr
      ⟨List.mem_map_of_mem hcall, (isPresent_text_iff _).mpr hcalleeNamed⟩⟩

/-- Every report's document has a graph, and that shows the report. -/
theorem exists_drawsReport (report : Report) :
    ∃ graph, ofDocument report.document .null .null = .ok graph ∧
      DrawsReport (programOf (.text report.assembly) .null) report graph := by
  have hassembly : report.document.member "assembly" .null = .ok (.text report.assembly) :=
    Json.member_record (by simp) _
  obtain ⟨calls, hcalls, hmem_calls_iff⟩ := exists_callsOfEntry report
  obtain ⟨graph, hdrawn, hdraws⟩ :=
    exists_draws .null .null hassembly (methodEntries_document report) hcalls
  refine ⟨graph, hdrawn, fun arc => ?_, ?_, ?_, ?_⟩
  · rw [hdraws.mem_arcs_iff]
    constructor
    · rintro ⟨_, hmember, rfl⟩
      obtain ⟨method, hmethod, hnamed, call, hcall, hcalleeNamed, rfl⟩ :=
        (hmem_calls_iff _).mp hmember
      exact ⟨method, hmethod, hnamed, call, hcall, hcalleeNamed, rfl⟩
    · rintro ⟨method, hmethod, hnamed, call, hcall, hcalleeNamed, rfl⟩
      have hdrawn := (hmem_calls_iff _).mpr
        ⟨method, hmethod, hnamed, call, hcall, hcalleeNamed, rfl⟩
      exact ⟨_, hdrawn, rfl⟩
  · intro id attributes hfound
    rcases hdraws.node id attributes hfound with
      ⟨entry, hmember, rfl, hshows⟩ | ⟨hunlisted, entry, hmember, rfl, hshows⟩
    · obtain ⟨type, htype, method, hlisted, hnamed, rfl⟩ :=
        (mem_entriesOf_iff report entry).mp hmember
      rw [addressOf_entryOf] at hshows
      exact .inl ⟨method, (mem_methods_iff report method).mpr ⟨type, htype, hlisted⟩, rfl, hshows⟩
    · obtain ⟨method, hmethod, hnamed, call, hcall, hcalleeNamed, rfl⟩ :=
        (hmem_calls_iff entry).mp hmember
      refine .inr ⟨?_, method, hmethod, call, hcall, rfl, hshows⟩
      -- a method without a name is not listed, so only named ones are excluded
      intro method' hmethod' hnamed' hsame
      obtain ⟨type, htype, hlisted⟩ := (mem_methods_iff report method').mp hmethod'
      exact hunlisted _ ((mem_entriesOf_iff report _).mpr
        ⟨type, htype, method', hlisted, hnamed', rfl⟩) hsame
  · intro method hmethod hnamed
    obtain ⟨type, htype, hlisted⟩ := (mem_methods_iff report method).mp hmethod
    exact hdraws.listed _ ((mem_entriesOf_iff report _).mpr
      ⟨type, htype, method, hlisted, hnamed, rfl⟩)
  · intro method hmethod hnamed call hcall hcalleeNamed
    exact hdraws.called _ ((hmem_calls_iff _).mpr
      ⟨method, hmethod, hnamed, call, hcall, hcalleeNamed, rfl⟩)

end CallGraph
end CilAtlas
