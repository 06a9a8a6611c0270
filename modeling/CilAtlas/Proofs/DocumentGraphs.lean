import CilAtlas.Proofs.DocumentReading
import CilAtlas.Proofs.GraphComposition
import Mathlib.Data.Finset.Card

/-!
# The graph of any report document

The graph has exactly what the document says, whatever the order of its entries: its
nodes are the names, a node is local when some entry lists its name, and the arcs are the
calls.  Where entries repeat a name, the last listed method gives the address of its
node, and the first call that of a node without a method.

Two things carry this.  Drawing a method or a call leaves the nodes of other names alone,
and drawing a call leaves any node alone that is there.
-/

namespace CilAtlas
namespace CallGraph

/-- The graph that is drawn from methods and calls. -/
def drawing (program source : Json) (entries : List MethodEntry) (calls : List CallEntry) :
    CallGraph :=
  (calls.foldl (addCall program) (entries.foldl (addMethod program)
    (empty (OrderedMap.ofList [(lit "program", program), (lit "source", source)])))).counted

/-- A report document is read and drawn, whatever its order. -/
theorem ofDocument_eq {document : Json} (hreport : document.IsReport) (given source : Json) :
    ofDocument document given source = .ok (drawing
      (programOf ((document.field? (lit "assembly")).getD .null) given) source
      (documentEntries document) ((documentEntries document).flatMap callsAt)) := by
  have hread : (documentEntries document).mapM callsOfEntry =
      .ok ((documentEntries document).map callsAt) := by
    refine Outcome.mapM_eq_ok_map fun entry hmember => ?_
    obtain ⟨type, hlisted, hinside⟩ := List.mem_flatMap.mp hmember
    obtain ⟨method, hfound, rfl⟩ := List.mem_map.mp (List.mem_filter.mp hinside).1
    exact callsOfEntry_eq ((hreport.mem_itemsOf hlisted).mem_itemsOf hfound)
  rw [ofDocument, hreport.isObject.member_eq, Outcome.bind_of_ok rfl,
    Outcome.bind_of_ok (methodEntries_eq hreport)]
  exact (Outcome.bind_of_ok hread _).trans rfl

/-! ### Last methods and first calls -/

variable {program : Json} {graph : CallGraph} {id : Text} {attributes : Attributes}

theorem get?_foldl_addMethod_of_ne {entries : List MethodEntry}
    (hothers : ∀ entry ∈ entries, nodeId program entry.name ≠ id) :
    (entries.foldl (addMethod program) graph).nodes.get? id = graph.nodes.get? id := by
  refine List.foldlRecOn entries (addMethod program)
    (motive := fun drawn => drawn.nodes.get? id = graph.nodes.get? id) rfl ?_
  intro drawn hsame entry hmember
  rw [addMethod, get?_addNode, if_neg (hothers entry hmember), hsame]

theorem get?_addCall (program : Json) (graph : CallGraph) (call : CallEntry) (id : Text) :
    (addCall program graph call).nodes.get? id =
      (addCallee program graph call).nodes.get? id := by
  rw [addCall_eq, nodes_addArc]

theorem get?_addCall_of_ne (call : CallEntry) (hother : nodeId program call.callee ≠ id) :
    (addCall program graph call).nodes.get? id = graph.nodes.get? id := by
  rw [get?_addCall]
  rcases get?_addCallee program graph call id with hsame | ⟨hid, -⟩
  · exact hsame
  · exact absurd hid.symm hother

/-- A node that is there is not touched by a call. -/
theorem get?_addCall_of_get? (hfound : graph.nodes.get? id = some attributes) (call : CallEntry) :
    (addCall program graph call).nodes.get? id = some attributes := by
  rw [get?_addCall]
  rcases get?_addCallee program graph call id with hsame | ⟨-, habsent, -⟩
  · exact hsame.trans hfound
  · cases habsent.symm.trans hfound

theorem get?_foldl_addCall_of_ne {calls : List CallEntry}
    (hothers : ∀ call ∈ calls, nodeId program call.callee ≠ id) :
    (calls.foldl (addCall program) graph).nodes.get? id = graph.nodes.get? id := by
  refine List.foldlRecOn calls (addCall program)
    (motive := fun drawn => drawn.nodes.get? id = graph.nodes.get? id) rfl ?_
  intro drawn hsame call hmember
  rw [get?_addCall_of_ne call (hothers call hmember), hsame]

theorem get?_foldl_addCall_of_get? (hfound : graph.nodes.get? id = some attributes)
    (calls : List CallEntry) :
    (calls.foldl (addCall program) graph).nodes.get? id = some attributes := by
  refine List.foldlRecOn calls (addCall program)
    (motive := fun drawn => drawn.nodes.get? id = some attributes) hfound ?_
  intro drawn hthere call _
  exact get?_addCall_of_get? hthere call

/-- The last method of a name gives its node what it shows. -/
theorem exists_shows_last (front : List MethodEntry) (entry : MethodEntry)
    {back : List MethodEntry}
    (hlast : ∀ later ∈ back, nodeId program later.name ≠ nodeId program entry.name)
    (source : Json) (calls : List CallEntry) :
    ∃ attributes,
      (drawing program source (front ++ entry :: back) calls).nodes.get?
        (nodeId program entry.name) = some attributes ∧
      Shows attributes false (addressOf entry) := by
  let bare := empty (OrderedMap.ofList [(lit "program", program), (lit "source", source)])
  obtain ⟨attributes, hfound, hshows⟩ : ∃ attributes,
      ((front ++ entry :: back).foldl (addMethod program) bare).nodes.get?
        (nodeId program entry.name) = some attributes ∧
      Shows attributes false (addressOf entry) := by
    rw [List.foldl_append, List.foldl_cons, get?_foldl_addMethod_of_ne hlast, addMethod,
      get?_addNode, if_pos rfl]
    exact ⟨_, rfl, shows_localAttributes program entry _⟩
  exact ⟨attributes, get?_foldl_addCall_of_get? hfound calls, hshows⟩

/-- The first call of a name that no method has gives its node what it shows. -/
theorem exists_shows_first {entries : List MethodEntry} {call : CallEntry}
    (hunlisted : ∀ entry ∈ entries, nodeId program entry.name ≠ nodeId program call.callee)
    {front : List CallEntry} (back : List CallEntry)
    (hfirst : ∀ earlier ∈ front, nodeId program earlier.callee ≠ nodeId program call.callee)
    (source : Json) :
    ∃ attributes,
      (drawing program source entries (front ++ call :: back)).nodes.get?
        (nodeId program call.callee) = some attributes ∧
      Shows attributes true call.address := by
  let bare := empty (OrderedMap.ofList [(lit "program", program), (lit "source", source)])
  let before := front.foldl (addCall program) (entries.foldl (addMethod program) bare)
  -- neither a method nor an earlier call has made the node
  have hmissing : before.nodes.get? (nodeId program call.callee) = none := by
    rw [get?_foldl_addCall_of_ne hfirst, get?_foldl_addMethod_of_ne hunlisted]
    rfl
  obtain ⟨attributes, hfound, hshows⟩ : ∃ attributes,
      (addCall program before call).nodes.get? (nodeId program call.callee) = some attributes ∧
      Shows attributes true call.address := by
    rw [get?_addCall]
    rcases get?_addCallee program before call (nodeId program call.callee) with
      hsame | ⟨-, -, attributes, hfound, hshows⟩
    · obtain ⟨attributes, hpresent⟩ := exists_get?_addCallee program before call
      rw [hsame, hmissing] at hpresent
      cases hpresent
    · exact ⟨attributes, hfound, hshows⟩
  refine ⟨attributes, ?_, hshows⟩
  show ((front ++ call :: back).foldl (addCall program) _).nodes.get? _ = _
  rw [List.foldl_append, List.foldl_cons]
  exact get?_foldl_addCall_of_get? hfound back

/-! ### What the graph has -/

/-- The graph has what the document says. -/
structure Depicts (document program : Json) (graph : CallGraph) : Prop where
  /-- The nodes are the names of methods and of what they call, after the program. -/
  mem_nodes_iff : ∀ id, id ∈ graph.nodes.keys ↔
    ∃ name, (name ∈ document.methodNames ∨ name ∈ document.calleeNames) ∧
      id = nodeId program (.text name)
  /-- A node is local exactly when a method is listed under its name. -/
  local_iff : ∀ name attributes, graph.nodes.get? (nodeId program (.text name)) = some attributes →
    (attributes.get? (lit "is_external") = some (.bool false) ↔ name ∈ document.methodNames)
  /-- A local node shows the address of the last method of its name. -/
  local_node : ∀ name method, document.lastMethod? name = some method →
    ∃ attributes, graph.nodes.get? (nodeId program (.text name)) = some attributes ∧
      Shows attributes false method.address
  /-- Any other node shows the address of the first call of its name. -/
  external_node : ∀ name call, name ∉ document.methodNames →
    document.firstCall? name = some call →
    ∃ attributes, graph.nodes.get? (nodeId program (.text name)) = some attributes ∧
      Shows attributes true call.address
  /-- The arcs lead from callers to what some entry of theirs calls. -/
  mem_arcs_iff : ∀ arc, arc ∈ graph.arcs ↔ ∃ caller callee, document.ListsCall caller callee ∧
    arc = (nodeId program (.text caller), nodeId program (.text callee))
  node_count : graph.attributes.get? (lit "node_count") =
    some (.int (document.methodNames ++ document.calleeNames).toFinset.card)
  edge_count : graph.attributes.get? (lit "edge_count") =
    some (.int (document.namedCalls.map fun call => (call.caller, call.callee)).toFinset.card)

theorem nodeId_text_inj {name name' : Text} :
    nodeId program (.text name) = nodeId program (.text name') ↔ name = name' := by
  simp [nodeId, Json.display]

/-- Distinct images of the members of a list are as many as there are distinct members. -/
theorem length_eq_card_toFinset {α β : Type} [DecidableEq α] [DecidableEq β] {f : α → β}
    (hinjective : Function.Injective f) {images : List β} (hnodup : images.Nodup) {items : List α}
    (hmem_iff : ∀ b, b ∈ images ↔ ∃ a ∈ items, b = f a) :
    images.length = items.toFinset.card := by
  have hsame : images.toFinset = items.toFinset.image f := by
    ext b
    simp [hmem_iff, eq_comm]
  rw [← List.toFinset_card_of_nodup hnodup, hsame, Finset.card_image_of_injective _ hinjective]

/-- The first image that a search finds, with the items before and behind the one it is
the image of. -/
theorem exists_split_of_find?_map {α β : Type} {f : α → β} {p : β → Bool} {items : List α} {b : β}
    (hfirst : (items.map f).find? p = some b) :
    ∃ item front back, items = front ++ item :: back ∧ f item = b ∧ p b = true ∧
      ∀ earlier ∈ front, ¬ p (f earlier) = true := by
  rw [List.find?_map, Option.map_eq_some_iff] at hfirst
  obtain ⟨item, hfound, rfl⟩ := hfirst
  obtain ⟨hholds, front, back, hsplit, hothers⟩ := List.find?_eq_some_iff_append.mp hfound
  exact ⟨item, front, back, hsplit, rfl, hholds, fun earlier hmember => by
    simpa using hothers earlier hmember⟩

theorem mem_methodNames_iff (document : Json) (name : Text) :
    name ∈ document.methodNames ↔
      ∃ entry ∈ documentEntries document, entry.name.display = name := by
  rw [Json.methodNames, ← map_namedMethod_documentEntries, List.map_map, List.mem_map]
  rfl

theorem mem_calleeNames_iff (document : Json) (name : Text) :
    name ∈ document.calleeNames ↔
      ∃ call ∈ (documentEntries document).flatMap callsAt, call.callee.display = name := by
  rw [Json.calleeNames, ← map_namedCall_documentEntries, List.map_map, List.mem_map]
  rfl

section Depiction

variable (program source document : Json)

/-- The graph drawn from the entries of a document. -/
def documentDrawing : CallGraph :=
  drawing program source (documentEntries document) ((documentEntries document).flatMap callsAt)

theorem draws_documentDrawing : Draws program (documentEntries document)
    ((documentEntries document).flatMap callsAt) (documentDrawing program source document) :=
  (((draws_empty _ _).foldl_addMethod _).foldl_addCall _).counted

theorem mem_nodes_documentDrawing (id : Text) :
    id ∈ (documentDrawing program source document).nodes.keys ↔
      ∃ name, (name ∈ document.methodNames ∨ name ∈ document.calleeNames) ∧
        id = nodeId program (.text name) := by
  have hdraws := draws_documentDrawing program source document
  simp only [mem_methodNames_iff, mem_calleeNames_iff]
  constructor
  · intro hpresent
    obtain ⟨attributes, hfound⟩ := OrderedMap.exists_get?_of_mem_keys hpresent
    rcases hdraws.node id attributes hfound with ⟨entry, hmember, hid, -⟩ |
      ⟨-, call, hmember, hid, -⟩
    · exact ⟨entry.name.display, .inl ⟨entry, hmember, rfl⟩, hid⟩
    · exact ⟨call.callee.display, .inr ⟨call, hmember, rfl⟩, hid⟩
  · rintro ⟨_, ⟨entry, hmember, rfl⟩ | ⟨call, hmember, rfl⟩, rfl⟩
    · obtain ⟨attributes, hfound⟩ := hdraws.listed entry hmember
      exact OrderedMap.get?_mem_keys hfound
    · obtain ⟨attributes, hfound⟩ := hdraws.called call hmember
      exact OrderedMap.get?_mem_keys hfound

theorem local_iff_documentDrawing {name : Text} {attributes : Attributes}
    (hfound : (documentDrawing program source document).nodes.get? (nodeId program (.text name)) =
      some attributes) :
    attributes.get? (lit "is_external") = some (.bool false) ↔ name ∈ document.methodNames := by
  rw [mem_methodNames_iff]
  rcases (draws_documentDrawing program source document).node _ _ hfound with
    ⟨entry, hmember, hid, hshows⟩ | ⟨hunlisted, call, -, -, hshows⟩
  · exact iff_of_true hshows.external_eq ⟨entry, hmember, (nodeId_text_inj.mp hid).symm⟩
  · refine iff_of_false ?_ ?_
    · rw [hshows.external_eq]
      simp
    · rintro ⟨entry, hmember, rfl⟩
      exact hunlisted entry hmember rfl

theorem local_node_documentDrawing {name : Text} {method : NamedMethod}
    (hlast : document.lastMethod? name = some method) :
    ∃ attributes,
      (documentDrawing program source document).nodes.get? (nodeId program (.text name)) =
        some attributes ∧ Shows attributes false method.address := by
  rw [Json.lastMethod?, ← map_namedMethod_documentEntries, ← List.map_reverse] at hlast
  obtain ⟨entry, back, front, hsplit, rfl, hnamed, hothers⟩ := exists_split_of_find?_map hlast
  simp only [decide_eq_true_eq] at hnamed hothers
  subst hnamed
  -- what comes first in the reversed list comes last in the document
  rw [List.reverse_eq_iff, List.reverse_append, List.reverse_cons, List.append_assoc,
    List.singleton_append] at hsplit
  rw [documentDrawing, hsplit]
  refine exists_shows_last front.reverse entry ?_ source _
  intro later hmember hsame
  exact hothers later (List.mem_reverse.mp hmember) (nodeId_text_inj.mp hsame)

theorem external_node_documentDrawing {name : Text} {call : NamedCall}
    (hunlisted : name ∉ document.methodNames) (hfirst : document.firstCall? name = some call) :
    ∃ attributes,
      (documentDrawing program source document).nodes.get? (nodeId program (.text name)) =
        some attributes ∧ Shows attributes true call.address := by
  rw [Json.firstCall?, ← map_namedCall_documentEntries] at hfirst
  obtain ⟨entry, front, back, hsplit, rfl, hnamed, hothers⟩ := exists_split_of_find?_map hfirst
  simp only [decide_eq_true_eq] at hnamed hothers
  subst hnamed
  rw [documentDrawing, hsplit]
  refine exists_shows_first ?_ back ?_ source
  · intro method hmember hsame
    exact hunlisted
      ((mem_methodNames_iff document _).mpr ⟨method, hmember, nodeId_text_inj.mp hsame⟩)
  · intro earlier hmember hsame
    exact hothers earlier hmember (nodeId_text_inj.mp hsame)

theorem mem_arcs_documentDrawing (arc : Text × Text) :
    arc ∈ (documentDrawing program source document).arcs ↔
      ∃ names ∈ document.namedCalls.map fun call => (call.caller, call.callee),
        arc = (nodeId program (.text names.1), nodeId program (.text names.2)) := by
  rw [(draws_documentDrawing program source document).mem_arcs_iff,
    ← map_namedCall_documentEntries]
  simp only [List.mem_map, exists_exists_and_eq_and]
  rfl

theorem nodeCount_documentDrawing : (documentDrawing program source document).nodeCount =
    (document.methodNames ++ document.calleeNames).toFinset.card := by
  have hnodup := (documentDrawing program source document).nodes.nodup
  rw [nodeCount, OrderedMap.size, ← List.length_map (·.1)]
  refine length_eq_card_toFinset (f := fun name => nodeId program (.text name)) ?_ hnodup ?_
  · intro name name' hsame
    exact nodeId_text_inj.mp hsame
  · intro id
    simp only [List.mem_append]
    exact mem_nodes_documentDrawing program source document id

theorem edgeCount_documentDrawing : (documentDrawing program source document).edgeCount =
    (document.namedCalls.map fun call => (call.caller, call.callee)).toFinset.card := by
  have hnodup := (documentDrawing program source document).arcs_nodup
  refine length_eq_card_toFinset (f := fun names : Text × Text =>
    (nodeId program (.text names.1), nodeId program (.text names.2))) ?_ hnodup ?_
  · rintro ⟨caller, callee⟩ ⟨caller', callee'⟩ hsame
    simpa [nodeId_text_inj] using hsame
  · exact mem_arcs_documentDrawing program source document

/-- A drawn document is depicted. -/
theorem depicts_documentDrawing :
    Depicts document program (documentDrawing program source document) where
  mem_nodes_iff := mem_nodes_documentDrawing program source document
  local_iff _ _ := local_iff_documentDrawing program source document
  local_node _ _ := local_node_documentDrawing program source document
  external_node _ _ := external_node_documentDrawing program source document
  mem_arcs_iff arc := by
    rw [mem_arcs_documentDrawing]
    simp only [Json.listsCall_iff, List.mem_map, Prod.exists, Prod.mk.injEq]
  node_count := by
    rw [← nodeCount_documentDrawing]
    exact (notesCounts_counted _).nodes
  edge_count := by
    rw [← edgeCount_documentDrawing]
    exact (notesCounts_counted _).arcs

end Depiction

/-- Any report document has a graph, and the graph has what the document says: its nodes,
which of them are local, the addresses they show, its arcs, and the numbers of both. -/
theorem ofDocument_depicts {document : Json} (hreport : document.IsReport) (given source : Json) :
    ∃ graph, ofDocument document given source = .ok graph ∧
      graph.Depicts document (programOf ((document.field? (lit "assembly")).getD .null) given) :=
  ⟨_, ofDocument_eq hreport given source, depicts_documentDrawing _ source document⟩

/-- A document in which a method is listed twice and without a name, calls stand before
what they call, and a name is called with two addresses. -/
def tangledDocument : Json :=
  let method (name : String) (fields : List (String × Json)) (calls : List Json) : Json :=
    .record (("name", .text (lit name)) :: fields ++ [("called_methods", .list calls)])
  let call (name : String) (address : Int) : Json :=
    .record [("name", .text (lit name)), ("address", .int address)]
  .record [
    ("assembly", .text (lit "a")),
    ("types", .list [
      .record [("name", .text (lit "T")), ("methods", .list [
        method "f" [("rva", .int 16)] [call "g" 99, call "x" 7, .record [("address", .int 1)]],
        method "" [("rva", .int 32)] [call "y" 1],
        .record [("called_methods", .list [call "z" 1])]])],
      .record [("kind", .text (lit "Class"))],
      .record [("methods", .list [
        method "g" [] [call "x" 9, call "g" 0],
        .record [("name", .text (lit "f"))]])]])]

theorem tangledDocument_depicted :
    tangledDocument.IsReport ∧ ∃ graph, ofDocument tangledDocument .null .null = .ok graph ∧
      (∃ attributes, graph.nodes.get? (lit "a:f") = some attributes ∧
        Shows attributes false (.int 0)) ∧
      (∃ attributes, graph.nodes.get? (lit "a:x") = some attributes ∧
        Shows attributes true (.int 7)) ∧
      lit "a:y" ∉ graph.nodes.keys ∧ (lit "a:g", lit "a:g") ∈ graph.arcs ∧
      graph.attributes.get? (lit "node_count") = some (.int 3) ∧
      graph.attributes.get? (lit "edge_count") = some (.int 4) := by
  have hreport : tangledDocument.IsReport := by decide
  obtain ⟨graph, hdrawn, hdepicts⟩ := ofDocument_depicts hreport .null .null
  refine ⟨hreport, graph, hdrawn, hdepicts.local_node (lit "f") _ rfl,
    hdepicts.external_node (lit "x") _ (by decide) rfl, ?_, ?_, hdepicts.node_count,
    hdepicts.edge_count⟩
  · intro hpresent
    obtain ⟨name, hshown, hsame⟩ := (hdepicts.mem_nodes_iff _).mp hpresent
    have hnames : nodeId (.text (lit "a")) (.text (lit "y")) =
        nodeId (.text (lit "a")) (.text name) := hsame
    obtain rfl : lit "y" = name := nodeId_text_inj.mp hnames
    revert hshown
    decide
  · refine (hdepicts.mem_arcs_iff _).mpr ⟨lit "g", lit "g", ?_, rfl⟩
    exact (Json.listsCall_iff _ _ _).mpr ⟨_, .tail _ (.tail _ (.tail _ (.head _))), rfl, rfl⟩

end CallGraph
end CilAtlas
