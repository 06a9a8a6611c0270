import CilAtlas.Proofs.GraphDrawing
import Mathlib.Algebra.Ring.Nat
import Mathlib.Data.List.Nodup
import Mathlib.Data.List.Perm.Basic

/-!
# Graphs side by side

Composing puts graphs on top of each other.  Where no node is in two of them, nothing
is overwritten: the nodes and arcs are those of the first graph, followed by those of
the second, and so on.

The nodes of a graph begin with the name of its program and a colon, and each notes
the program.  So two programs stay apart unless the name of one, with a colon, begins
the name of the other, and a node of both could not keep what it notes in each.
-/

namespace CilAtlas

/-! ### Composing graphs without common nodes -/

theorem OrderedMap.empty_insertAll_entries {κ α : Type} [DecidableEq κ] (m : OrderedMap κ α) :
    (empty : OrderedMap κ α).insertAll m.entries = m := by
  have hsame : ((empty : OrderedMap κ α).insertAll m.entries).entries = m.entries :=
    entries_ofList m.nodup
  generalize (empty : OrderedMap κ α).insertAll m.entries = other at hsame
  cases m
  cases other
  cases hsame
  rfl

/-- Steps that append what is new append everything, when all of it is new. -/
theorem foldl_appends {γ α β κ : Type} (view : γ → List β) (key : β → κ) (parts : α → List β)
    {step : γ → α → γ}
    (happends : ∀ c a, ((view c ++ parts a).map key).Nodup → view (step c a) = view c ++ parts a)
    {c : γ} {items : List α} (hfresh : ((view c ++ items.flatMap parts).map key).Nodup) :
    view (items.foldl step c) = view c ++ items.flatMap parts := by
  induction items generalizing c with
  | nil => exact (List.append_nil _).symm
  | cons a items ih =>
    rw [List.flatMap_cons, ← List.append_assoc] at hfresh ⊢
    have hfirst : view (step c a) = view c ++ parts a := by
      rw [List.map_append] at hfresh
      exact happends c a (List.nodup_append.mp hfresh).1
    rw [← hfirst] at hfresh ⊢
    exact ih hfresh

/-- The same for steps that append one item each. -/
theorem foldl_appends_each {γ β κ : Type} (view : γ → List β) (key : β → κ) {step : γ → β → γ}
    (happends : ∀ c b, key b ∉ (view c).map key → view (step c b) = view c ++ [b])
    {c : γ} {items : List β} (hfresh : ((view c ++ items).map key).Nodup) :
    view (items.foldl step c) = view c ++ items := by
  rw [← List.flatMap_singleton' items] at hfresh
  refine (foldl_appends view key (fun b => [b]) ?_ hfresh).trans (by rw [List.flatMap_singleton'])
  intro c b hfresh
  refine happends c b ?_
  intro hpresent
  rw [List.map_append] at hfresh
  exact (List.nodup_append.mp hfresh).2.2 _ hpresent _ (by simp) rfl

namespace CallGraph

/-- No node is in two of the graphs. -/
def Apart (graphs : List CallGraph) : Prop :=
  graphs.Pairwise fun graph other => graph.nodes.keys.Disjoint other.nodes.keys

/-- The merged graph has the nodes of all the graphs, each with the attributes of its
own graph, and their arcs, and nothing is in two of them. -/
structure DisjointUnion (merged : CallGraph) (graphs : List CallGraph) : Prop where
  node_iff : ∀ id attributes, merged.nodes.get? id = some attributes ↔
    ∃ graph ∈ graphs, graph.nodes.get? id = some attributes
  arc_iff : ∀ arc, arc ∈ merged.arcs ↔ ∃ graph ∈ graphs, arc ∈ graph.arcs
  nodeCount_eq : merged.nodeCount = (graphs.map nodeCount).sum
  edgeCount_eq : merged.edgeCount = (graphs.map edgeCount).sum

/-- The same nodes with the same attributes, and the same arcs. -/
structure SameContent (graph other : CallGraph) : Prop where
  nodes : ∀ id, graph.nodes.get? id = other.nodes.get? id
  arcs : ∀ arc, arc ∈ graph.arcs ↔ arc ∈ other.arcs

variable {graph below above : CallGraph}

theorem addNode_of_notMem {id : Text} (habsent : id ∉ graph.nodes.keys) (attributes : Attributes) :
    (graph.addNode id attributes.entries).nodes.entries =
      graph.nodes.entries ++ [(id, attributes)] := by
  have hmissing : graph.nodes.get? id = none := by
    cases hfound : graph.nodes.get? id with
    | none => rfl
    | some _ => exact absurd (OrderedMap.get?_mem_keys hfound) habsent
  have hfresh : ((graph.nodes.get? id).getD OrderedMap.empty).insertAll attributes.entries =
      attributes := by
    rw [hmissing]
    exact attributes.empty_insertAll_entries
  show OrderedMap.put id _ graph.nodes.entries = _
  rw [hfresh]
  exact OrderedMap.put_of_notMem attributes habsent

theorem arcs_foldl_addNode (nodes : List (Text × Attributes)) :
    (nodes.foldl (fun graph node => graph.addNode node.1 node.2.entries) graph).arcs =
      graph.arcs := by
  induction nodes generalizing graph with
  | nil => rfl
  | cons node nodes ih => exact ih

theorem nodes_foldl_addArc (arcs : List (Text × Text)) :
    (arcs.foldl (fun graph arc => graph.addArc arc.1 arc.2) graph).nodes = graph.nodes := by
  induction arcs generalizing graph with
  | nil => rfl
  | cons arc arcs ih => rw [List.foldl_cons, ih, nodes_addArc]

theorem addArc_of_notMem {arc : Text × Text} (habsent : arc ∉ graph.arcs) :
    (graph.addArc arc.1 arc.2).arcs = graph.arcs ++ [arc] := by
  rw [addArc, dif_neg habsent]

theorem nodes_compose
    (hfresh : ((below.nodes.entries ++ above.nodes.entries).map Prod.fst).Nodup) :
    (below.compose above).nodes.entries = below.nodes.entries ++ above.nodes.entries := by
  rw [compose, nodes_foldl_addArc]
  refine foldl_appends_each (fun graph : CallGraph => graph.nodes.entries) Prod.fst ?_ ?_
  · intro graph node habsent
    exact addNode_of_notMem habsent node.2
  · exact hfresh

theorem arcs_compose (hfresh : ((below.arcs ++ above.arcs).map id).Nodup) :
    (below.compose above).arcs = below.arcs ++ above.arcs := by
  rw [compose]
  generalize hjoined : above.nodes.entries.foldl _ _ = graph
  have harcs : graph.arcs = below.arcs := by
    rw [← hjoined, arcs_foldl_addNode]
  rw [← harcs] at hfresh ⊢
  refine foldl_appends_each (fun graph : CallGraph => graph.arcs) id ?_ hfresh
  intro graph arc habsent
  rw [List.map_id] at habsent
  exact addArc_of_notMem habsent

/-- Composing one graph after the other lists their nodes one after the other. -/
theorem nodes_foldl_compose {graphs : List CallGraph}
    (hfresh : ((graph.nodes.entries ++ graphs.flatMap (·.nodes.entries)).map Prod.fst).Nodup) :
    (graphs.foldl compose graph).nodes.entries =
      graph.nodes.entries ++ graphs.flatMap (·.nodes.entries) :=
  foldl_appends (fun graph : CallGraph => graph.nodes.entries) Prod.fst _
    (fun _ _ => nodes_compose) hfresh

theorem arcs_foldl_compose {graphs : List CallGraph}
    (hfresh : ((graph.arcs ++ graphs.flatMap (·.arcs)).map id).Nodup) :
    (graphs.foldl compose graph).arcs = graph.arcs ++ graphs.flatMap (·.arcs) :=
  foldl_appends (fun graph : CallGraph => graph.arcs) id _ (fun _ _ => arcs_compose) hfresh

variable {merged : CallGraph} {graphs : List CallGraph}

theorem Apart.nodup_keys (hapart : Apart graphs) : (graphs.flatMap (·.nodes.keys)).Nodup :=
  List.nodup_flatMap.mpr ⟨fun graph _ => graph.nodes.nodup, hapart⟩

theorem Apart.perm (hapart : Apart graphs) {others : List CallGraph} (hsame : others.Perm graphs) :
    Apart others :=
  (List.nodup_flatMap.mp ((hsame.flatMap_right _).nodup_iff.mpr hapart.nodup_keys)).2

/-- Every arc leads to a node, so arcs are apart where nodes are. -/
theorem Apart.nodup_arcs (hapart : Apart graphs)
    (htarget : ∀ graph ∈ graphs, ∀ arc ∈ graph.arcs, arc.2 ∈ graph.nodes.keys) :
    (graphs.flatMap (·.arcs)).Nodup := by
  refine List.nodup_flatMap.mpr ⟨fun graph _ => graph.arcs_nodup, ?_⟩
  refine hapart.imp_of_mem ?_
  intro graph other hgraph hother hdisjoint arc hinGraph hinOther
  exact hdisjoint (htarget graph hgraph arc hinGraph) (htarget other hother arc hinOther)

/-- Graphs side by side are a disjoint union. -/
theorem disjointUnion_of_entries (hnodes : merged.nodes.entries = graphs.flatMap (·.nodes.entries))
    (harcs : merged.arcs = graphs.flatMap (·.arcs)) : merged.DisjointUnion graphs where
  node_iff := by
    intro id attributes
    simp only [OrderedMap.get?_eq_some_iff, hnodes, List.mem_flatMap]
  arc_iff := by
    intro arc
    rw [harcs, List.mem_flatMap]
  nodeCount_eq := by
    show merged.nodes.entries.length = _
    rw [hnodes, List.length_flatMap]
    rfl
  edgeCount_eq := by
    show merged.arcs.length = _
    rw [harcs, List.length_flatMap]
    rfl

theorem DisjointUnion.sameContent {merged' : CallGraph} {graphs' : List CallGraph}
    (hunion : merged.DisjointUnion graphs) (hunion' : merged'.DisjointUnion graphs')
    (hsame : graphs'.Perm graphs) : merged'.SameContent merged where
  nodes := by
    intro id
    ext attributes
    rw [hunion.node_iff, hunion'.node_iff]
    simp only [hsame.mem_iff]
  arcs := by
    intro arc
    rw [hunion.arc_iff, hunion'.arc_iff]
    simp only [hsame.mem_iff]

/-! ### The graph of one program -/

/-- The program that a graph is noted to show. -/
def program? (graph : CallGraph) : Option Json :=
  graph.attributes.get? (lit "program")

/-- The graph notes how many nodes and arcs it has. -/
structure NotesCounts (graph : CallGraph) : Prop where
  nodes : graph.attributes.get? (lit "node_count") = some (.int graph.nodeCount)
  arcs : graph.attributes.get? (lit "edge_count") = some (.int graph.edgeCount)

theorem notesCounts_counted (graph : CallGraph) : graph.counted.NotesCounts where
  nodes := by
    simp only [counted, setAttribute, OrderedMap.get?_insert, lit_inj]
    rfl
  arcs := by
    simp only [counted, setAttribute, OrderedMap.get?_insert, lit_inj]
    rfl

/-- The graph and each of its nodes note the program. -/
structure MarkedWith (program : Json) (graph : CallGraph) : Prop where
  graph_eq : graph.program? = some program
  node_eq : ∀ id attributes, graph.nodes.get? id = some attributes →
    attributes.get? (lit "program") = some program

variable {program : Json}

theorem MarkedWith.addNode (hmarked : graph.MarkedWith program) (id : Text)
    {rest : List (Text × Json)} (habsent : lit "program" ∉ rest.map Prod.fst) :
    (graph.addNode id ((lit "program", program) :: rest)).MarkedWith program where
  graph_eq := hmarked.graph_eq
  node_eq := by
    intro id' attributes hfound
    rw [get?_addNode] at hfound
    split at hfound
    · cases hfound
      exact OrderedMap.get?_insertAll_of_last _ [] habsent
    · exact hmarked.node_eq id' attributes hfound

theorem MarkedWith.addMethod (hmarked : graph.MarkedWith program) (entry : MethodEntry) :
    (addMethod program graph entry).MarkedWith program := by
  refine hmarked.addNode _ ?_
  have habsent := not_mem_keptAttributes entry (show lit "program" ∉ _ by decide)
  -- five attributes are set before those kept from the document
  rintro (_ | ⟨_, _ | ⟨_, _ | ⟨_, _ | ⟨_, _ | ⟨_, hmember⟩⟩⟩⟩⟩)
  exact habsent hmember

theorem MarkedWith.addArc (hmarked : graph.MarkedWith program) (source target : Text) :
    (graph.addArc source target).MarkedWith program := by
  unfold CallGraph.addArc
  split
  · exact hmarked
  · exact ⟨hmarked.graph_eq, hmarked.node_eq⟩

theorem MarkedWith.addCall (hmarked : graph.MarkedWith program) (call : CallEntry) :
    (addCall program graph call).MarkedWith program := by
  rw [addCall_eq]
  refine MarkedWith.addArc ?_ _ _
  unfold addCallee
  split
  · exact hmarked
  · exact hmarked.addNode _ (show lit "program" ∉ [lit "name", lit "address", lit "is_external"]
      by decide)

theorem MarkedWith.counted (hmarked : graph.MarkedWith program) :
    graph.counted.MarkedWith program where
  graph_eq := by
    rw [← hmarked.graph_eq]
    simp only [program?, CallGraph.counted, setAttribute, OrderedMap.get?_insert, lit_inj]
    rfl
  node_eq := hmarked.node_eq

/-- What the graph of one program keeps to itself. -/
structure OfProgram (program : Json) (graph : CallGraph) : Prop where
  marked : graph.MarkedWith program
  named : ∀ id ∈ graph.nodes.keys, ∃ name, id = nodeId program name
  target : ∀ arc ∈ graph.arcs, arc.2 ∈ graph.nodes.keys
  counts : graph.NotesCounts

theorem exists_ofProgram {document given source : Json}
    (hdrawn : ofDocument document given source = .ok graph) :
    ∃ program, graph.OfProgram program := by
  obtain ⟨assembly, hassembly, hlater⟩ := Outcome.bind_eq_ok_iff.mp hdrawn
  obtain ⟨entries, hentries, hlater⟩ := Outcome.bind_eq_ok_iff.mp hlater
  obtain ⟨calls, hcalls, hresult⟩ := Outcome.bind_eq_ok_iff.mp hlater
  obtain ⟨graph', hdrawn', hdraws⟩ := exists_draws given source hassembly hentries hcalls
  obtain rfl : graph = graph' := Except.ok.inj (hdrawn.symm.trans hdrawn')
  obtain rfl := Outcome.pure_eq_ok_iff.mp hresult
  refine ⟨programOf assembly given, ?_, ?_, ?_, notesCounts_counted _⟩
  -- the mark is an invariant of the drawing; names and targets are read off what is drawn
  · have hbare : (empty (OrderedMap.ofList [(lit "program", programOf assembly given),
        (lit "source", source)])).MarkedWith (programOf assembly given) :=
      ⟨OrderedMap.get?_insertAll_of_last _ [] (show lit "program" ∉ [lit "source"] by decide),
        fun _ _ hfound => by cases hfound⟩
    have hlisted := List.foldlRecOn entries (CallGraph.addMethod (programOf assembly given)) hbare
      fun _ hmarked entry _ => hmarked.addMethod entry
    exact (List.foldlRecOn calls.flatten (CallGraph.addCall (programOf assembly given)) hlisted
      fun _ hmarked call _ => hmarked.addCall call).counted
  · intro id hpresent
    obtain ⟨attributes, hfound⟩ := OrderedMap.exists_get?_of_mem_keys hpresent
    rcases hdraws.node id attributes hfound with ⟨entry, -, hid, -⟩ | ⟨-, call, -, hid, -⟩
    · exact ⟨entry.name, hid⟩
    · exact ⟨call.callee, hid⟩
  · intro arc hpresent
    obtain ⟨call, hmember, rfl⟩ := (hdraws.mem_arcs_iff arc).mp hpresent
    obtain ⟨attributes, hfound⟩ := hdraws.called call hmember
    exact OrderedMap.get?_mem_keys hfound

/-- Nodes of two programs have different names, unless the name of one program, with a
colon, begins the other's. -/
theorem nodeId_ne {p q : Text} (hdifferent : p ≠ q) (hp : ¬ p ++ lit ":" <+: q)
    (hq : ¬ q ++ lit ":" <+: p) (name name' : Json) :
    nodeId (.text p) name ≠ nodeId (.text q) name' := by
  intro hsame
  have hfirst : p ++ lit ":" <+: nodeId (.text p) name := List.prefix_append _ _
  have hsecond : q ++ lit ":" <+: nodeId (.text p) name := hsame ▸ List.prefix_append _ _
  -- two beginnings of one name: the shorter begins the longer
  rcases List.prefix_or_prefix_of_prefix hfirst hsecond with h | h
  · rcases List.prefix_concat_iff.mp h with hequal | hshorter
    · exact hdifferent (List.append_cancel_right hequal)
    · exact hp hshorter
  · rcases List.prefix_concat_iff.mp h with hequal | hshorter
    · exact hdifferent (List.append_cancel_right hequal).symm
    · exact hq hshorter

theorem pairwise_program?_ne {programs : List Text}
    (hnamed : graphs.map program? = programs.map fun program => some (.text program))
    (hdistinct : programs.Nodup) :
    graphs.Pairwise fun graph other => graph.program? ≠ other.program? := by
  have hnames : (graphs.map program?).Nodup := by
    rw [hnamed]
    refine hdistinct.map ?_
    intro p q hsame
    exact Json.text.inj (Option.some.inj hsame)
  exact List.pairwise_map.mp hnames

/-- A node that is in two graphs would have to note two programs. -/
theorem DisjointUnion.apart (hunion : merged.DisjointUnion graphs)
    (howned : ∀ graph ∈ graphs, ∃ program, graph.OfProgram program)
    (hdistinct : graphs.Pairwise fun graph other => graph.program? ≠ other.program?) :
    Apart graphs := by
  refine hdistinct.imp_of_mem ?_
  intro graph other hgraph hother hdifferent id hinGraph hinOther
  obtain ⟨program, hofProgram⟩ := howned graph hgraph
  obtain ⟨program', hofProgram'⟩ := howned other hother
  obtain ⟨attributes, hfound⟩ := OrderedMap.exists_get?_of_mem_keys hinGraph
  obtain ⟨attributes', hfound'⟩ := OrderedMap.exists_get?_of_mem_keys hinOther
  have hshown := (hunion.node_iff id attributes).mpr ⟨graph, hgraph, hfound⟩
  have hshown' := (hunion.node_iff id attributes').mpr ⟨other, hother, hfound'⟩
  -- the union has one map of attributes for the node, so both graphs have that one
  obtain rfl : attributes = attributes' := Option.some.inj (hshown.symm.trans hshown')
  have hnoted := hofProgram.marked.node_eq id attributes hfound
  have hnoted' := hofProgram'.marked.node_eq id attributes hfound'
  apply hdifferent
  rw [hofProgram.marked.graph_eq, hofProgram'.marked.graph_eq, ← hnoted, ← hnoted']

theorem apart_of_names {programs : List Text}
    (howned : ∀ graph ∈ graphs, ∃ program, graph.OfProgram program)
    (hnamed : ∀ graph ∈ graphs, ∃ program ∈ programs, graph.program? = some (.text program))
    (hdistinct : graphs.Pairwise fun graph other => graph.program? ≠ other.program?)
    (hfree : ∀ p ∈ programs, ∀ q ∈ programs, ¬ p ++ lit ":" <+: q) : Apart graphs := by
  have hnodeNames : ∀ graph ∈ graphs, ∃ p ∈ programs, graph.program? = some (.text p) ∧
      ∀ id ∈ graph.nodes.keys, ∃ name, id = nodeId (.text p) name := by
    intro graph hmember
    obtain ⟨program, hofProgram⟩ := howned graph hmember
    obtain ⟨p, hp, hnoted⟩ := hnamed graph hmember
    obtain rfl : program = .text p :=
      Option.some.inj (hofProgram.marked.graph_eq.symm.trans hnoted)
    exact ⟨p, hp, hnoted, hofProgram.named⟩
  refine hdistinct.imp_of_mem ?_
  intro graph other hgraph hother hdifferent id hinGraph hinOther
  obtain ⟨p, hp, hnoted, hnames⟩ := hnodeNames graph hgraph
  obtain ⟨q, hq, hnoted', hnames'⟩ := hnodeNames other hother
  have hunequal : p ≠ q := by
    rintro rfl
    exact hdifferent (hnoted.trans hnoted'.symm)
  obtain ⟨name, hid⟩ := hnames id hinGraph
  obtain ⟨name', hid'⟩ := hnames' id hinOther
  exact nodeId_ne hunequal (hfree p hp q hq) (hfree q hq p hp) name name' (hid.symm.trans hid')

end CallGraph

end CilAtlas
