import CilAtlas.Json.Basic
import CilAtlas.OrderedMap

/-!
# Call graphs

A directed graph whose nodes and which itself carry attributes.  Nodes keep the
order in which they were first added.  Adding a node again updates its
attributes, and adding an arc again changes nothing.
-/

namespace CilAtlas

/-- Named values in order of first insertion. -/
abbrev Attributes := OrderedMap Text Json

/-- A directed graph with attributes. -/
structure CallGraph where
  attributes : Attributes
  nodes : OrderedMap Text Attributes
  /-- The arcs in the order in which they were added. -/
  arcs : List (Text × Text)
  arcs_nodup : arcs.Nodup

namespace CallGraph

/-- The graph without nodes. -/
def empty (attributes : Attributes) : CallGraph :=
  ⟨attributes, OrderedMap.empty, [], List.nodup_nil⟩

instance : Inhabited CallGraph := ⟨empty OrderedMap.empty⟩

/-- Adds a node, or updates the attributes of one that is there. -/
def addNode (graph : CallGraph) (id : Text) (attributes : List (Text × Json)) : CallGraph :=
  let present := (graph.nodes.get? id).getD OrderedMap.empty
  { graph with nodes := graph.nodes.insert id (present.insertAll attributes) }

/-- Adds an arc between two nodes. -/
def addArc (graph : CallGraph) (source target : Text) : CallGraph :=
  if h : (source, target) ∈ graph.arcs then graph
  else {
    graph with
    arcs := graph.arcs ++ [(source, target)]
    arcs_nodup := by
      rw [List.nodup_append]
      refine ⟨graph.arcs_nodup, by simp, ?_⟩
      intro arc hpresent arc' hfound
      simp only [List.mem_singleton] at hfound
      subst hfound
      exact fun hsame => h (hsame ▸ hpresent) }

/-- Gives the graph an attribute. -/
def setAttribute (graph : CallGraph) (name : Text) (value : Json) : CallGraph :=
  { graph with attributes := graph.attributes.insert name value }

/-- How many nodes there are. -/
def nodeCount (graph : CallGraph) : Nat :=
  graph.nodes.size

/-- How many arcs there are. -/
def edgeCount (graph : CallGraph) : Nat :=
  graph.arcs.length

/-- The arcs by source in the order of the nodes. -/
def edges (graph : CallGraph) : List (Text × Text) :=
  graph.nodes.keys.flatMap fun source => graph.arcs.filter (·.1 = source)

/-- Notes the numbers of nodes and arcs among the attributes. -/
def counted (graph : CallGraph) : CallGraph :=
  (graph.setAttribute (lit "node_count") (.int graph.nodeCount)).setAttribute
    (lit "edge_count") (.int graph.edgeCount)

/-- Puts a second graph on top of a first one, whose attributes give way. -/
def compose (below above : CallGraph) : CallGraph :=
  let noted : CallGraph :=
    { below with attributes := below.attributes.insertAll above.attributes.entries }
  let joined := above.nodes.entries.foldl
    (fun graph node => graph.addNode node.1 node.2.entries) noted
  above.arcs.foldl (fun graph arc => graph.addArc arc.1 arc.2) joined

theorem mem_arcs_addArc (graph : CallGraph) (source target : Text) (arc : Text × Text) :
    arc ∈ (graph.addArc source target).arcs ↔ arc ∈ graph.arcs ∨ arc = (source, target) := by
  unfold addArc
  split
  · next hpresent =>
    constructor
    · exact Or.inl
    · rintro (h | rfl)
      · exact h
      · exact hpresent
  · simp

theorem nodes_addArc (graph : CallGraph) (source target : Text) :
    (graph.addArc source target).nodes = graph.nodes := by
  unfold addArc
  split <;> rfl

end CallGraph
end CilAtlas
