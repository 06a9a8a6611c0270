import CilAtlas.Graph.Basic
import CilAtlas.Json.Display

/-!
# Call graphs as GraphML

GraphML knows texts, numbers and truth values.  Before a graph is written its
other attributes are brought into that form: nulls go, lists become texts with
commas, and objects become their documents.

Each attribute is declared by a key, one for each name, type and kind of owner.
Keys are numbered in the order of their first use, the graph's own attributes
first, and declared in the opposite order.
-/

namespace CilAtlas

/-- A value that GraphML can hold, when there is one. -/
def Json.graphMlValue? : Json → Option Json
  | .null => none
  | .list items => some (.text (Text.join (lit ",") (items.map Json.display)))
  | .object fields => some (.text (Json.object fields).compact)
  | value => some value

namespace OrderedMap

variable {κ α β : Type} [DecidableEq κ]

/-- Changes the values and drops the keys of those that have no new one. -/
def filterMap (f : α → Option β) (m : OrderedMap κ α) : OrderedMap κ β where
  entries := m.entries.filterMap fun entry => (f entry.2).map (entry.1, ·)
  nodup := by
    have hkeep (entries : List (κ × α)) :
        ((entries.filterMap fun entry => (f entry.2).map (entry.1, ·)).map (·.1)).Sublist
          (entries.map (·.1)) := by
      induction entries with
      | nil => simp
      | cons entry rest ih =>
        cases h : f entry.2 with
        | none => simpa [List.filterMap_cons, h] using ih.cons entry.1
        | some b => simpa [List.filterMap_cons, h] using ih.cons_cons entry.1
    exact m.nodup.sublist (hkeep m.entries)

end OrderedMap

namespace CallGraph

/-- The graph with attributes that GraphML can hold. -/
def sanitized (graph : CallGraph) : CallGraph :=
  { graph with
    attributes := graph.attributes.filterMap Json.graphMlValue?
    nodes := graph.nodes.filterMap fun attributes =>
      some (attributes.filterMap Json.graphMlValue?) }

end CallGraph

namespace GraphMl

/-- What an attribute belongs to. -/
inductive Scope where
  | graph
  | node
deriving DecidableEq

/-- The word for an owner. -/
def Scope.word : Scope → Text
  | .graph => lit "graph"
  | .node => lit "node"

/-- The word for the type of a value. -/
def typeWord : Json → Text
  | .bool _ => lit "boolean"
  | .int _ => lit "long"
  | .real _ => lit "double"
  | _ => lit "string"

/-- What a key declares. -/
structure Key where
  name : Text
  type : Text
  scope : Scope
deriving DecidableEq

/-- The key of an attribute. -/
def keyOf (scope : Scope) (entry : Text × Json) : Key :=
  ⟨entry.1, typeWord entry.2, scope⟩

/-- The keys of a graph in the order of their first use. -/
def keys (graph : CallGraph) : List Key :=
  let used := graph.attributes.entries.map (keyOf .graph) ++
    graph.nodes.values.flatMap fun attributes => attributes.entries.map (keyOf .node)
  used.foldl (fun seen key => if seen.contains key then seen else seen ++ [key]) []

/-- The name of a key by its number. -/
def keyId (number : Nat) : Text :=
  lit "d" ++ Text.ofNat number

/-- A code point in running text.  What no encoding can hold is written by its
number. -/
def escapeContent (c : CodePoint) : Text :=
  if c = CodePoint.ofChar '&' then lit "&amp;"
  else if c = CodePoint.ofChar '<' then lit "&lt;"
  else if c = CodePoint.ofChar '>' then lit "&gt;"
  else if c.isSurrogate then lit "&#" ++ Text.ofNat c.toNat ++ lit ";"
  else [c]

/-- A code point in the value of an XML attribute. -/
def escapeValue (c : CodePoint) : Text :=
  if c = CodePoint.ofChar '"' then lit "&quot;"
  else if c = CodePoint.ofChar '\r' then lit "&#13;"
  else if c = CodePoint.ofChar '\n' then lit "&#10;"
  else if c = CodePoint.ofChar '\t' then lit "&#09;"
  else escapeContent c

/-- A value in double quotes. -/
def quotedValue (t : Text) : Text :=
  lit "\"" ++ t.flatMap escapeValue ++ lit "\""

/-- A line at the given depth. -/
def line (depth : Nat) (t : Text) : Text :=
  List.replicate (2 * depth) (CodePoint.ofChar ' ') ++ t ++ lit "\n"

/-- The declaration of a key. -/
def keyLine (number : Nat) (key : Key) : Text :=
  line 1 (lit "<key id=" ++ quotedValue (keyId number) ++ lit " for=" ++
    quotedValue key.scope.word ++ lit " attr.name=" ++ quotedValue key.name ++
    lit " attr.type=" ++ quotedValue key.type ++ lit " />")

/-- An attribute's value under its key. -/
def dataLine (keys : List Key) (depth : Nat) (scope : Scope) (entry : Text × Json) : Text :=
  let key := quotedValue (keyId (keys.idxOf (keyOf scope entry)))
  let content := entry.2.display.flatMap escapeContent
  line depth (if content.isEmpty then lit "<data key=" ++ key ++ lit " />"
    else lit "<data key=" ++ key ++ lit ">" ++ content ++ lit "</data>")

/-- A node with its attributes. -/
def nodeLines (keys : List Key) (node : Text × Attributes) : Text :=
  let id := quotedValue node.1
  if node.2.entries.isEmpty then line 2 (lit "<node id=" ++ id ++ lit " />")
  else line 2 (lit "<node id=" ++ id ++ lit ">") ++
    node.2.entries.flatMap (dataLine keys 3 .node) ++ line 2 (lit "</node>")

/-- An edge with its ends. -/
def edgeLine (edge : Text × Text) : Text :=
  line 2 (lit "<edge source=" ++ quotedValue edge.1 ++ lit " target=" ++ quotedValue edge.2 ++
    lit " />")

/-- The opening of a GraphML file. -/
def opening : Text :=
  line 0 (lit "<?xml version='1.0' encoding='utf-8'?>") ++
  line 0 (lit "<graphml xmlns=\"http://graphml.graphdrawing.org/xmlns\"" ++
    lit " xmlns:xsi=\"http://www.w3.org/2001/XMLSchema-instance\"" ++
    lit " xsi:schemaLocation=\"http://graphml.graphdrawing.org/xmlns" ++
    lit " http://graphml.graphdrawing.org/xmlns/1.0/graphml.xsd\">")

/-- The element of the graph itself. -/
def graphLines (keys : List Key) (graph : CallGraph) : Text :=
  let content := graph.nodes.entries.flatMap (nodeLines keys) ++ graph.edges.flatMap edgeLine ++
    graph.attributes.entries.flatMap (dataLine keys 2 .graph)
  if content.isEmpty then line 1 (lit "<graph edgedefault=\"directed\" />")
  else line 1 (lit "<graph edgedefault=\"directed\">") ++ content ++ line 1 (lit "</graph>")

end GraphMl

/-- The GraphML file of a graph whose attributes GraphML can hold. -/
def CallGraph.graphMl (graph : CallGraph) : Text :=
  let keys := GraphMl.keys graph
  GraphMl.opening ++
    (keys.mapIdx GraphMl.keyLine).reverse.flatten ++
    GraphMl.graphLines keys graph ++ GraphMl.line 0 (lit "</graphml>")

end CilAtlas
