import CilAtlas.Graph.Basic
import CilAtlas.Graph.Programs

/-!
# Merging call graphs

Graphs are put on top of each other one by one, while their sources and programs
are noted.  Nodes carry the program in their names, so graphs of different
programs share a node only when the name of one of the programs holds a colon.
-/

namespace CilAtlas

/-- A merged graph with the sources and programs met so far. -/
structure Merging where
  graph : CallGraph
  sources : List Json
  programs : Programs

namespace Merging

/-- Nothing is merged yet. -/
def start : Merging where
  graph := .empty (OrderedMap.ofList [(lit "name", .text (lit "merged_call_graph"))])
  sources := []
  programs := Programs.empty

/-- Puts a graph on top.  A graph without source is noted under the given one. -/
def add (merging : Merging) (path : Text) (graph : CallGraph) : Except ProgramFault Merging := do
  let source := (graph.attributes.get? (lit "source")).getD .null
  let program := (graph.attributes.get? (lit "program")).getD .null
  let programs ← if program.isPresent then merging.programs.add program else pure merging.programs
  return {
    graph := merging.graph.compose graph
    sources := merging.sources ++ [if source.isPresent then source else .text path]
    programs := programs }

/-- The merged graph with what was noted. -/
def finish (merging : Merging) : Except ProgramFault CallGraph := do
  let programs ← merging.programs.sorted
  let noted := (merging.graph.setAttribute (lit "sources") (.list merging.sources)).setAttribute
    (lit "programs") (.list programs)
  return noted.counted

end Merging
end CilAtlas
