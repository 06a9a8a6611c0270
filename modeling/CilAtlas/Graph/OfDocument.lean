import CilAtlas.Graph.Basic
import CilAtlas.Json.Display

/-!
# The call graph of a report

A report document lists methods, and with each the methods it calls.  Every
named method becomes a node, every called one that is not listed an external
node, and every call an arc.  The methods come first, so it does not matter
whether a method is called before it is listed.

Documents need not come from this library, so any value may stand anywhere.
-/

namespace CilAtlas

/-- Why a document is no report. -/
inductive DocumentFault where
  /-- A field is asked of something that is no object. -/
  | notObject
  /-- Something that has no items stands in the place of a list. -/
  | notIterable
deriving DecidableEq

namespace Json

/-- A field of an object, or the given value when the object lacks it. -/
def member (document : Json) (name : String) (otherwise : Json) : Except DocumentFault Json :=
  match document with
  | object fields => .ok ((lookup? (lit name) fields).getD otherwise)
  | _ => .error .notObject

/-- The items of a value: of a text its code points, of an object its names. -/
def elements : Json → Except DocumentFault (List Json)
  | list items => .ok items
  | text value => .ok (value.map fun c => text [c])
  | object fields => .ok (fields.map fun field => text field.1)
  | _ => .error .notIterable

/-- The items of a field, none when the object lacks it. -/
def memberElements (document : Json) (name : String) : Except DocumentFault (List Json) := do
  (← document.member name (list [])).elements

end Json

/-- A listed method with the type that lists it. -/
structure MethodEntry where
  type : Json
  method : Json
  /-- The method's name; any value that counts as present. -/
  name : Json

/-- A call with the names of both ends. -/
structure CallEntry where
  caller : Json
  callee : Json
  address : Json

namespace CallGraph

/-- The name of a node: the program and the method's name. -/
def nodeId (program name : Json) : Text :=
  program.display ++ lit ":" ++ name.display

/-- Fields of a listed method that its node keeps when they are there. -/
def keptFields : List String := ["rva", "size", "return_type"]

/-- The named methods of one type. -/
def entriesOfType (type : Json) : Except DocumentFault (List MethodEntry) := do
  let entries ← (← type.memberElements "methods").mapM fun method => do
    return (⟨type, method, ← method.member "name" .null⟩ : MethodEntry)
  return entries.filter (·.name.isPresent)

/-- The named methods of a document. -/
def methodEntries (document : Json) : Except DocumentFault (List MethodEntry) := do
  let types ← document.memberElements "types"
  return (← types.mapM entriesOfType).flatten

/-- The calls of one method that name their callee. -/
def callsOfEntry (entry : MethodEntry) : Except DocumentFault (List CallEntry) := do
  let calls ← (← entry.method.memberElements "called_methods").mapM fun call => do
    let callee ← call.member "name" .null
    return (⟨entry.name, callee, ← call.member "address" (.int 0)⟩ : CallEntry)
  return calls.filter (·.callee.isPresent)

/-- The attributes of a listed method's node. -/
def localAttributes (program : Json) (entry : MethodEntry) : List (Text × Json) :=
  let field (document : Json) (name : String) (otherwise : Json) : Json :=
    (document.field? (lit name)).getD otherwise
  [(lit "program", program), (lit "name", entry.name),
    (lit "address", field entry.method "rva" (.int 0)),
    (lit "type", field entry.type "name" .null),
    (lit "kind", field entry.type "kind" .null),
    (lit "is_external", .bool false)] ++
  keptFields.filterMap fun name => (entry.method.field? (lit name)).map (lit name, ·)

/-- The attributes of the node of a method that is only called. -/
def externalAttributes (program : Json) (call : CallEntry) : List (Text × Json) :=
  [(lit "program", program), (lit "name", call.callee), (lit "address", call.address),
    (lit "is_external", .bool true)]

/-- Adds the node of a listed method. -/
def addMethod (program : Json) (graph : CallGraph) (entry : MethodEntry) : CallGraph :=
  graph.addNode (nodeId program entry.name) (localAttributes program entry)

/-- Adds a call, and the node of its callee when there is none. -/
def addCall (program : Json) (graph : CallGraph) (call : CallEntry) : CallGraph :=
  let callee := nodeId program call.callee
  let graph :=
    if graph.nodes.contains callee then graph
    else graph.addNode callee (externalAttributes program call)
  graph.addArc (nodeId program call.caller) callee

/-- The name of the program that a document describes. -/
def programOf (assembly program : Json) : Json :=
  if assembly.isPresent then assembly
  else if program.isPresent then program
  else .text (lit "assembly")

/-- The graph of a document from a source.  The given program counts when the
document names none; null stands for no program and for no source. -/
def ofDocument (document program source : Json) : Except DocumentFault CallGraph := do
  let program := programOf (← document.member "assembly" .null) program
  let entries ← methodEntries document
  let calls ← entries.mapM callsOfEntry
  let bare := empty (OrderedMap.ofList
    [(lit "program", program), (lit "source", source)])
  let listed := entries.foldl (addMethod program) bare
  return (calls.flatten.foldl (addCall program) listed).counted

end CallGraph
end CilAtlas
