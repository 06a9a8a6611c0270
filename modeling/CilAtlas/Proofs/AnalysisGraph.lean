import CilAtlas.Proofs.AnalysisShape
import CilAtlas.Proofs.GraphDrawing

/-!
# The call graph of an analysis

The graph of an analysed assembly has an arc between two visited methods exactly
when the body of the first decodes and calls the second.  Nodes are texts, so
this rests on keys and call-site names being distinct: a call leads to the node
that it means, and to no other that happens to have the same name.

Nothing is said about the arcs that lead to methods that were not visited,
beyond the names of their nodes.
-/

namespace CilAtlas
namespace Store

variable {store : Store} {lister : Lister} {options : AnalysisOptions}
  {scanned : List ScannedMethod}

/-- The node of a method with the given key or call-site name. -/
def nodeOf (options : AnalysisOptions) (name : Text) : Text :=
  CallGraph.nodeId (CallGraph.programOf (.text options.assemblyName) .null) (.text name)

theorem nodeOf_inj {name name' : Text} (hsame : nodeOf options name = nodeOf options name') :
    name = name' :=
  List.append_cancel_left hsame

/-! ### What an entry shows of the calls -/

theorem Reports.fields {method : MethodDef} {reported : ReportedMethod}
    (hreports : store.Reports lister options scanned method reported) :
    store.keyOf method.handle options.style = .ok reported.name ∧ reported.rva = method.rva ∧
      reported.calls = store.callRecords options scanned
        ⟨method.handle, reported.name, method.rva⟩ method := by
  obtain ⟨key, _, _, _, _, hcomputed, -, -, rfl⟩ := hreports.parts
  exact ⟨hcomputed, rfl, rfl⟩

theorem Reports.calls_eq (hplain : options.selfReference = false) {method : MethodDef}
    {reported : ReportedMethod}
    (hreports : store.Reports lister options scanned method reported) :
    reported.calls = (store.callsOf method).entries.map fun entry =>
      (tableOf scanned).recordOf none entry.1 entry.2 := by
  rw [hreports.fields.2.2, callRecords, hplain]
  rfl

/-- A call record is right: it shows the visited method that is called, or the
call-site name of a callee that was not visited. -/
inductive Resolves (store : Store) (options : AnalysisOptions) (method : MethodDef)
    (call : CallRecord) : Prop
  | visited (callee : MethodDef) (hmember : callee ∈ store.visited options) (target : CallTarget)
      (hcalls : store.Calls method target) (hsame : target.handle = callee.handle)
      (hnamed : store.keyOf callee.handle options.style = .ok call.name)
      (hplaced : call.address = callee.rva)
  | unvisited (target : CallTarget) (hcalls : store.Calls method target)
      (habsent : ∀ callee ∈ store.visited options, callee.handle ≠ target.handle)
      (hnamed : store.callSiteName target.handle target.instantiation = .ok call.name)
      (hplaced : call.address = 0)

/-- The record of a callee is that of the visited method with its handle, if
there is one. -/
theorem recordOf_tableOf
    (hscans : List.Forall₂ (store.ScannedAs options.style) (store.visited options) scanned)
    (h : Handle) (fallback : Text) :
    (∃ callee ∈ store.visited options, callee.handle = h ∧ ∃ key,
      store.keyOf callee.handle options.style = .ok key ∧
      (tableOf scanned).recordOf none h fallback = ⟨key, callee.rva⟩) ∨
    (∀ callee ∈ store.visited options, callee.handle ≠ h) ∧
      (tableOf scanned).recordOf none h fallback = ⟨fallback, 0⟩ := by
  have hregisters := tableOf_registers scanned
  unfold LookupTable.recordOf
  cases hget : (tableOf scanned).get? h with
  | none =>
    -- every visited method was scanned, so its handle would be in the table
    refine .inr ⟨?_, rfl⟩
    rintro callee hmember rfl
    obtain ⟨s, hs, key, -, rfl⟩ := exists_mem_of_forall₂_left hscans hmember
    obtain ⟨found, hfound⟩ := hregisters.complete _ hs
    rw [LookupTable.get?, hfound] at hget
    cases hget
  | some found =>
    obtain ⟨s, hs, rfl, rfl⟩ := hregisters.sound h found hget
    obtain ⟨callee, hmember, key, hcomputed, rfl⟩ := exists_mem_of_forall₂_right hscans hs
    exact .inl ⟨callee, hmember, rfl, key, hcomputed, rfl⟩

theorem resolves_of_mem_calls (hkeyed : store.Keyed) (howners : store.OwnersDefined)
    (hplain : options.selfReference = false)
    (hscans : List.Forall₂ (store.ScannedAs options.style) (store.visited options) scanned)
    {method : MethodDef} {reported : ReportedMethod}
    (hreports : store.Reports lister options scanned method reported) {call : CallRecord}
    (hlisted : call ∈ reported.calls) : store.Resolves options method call := by
  rw [hreports.calls_eq hplain] at hlisted
  obtain ⟨entry, hmember, rfl⟩ := List.mem_map.mp hlisted
  obtain ⟨target, hcalls, hsame, hnamed⟩ := named_of_mem_callsOf hkeyed howners hmember
  rcases recordOf_tableOf hscans entry.1 entry.2 with
    ⟨callee, hcallee, hhandle, key, hcomputed, hrecord⟩ | ⟨habsent, hrecord⟩
  · refine .visited callee hcallee target hcalls (hsame.trans hhandle.symm) ?_ ?_
    · rw [hcomputed]
      exact congrArg (fun record => Except.ok record.name) hrecord.symm
    · exact congrArg CallRecord.address hrecord
  · refine .unvisited target hcalls (fun callee hcallee => ?_) ?_ ?_
    · rw [hsame]
      exact habsent callee hcallee
    · rw [hnamed]
      exact congrArg (fun record => Except.ok record.name) hrecord.symm
    · exact congrArg CallRecord.address hrecord

/-- A call of a visited method is recorded under the key of its callee. -/
theorem exists_call_of_calls (hkeyed : store.Keyed) (howners : store.OwnersDefined)
    (hplain : options.selfReference = false)
    (hscans : List.Forall₂ (store.ScannedAs options.style) (store.visited options) scanned)
    {method callee : MethodDef} {reported : ReportedMethod}
    (hreports : store.Reports lister options scanned method reported)
    (hmember : callee ∈ store.visited options) {target : CallTarget}
    (hcalls : store.Calls method target) (hsame : target.handle = callee.handle) :
    ∃ call ∈ reported.calls, store.keyOf callee.handle options.style = .ok call.name := by
  have hknown : callee.handle ∈ (store.callsOf method).keys :=
    (mem_keys_callsOf_iff hkeyed howners method _).mpr ⟨target, hcalls, hsame⟩
  obtain ⟨entry, hlisted, hentry⟩ := List.mem_map.mp hknown
  rw [hreports.calls_eq hplain]
  refine ⟨_, List.mem_map_of_mem hlisted, ?_⟩
  rcases recordOf_tableOf hscans entry.1 entry.2 with
    ⟨found, -, hhandle, key, hcomputed, hrecord⟩ | ⟨habsent, -⟩
  · have hkey : store.keyOf callee.handle options.style = .ok key := by
      rw [← hentry, ← hhandle]
      exact hcomputed
    rw [hkey]
    exact congrArg (fun record => Except.ok record.name) hrecord.symm
  · exact absurd hentry.symm (habsent callee hmember)

/-! ### Nodes and arcs -/

/-- Visited methods with one key are one method. -/
theorem eq_of_keyOf_eq (hkeyed : store.Keyed) (hfit : store.RidsFit) {method method' : MethodDef}
    (hmember : method ∈ store.visited options) (hmember' : method' ∈ store.visited options)
    {style style' : ParameterStyle} {key : Text}
    (hnamed : store.keyOf method.handle style = .ok key)
    (hnamed' : store.keyOf method'.handle style' = .ok key) : method = method' := by
  have hsame : method.handle = method'.handle :=
    (keyOf_marks hkeyed hfit hnamed).unique (keyOf_marks hkeyed hfit hnamed')
  have hfound := get?_of_mem_visited hkeyed hmember
  rw [hsame, get?_of_mem_visited hkeyed hmember'] at hfound
  exact (Option.some.inj hfound).symm

/-- The key of a visited method is no call-site name of a callee not visited. -/
theorem keyOf_ne_callSiteName (hkeyed : store.Keyed) (hfit : store.RidsFit) {method : MethodDef}
    (hmember : method ∈ store.visited options) {target : CallTarget}
    (habsent : ∀ callee ∈ store.visited options, callee.handle ≠ target.handle)
    {style : ParameterStyle} {key name : Text}
    (hnamed : store.keyOf method.handle style = .ok key)
    (hnamed' : store.callSiteName target.handle target.instantiation = .ok name) : key ≠ name := by
  rintro rfl
  exact habsent method hmember
    ((keyOf_marks hkeyed hfit hnamed).unique (callSiteName_marks hkeyed hfit hnamed'))

theorem Resolves.name_ne_nil (hkeyed : store.Keyed) (hfit : store.RidsFit) {method : MethodDef}
    {call : CallRecord} (hresolves : store.Resolves options method call) : call.name ≠ [] := by
  cases hresolves with
  | visited callee _ target _ _ hnamed _ => exact (keyOf_marks hkeyed hfit hnamed).ne_nil
  | unvisited target _ _ hnamed _ => exact (callSiteName_marks hkeyed hfit hnamed).ne_nil

/-- A report of an analysis, its graph, and what both are known to show. -/
structure Drawn (store : Store) (lister : Lister) (options : AnalysisOptions) (report : Report)
    (graph : CallGraph) : Prop where
  keyed : store.Keyed
  fit : store.RidsFit
  owners : store.OwnersDefined
  plain : options.selfReference = false
  reports : ∃ scanned,
    List.Forall₂ (store.ScannedAs options.style) (store.visited options) scanned ∧
    List.Forall₂ (store.Reports lister options scanned) (store.visited options) report.methods
  draws : CallGraph.DrawsReport (CallGraph.programOf (.text options.assemblyName) .null) report
    graph

namespace Drawn

variable {report : Report} {graph : CallGraph}

/-- The entry of a visited method. -/
theorem exists_entry (hdrawn : store.Drawn lister options report graph) {method : MethodDef}
    (hmember : method ∈ store.visited options) :
    ∃ reported ∈ report.methods, reported.name ≠ [] ∧
      store.keyOf method.handle options.style = .ok reported.name ∧
      reported.rva = method.rva ∧
      (∀ call ∈ reported.calls, store.Resolves options method call) ∧
      ∀ callee ∈ store.visited options, ∀ target, store.Calls method target →
        target.handle = callee.handle →
        ∃ call ∈ reported.calls, store.keyOf callee.handle options.style = .ok call.name := by
  obtain ⟨scanned, hscans, hentries⟩ := hdrawn.reports
  obtain ⟨reported, hreported, hreports⟩ := exists_mem_of_forall₂_left hentries hmember
  obtain ⟨hnamed, hplaced, -⟩ := hreports.fields
  refine ⟨reported, hreported, (keyOf_marks hdrawn.keyed hdrawn.fit hnamed).ne_nil, hnamed, hplaced,
    ?_, ?_⟩
  · intro call hlisted
    exact resolves_of_mem_calls hdrawn.keyed hdrawn.owners hdrawn.plain hscans hreports hlisted
  · intro callee hcallee target hcalls hsame
    exact exists_call_of_calls hdrawn.keyed hdrawn.owners hdrawn.plain hscans hreports hcallee
      hcalls hsame

/-- The method of an entry. -/
theorem exists_method (hdrawn : store.Drawn lister options report graph)
    {reported : ReportedMethod} (hmember : reported ∈ report.methods) :
    ∃ method ∈ store.visited options,
      store.keyOf method.handle options.style = .ok reported.name ∧
      reported.rva = method.rva ∧
      ∀ call ∈ reported.calls, store.Resolves options method call := by
  obtain ⟨scanned, hscans, hentries⟩ := hdrawn.reports
  obtain ⟨method, hmethod, hreports⟩ := exists_mem_of_forall₂_right hentries hmember
  obtain ⟨hnamed, hplaced, -⟩ := hreports.fields
  refine ⟨method, hmethod, hnamed, hplaced, ?_⟩
  intro call hlisted
  exact resolves_of_mem_calls hdrawn.keyed hdrawn.owners hdrawn.plain hscans hreports hlisted

theorem mem_arcs_iff (hdrawn : store.Drawn lister options report graph)
    {method callee : MethodDef} (hmember : method ∈ store.visited options)
    (hmember' : callee ∈ store.visited options) {key key' : Text}
    (hnamed : store.keyOf method.handle options.style = .ok key)
    (hnamed' : store.keyOf callee.handle options.style = .ok key') :
    (nodeOf options key, nodeOf options key') ∈ graph.arcs ↔
      ∃ target, store.Calls method target ∧ target.handle = callee.handle := by
  rw [hdrawn.draws.mem_arcs_iff]
  constructor
  · rintro ⟨reported, hreported, -, call, hcall, -, harc⟩
    -- equal nodes have equal names, and a name belongs to one row
    obtain ⟨hsource, htarget⟩ := Prod.mk.inj harc
    obtain rfl : key = reported.name := nodeOf_inj hsource
    obtain rfl : key' = call.name := nodeOf_inj htarget
    obtain ⟨method', hmethod', hname, -, hresolves⟩ := hdrawn.exists_method hreported
    obtain rfl : method = method' :=
      eq_of_keyOf_eq hdrawn.keyed hdrawn.fit hmember hmethod' hnamed hname
    cases hresolves call hcall with
    | visited found hfound target hcalls hsame hname' _ =>
      obtain rfl : callee = found :=
        eq_of_keyOf_eq hdrawn.keyed hdrawn.fit hmember' hfound hnamed' hname'
      exact ⟨target, hcalls, hsame⟩
    | unvisited target _ habsent hname' _ =>
      exact absurd rfl
        (keyOf_ne_callSiteName hdrawn.keyed hdrawn.fit hmember' habsent hnamed' hname')
  · rintro ⟨target, hcalls, hsame⟩
    obtain ⟨reported, hreported, hnonempty, hname, -, hresolves, hrecorded⟩ :=
      hdrawn.exists_entry hmember
    obtain ⟨call, hcall, hname'⟩ := hrecorded callee hmember' target hcalls hsame
    obtain rfl : key = reported.name := Except.ok.inj (hnamed.symm.trans hname)
    obtain rfl : key' = call.name := Except.ok.inj (hnamed'.symm.trans hname')
    exact ⟨reported, hreported, hnonempty, call, hcall,
      (hresolves call hcall).name_ne_nil hdrawn.keyed hdrawn.fit, rfl⟩

/-- A node is the key of a visited method with its address, or the call-site name
of a callee that was not visited. -/
theorem node_cases (hdrawn : store.Drawn lister options report graph) {id : Text}
    {attributes : Attributes} (hfound : graph.nodes.get? id = some attributes) :
    (∃ method ∈ store.visited options, ∃ key,
      store.keyOf method.handle options.style = .ok key ∧ id = nodeOf options key ∧
      CallGraph.Shows attributes false (.int method.rva)) ∨
    ∃ method ∈ store.visited options, ∃ target, store.Calls method target ∧
      (∀ callee ∈ store.visited options, callee.handle ≠ target.handle) ∧ ∃ name,
      store.callSiteName target.handle target.instantiation = .ok name ∧
      id = nodeOf options name ∧ CallGraph.Shows attributes true (.int 0) := by
  rcases hdrawn.draws.node id attributes hfound with
    ⟨reported, hreported, rfl, hshows⟩ | ⟨hunlisted, reported, hreported, call, hcall, rfl, hshows⟩
  · obtain ⟨method, hmember, hnamed, hplaced, -⟩ := hdrawn.exists_method hreported
    rw [hplaced] at hshows
    exact .inl ⟨method, hmember, reported.name, hnamed, rfl, hshows⟩
  · obtain ⟨method, hmember, -, -, hresolves⟩ := hdrawn.exists_method hreported
    cases hresolves call hcall with
    | visited callee hcallee _ _ _ hnamed _ =>
      -- a visited callee has an entry of its own, so its node would be a listed one
      obtain ⟨listed, hlisted, hnonempty, hname, -⟩ := hdrawn.exists_entry hcallee
      have hsame : call.name = listed.name := Except.ok.inj (hnamed.symm.trans hname)
      exact absurd (by rw [hsame]) (hunlisted listed hlisted hnonempty)
    | unvisited target hcalls habsent hnamed hplaced =>
      rw [hplaced] at hshows
      exact .inr ⟨method, hmember, target, hcalls, habsent, call.name, hnamed, rfl, hshows⟩

theorem exists_node (hdrawn : store.Drawn lister options report graph) {method : MethodDef}
    (hmember : method ∈ store.visited options) :
    ∃ key attributes, store.keyOf method.handle options.style = .ok key ∧
      graph.nodes.get? (nodeOf options key) = some attributes := by
  obtain ⟨reported, hreported, hnonempty, hnamed, -⟩ := hdrawn.exists_entry hmember
  obtain ⟨attributes, hfound⟩ := hdrawn.draws.listed reported hreported hnonempty
  exact ⟨reported.name, attributes, hnamed, hfound⟩

/-- The node of a visited method shows that method. -/
theorem shows_of_keyOf (hdrawn : store.Drawn lister options report graph) {method : MethodDef}
    (hmember : method ∈ store.visited options) {key : Text}
    (hnamed : store.keyOf method.handle options.style = .ok key) {attributes : Attributes}
    (hfound : graph.nodes.get? (nodeOf options key) = some attributes) :
    CallGraph.Shows attributes false (.int method.rva) := by
  rcases hdrawn.node_cases hfound with
    ⟨method', hmember', key', hnamed', hsame, hshows⟩ |
    ⟨_, _, target, _, habsent, name, hnamed', hsame, _⟩
  · obtain rfl : key = key' := nodeOf_inj hsame
    obtain rfl : method = method' :=
      eq_of_keyOf_eq hdrawn.keyed hdrawn.fit hmember hmember' hnamed hnamed'
    exact hshows
  · exact absurd (nodeOf_inj hsame)
      (keyOf_ne_callSiteName hdrawn.keyed hdrawn.fit hmember habsent hnamed hnamed')

/-- A call record shows the address of its callee's node. -/
theorem call_address (hdrawn : store.Drawn lister options report graph)
    {reported : ReportedMethod} (hmember : reported ∈ report.methods) {call : CallRecord}
    (hlisted : call ∈ reported.calls) :
    ∃ attributes isExternal, graph.nodes.get? (nodeOf options call.name) = some attributes ∧
      CallGraph.Shows attributes isExternal (.int call.address) ∧
      (isExternal = true → call.address = 0) := by
  obtain ⟨method, hmethod, hnamed, -, hresolves⟩ := hdrawn.exists_method hmember
  have hnonempty : reported.name ≠ [] := (keyOf_marks hdrawn.keyed hdrawn.fit hnamed).ne_nil
  have hcalleeNonempty := (hresolves call hlisted).name_ne_nil hdrawn.keyed hdrawn.fit
  obtain ⟨attributes, hfound⟩ :=
    hdrawn.draws.called reported hmember hnonempty call hlisted hcalleeNonempty
  cases hresolves call hlisted with
  | visited callee hcallee _ _ _ hnamed' hplaced =>
    refine ⟨attributes, false, hfound, ?_, nofun⟩
    rw [hplaced]
    exact hdrawn.shows_of_keyOf hcallee hnamed' hfound
  | unvisited target _ habsent hnamed' hplaced =>
    -- the node cannot be a visited method's, whose key is no call-site name
    refine ⟨attributes, true, hfound, ?_, fun _ => hplaced⟩
    rcases hdrawn.node_cases hfound with
      ⟨method', hmember', key', hnamed'', hsame, _⟩ | ⟨_, _, _, _, _, _, _, _, hshows⟩
    · exact absurd (nodeOf_inj hsame).symm
        (keyOf_ne_callSiteName hdrawn.keyed hdrawn.fit hmember' habsent hnamed'' hnamed')
    · rw [hplaced]
      exact hshows

end Drawn

/-- The graph of every report that an analysis returns is the call graph of the
visited methods.  Arcs between them are their calls; the nodes that are not
external are theirs and show their addresses; every other node is named after a
callee that was not visited; and a call record shows the address of its callee's
node, zero for an external one. -/
theorem analysis_graph_exact (hkeyed : store.Keyed) (hfit : store.RidsFit)
    (howners : store.OwnersDefined) (hplain : options.selfReference = false) {report : Report}
    (hanalyzed : store.analyze lister options = .ok report) :
    ∃ graph, CallGraph.ofDocument report.document .null .null = .ok graph ∧
      (∀ method ∈ store.visited options, ∀ callee ∈ store.visited options, ∀ key key',
        store.keyOf method.handle options.style = .ok key →
        store.keyOf callee.handle options.style = .ok key' →
        ((nodeOf options key, nodeOf options key') ∈ graph.arcs ↔
          ∃ target, store.Calls method target ∧ target.handle = callee.handle)) ∧
      (∀ method ∈ store.visited options, ∃ key attributes,
        store.keyOf method.handle options.style = .ok key ∧
        graph.nodes.get? (nodeOf options key) = some attributes ∧
        attributes.get? (lit "address") = some (.int method.rva)) ∧
      (∀ id attributes, graph.nodes.get? id = some attributes →
        (attributes.get? (lit "is_external") = some (.bool false) ↔
          ∃ method ∈ store.visited options, ∃ key,
            store.keyOf method.handle options.style = .ok key ∧ id = nodeOf options key) ∧
        (attributes.get? (lit "is_external") ≠ some (.bool false) →
          attributes.get? (lit "is_external") = some (.bool true) ∧
          ∃ method ∈ store.visited options, ∃ target, store.Calls method target ∧
            (∀ callee ∈ store.visited options, callee.handle ≠ target.handle) ∧ ∃ name,
            store.callSiteName target.handle target.instantiation = .ok name ∧
            id = nodeOf options name)) ∧
      (∀ reported ∈ report.methods, ∀ call ∈ reported.calls, ∃ attributes,
        graph.nodes.get? (nodeOf options call.name) = some attributes ∧
        attributes.get? (lit "address") = some (.int call.address) ∧
        (attributes.get? (lit "is_external") = some (.bool true) → call.address = 0)) := by
  obtain ⟨scanned, hscans, hassembly, hreports⟩ := reports_of_analyze hkeyed hanalyzed
  obtain ⟨graph, hgraph, hdraws⟩ := CallGraph.exists_drawsReport report
  rw [hassembly] at hdraws
  have hdrawn : store.Drawn lister options report graph :=
    ⟨hkeyed, hfit, howners, hplain, ⟨scanned, hscans, hreports⟩, hdraws⟩
  refine ⟨graph, hgraph, ?_, ?_, ?_, ?_⟩
  · intro method hmember callee hmember' key key' hnamed hnamed'
    exact hdrawn.mem_arcs_iff hmember hmember' hnamed hnamed'
  · intro method hmember
    obtain ⟨key, attributes, hnamed, hfound⟩ := hdrawn.exists_node hmember
    exact ⟨key, attributes, hnamed, hfound,
      (hdrawn.shows_of_keyOf hmember hnamed hfound).address_eq⟩
  · intro id attributes hfound
    constructor
    · constructor
      · intro hlocal
        rcases hdrawn.node_cases hfound with ⟨method, hmember, key, hnamed, hid, _⟩ |
          ⟨_, _, _, _, _, _, _, _, hshows⟩
        · exact ⟨method, hmember, key, hnamed, hid⟩
        · rw [hshows.external_eq] at hlocal
          cases hlocal
      · rintro ⟨method, hmember, key, hnamed, rfl⟩
        exact (hdrawn.shows_of_keyOf hmember hnamed hfound).external_eq
    · intro hnotLocal
      rcases hdrawn.node_cases hfound with ⟨_, _, _, _, _, hshows⟩ |
        ⟨method, hmember, target, hcalls, habsent, name, hnamed, hid, hshows⟩
      · exact absurd hshows.external_eq hnotLocal
      · exact ⟨hshows.external_eq, method, hmember, target, hcalls, habsent, name, hnamed, hid⟩
  · intro reported hreported call hcall
    obtain ⟨attributes, isExternal, hfound, hshows, hzero⟩ := hdrawn.call_address hreported hcall
    refine ⟨attributes, hfound, hshows.address_eq, ?_⟩
    intro hexternal
    rw [hshows.external_eq] at hexternal
    cases hexternal
    exact hzero rfl

/-! ### An assembly with a call ahead of its callee -/

/-- A method that calls the second method of its type and returns. -/
def callingMethod : MethodDef where
  handle := ⟨TableNumber.methodDef, 1⟩
  name := lit "Main"
  owner := ⟨TableNumber.typeDef, 1⟩
  flags := .bits 0
  implFlags := .bits 0
  rva := 1
  signature := [0x00, 0x00, 0x01]
  params := []
  genericParameters := []
  compilerGenerated := false

/-- A method that only returns. -/
def calledMethod : MethodDef :=
  { callingMethod with handle := ⟨TableNumber.methodDef, 2⟩, name := lit "Leaf", rva := 8 }

/-- One type with the two methods. -/
def forwardCall : Store where
  typeDefs := OrderedMap.ofList
    [(⟨TableNumber.typeDef, 1⟩, ⟨⟨TableNumber.typeDef, 1⟩, [], lit "T", .bits 0, none, none,
      [⟨TableNumber.methodDef, 1⟩, ⟨TableNumber.methodDef, 2⟩], []⟩)]
  typeRefs := OrderedMap.empty
  exportedTypes := OrderedMap.empty
  methodDefs := OrderedMap.ofList
    [(⟨TableNumber.methodDef, 1⟩, callingMethod), (⟨TableNumber.methodDef, 2⟩, calledMethod)]
  memberRefs := OrderedMap.empty
  methodSpecs := OrderedMap.empty
  typeSpecs := OrderedMap.empty
  image := ⟨#[0x00, 0x1A, 0x28, 0x02, 0x00, 0x00, 0x06, 0x2A, 0x06, 0x2A]⟩
  userStrings := fun _ => .ok none
  facts := ⟨0, 0, 0, 0, 0⟩

/-- A lister that writes nothing. -/
def silentLister : Lister where
  listing := fun _ _ => .error .gaveUp
  signature? := fun _ => none

/-- Keys by parameter names, nothing left out. -/
def plainAnalysis : AnalysisOptions :=
  ⟨.names, false, false, lit "app"⟩

theorem forwardCall_keyed : forwardCall.Keyed := by
  constructor <;> decide

theorem forwardCall_ridsFit : forwardCall.RidsFit := by
  constructor <;> decide

theorem forwardCall_arcs :
    forwardCall.Keyed ∧ forwardCall.RidsFit ∧ forwardCall.OwnersDefined ∧
      plainAnalysis.selfReference = false ∧ ∃ report graph,
      forwardCall.analyze silentLister plainAnalysis = .ok report ∧
      CallGraph.ofDocument report.document .null .null = .ok graph ∧
      (lit "app:T`0|0x02000001.Main`0()|PrivateScope|0x06000001",
        lit "app:T`0|0x02000001.Leaf`0()|PrivateScope|0x06000002") ∈ graph.arcs ∧
      (lit "app:T`0|0x02000001.Leaf`0()|PrivateScope|0x06000002",
        lit "app:T`0|0x02000001.Main`0()|PrivateScope|0x06000001") ∉ graph.arcs := by
  have howners : forwardCall.OwnersDefined := by decide
  obtain ⟨report, hanalyzed⟩ : ∃ report,
      forwardCall.analyze silentLister plainAnalysis = .ok report :=
    Outcome.exists_of_isOk (by decide +kernel)
  obtain ⟨graph, hdrawn, harcs, -⟩ :=
    analysis_graph_exact forwardCall_keyed forwardCall_ridsFit howners rfl hanalyzed
  have hcaller : callingMethod ∈ forwardCall.visited plainAnalysis := by decide +kernel
  have hcallee : calledMethod ∈ forwardCall.visited plainAnalysis := by decide +kernel
  have hcallerNamed : forwardCall.keyOf callingMethod.handle .names =
      .ok (lit "T`0|0x02000001.Main`0()|PrivateScope|0x06000001") := by decide +kernel
  have hcalleeNamed : forwardCall.keyOf calledMethod.handle .names =
      .ok (lit "T`0|0x02000001.Leaf`0()|PrivateScope|0x06000002") := by decide +kernel
  have hcallerNode : lit "app:T`0|0x02000001.Main`0()|PrivateScope|0x06000001" =
      nodeOf plainAnalysis (lit "T`0|0x02000001.Main`0()|PrivateScope|0x06000001") := by
    decide +kernel
  have hcalleeNode : lit "app:T`0|0x02000001.Leaf`0()|PrivateScope|0x06000002" =
      nodeOf plainAnalysis (lit "T`0|0x02000001.Leaf`0()|PrivateScope|0x06000002") := by
    decide +kernel
  refine ⟨forwardCall_keyed, forwardCall_ridsFit, howners, rfl, report, graph, hanalyzed, hdrawn,
    ?_, ?_⟩
  · rw [hcallerNode, hcalleeNode]
    exact (harcs _ hcaller _ hcallee _ _ hcallerNamed hcalleeNamed).mpr (by decide +kernel)
  · rw [hcallerNode, hcalleeNode]
    intro harc
    have hcalls := (harcs _ hcallee _ hcaller _ _ hcalleeNamed hcallerNamed).mp harc
    exact absurd hcalls (by decide +kernel)

end Store
end CilAtlas
