import CilAtlas.Proofs.GraphComposition
import CilAtlas.Proofs.ReportRoundTrip

/-!
# Merging the graphs of different programs

Files are loaded one after the other, and each graph is put on top of those before
it.  Whether the result is the disjoint union of the graphs is a question about their
nodes alone: merging itself fails for no files that load and name their programs by
texts.
-/

namespace CilAtlas

/-! ### Programs named by texts -/

/-- All programs are named by texts. -/
def Programs.AllTexts (programs : Programs) : Prop :=
  ∀ member ∈ programs.members, ∃ name, member.1 = .text name

theorem Programs.AllTexts.exists_add {programs : Programs} (htexts : programs.AllTexts)
    (name : Text) :
    ∃ programs', programs.add (.text name) = .ok programs' ∧ programs'.AllTexts := by
  simp only [add, ProgramRank.of?]
  split
  · exact ⟨_, rfl, htexts⟩
  · refine ⟨_, rfl, ?_⟩
    intro member hlisted
    rcases List.mem_append.mp hlisted with hearlier | hlast
    · exact htexts member hearlier
    · rw [List.mem_singleton] at hlast
      exact ⟨name, by rw [hlast]⟩

theorem Programs.AllTexts.exists_sorted {programs : Programs} (htexts : programs.AllTexts) :
    ∃ names, programs.sorted = .ok names := by
  unfold sorted
  split
  · exact ⟨_, rfl⟩
  · exact ⟨_, rfl⟩
  · next first rest _ hmembers =>
    have hcomparable : (rest.all fun member => first.1.comparable member.1) = true := by
      rw [List.all_eq_true]
      intro member hlisted
      obtain ⟨name, hfirst⟩ := htexts first (by simp [hmembers])
      obtain ⟨name', hmember⟩ := htexts member (by simp [hmembers, hlisted])
      rw [hfirst, hmember]
      rfl
    rw [if_pos hcomparable]
    exact ⟨_, rfl⟩

theorem Merging.exists_add {merging : Merging} (htexts : merging.programs.AllTexts) (path : Text)
    {graph : CallGraph} {program : Text} (hnamed : graph.program? = some (.text program)) :
    ∃ merging', merging.add path graph = .ok merging' ∧
      merging'.graph = merging.graph.compose graph ∧ merging'.programs.AllTexts := by
  have hname : (graph.attributes.get? (lit "program")).getD .null = .text program := by
    rw [show graph.attributes.get? (lit "program") = _ from hnamed]
    rfl
  simp only [add, hname]
  split
  · obtain ⟨programs, hadded, htexts'⟩ := htexts.exists_add program
    rw [Outcome.bind_of_ok hadded]
    exact ⟨_, rfl, rfl, htexts'⟩
  · exact ⟨_, rfl, rfl, htexts⟩

theorem Merging.exists_finish {merging : Merging} (htexts : merging.programs.AllTexts) :
    ∃ merged, merging.finish = .ok merged ∧ merged.nodes = merging.graph.nodes ∧
      merged.arcs = merging.graph.arcs ∧ merged.NotesCounts := by
  obtain ⟨programs, hsorted⟩ := htexts.exists_sorted
  rw [finish, Outcome.bind_of_ok hsorted]
  exact ⟨_, rfl, rfl, rfl, CallGraph.notesCounts_counted _⟩

/-! ### Merging files -/

namespace Run

variable {session : Session} {paths : List Path} {graphs : List CallGraph}

theorem ofExcept_eq_ok {ε α : Type} {wrap : ε → RunError} {x : Except ε α} {a : α}
    {session' : Session} (h : ofExcept wrap x session = .ok a session') : x = .ok a := by
  cases x with
  | error e => cases h
  | ok a' =>
    cases h
    rfl

theorem exists_ofProgram {path : Path} {session' : Session} {graph : CallGraph}
    (hloaded : loadGraph path session = .ok graph session') :
    ∃ program, graph.OfProgram program := by
  obtain ⟨document, _, -, hlater⟩ := Outcome.run_bind_eq_ok_iff.mp hloaded
  rw [Outcome.run_get_bind] at hlater
  obtain ⟨source, _, -, hdrawn⟩ := Outcome.run_bind_eq_ok_iff.mp hlater
  exact CallGraph.exists_ofProgram (ofExcept_eq_ok hdrawn)

/-- The graphs of the files, in order. -/
def Loads (session : Session) (paths : List Path) (graphs : List CallGraph) : Prop :=
  List.Forall₂ (fun path graph => loadGraph path session = .ok graph session) paths graphs

theorem Loads.perm (hloads : Loads session paths graphs) {paths' : List Path}
    (hsame : paths'.Perm paths) : ∃ graphs', Loads session paths' graphs' ∧ graphs'.Perm graphs :=
  List.perm_comp_forall₂ hsame hloads

/-- Every graph notes its program, which is named by a text. -/
def Named (graphs : List CallGraph) : Prop :=
  ∀ graph ∈ graphs, ∃ program, graph.program? = some (.text program)

/-- Loads the graph of a file and puts it on top. -/
def addFile (merging : Merging) (path : Path) : Run Merging := do
  let graph ← loadGraph path
  ofExcept .programs (merging.add path.text graph)

theorem mergeGraphs_eq (paths : List Path) : mergeGraphs paths = (do
    let merging ← paths.foldlM addFile Merging.start
    ofExcept .programs merging.finish) :=
  rfl

theorem exists_addFile {merging : Merging} (htexts : merging.programs.AllTexts) {path : Path}
    {graph : CallGraph} {program : Text} (hloaded : loadGraph path session = .ok graph session)
    (hnamed : graph.program? = some (.text program)) :
    ∃ merging', addFile merging path session = .ok merging' session ∧
      merging'.graph = merging.graph.compose graph ∧ merging'.programs.AllTexts := by
  obtain ⟨merging', hadded, hcomposed, htexts'⟩ := Merging.exists_add htexts path.text hnamed
  refine ⟨merging', ?_, hcomposed, htexts'⟩
  rw [addFile, Outcome.run_bind_of_ok hloaded, hadded]
  rfl

theorem exists_foldlM_addFile (hloads : Loads session paths graphs) (hnamed : Named graphs)
    {merging : Merging} (htexts : merging.programs.AllTexts) :
    ∃ merging', paths.foldlM addFile merging session = .ok merging' session ∧
      merging'.graph = graphs.foldl CallGraph.compose merging.graph ∧
      merging'.programs.AllTexts := by
  induction hloads generalizing merging with
  | nil => exact ⟨merging, rfl, rfl, htexts⟩
  | @cons path graph paths graphs hloaded _ ih =>
    obtain ⟨program, hprogram⟩ := hnamed graph List.mem_cons_self
    obtain ⟨merging', hadded, hcomposed, htexts'⟩ := exists_addFile htexts hloaded hprogram
    obtain ⟨merging'', hfolded, hresult, htexts''⟩ :=
      ih (fun graph hmember => hnamed graph (List.mem_cons_of_mem _ hmember)) htexts'
    refine ⟨merging'', ?_, ?_, htexts''⟩
    · rw [List.foldlM_cons, Outcome.run_bind_of_ok hadded]
      exact hfolded
    · rw [hresult, hcomposed]
      rfl

/-- The merged graph holds what the composed graphs hold. -/
theorem exists_mergeGraphs (hloads : Loads session paths graphs) (hnamed : Named graphs) :
    ∃ merged, mergeGraphs paths session = .ok merged session ∧
      merged.nodes = (graphs.foldl CallGraph.compose Merging.start.graph).nodes ∧
      merged.arcs = (graphs.foldl CallGraph.compose Merging.start.graph).arcs ∧
      merged.NotesCounts := by
  have htexts : Merging.start.programs.AllTexts := fun member hlisted => by cases hlisted
  obtain ⟨merging, hfolded, hcomposed, htexts⟩ := exists_foldlM_addFile hloads hnamed htexts
  obtain ⟨merged, hfinished, hnodes, harcs, hcounts⟩ := Merging.exists_finish htexts
  rw [← hcomposed]
  refine ⟨merged, ?_, hnodes, harcs, hcounts⟩
  rw [mergeGraphs_eq, Outcome.run_bind_of_ok hfolded, hfinished]
  rfl

theorem Loads.owned (hloads : Loads session paths graphs) :
    ∀ graph ∈ graphs, ∃ program, graph.OfProgram program := by
  intro graph hmember
  obtain ⟨path, -, hloaded⟩ := exists_mem_of_forall₂_right hloads hmember
  exact exists_ofProgram hloaded

/-- Files whose graphs are apart are merged to the disjoint union of the graphs. -/
theorem exists_disjointUnion (hloads : Loads session paths graphs) (hnamed : Named graphs)
    (hapart : CallGraph.Apart graphs) :
    ∃ merged, mergeGraphs paths session = .ok merged session ∧ merged.DisjointUnion graphs := by
  obtain ⟨merged, hreturns, hnodes, harcs, -⟩ := exists_mergeGraphs hloads hnamed
  have htarget : ∀ graph ∈ graphs, ∀ arc ∈ graph.arcs, arc.2 ∈ graph.nodes.keys := by
    intro graph hmember
    obtain ⟨program, hofProgram⟩ := hloads.owned graph hmember
    exact hofProgram.target
  refine ⟨merged, hreturns, CallGraph.disjointUnion_of_entries ?_ ?_⟩
  · rw [hnodes]
    refine CallGraph.nodes_foldl_compose ?_
    show ((graphs.flatMap fun graph => graph.nodes.entries).map Prod.fst).Nodup
    rw [List.map_flatMap]
    exact hapart.nodup_keys
  · rw [harcs]
    refine CallGraph.arcs_foldl_compose ?_
    rw [List.map_id]
    exact hapart.nodup_arcs htarget

/-- **Merging keeps programs apart exactly where their nodes differ.**  Files of
different programs are always merged, and the merged graph notes its counts, as the
loaded ones do.  It is their disjoint union if and only if no node is in two of them,
which is so when no program's name, followed by a colon, begins another's.  Then any
other order of the files gives the same nodes, attributes and arcs. -/
theorem mergeGraphs_disjointUnion_iff {programs : List Text}
    (hloads : Loads session paths graphs)
    (hnamed : graphs.map CallGraph.program? = programs.map fun program => some (.text program))
    (hdistinct : programs.Nodup) :
    ∃ merged, mergeGraphs paths session = .ok merged session ∧
      merged.NotesCounts ∧ (∀ graph ∈ graphs, graph.NotesCounts) ∧
      (merged.DisjointUnion graphs ↔ CallGraph.Apart graphs) ∧
      ((∀ p ∈ programs, ∀ q ∈ programs, ¬ p ++ lit ":" <+: q) → CallGraph.Apart graphs) ∧
      (CallGraph.Apart graphs → ∀ paths', paths'.Perm paths →
        ∃ merged', mergeGraphs paths' session = .ok merged' session ∧
          merged'.SameContent merged) := by
  have hnames : ∀ graph ∈ graphs, ∃ program ∈ programs, graph.program? = some (.text program) := by
    intro graph hmember
    have hlisted := List.mem_map_of_mem (f := CallGraph.program?) hmember
    rw [hnamed, List.mem_map] at hlisted
    obtain ⟨program, hprogram, hnoted⟩ := hlisted
    exact ⟨program, hprogram, hnoted.symm⟩
  have htexts : Named graphs := by
    intro graph hmember
    obtain ⟨program, -, hnoted⟩ := hnames graph hmember
    exact ⟨program, hnoted⟩
  have hdifferent := CallGraph.pairwise_program?_ne hnamed hdistinct
  obtain ⟨merged, hreturns, -, -, hcounts⟩ := exists_mergeGraphs hloads htexts
  -- merging returns one graph, so the union that exists when nodes are apart is this one
  have hunion (hapart : CallGraph.Apart graphs) : merged.DisjointUnion graphs := by
    obtain ⟨merged', hreturns', hunion⟩ := exists_disjointUnion hloads htexts hapart
    rw [hreturns] at hreturns'
    cases hreturns'
    exact hunion
  refine ⟨merged, hreturns, hcounts, ?_, ⟨?_, hunion⟩, ?_, ?_⟩
  · intro graph hmember
    obtain ⟨program, hofProgram⟩ := hloads.owned graph hmember
    exact hofProgram.counts
  · intro hmerged
    exact hmerged.apart hloads.owned hdifferent
  · exact CallGraph.apart_of_names hloads.owned hnames hdifferent
  · intro hapart paths' hreordered
    -- a union is known by membership, which a change of order keeps
    obtain ⟨graphs', hloads', hsame⟩ := hloads.perm hreordered
    have htexts' : Named graphs' := fun graph hmember => htexts graph (hsame.mem_iff.mp hmember)
    obtain ⟨merged', hreturns', hunion'⟩ := exists_disjointUnion hloads' htexts' (hapart.perm hsame)
    exact ⟨merged', hreturns', (hunion hapart).sameContent hunion' hsame⟩

end Run

/-- A report of one method that calls others. -/
def callingReport (assembly method : String) (callees : List String) : Report where
  assembly := lit assembly
  facts := ⟨0, 0, 0, 0, 0⟩
  types := [⟨lit "T", lit "Class",
    [⟨⟨6, 1⟩, lit method, 16, 0, [], [], [], [], [], callees.map fun callee => ⟨lit callee, 0⟩⟩]⟩]
  importedMethods := []
  importedTypes := []
  exportedTypes := []

/-- Program `a` with its method `b:c`. -/
def shortNamed : String × Report :=
  ("a.json", callingReport "a" "b:c" [])

/-- Program `a:b`, whose method calls a method `c`. -/
def colonNamed : String × Report :=
  ("b.json", callingReport "a:b" "m" ["c"])

/-- Program `ab`, whose method calls a method `b:c`. -/
def longNamed : String × Report :=
  ("c.json", callingReport "ab" "m" ["b:c"])

/-- The reports that are stored, with the names of their files. -/
def shelved : List (String × Report) :=
  [shortNamed, colonNamed, longNamed]

/-- A session with three reports in the current directory. -/
def shelf : Session :=
  { bareSession with
    disk := shelved.foldl (fun disk file =>
      disk.put [lit "work", lit file.1] (.file file.2.bytes)) bareSession.disk }

/-- The path of a file on the shelf. -/
def shelfPath (file : String × Report) : Path :=
  Path.ofText (lit file.1)

/-- The graph of a report on the shelf. -/
def shelfGraph (file : String × Report) : CallGraph :=
  (CallGraph.ofDocument file.2.document (.text (shelfPath file).stem)
    (.text ((shelfPath file).resolve [lit "work"]).text)).toOption.getD default

theorem loadGraph_shelf {file : String × Report}
    (hencodable : Json.Throughout Json.Encodable file.2.document)
    (hfit : Json.Throughout Json.Fits file.2.document)
    (hstored : shelf.disk.read (shelfPath file) = .ok file.2.bytes)
    (hnamed : (shelfPath file).text.nameFault? = none) :
    Run.loadGraph (shelfPath file) shelf = .ok (shelfGraph file) shelf := by
  obtain ⟨graph, hdrawn⟩ := file.2.exists_graph (.text (shelfPath file).stem)
    (.text ((shelfPath file).resolve [lit "work"]).text)
  have hknown : shelfGraph file = graph := by
    rw [shelfGraph, hdrawn]
    rfl
  rw [hknown]
  exact Run.loadGraph_of_document (Run.readDocument_of_report hencodable hfit hstored).2
    (Disk.resolve_eq_ok hnamed) hdrawn

/-- Every file on the shelf is loaded. -/
theorem loads_shelf (files : List (String × Report)) (hlisted : files ⊆ shelved) :
    Run.Loads shelf (files.map shelfPath) (files.map shelfGraph) := by
  rw [Run.Loads, List.forall₂_map_left_iff, List.forall₂_map_right_iff, List.forall₂_same]
  intro file hmember
  have hamong := hlisted hmember
  simp only [shelved, List.mem_cons, List.not_mem_nil, or_false] at hamong
  rcases hamong with rfl | rfl | rfl
  · exact loadGraph_shelf (by decide) (by decide) rfl (by decide)
  · exact loadGraph_shelf (by decide) (by decide) rfl (by decide)
  · exact loadGraph_shelf (by decide) (by decide) rfl (by decide)

/-- Program names may begin alike and method names may hold colons. -/
theorem Run.shortNamed_longNamed_apart :
    ∃ graphs, Run.Loads shelf [shelfPath shortNamed, shelfPath longNamed] graphs ∧
      graphs.map CallGraph.program? =
        [lit "a", lit "ab"].map (fun program => some (.text program)) ∧
      [lit "a", lit "ab"].Nodup ∧
      ∃ merged, Run.mergeGraphs [shelfPath shortNamed, shelfPath longNamed] shelf =
          .ok merged shelf ∧
        merged.NotesCounts ∧ merged.DisjointUnion graphs ∧ merged.nodeCount = 3 ∧
        ∃ merged', Run.mergeGraphs [shelfPath longNamed, shelfPath shortNamed] shelf =
          .ok merged' shelf ∧ merged'.SameContent merged := by
  have hloads : Run.Loads shelf [shelfPath shortNamed, shelfPath longNamed]
      [shelfGraph shortNamed, shelfGraph longNamed] :=
    loads_shelf [shortNamed, longNamed] (by simp [shelved])
  have hnamed : [shelfGraph shortNamed, shelfGraph longNamed].map CallGraph.program? =
      [lit "a", lit "ab"].map (fun program => some (.text program)) := rfl
  obtain ⟨merged, hreturns, hcounts, -, hunion, hapart, hreordered⟩ :=
    Run.mergeGraphs_disjointUnion_iff hloads hnamed (by decide)
  have hseparate := hapart (by decide)
  obtain ⟨merged', hreturns', hsame⟩ := hreordered hseparate _ (List.Perm.swap _ _ [])
  refine ⟨_, hloads, hnamed, by decide, merged, hreturns, hcounts, hunion.mpr hseparate, ?_,
    merged', hreturns', hsame⟩
  rw [(hunion.mpr hseparate).nodeCount_eq]
  rfl

/-- Two methods of different programs become one node, and the order of the files
decides whether it shows a listed method. -/
theorem Run.shortNamed_colonNamed_clash :
    ∃ graphs merged merged',
      Run.Loads shelf [shelfPath shortNamed, shelfPath colonNamed] graphs ∧
      graphs.map CallGraph.program? =
        [lit "a", lit "a:b"].map (fun program => some (.text program)) ∧
      Run.mergeGraphs [shelfPath shortNamed, shelfPath colonNamed] shelf = .ok merged shelf ∧
      Run.mergeGraphs [shelfPath colonNamed, shelfPath shortNamed] shelf = .ok merged' shelf ∧
      (graphs.map CallGraph.nodeCount).sum = 3 ∧ merged.nodeCount = 2 ∧
      ¬ merged.DisjointUnion graphs ∧ ¬ merged'.SameContent merged := by
  have hloads : Run.Loads shelf [shelfPath shortNamed, shelfPath colonNamed]
      [shelfGraph shortNamed, shelfGraph colonNamed] :=
    loads_shelf [shortNamed, colonNamed] (by simp [shelved])
  have hloads' : Run.Loads shelf [shelfPath colonNamed, shelfPath shortNamed]
      [shelfGraph colonNamed, shelfGraph shortNamed] :=
    loads_shelf [colonNamed, shortNamed] (by simp [shelved])
  have hnamed : Run.Named [shelfGraph shortNamed, shelfGraph colonNamed] := by
    simp only [Run.Named, List.forall_mem_cons]
    exact ⟨⟨lit "a", rfl⟩, ⟨lit "a:b", rfl⟩, by simp⟩
  have hnamed' : Run.Named [shelfGraph colonNamed, shelfGraph shortNamed] := by
    simp only [Run.Named, List.forall_mem_cons]
    exact ⟨⟨lit "a:b", rfl⟩, ⟨lit "a", rfl⟩, by simp⟩
  obtain ⟨merged, hreturns, hnodes, -⟩ := Run.exists_mergeGraphs hloads hnamed
  obtain ⟨merged', hreturns', hnodes', -⟩ := Run.exists_mergeGraphs hloads' hnamed'
  have hsum : ([shelfGraph shortNamed, shelfGraph colonNamed].map CallGraph.nodeCount).sum = 3 :=
    rfl
  have hcount : merged.nodeCount = 2 := by
    rw [CallGraph.nodeCount, hnodes]
    rfl
  refine ⟨_, merged, merged', hloads, rfl, hreturns, hreturns', hsum, hcount, ?_, ?_⟩
  · intro hunion
    have hcounts := hunion.nodeCount_eq
    rw [hcount, hsum] at hcounts
    omega
  · intro hsame
    have hshown := congrArg (·.bind fun attributes => attributes.get? (lit "is_external"))
      (hsame.nodes (lit "a:b:c"))
    rw [hnodes, hnodes'] at hshown
    have hclash : some (Json.bool false) = some (Json.bool true) := hshown
    cases hclash

end CilAtlas
