import CilAtlas.Run.Analyze
import CilAtlas.Run.Export
import CilAtlas.Proofs.GraphDrawing
import CilAtlas.Proofs.JsonWriting
import Mathlib.Data.List.Nodup

/-!
# Written reports are read back

A report that is written to a file is stored there as the layout of its document,
in UTF-8.  The file is found again under the same path, its text is read as the
document, and the graph that is loaded from it is the graph of the document.

Writing fails for two reasons that lie in the report: a surrogate in a string, and
a number with too many digits.  The first is excluded here; the second is the
only one left where a file can be written at all.
-/

namespace CilAtlas

/-! ### Files that were written -/

namespace Disk

variable {disk : Disk} {place start target : List Text}

theorem node?_put (hbelow : place ≠ []) (node : DiskNode) (place' : List Text) :
    (disk.put place node).node? place' =
      if place = place' then some node else disk.node? place' := by
  unfold node? put
  by_cases hroot : place' = []
  · have hdifferent : place ≠ place' := fun hsame => hbelow (hsame.trans hroot)
    rw [if_pos hroot, if_neg hdifferent, if_pos hroot]
  · rw [if_neg hroot, if_neg hroot]
    exact OrderedMap.get?_insert _ _ _ _

theorem ne_root (hfree : disk.node? place ≠ some .directory) : place ≠ [] := by
  rintro rfl
  exact hfree rfl

theorem walk_cons_eq_ok_iff {part : Text} {rest : List Text} :
    disk.walk start (part :: rest) = .ok target ↔
      disk.node? start = some .directory ∧ part.nameSize ≤ nameLimit ∧
        disk.walk (Path.follow start part) rest = .ok target := by
  rw [walk]
  cases disk.node? start with
  | none => simp
  | some node =>
    cases node with
    | file content => simp
    | directory =>
      by_cases hlong : part.nameSize > nameLimit
      · simp [if_pos hlong, Nat.not_le.mpr hlong]
      · simp [if_neg hlong, Nat.not_lt.mp hlong]

/-- A walk passes through directories, so it does not notice a node that is put
where there was no directory. -/
theorem walk_put (hfree : disk.node? place ≠ some .directory) (node : DiskNode) {parts : List Text}
    (hleads : disk.walk start parts = .ok target) :
    (disk.put place node).walk start parts = .ok target := by
  induction parts generalizing start with
  | nil => exact hleads
  | cons part rest ih =>
    obtain ⟨hthrough, hshort, honwards⟩ := walk_cons_eq_ok_iff.mp hleads
    have helsewhere : place ≠ start := by
      rintro rfl
      exact hfree hthrough
    refine walk_cons_eq_ok_iff.mpr ⟨?_, hshort, ih honwards⟩
    rw [node?_put (ne_root hfree), if_neg helsewhere, hthrough]

theorem locate_eq_ok_iff {path : Path} :
    disk.locate path = .ok place ↔
      path.text.nameFault? = none ∧ path.text.nameSize ≤ pathLimit ∧
        disk.walk (path.start disk.here) path.parts = .ok place := by
  rw [locate]
  cases path.text.nameFault? with
  | some fault => simp
  | none =>
    by_cases hlong : path.text.nameSize > pathLimit
    · simp [if_pos hlong, Nat.not_le.mpr hlong]
    · simp [if_neg hlong, Nat.not_lt.mp hlong, Outcome.mapError_eq_ok_iff]

theorem write_eq_ok_iff {path : Path} {content : List UInt8} {disk' : Disk} :
    write path content disk = .ok () disk' ↔
      ∃ place, disk.locate path = .ok place ∧ disk.node? place ≠ some .directory ∧
        disk' = disk.put place (.file content) := by
  rw [write, Outcome.run_get_bind]
  cases disk.locate path with
  | error error =>
    constructor
    · intro h
      cases h
    · rintro ⟨place, h, -⟩
      cases h
  | ok place =>
    by_cases hoccupied : disk.node? place = some .directory
    · simp only [if_pos hoccupied]
      constructor
      · intro h
        cases h
      · rintro ⟨place', h, hfree, -⟩
        cases h
        exact absurd hoccupied hfree
    · simp only [if_neg hoccupied]
      constructor
      · intro h
        cases h
        exact ⟨place, rfl, hoccupied, rfl⟩
      · rintro ⟨place', h, -, rfl⟩
        cases h
        rfl

/-- What cannot be written changes nothing. -/
theorem eq_of_write_error {path : Path} {content : List UInt8} {error : DiskError} {disk' : Disk}
    (hfails : write path content disk = .error error disk') : disk' = disk := by
  rw [write, Outcome.run_get_bind] at hfails
  cases hlocate : disk.locate path with
  | error error =>
    rw [hlocate] at hfails
    cases hfails
    rfl
  | ok place =>
    by_cases hoccupied : disk.node? place = some .directory
    · simp only [hlocate, if_pos hoccupied] at hfails
      cases hfails
      rfl
    · simp only [hlocate, if_neg hoccupied] at hfails
      cases hfails

/-- What was written to a file is what is read from it. -/
theorem read_put {path : Path} (hleads : disk.locate path = .ok place)
    (hfree : disk.node? place ≠ some .directory) (content : List UInt8) :
    (disk.put place (.file content)).read path = .ok content := by
  obtain ⟨hnamed, hshort, hwalks⟩ := locate_eq_ok_iff.mp hleads
  have hfound : (disk.put place (.file content)).locate path = .ok place :=
    locate_eq_ok_iff.mpr ⟨hnamed, hshort, walk_put hfree _ hwalks⟩
  rw [read, find, Outcome.bind_of_ok hfound, node?_put (ne_root hfree), if_pos rfl]
  rfl

end Disk

/-! ### Paths that can be resolved -/

theorem Text.nameFault?_eq_none_iff {t : Text} :
    t.nameFault? = none ↔
      (∀ c ∈ t, (c.isSurrogate && !c.isLoneByte) = false) ∧ ∀ c ∈ t, c.toNat ≠ 0 := by
  unfold nameFault?
  by_cases hunpaired : (t.any fun c => c.isSurrogate && !c.isLoneByte) = true
  · simp only [if_pos hunpaired, reduceCtorEq, false_iff]
    rintro ⟨hclean, -⟩
    obtain ⟨c, hmember, hwrong⟩ := List.any_eq_true.mp hunpaired
    rw [hclean c hmember] at hwrong
    cases hwrong
  · have hclean : ∀ c ∈ t, (c.isSurrogate && !c.isLoneByte) = false := by
      simpa only [List.any_eq_true, not_exists, not_and, Bool.not_eq_true] using hunpaired
    rw [if_neg hunpaired]
    by_cases hzero : (t.any fun c => decide (c.toNat = 0)) = true
    · simp only [if_pos hzero, reduceCtorEq, false_iff]
      rintro ⟨-, hnonzero⟩
      obtain ⟨c, hmember, hwrong⟩ := List.any_eq_true.mp hzero
      exact hnonzero c hmember (of_decide_eq_true hwrong)
    · rw [if_neg hzero]
      simp only [List.any_eq_true, decide_eq_true_eq, not_exists, not_and] at hzero
      simp only [true_iff]
      exact ⟨hclean, hzero⟩

theorem Text.nameFault?_of_subset {s t : Text} (hpart : s ⊆ t) (hclean : t.nameFault? = none) :
    s.nameFault? = none := by
  rw [nameFault?_eq_none_iff] at hclean ⊢
  exact ⟨fun c hmember => hclean.1 c (hpart hmember), fun c hmember => hclean.2 c (hpart hmember)⟩

theorem Text.subset_join (separator : Text) {part : Text} {parts : List Text}
    (hmember : part ∈ parts) : part ⊆ join separator parts := by
  induction parts with
  | nil => cases hmember
  | cons first rest ih =>
    cases rest with
    | nil =>
      obtain rfl := List.mem_singleton.mp hmember
      exact List.Subset.refl _
    | cons next rest =>
      rcases List.mem_cons.mp hmember with rfl | hlater
      · exact List.Subset.trans (List.subset_append_left _ _) (List.subset_append_left _ _)
      · exact List.Subset.trans (ih hlater) (List.subset_append_right _ _)

theorem Path.subset_text {path : Path} {part : Text} (hmember : part ∈ path.parts) :
    part ⊆ path.text := by
  have hpresent : path.parts ≠ [] := List.ne_nil_of_mem hmember
  rw [Path.text, if_neg fun hbare => hpresent hbare.2]
  exact List.Subset.trans (Text.subset_join _ hmember) (List.subset_append_right _ _)

theorem Disk.resolve_eq_ok {disk : Disk} {path : Path} (hnamed : path.text.nameFault? = none) :
    disk.resolve path = .ok (path.resolve disk.here) := by
  have heach : path.parts.findSome? Text.nameFault? = none :=
    List.findSome?_eq_none_iff.mpr fun part hmember =>
      Text.nameFault?_of_subset (Path.subset_text hmember) hnamed
  rw [Disk.resolve, heach]

/-! ### Pieces that are written -/

namespace Run

/-- A file can be written at the path. -/
def Writable (session : Session) (path : Path) : Prop :=
  ∃ opened, writePieces path [] session = .ok () opened

/-- The directory of the path is there, and at the path there is none. -/
structure ReadyFor (session : Session) (path : Path) (disk : Disk) (place : List Text) : Prop where
  made : Disk.ensureDirectory path.parent session.disk = .ok () disk
  leads : disk.locate path = .ok place
  free : disk.node? place ≠ some .directory

theorem onDisk_of_ok {α : Type} {work : Disk.Work α} {session : Session} {a : α} {disk : Disk}
    (h : work session.disk = .ok a disk) :
    onDisk work session = .ok a { session with disk := disk } := by
  rw [onDisk, h]

theorem onDisk_of_error {α : Type} {work : Disk.Work α} {session : Session} {error : DiskError}
    {disk : Disk} (h : work session.disk = .error error disk) :
    onDisk work session = .error (.disk error) { session with disk := disk } := by
  rw [onDisk, h]

theorem onDisk_eq_ok {α : Type} {work : Disk.Work α} {session session' : Session} {a : α}
    (h : onDisk work session = .ok a session') :
    ∃ disk, work session.disk = .ok a disk ∧ session' = { session with disk := disk } := by
  unfold onDisk at h
  split at h
  · next a' disk hwork =>
    cases h
    exact ⟨disk, hwork, rfl⟩
  · cases h

variable {session : Session} {path : Path} {disk : Disk} {place : List Text}
  {pieces : List (Option Text)}

theorem Writable.exists_readyFor (hwritable : Writable session path) :
    ∃ disk place, ReadyFor session path disk place := by
  obtain ⟨opened, h⟩ := hwritable
  obtain ⟨⟨⟩, made, hmade, h⟩ := Outcome.run_bind_eq_ok_iff.mp h
  obtain ⟨⟨⟩, written, hwritten, -⟩ := Outcome.run_bind_eq_ok_iff.mp h
  obtain ⟨disk, hdisk, rfl⟩ := onDisk_eq_ok hmade
  obtain ⟨disk', hwrite, -⟩ := onDisk_eq_ok hwritten
  obtain ⟨place, hleads, hfree, -⟩ := Disk.write_eq_ok_iff.mp hwrite
  exact ⟨disk, place, hdisk, hleads, hfree⟩

/-- The session after a content was put at a place. -/
def storing (session : Session) (disk : Disk) (place : List Text)
    (content : List UInt8) : Session :=
  { session with disk := disk.put place (.file content) }

/-- The end of writing, after the pieces that can be encoded. -/
def endWriting : (error? : Option RunError) → Run Unit
  | none => pure ()
  | some error => throw error

theorem writePieces_eq (path : Path) (pieces : List (Option Text)) :
    writePieces path pieces = (do
      onDisk (Disk.ensureDirectory path.parent)
      onDisk (Disk.write path (encodePieces pieces).1)
      endWriting (encodePieces pieces).2) :=
  rfl

/-- Where a file can be written, it has the pieces up to the first that cannot be
encoded, whether there is one or not. -/
theorem writePieces_of_ready (hready : ReadyFor session path disk place)
    (pieces : List (Option Text)) :
    writePieces path pieces session =
      endWriting (encodePieces pieces).2
        (storing session disk place (encodePieces pieces).1) := by
  have hwritten : onDisk (Disk.write path (encodePieces pieces).1) { session with disk := disk } =
      .ok () (storing session disk place (encodePieces pieces).1) :=
    onDisk_of_ok (Disk.write_eq_ok_iff.mpr ⟨place, hready.leads, hready.free, rfl⟩)
  rw [writePieces_eq, Outcome.run_bind_of_ok (onDisk_of_ok hready.made),
    Outcome.run_bind_of_ok hwritten]

/-- Where a file can be written, writing returns when all pieces can be encoded. -/
theorem writePieces_eq_ok_iff (hready : ReadyFor session path disk place) {saved : Session} :
    writePieces path pieces session = .ok () saved ↔
      ∃ bytes, encodePieces pieces = (bytes, none) ∧ saved = storing session disk place bytes := by
  rw [writePieces_of_ready hready]
  obtain ⟨bytes, error⟩ := encodePieces pieces
  cases error with
  | none =>
    constructor
    · intro h
      cases h
      exact ⟨bytes, rfl, rfl⟩
    · rintro ⟨bytes', hencoded, rfl⟩
      cases hencoded
      rfl
  | some error =>
    constructor
    · intro h
      cases h
    · rintro ⟨bytes', hencoded, -⟩
      cases hencoded

/-- The bytes of pieces that are all there, one after the other. -/
theorem encodePieces_of_encodable (hpresent : none ∉ pieces)
    (hencodable : (Json.textOf pieces).Encodable) :
    ∃ bytes, encodePieces pieces = (bytes, none) ∧
      ∀ rest, Utf8.pieces (bytes ++ rest) = (Json.textOf pieces).map some ++ Utf8.pieces rest := by
  induction pieces with
  | nil => exact ⟨[], rfl, fun rest => rfl⟩
  | cons piece pieces ih =>
    rw [List.mem_cons, not_or] at hpresent
    obtain ⟨t, rfl⟩ := Option.ne_none_iff_exists'.mp (Ne.symm hpresent.1)
    rw [Json.textOf_cons_some, Json.encodable_append_iff] at hencodable
    obtain ⟨first, hfirst, hfirstPieces⟩ := Utf8.exists_encode hencodable.1
    obtain ⟨others, hothers, hotherPieces⟩ := ih hpresent.2 hencodable.2
    refine ⟨first ++ others, ?_, fun rest => ?_⟩
    · rw [encodePieces, hfirst, hothers]
    · rw [List.append_assoc, hfirstPieces, hotherPieces, Json.textOf_cons_some, List.map_append,
        List.append_assoc]

theorem none_notMem_of_encodePieces (hcomplete : (encodePieces pieces).2 = none) :
    none ∉ pieces := by
  induction pieces with
  | nil => exact List.not_mem_nil
  | cons piece pieces ih =>
    cases piece with
    | none => cases hcomplete
    | some t =>
      rw [encodePieces] at hcomplete
      split at hcomplete
      · cases hcomplete
      · simpa using ih hcomplete

/-! ### Documents that are read -/

theorem readText_of_read {bytes : List UInt8} {text : Text}
    (hstored : session.disk.read path = .ok bytes) (hdecoded : Utf8.decode? bytes = some text) :
    readText path session = .ok text session := by
  rw [readText, Outcome.run_get_bind]
  simp only [hstored, ofExcept, pure_bind, hdecoded]
  rfl

theorem readDocument_of_parse {text : Text} {document : Json}
    (hstored : readText path session = .ok text session)
    (hparsed : Json.parse text = .ok document) :
    readDocument path session = .ok document session := by
  rw [readDocument, Outcome.run_bind_of_ok hstored]
  simp only [hparsed]
  rfl

theorem loadGraph_of_document {document : Json} {source : Path} {graph : CallGraph}
    (hstored : readDocument path session = .ok document session)
    (hresolved : session.disk.resolve path = .ok source)
    (hdrawn : CallGraph.ofDocument document (.text path.stem) (.text source.text) = .ok graph) :
    loadGraph path session = .ok graph session := by
  rw [loadGraph, Outcome.run_bind_of_ok hstored, Outcome.run_get_bind]
  simp only [hresolved, ofExcept, pure_bind, hdrawn]
  rfl

end Run

/-! ### The documents of reports -/

namespace Json

theorem tidy_record {fields : List (String × Json)} (hdistinct : (fields.map (·.1)).Nodup)
    (hinside : ∀ field ∈ fields, Throughout Tidy field.2) : Throughout Tidy (record fields) := by
  refine throughout_object_iff.mpr ⟨?_, ?_⟩
  · show ((fields.map fun field => (lit field.1, field.2)).map (·.1)).Nodup
    rw [List.map_map]
    have hnames : (fields.map (·.1)).map lit = fields.map fun field => lit field.1 := List.map_map
    exact hnames ▸ List.Nodup.map (fun _ _ => lit_inj.mp) hdistinct
  · intro field hmember
    obtain ⟨field', hmember', rfl⟩ := List.mem_map.mp hmember
    exact hinside field' hmember'

theorem tidy_list {items : List Json} (hinside : ∀ item ∈ items, Throughout Tidy item) :
    Throughout Tidy (list items) :=
  throughout_list_iff.mpr ⟨trivial, hinside⟩

theorem tidy_text (s : Text) : Throughout Tidy (text s) :=
  List.forall_mem_singleton.mpr trivial

theorem tidy_int (n : Int) : Throughout Tidy (int n) :=
  List.forall_mem_singleton.mpr trivial

end Json

open Json

theorem HeaderFacts.tidy_document (facts : HeaderFacts) : Throughout Tidy facts.document :=
  tidy_record (by simp) (by simp [tidy_int])

theorem CallRecord.tidy_document (call : CallRecord) : Throughout Tidy call.document :=
  tidy_record (by simp) (by simp [tidy_int, tidy_text])

theorem ReportParameter.tidy_document (parameter : ReportParameter) :
    Throughout Tidy parameter.document :=
  tidy_record (by simp) (by simp [tidy_text])

theorem ReportedMethod.tidy_document (method : ReportedMethod) :
    Throughout Tidy method.document := by
  have hparameters : Throughout Tidy (.list (method.parameters.map (·.document))) :=
    tidy_list (List.forall_mem_map.mpr fun parameter _ => parameter.tidy_document)
  have hliterals : Throughout Tidy (.list (method.stringLiterals.map .text)) :=
    tidy_list (List.forall_mem_map.mpr fun s _ => tidy_text s)
  have hcalls : Throughout Tidy (.list (method.calls.map (·.document))) :=
    tidy_list (List.forall_mem_map.mpr fun call _ => call.tidy_document)
  exact tidy_record (by simp) (by simp [tidy_int, tidy_text, hparameters, hliterals, hcalls])

theorem ReportedType.tidy_document (type : ReportedType) : Throughout Tidy type.document := by
  have hmethods : Throughout Tidy (.list (type.methods.map (·.document))) :=
    tidy_list (List.forall_mem_map.mpr fun method _ => method.tidy_document)
  exact tidy_record (by simp) (by simp [tidy_text, hmethods])

/-- The fields of every object in a report's document have different names, and no
number there has a fraction. -/
theorem Report.tidy_document (report : Report) : Throughout Tidy report.document := by
  have htypes : Throughout Tidy (.list (report.types.map (·.document))) :=
    tidy_list (List.forall_mem_map.mpr fun type _ => type.tidy_document)
  have hnames (listed : List Text) : Throughout Tidy (.list (listed.map importDocument)) :=
    tidy_list (List.forall_mem_map.mpr fun name _ => tidy_record (by simp) (by simp [tidy_text]))
  exact tidy_record (by simp) (by simp [tidy_text, report.facts.tidy_document, htypes, hnames])

/-! ### Reports -/

/-- Every report's document has a graph, whatever program and source it is given. -/
theorem Report.exists_graph (report : Report) (program source : Json) :
    ∃ graph, CallGraph.ofDocument report.document program source = .ok graph := by
  have hassembly : report.document.member "assembly" .null = .ok (.text report.assembly) :=
    Json.member_record (by simp) _
  obtain ⟨calls, hcalls, -⟩ := CallGraph.exists_callsOfEntry report
  obtain ⟨graph, hdrawn, -⟩ := CallGraph.exists_draws program source hassembly
    (CallGraph.methodEntries_document report) hcalls
  exact ⟨graph, hdrawn⟩

/-- The document of a report that can be written is stored as bytes that decode to its
layout. -/
theorem Report.exists_bytes {report : Report} (hencodable : Throughout Encodable report.document)
    (hfit : Throughout Fits report.document) :
    ∃ bytes, Run.encodePieces (report.document.prettyPieces 0) = (bytes, none) ∧
      Utf8.decode? bytes = some (Json.textOf (report.document.prettyPieces 0)) := by
  have hlays := lays_prettyPieces report.tidy_document hfit hencodable 0
  obtain ⟨bytes, hencoded, hdecodes⟩ := Run.encodePieces_of_encodable
    ((none_notMem_prettyPieces_iff _ 0).mpr hfit) hlays.encodable
  have hpieces := hdecodes []
  rw [List.append_nil, Utf8.pieces, List.append_nil] at hpieces
  exact ⟨bytes, hencoded, Utf8.decode?_of_pieces hpieces⟩

/-- The bytes of a file that holds a report. -/
def Report.bytes (report : Report) : List UInt8 :=
  (Run.encodePieces (report.document.prettyPieces 0)).1

/-- A file that holds a report is read as the report's document. -/
theorem Run.readDocument_of_report {report : Report} {path : Path} {session : Session}
    (hencodable : Throughout Encodable report.document) (hfit : Throughout Fits report.document)
    (hstored : session.disk.read path = .ok report.bytes) :
    (∃ text, Utf8.decode? report.bytes = some text ∧
      text = Json.textOf (report.document.prettyPieces 0) ∧
      Json.parse text = .ok report.document) ∧
    Run.readDocument path session = .ok report.document session := by
  obtain ⟨bytes, hencoded, hdecoded⟩ := Report.exists_bytes hencodable hfit
  obtain rfl : report.bytes = bytes := congrArg Prod.fst hencoded
  have hparsed :=
    parse_of_laidOut (lays_prettyPieces report.tidy_document hfit hencodable 0).laidOut
  exact ⟨⟨_, hdecoded, rfl, hparsed⟩,
    Run.readDocument_of_parse (Run.readText_of_read hstored hdecoded) hparsed⟩

/-- **A written report is read back.**  Where a file can be written, and no string of
the report has a surrogate, writing the report returns exactly when no number in it
has too many digits.  The text stored then is the layout of the report's document,
it is read as that document, and the graph loaded from the file is the graph of the
document, named after the file and with the resolved path as its source. -/
theorem Run.saveReport_reads_back {report : Report} {path : Path} {session : Session}
    (hencodable : Throughout Encodable report.document) (hwritable : Run.Writable session path) :
    ((∃ saved, Run.saveReport report path session = .ok () saved) ↔
      Throughout Fits report.document) ∧
    ∀ saved, Run.saveReport report path session = .ok () saved →
      (∃ bytes text, saved.disk.read path = .ok bytes ∧ Utf8.decode? bytes = some text ∧
        text = Json.textOf (report.document.prettyPieces 0) ∧
        Json.parse text = .ok report.document) ∧
      ∃ source graph, saved.disk.resolve path = .ok source ∧
        CallGraph.ofDocument report.document (.text path.stem) (.text source.text) = .ok graph ∧
        Run.loadGraph path saved = .ok graph saved := by
  obtain ⟨disk, place, hready⟩ := hwritable.exists_readyFor
  have hfits {bytes : List UInt8}
      (hencoded : Run.encodePieces (report.document.prettyPieces 0) = (bytes, none)) :
      Throughout Fits report.document :=
    (none_notMem_prettyPieces_iff _ 0).mp (Run.none_notMem_of_encodePieces (by rw [hencoded]))
  refine ⟨⟨?_, ?_⟩, ?_⟩
  · rintro ⟨saved, hsaved⟩
    obtain ⟨bytes, hencoded, -⟩ := (Run.writePieces_eq_ok_iff hready).mp hsaved
    exact hfits hencoded
  · intro hfit
    obtain ⟨bytes, hencoded, -⟩ := Report.exists_bytes hencodable hfit
    exact ⟨_, (Run.writePieces_eq_ok_iff hready).mpr ⟨bytes, hencoded, rfl⟩⟩
  · intro saved hsaved
    obtain ⟨bytes, hencoded, rfl⟩ := (Run.writePieces_eq_ok_iff hready).mp hsaved
    obtain rfl : report.bytes = bytes := congrArg Prod.fst hencoded
    have hstored : (Run.storing session disk place report.bytes).disk.read path =
        .ok report.bytes := Disk.read_put hready.leads hready.free report.bytes
    obtain ⟨⟨text, hdecoded, hlaid, hparsed⟩, hdocument⟩ :=
      Run.readDocument_of_report hencodable (hfits hencoded) hstored
    have hresolved : (Run.storing session disk place report.bytes).disk.resolve path =
        .ok (path.resolve disk.here) :=
      Disk.resolve_eq_ok (Disk.locate_eq_ok_iff.mp hready.leads).1
    obtain ⟨graph, hdrawn⟩ := report.exists_graph (.text path.stem)
      (.text (path.resolve disk.here).text)
    exact ⟨⟨_, text, hstored, hdecoded, hlaid, hparsed⟩, _, graph, hresolved, hdrawn,
      Run.loadGraph_of_document hdocument hresolved hdrawn⟩

/-- A report with empty lists, a large and a negative number, and strings that need
escapes or several bytes. -/
def awkwardReport : Report where
  assembly := lit "a\"b"
  facts := ⟨0, 0xFFFFFFFFFFFFFFFFFFFF, -1, 0, 0⟩
  types := [⟨lit "\\", [], [⟨⟨6, 1⟩, lit "m\n\x01", 0, 0, [], lit "é",
    [lit "\"", [], lit "😀\t"], [], [], [⟨lit "\x7d", 7⟩]⟩]⟩]
  importedMethods := []
  importedTypes := [lit "[,]"]
  exportedTypes := []

/-- A session with nothing but its current directory. -/
def bareSession : Session :=
  ⟨Disk.emptyAt [lit "work"], []⟩

theorem Run.awkwardReport_reads_back :
    Throughout Encodable awkwardReport.document ∧
    Run.Writable bareSession (Path.ofText (lit "out/r.json")) ∧
    ∃ saved, Run.saveReport awkwardReport (Path.ofText (lit "out/r.json")) bareSession =
        .ok () saved ∧
      (∃ bytes text, saved.disk.read (Path.ofText (lit "out/r.json")) = .ok bytes ∧
        Utf8.decode? bytes = some text ∧ Json.parse text = .ok awkwardReport.document) ∧
      ∃ graph, Run.loadGraph (Path.ofText (lit "out/r.json")) saved = .ok graph saved := by
  have hencodable : Throughout Encodable awkwardReport.document := by decide
  have hwritable : Run.Writable bareSession (Path.ofText (lit "out/r.json")) := ⟨_, rfl⟩
  obtain ⟨hreturns, hloads⟩ := Run.saveReport_reads_back hencodable hwritable
  obtain ⟨saved, hsaved⟩ := hreturns.mpr (by decide)
  obtain ⟨⟨bytes, text, hstored, hdecoded, -, hparsed⟩, source, graph, -, -, hloaded⟩ :=
    hloads saved hsaved
  exact ⟨hencodable, hwritable, saved, hsaved, ⟨bytes, text, hstored, hdecoded, hparsed⟩,
    graph, hloaded⟩

end CilAtlas
