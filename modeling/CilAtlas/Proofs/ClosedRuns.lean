import CilAtlas.Proofs.MadeDirectories

/-!
# Runs leave nothing open

A run can fail before the assembly is opened, while it is converted or analysed, and
afterwards, when the project is decompiled.  On each of these ways, and when nothing
fails, what was opened is closed once, a tool is started only after that, and the
report that an earlier run has left in the output directory is as it was.

Writing comes last, and it does not spare the earlier report: where the file can be
opened, it holds the new report afterwards, up to the first part that cannot be
written when there is one.

A tool may do to the files what it likes, except that it leaves the report alone.
-/

namespace CilAtlas

/-- No command changes the file to which the path leads. -/
def Environment.Spares (env : Environment) (path : Path) : Prop :=
  ∀ command disk, (env.runTool command disk).2.content? path = disk.content? path

/-- The path leads to a file that can be opened. -/
def Environment.Opens (env : Environment) (disk : Disk) (path : Path) : Prop :=
  ∃ content convert, disk.find path = .ok (.file content) ∧ env.openFile content = some convert

namespace Session

/-- The session with further events. -/
def noting (session : Session) (trace : List Event) : Session :=
  { session with events := session.events ++ trace }

theorem noting_noting (session : Session) (first second : List Event) :
    (session.noting first).noting second = session.noting (first ++ second) := by
  unfold noting
  rw [List.append_assoc]

/-- Between the two sessions these events were recorded, and the file to which the path
leads has kept its content. -/
structure Follows (path : Path) (trace : List Event) (session session' : Session) : Prop where
  events_eq : session'.events = session.events ++ trace
  content?_eq : session'.disk.content? path = session.disk.content? path

theorem follows_noting (path : Path) (session : Session) (trace : List Event) :
    session.Follows path trace (session.noting trace) :=
  ⟨rfl, rfl⟩

theorem Follows.after_noting {path : Path} {session session' : Session} {first second : List Event}
    (hlater : (session.noting first).Follows path second session') :
    session.Follows path (first ++ second) session' := by
  refine ⟨?_, hlater.content?_eq⟩
  rw [hlater.events_eq, ← List.append_assoc]
  rfl

end Session

namespace Run

variable {env : Environment} {settings : Settings} {session : Session} {path : Path}

/-! ### The assembly -/

theorem checkSettings_of_valid (hvalid : settings.validate session.disk = .ok ()) :
    checkSettings settings session = .ok () session := by
  rw [checkSettings, Outcome.run_get_bind, hvalid]
  rfl

theorem checkSettings_of_invalid (hinvalid : settings.validate session.disk ≠ .ok ()) :
    ∃ error, checkSettings settings session = .error error session := by
  rw [checkSettings, Outcome.run_get_bind]
  cases h : settings.validate session.disk with
  | ok _ => exact absurd h hinvalid
  | error failure =>
    cases failure with
    | refused error => exact ⟨.settings error, rfl⟩
    | disk error => exact ⟨.disk error, rfl⟩

/-- What cannot be opened leaves no trace. -/
theorem openStore_of_not_opens (hclosed : ¬ env.Opens session.disk path) :
    ∃ error, openStore env path session = .error error session := by
  rw [openStore, Outcome.run_get_bind]
  cases hfound : session.disk.find path with
  | ok node =>
    cases node with
    | directory => exact ⟨.load (.notFound path), rfl⟩
    | file content =>
      cases hopened : env.openFile content with
      | none => exact ⟨.load (.unreadable path), by simp only [hopened]; rfl⟩
      | some convert => exact absurd ⟨content, convert, hfound, hopened⟩ hclosed
  | error error =>
    cases error with
    | name _ => exact ⟨.load (.notFound path), rfl⟩
    | system fault text =>
      cases fault with
      | nameTooLong => exact ⟨.disk (.system .nameTooLong text), rfl⟩
      | missing | alreadyThere | notDirectory | isDirectory =>
        exact ⟨.load (.notFound path), rfl⟩

/-- What is opened is closed again when it cannot be converted. -/
theorem openStore_of_opens (hopens : env.Opens session.disk path) :
    (∃ store, openStore env path session = .ok store (session.noting [.opened])) ∨
      ∃ error, openStore env path session = .error error (session.noting [.opened, .closed]) := by
  obtain ⟨content, convert, hfound, hopened⟩ := hopens
  have hcontinues : openStore env path session =
      convertOpened path (convert content.length) (session.noting [.opened]) := by
    rw [openStore, Outcome.run_get_bind]
    simp only [hfound, hopened]
    rfl
  rw [hcontinues]
  have hclosed : (session.noting [.opened]).noting [.closed] = session.noting [.opened, .closed] :=
    session.noting_noting _ _
  rw [← hclosed]
  cases convert content.length with
  | ok store => exact .inl ⟨store, rfl⟩
  | error error =>
    cases error with
    | noHeader => exact .inr ⟨.load .noHeader, rfl⟩
    | noMetadata => exact .inr ⟨.load .noMetadata, rfl⟩
    | malformed _ => exact .inr ⟨.load (.unreadable path), rfl⟩

/-- When the assembly can be opened it is open for its conversion and analysis only; what
remains is the project. -/
theorem makeReport_of_opens (hvalid : settings.validate session.disk = .ok ())
    (hopens : env.Opens session.disk settings.assemblyPath) :
    (∃ error, makeReport env settings session =
      .error error (session.noting [.opened, .closed])) ∨
    ∃ report, makeReport env settings session =
      (if settings.decompileProject then makeProject env settings >>= fun _ => pure report
        else pure report : Run Report) (session.noting [.opened, .closed]) := by
  rw [makeReport, Outcome.run_bind_of_ok (checkSettings_of_valid hvalid)]
  rcases openStore_of_opens hopens with ⟨store, hopened⟩ | ⟨error, hrefused⟩
  · have hclosed : closeStore (session.noting [.opened]) =
        .ok () (session.noting [.opened, .closed]) :=
      congrArg (EStateM.Result.ok ()) (session.noting_noting _ _)
    rw [Outcome.run_bind_of_ok hopened, Outcome.run_bind_of_ok hclosed]
    cases settings.analyze store with
    | error error => exact .inl ⟨.analysis error, rfl⟩
    | ok report =>
      refine .inr ⟨report, ?_⟩
      cases settings.decompileProject with
      | true => rfl
      | false => rfl
  · exact .inl ⟨error, Outcome.run_bind_of_error hrefused _⟩

theorem makeReport_of_not_opens
    (hrefused : ¬ (settings.validate session.disk = .ok () ∧
      env.Opens session.disk settings.assemblyPath)) :
    ∃ error, makeReport env settings session = .error error session := by
  by_cases hvalid : settings.validate session.disk = .ok ()
  · obtain ⟨error, h⟩ := openStore_of_not_opens fun hopens => hrefused ⟨hvalid, hopens⟩
    refine ⟨error, ?_⟩
    rw [makeReport, Outcome.run_bind_of_ok (checkSettings_of_valid hvalid)]
    exact Outcome.run_bind_of_error h _
  · obtain ⟨error, h⟩ := checkSettings_of_invalid hvalid
    exact ⟨error, Outcome.run_bind_of_error h _⟩

/-! ### The project -/

theorem stateOf_onDisk {α : Type} (work : Disk.Work α) (session : Session) :
    Outcome.stateOf (onDisk work session) =
      { session with disk := Outcome.stateOf (work session.disk) } := by
  unfold onDisk
  cases work session.disk with
  | ok _ _ => rfl
  | error _ _ => rfl

/-- The output directory is made, whatever happens afterwards, without a change to the
report in it. -/
theorem follows_ensureOutput (settings : Settings) (hsound : session.disk.Sound) :
    session.Follows settings.reportPath [] (Outcome.stateOf
      (onDisk (Disk.ensureDirectory (settings.outputPath.resolve session.disk.here)) session)) := by
  rw [stateOf_onDisk]
  exact ⟨(List.append_nil _).symm, hsound.content?_ensureDirectory settings.outputPath (by decide)⟩

/-- The session after a command. -/
def ranTool (env : Environment) (command : List Text) (session : Session) : Session where
  disk := (env.runTool command session.disk).2
  events := session.events ++ [.ran command]

/-- A tool that fails has run, and so has one of which nothing is known. -/
theorem stateOf_startTool (env : Environment) (launcher : Text) (command : List Text)
    (session : Session) :
    Outcome.stateOf (startTool env launcher command session) = ranTool env command session := by
  show Outcome.stateOf ((ofExcept RunError.tool (env.runTool command session.disk).1 >>=
    fun result => if result.exitStatus ≠ 0 then throw _ else pure () : Run Unit)
      (ranTool env command session)) = _
  cases (env.runTool command session.disk).1 with
  | error fault => rfl
  | ok result =>
    have hknown : ofExcept RunError.tool (.ok result) (ranTool env command session) =
      .ok result (ranTool env command session) := rfl
    rw [Outcome.run_bind_of_ok hknown]
    split
    · rfl
    · rfl

theorem follows_ranTool (hspares : env.Spares path) {ready : Session}
    (hmade : session.Follows path [] ready) (command : List Text) :
    session.Follows path [.ran command] (ranTool env command ready) := by
  refine ⟨?_, (hspares command ready.disk).trans hmade.content?_eq⟩
  show ready.events ++ [.ran command] = _
  rw [hmade.events_eq, List.append_nil]

/-- Either the tool is not started, and then the project is not made, or it is started
once. -/
theorem makeProject_cases (session : Session) (hsound : session.disk.Sound)
    (hspares : env.Spares settings.reportPath) :
    (∃ error final, makeProject env settings session = .error error final ∧
      session.Follows settings.reportPath [] final) ∨
    ∃ command, session.Follows settings.reportPath [.ran command]
      (Outcome.stateOf (makeProject env settings session)) := by
  have huntouched : session.Follows settings.reportPath [] session :=
    ⟨(List.append_nil _).symm, rfl⟩
  rw [makeProject]
  cases env.findTool settings.tool with
  | none => exact .inl ⟨.project (.noTool settings.tool), session, rfl, huntouched⟩
  | some launcher =>
    dsimp only
    rw [Outcome.run_get_bind]
    cases hresolved : session.disk.resolve settings.outputPath with
    | error error => exact .inl ⟨.disk error, session, rfl, huntouched⟩
    | ok output =>
      obtain rfl := Disk.eq_of_resolve hresolved
      have hnamed : ofExcept RunError.disk (.ok (settings.outputPath.resolve session.disk.here))
        session = .ok (settings.outputPath.resolve session.disk.here) session := rfl
      have hmade := follows_ensureOutput settings hsound
      rw [Outcome.run_bind_of_ok hnamed]
      cases hresult : onDisk (Disk.ensureDirectory (settings.outputPath.resolve session.disk.here))
        session with
      | error error final =>
        rw [hresult] at hmade
        exact .inl ⟨error, final, Outcome.run_bind_of_error hresult _, hmade⟩
      | ok _ ready =>
        rw [hresult] at hmade
        rw [Outcome.run_bind_of_ok hresult, Outcome.run_get_bind]
        cases settings.projectCommand ready.disk launcher with
        | error error => exact .inl ⟨.disk error, ready, rfl, hmade⟩
        | ok command =>
          have hworded : ofExcept RunError.disk (.ok command) ready = .ok command ready := rfl
          rw [Outcome.run_bind_of_ok hworded, Outcome.stateOf_bind_pure, stateOf_startTool]
          exact .inr ⟨command, follows_ranTool hspares hmade command⟩

/-! ### The whole run -/

theorem onDisk_keeps_events {α : Type} (work : Disk.Work α) :
    Outcome.Advances (fun session session' : Session => session'.events = session.events)
      (onDisk work) := by
  intro session
  rw [stateOf_onDisk]

/-- Writing a file is no event. -/
theorem writePieces_keeps_events (path : Path) (pieces : List (Option Text)) :
    Outcome.Advances (fun session session' : Session => session'.events = session.events)
      (writePieces path pieces) := by
  have htrans {s s' s'' : Session} (hfirst : s'.events = s.events)
      (hsecond : s''.events = s'.events) : s''.events = s.events := hsecond.trans hfirst
  refine (onDisk_keeps_events _).bind (fun _ => ?_) htrans
  refine (onDisk_keeps_events _).bind (fun _ => ?_) htrans
  intro session
  cases (encodePieces pieces).2 with
  | none => rfl
  | some error => rfl

theorem saveAnalysis_events (env : Environment) (settings : Settings) (session : Session) :
    (Outcome.stateOf (saveAnalysis env settings session)).events =
      (Outcome.stateOf (makeReport env settings session)).events := by
  cases hresult : makeReport env settings session with
  | error error final =>
    rw [saveAnalysis, Outcome.run_bind_of_error hresult]
    rfl
  | ok report final =>
    rw [saveAnalysis, Outcome.run_bind_of_ok hresult, Outcome.stateOf_bind_pure]
    exact writePieces_keeps_events settings.reportPath _ final

/-! ### The written report -/

/-- The file holds what could be written of the report. -/
theorem content?_saveReport (report : Report) (hwritable : Writable session path) :
    (Outcome.stateOf (saveReport report path session)).disk.content? path = some report.bytes := by
  obtain ⟨disk, place, hready⟩ := hwritable.exists_readyFor
  have hstate : Outcome.stateOf (saveReport report path session) =
      storing session disk place report.bytes := by
    rw [saveReport, writePieces_of_ready hready]
    cases (encodePieces (report.document.prettyPieces 0)).2 with
    | none => rfl
    | some error => rfl
  have hread : (storing session disk place report.bytes).disk.read path = .ok report.bytes :=
    Disk.read_put hready.leads hready.free report.bytes
  rw [hstate, Disk.content?, hread]
  rfl

/-- Where the file cannot be opened, directories may have been made, and no file is
changed. -/
theorem gains_of_not_writable (pieces : List (Option Text)) (hclosed : ¬ Writable session path) :
    session.disk.Gains (Outcome.stateOf (writePieces path pieces session)).disk := by
  have hgains : session.disk.Gains
      (Outcome.stateOf (Disk.ensureDirectory path.parent session.disk)) :=
    Disk.ensureFrom_gains _ _ session.disk
  rw [writePieces_eq]
  cases hmade : Disk.ensureDirectory path.parent session.disk with
  | error error disk =>
    rw [hmade] at hgains
    rw [Outcome.run_bind_of_error (onDisk_of_error hmade)]
    exact hgains
  | ok _ disk =>
    rw [hmade] at hgains
    rw [Outcome.run_bind_of_ok (onDisk_of_ok hmade)]
    cases hwrite : Disk.write path (encodePieces pieces).1 disk with
    | ok _ disk' =>
      obtain ⟨place, hleads, hfree, -⟩ := Disk.write_eq_ok_iff.mp hwrite
      exact absurd ⟨_, writePieces_of_ready ⟨hmade, hleads, hfree⟩ []⟩ hclosed
    | error error disk' =>
      obtain rfl : disk' = disk := Disk.eq_of_write_error hwrite
      rw [Outcome.run_bind_of_error (onDisk_of_error hwrite)]
      exact hgains

/-- What a run may have done with the assembly and the tool: nothing, or opened the
assembly and closed it, or that and started the tool. -/
def Orderly (trace : List Event) : Prop :=
  trace = [] ∨ trace = [.opened, .closed] ∨ ∃ command, trace = [.opened, .closed, .ran command]

/-- The trace of the making of a report, with what its end says about it. -/
theorem makeReport_follows (hsound : session.disk.Sound)
    (hspares : env.Spares settings.reportPath) :
    ∃ trace, Orderly trace ∧
      session.Follows settings.reportPath trace
        (Outcome.stateOf (makeReport env settings session)) ∧
      (.opened ∈ trace ↔ settings.validate session.disk = .ok () ∧
        env.Opens session.disk settings.assemblyPath) ∧
      ∀ report final, makeReport env settings session = .ok report final →
        .opened ∈ trace ∧
          ((∃ command, .ran command ∈ trace) ↔ settings.decompileProject = true) := by
  by_cases hopens : settings.validate session.disk = .ok () ∧
    env.Opens session.disk settings.assemblyPath
  · have hclosed : session.Follows settings.reportPath [.opened, .closed]
        (session.noting [.opened, .closed]) := session.follows_noting _ _
    rcases makeReport_of_opens hopens.1 hopens.2 with ⟨error, hfails⟩ | ⟨report, hcontinues⟩
    · rw [hfails]
      refine ⟨_, .inr (.inl rfl), hclosed, iff_of_true (by simp) hopens, ?_⟩
      intro report final hreturned
      cases hreturned
    · rw [hcontinues]
      by_cases hproject : settings.decompileProject = true
      · rw [if_pos hproject, Outcome.stateOf_bind_pure]
        -- The disk is still the first one, so what is known of it applies to the project.
        rcases makeProject_cases (session.noting [.opened, .closed]) hsound hspares with
          ⟨error, final, hfails, huntouched⟩ | ⟨command, hran⟩
        · rw [Outcome.run_bind_of_error hfails, hfails]
          refine ⟨_, .inr (.inl rfl), huntouched.after_noting, iff_of_true (by simp) hopens, ?_⟩
          intro report final hreturned
          cases hreturned
        · refine ⟨_, .inr (.inr ⟨command, rfl⟩), hran.after_noting, iff_of_true (by simp) hopens,
            ?_⟩
          intro report final hreturned
          exact ⟨by simp, iff_of_true ⟨command, by simp⟩ hproject⟩
      · rw [if_neg hproject]
        refine ⟨_, .inr (.inl rfl), hclosed, iff_of_true (by simp) hopens, ?_⟩
        intro report final hreturned
        exact ⟨by simp, iff_of_false (by simp) hproject⟩
  · obtain ⟨error, hfails⟩ := makeReport_of_not_opens hopens
    rw [hfails]
    refine ⟨[], .inl rfl, ⟨(List.append_nil _).symm, rfl⟩, iff_of_false List.not_mem_nil hopens, ?_⟩
    intro report final hreturned
    cases hreturned

/-- A run closes what it opens and spares the report that is there.  Whatever the files,
the settings and the tool, and whether making the report returns or fails, and at
whichever step:  the assembly is opened exactly when the settings are valid and the file
can be opened, and then it has been closed once; the tool is started once at most, after
the assembly was closed; and in the output directory the file of the report has the
content that it had, or is absent as it was.  When the report is made, the assembly was
opened, and the tool was started if that was asked for.  Where it is not made, the run
ends there and writes nothing, and writing does not touch the assembly either.  Once
the report is made and its file can be opened, the file holds the new report, up to
the first part that cannot be written when there is one, and the earlier report is
gone; where the file cannot be opened, no file is changed. -/
theorem makeReport_closes_and_spares (env : Environment) (settings : Settings) (session : Session)
    (hsound : session.disk.Sound) (hspares : env.Spares settings.reportPath) :
    let made := makeReport env settings session
    let saved := saveAnalysis env settings session
    (∃ trace, Orderly trace ∧
      (Outcome.stateOf made).events = session.events ++ trace ∧
      (Outcome.stateOf saved).events = session.events ++ trace ∧
      (.opened ∈ trace ↔ settings.validate session.disk = .ok () ∧
        env.Opens session.disk settings.assemblyPath) ∧
      ∀ report final, made = .ok report final → .opened ∈ trace ∧
        ((∃ command, .ran command ∈ trace) ↔ settings.decompileProject = true)) ∧
    (Outcome.stateOf made).disk.content? settings.reportPath =
      session.disk.content? settings.reportPath ∧
    (∀ error final, made = .error error final → saved = .error error final) ∧
    ∀ report final, made = .ok report final →
      (Writable final settings.reportPath →
        (Outcome.stateOf saved).disk.content? settings.reportPath = some report.bytes) ∧
      (¬ Writable final settings.reportPath → final.disk.Gains (Outcome.stateOf saved).disk) := by
  intro made saved
  obtain ⟨trace, horderly, hfollows, hopened, hreturned⟩ := makeReport_follows hsound hspares
  have hrecorded : (Outcome.stateOf saved).events = session.events ++ trace :=
    (saveAnalysis_events env settings session).trans hfollows.events_eq
  refine ⟨⟨trace, horderly, hfollows.events_eq, hrecorded, hopened, hreturned⟩,
    hfollows.content?_eq, ?_, ?_⟩
  · intro error final hfails
    exact Outcome.run_bind_of_error hfails _
  · intro report final hmade
    have hsaved : Outcome.stateOf saved =
        Outcome.stateOf (saveReport report settings.reportPath final) := by
      show Outcome.stateOf (saveAnalysis env settings session) = _
      rw [saveAnalysis, Outcome.run_bind_of_ok hmade, Outcome.stateOf_bind_pure]
    rw [hsaved]
    exact ⟨content?_saveReport report, gains_of_not_writable (report.document.prettyPieces 0)⟩

/-- An assembly with nothing in it. -/
def bareAssembly : Store where
  typeDefs := OrderedMap.empty
  typeRefs := OrderedMap.empty
  exportedTypes := OrderedMap.empty
  methodDefs := OrderedMap.empty
  memberRefs := OrderedMap.empty
  methodSpecs := OrderedMap.empty
  typeSpecs := OrderedMap.empty
  image := ⟨#[]⟩
  userStrings := fun _ => .ok none
  facts := ⟨0, 0, 0, 0, 0⟩

/-- Every file can be opened, and the tool leaves a log and fails. -/
def failingTool : Environment where
  openFile _ := some fun _ => .ok bareAssembly
  findTool := some
  runTool _ disk := (.ok ⟨3, [], lit "broken"⟩, disk.put [lit "log"] (.file []))
  homeOf _ := none

/-- The whole project of `/a.dll` goes to `/out`. -/
def projectToOut : Settings where
  assemblyPath := ⟨.root, [lit "a.dll"]⟩
  outputPath := ⟨.root, [lit "out"]⟩
  decompileProject := true

/-- A file name of one byte that is no text. -/
def byteName : Text := [⟨0xDC80, by decide⟩]

/-- The report of the assembly with this name goes to `/out`; the name stands in it. -/
def unwritableName : Settings where
  assemblyPath := ⟨.root, [byteName]⟩
  outputPath := ⟨.root, [lit "out"]⟩

/-- The two assemblies, and the report of an earlier run. -/
def reportedBefore : Session where
  disk := ⟨[], OrderedMap.ofList [([lit "a.dll"], .file []), ([byteName], .file []),
    ([lit "out"], .directory),
    ([lit "out", lit "assembly_analysis.json"], .file [0x7B, 0x7D])]⟩
  events := []

/-- The log does not lie on the way to the report. -/
theorem failingTool_spares : failingTool.Spares projectToOut.reportPath := by
  intro command disk
  have hpassed : ∀ n ≤ 2, [lit "log"] ≠
      ([lit "out", lit "assembly_analysis.json"].take n).foldl Path.follow [] := by decide
  refine Disk.content?_congr rfl fun n hinside => ?_
  show (disk.put [lit "log"] (.file [])).node? _ = _
  rw [Disk.node?_put (List.cons_ne_nil _ _)]
  exact if_neg (hpassed n hinside)

/-- The tool fails and leaves a file behind: the run ends with the status of the tool, the
assembly was closed before the tool was started, and the earlier report is unchanged.
The other run fails while it writes, and leaves the beginning of its report in the place
of the earlier one. -/
theorem reportedBefore_spared :
    reportedBefore.disk.Sound ∧ failingTool.Spares projectToOut.reportPath ∧
      (∃ final command, saveAnalysis failingTool projectToOut reportedBefore =
          .error (.project (.failed (lit "ilspycmd") 3 (lit "broken"))) final ∧
        final.events = [.opened, .closed, .ran command] ∧
        final.disk.content? projectToOut.reportPath = some [0x7B, 0x7D]) ∧
      ∃ final, saveAnalysis failingTool unwritableName reportedBefore =
          .error .unencodable final ∧
        final.disk.content? unwritableName.reportPath =
          Utf8.encode? (lit "\x7b\n  \"assembly\": ") := by
  have hsound : reportedBefore.disk.Sound := ⟨by decide, by decide⟩
  obtain ⟨-, hcontent, hstops, -⟩ :=
    makeReport_closes_and_spares failingTool projectToOut reportedBefore hsound failingTool_spares
  obtain ⟨-, -, -, hwritten⟩ :=
    makeReport_closes_and_spares failingTool unwritableName reportedBefore hsound failingTool_spares
  refine ⟨hsound, failingTool_spares, ⟨_, _, hstops _ _ rfl, rfl, hcontent⟩, _, rfl, ?_⟩
  exact ((hwritten _ _ rfl).1 ⟨_, rfl⟩).trans (by decide +kernel)

end Run
end CilAtlas
