import CilAtlas.Proofs.ReportRoundTrip
import Mathlib.Data.List.Infix

/-!
# Making directories changes no file

A directory is made together with those that enclose it.  Whether that succeeds or
breaks off in the middle, the tree has the same files as before, and what is new are
directories where there was nothing.

That alone does not keep what a path shows: with a double dot in it a path can lead
through a directory that was missing, and once the directory is made the path leads
somewhere.  For the entries of the directory that is made this cannot happen, as long
as every file of the tree lies in a directory.
-/

namespace CilAtlas

/-! ### Where a path leads -/

namespace Path

variable {path : Path} {here : List Text}

theorem parts_resolve_child {name : Text} (hplain : name ≠ up) :
    ((path.child name).resolve here).parts = (path.resolve here).parts ++ [name] := by
  show (path.parts ++ [name]).foldl follow (path.start here) = _
  rw [List.foldl_append]
  exact if_neg hplain

theorem foldl_follow_of_plain {parts place : List Text} (hplain : up ∉ parts) :
    parts.foldl follow place = place ++ parts := by
  induction parts generalizing place with
  | nil => exact (List.append_nil place).symm
  | cons part rest ih =>
    rw [List.mem_cons, not_or] at hplain
    rw [List.foldl_cons, follow, if_neg (Ne.symm hplain.1), ih hplain.2, List.append_assoc]
    rfl

/-- A resolved path has no double dots. -/
theorem up_notMem_resolve (hplain : up ∉ here) : up ∉ (path.resolve here).parts := by
  have hbegins : up ∉ path.start here := by
    unfold start
    split
    · exact hplain
    · exact List.not_mem_nil
  show up ∉ path.parts.foldl follow (path.start here)
  generalize path.start here = place at hbegins
  induction path.parts generalizing place with
  | nil => exact hbegins
  | cons part rest ih =>
    refine ih (follow place part) ?_
    unfold follow
    split
    · exact fun hmember => hbegins (List.mem_of_mem_dropLast hmember)
    · next hdifferent =>
      intro hmember
      rcases List.mem_append.mp hmember with hbefore | hlast
      · exact hbegins hbefore
      · exact hdifferent (List.mem_singleton.mp hlast).symm

end Path

namespace Disk

variable {disk disk' : Disk} {start place : List Text} {path : Path}

theorem walk_eq_foldl {parts : List Text} (hleads : disk.walk start parts = .ok place) :
    place = parts.foldl Path.follow start := by
  induction parts generalizing start with
  | nil => exact (Except.ok.inj hleads).symm
  | cons part rest ih => exact ih (walk_cons_eq_ok_iff.mp hleads).2.2

theorem place_of_locate (hleads : disk.locate path = .ok place) :
    place = (path.resolve disk.here).parts :=
  walk_eq_foldl (locate_eq_ok_iff.mp hleads).2.2

theorem eq_of_resolve {resolved : Path} (h : disk.resolve path = .ok resolved) :
    resolved = path.resolve disk.here := by
  unfold resolve at h
  split at h
  · cases h
  · exact (Except.ok.inj h).symm

/-- The content of the file to which a path leads; `none` when it leads to no file. -/
def content? (disk : Disk) (path : Path) : Option (List UInt8) :=
  (disk.read path).toOption

/-- What is read along a path is the file at the place that the path names. -/
theorem node?_of_content? {content : List UInt8} (h : disk.content? path = some content) :
    disk.node? (path.resolve disk.here).parts = some (.file content) := by
  have hshown : disk.read path = .ok content := by
    unfold content? at h
    cases hread : disk.read path with
    | error _ =>
      rw [hread] at h
      cases h
    | ok _ =>
      rw [hread] at h
      cases h
      rfl
  obtain ⟨node, hfound, hshown⟩ := Outcome.bind_eq_ok_iff.mp hshown
  obtain ⟨place, hleads, hthere⟩ := Outcome.bind_eq_ok_iff.mp hfound
  rw [← place_of_locate hleads]
  cases hoccupied : disk.node? place with
  | none =>
    rw [hoccupied] at hthere
    cases hthere
  | some node' =>
    rw [hoccupied] at hthere
    obtain rfl := Except.ok.inj hthere
    cases node' with
    | directory => cases hshown
    | file content' =>
      obtain rfl := Outcome.pure_eq_ok_iff.mp hshown
      rfl

/-! ### Trees that agree along a path -/

theorem walk_congr {parts : List Text}
    (hagree : ∀ n < parts.length, disk'.node? ((parts.take n).foldl Path.follow start) =
      disk.node? ((parts.take n).foldl Path.follow start)) :
    disk'.walk start parts = disk.walk start parts := by
  induction parts generalizing start with
  | nil => rfl
  | cons part rest ih =>
    have hfirst : disk'.node? start = disk.node? start := hagree 0 (Nat.zero_lt_succ _)
    have honwards : disk'.walk (Path.follow start part) rest =
        disk.walk (Path.follow start part) rest :=
      ih fun n hinside => hagree (n + 1) (Nat.succ_lt_succ hinside)
    rw [walk, walk, hfirst, honwards]

/-- What a path shows depends on the nodes that it passes. -/
theorem content?_congr (hhere : disk'.here = disk.here)
    (hagree : ∀ n ≤ path.parts.length,
      disk'.node? ((path.parts.take n).foldl Path.follow (path.start disk.here)) =
        disk.node? ((path.parts.take n).foldl Path.follow (path.start disk.here))) :
    disk'.content? path = disk.content? path := by
  have hleads : disk'.locate path = disk.locate path := by
    unfold locate
    rw [hhere, walk_congr fun n hinside => hagree n (Nat.le_of_lt hinside)]
  have hfinds : disk'.find path = disk.find path := by
    unfold find
    rw [hleads]
    cases hplace : disk.locate path with
    | error error => rfl
    | ok place =>
      have hlast : disk'.node? place = disk.node? place := by
        have hlast := hagree path.parts.length (Nat.le_refl _)
        rw [List.take_length] at hlast
        rw [place_of_locate hplace]
        exact hlast
      simp only [bind, Except.bind, hlast]
  unfold content? read
  rw [hfinds]

/-! ### Directories that are added -/

/-- The second tree has further directories, each where there was nothing, and is
else the same. -/
structure Gains (disk disk' : Disk) : Prop where
  here_eq : disk'.here = disk.here
  node?_cases : ∀ place, disk'.node? place = disk.node? place ∨
    disk.node? place = none ∧ disk'.node? place = some .directory

namespace Gains

theorem refl (disk : Disk) : disk.Gains disk :=
  ⟨rfl, fun _ => .inl rfl⟩

theorem trans {disk'' : Disk} (hfirst : disk.Gains disk') (hsecond : disk'.Gains disk'') :
    disk.Gains disk'' := by
  refine ⟨hsecond.here_eq.trans hfirst.here_eq, fun place => ?_⟩
  rcases hsecond.node?_cases place with hsame | ⟨habsent, hmade⟩
  · rw [hsame]
    exact hfirst.node?_cases place
  · rcases hfirst.node?_cases place with hsame | ⟨-, hmade'⟩
    · exact .inr ⟨hsame ▸ habsent, hmade⟩
    · rw [hmade'] at habsent
      cases habsent

theorem file_iff (hgains : disk.Gains disk') {content : List UInt8} :
    disk'.node? place = some (.file content) ↔ disk.node? place = some (.file content) := by
  rcases hgains.node?_cases place with hsame | ⟨habsent, hmade⟩
  · rw [hsame]
  · simp [habsent, hmade]

end Gains

theorem gains_put (habsent : disk.node? place = none) : disk.Gains (disk.put place .directory) := by
  have hbelow : place ≠ [] := by
    rintro rfl
    cases habsent
  refine ⟨rfl, fun place' => ?_⟩
  rw [node?_put hbelow]
  by_cases hsame : place = place'
  · subst hsame
    exact .inr ⟨habsent, if_pos rfl⟩
  · exact .inl (if_neg hsame)

/-- One directory is made where there is nothing, or nothing happens. -/
theorem makeDirectory_cases (path : Path) (disk : Disk) :
    (∃ place, disk.locate path = .ok place ∧ disk.node? place = none ∧
      makeDirectory path disk = .ok () (disk.put place .directory)) ∨
    ∃ error, makeDirectory path disk = .error error disk := by
  rw [makeDirectory, Outcome.run_get_bind]
  cases disk.locate path with
  | error error => exact .inr ⟨error, rfl⟩
  | ok place =>
    cases hoccupied : disk.node? place with
    | some node =>
      refine .inr ⟨.system .alreadyThere path.text, ?_⟩
      simp only [hoccupied, Option.isSome_some, if_true]
      rfl
    | none =>
      refine .inl ⟨place, rfl, hoccupied, ?_⟩
      simp only [hoccupied, Option.isSome_none, Bool.false_eq_true, if_false]
      rfl

theorem stateOf_ensureOne (path : Path) (disk : Disk) :
    Outcome.stateOf (ensureOne path disk) = Outcome.stateOf (makeDirectory path disk) := by
  rw [ensureOne, Outcome.run_get_bind]
  rcases makeDirectory_cases path disk with ⟨place, -, -, hmade⟩ | ⟨error, hrefused⟩
  · simp only [EStateM.run, hmade]
    rfl
  · simp only [EStateM.run, hrefused]
    cases disk.isDirectory path with
    | error _ => rfl
    | ok directory =>
      cases directory with
      | true => rfl
      | false => rfl

theorem ensureOne_gains (path : Path) : Outcome.Advances Gains (ensureOne path) := by
  intro disk
  rw [stateOf_ensureOne]
  rcases makeDirectory_cases path disk with ⟨place, -, habsent, hmade⟩ | ⟨error, hrefused⟩
  · rw [hmade]
    exact gains_put habsent
  · rw [hrefused]
    exact Gains.refl disk

theorem stateOf_ensureOne_of_directory (hplain : Path.up ∉ place)
    (hthere : disk.node? place = some .directory) :
    Outcome.stateOf (ensureOne ⟨.root, place⟩ disk) = disk := by
  rw [stateOf_ensureOne]
  rcases makeDirectory_cases ⟨.root, place⟩ disk with ⟨place', hleads, habsent, -⟩ |
    ⟨error, hrefused⟩
  · have hnamed : place' = place :=
      (place_of_locate hleads).trans (Path.foldl_follow_of_plain hplain)
    rw [hnamed, hthere] at habsent
    cases habsent
  · rw [hrefused]
    rfl

/-- The way to a directory: the last one alone, or first those that enclose it. -/
theorem ensureFrom_cons_cases (anchor : Anchor) (part : Text) (enclosing : List Text)
    (disk : Disk) :
    let path : Path := ⟨anchor, (part :: enclosing).reverse⟩
    ensureFrom anchor (part :: enclosing) disk = ensureOne path disk ∨
      ensureFrom anchor (part :: enclosing) disk =
        (ensureFrom anchor enclosing >>= fun _ => ensureOne path) disk := by
  intro path
  rw [ensureFrom, Outcome.run_get_bind]
  cases (makeDirectory ⟨anchor, (part :: enclosing).reverse⟩).run disk with
  | ok _ _ => exact .inl rfl
  | error error _ =>
    cases error with
    | name _ => exact .inl rfl
    | system fault _ =>
      cases fault with
      | missing => exact .inr rfl
      | alreadyThere | notDirectory | isDirectory | nameTooLong => exact .inl rfl

theorem ensureFrom_gains (anchor : Anchor) (backwards : List Text) :
    Outcome.Advances Gains (ensureFrom anchor backwards) := by
  induction backwards with
  | nil => exact ensureOne_gains _
  | cons part enclosing ih =>
    intro disk
    rcases ensureFrom_cons_cases anchor part enclosing disk with halone | hafter
    · rw [halone]
      exact ensureOne_gains _ disk
    · rw [hafter]
      exact ih.bind (fun _ => ensureOne_gains _) Gains.trans disk

/-! ### Trees in which every file lies in a directory -/

/-- The current directory is given without double dots, and what encloses a node is a
directory. -/
structure Sound (disk : Disk) : Prop where
  here_plain : Path.up ∉ disk.here
  enclosed : ∀ entry ∈ disk.nodes.entries, disk.node? entry.1.dropLast = some .directory

namespace Sound

theorem directory_dropLast (hsound : disk.Sound) {node : DiskNode}
    (hthere : disk.node? place = some node) : disk.node? place.dropLast = some .directory := by
  by_cases hroot : place = []
  · subst hroot
    rfl
  · rw [node?, if_neg hroot, OrderedMap.get?_eq_some_iff] at hthere
    exact hsound.enclosed _ hthere

/-- A directory that is there is not made again, nor are those that enclose it. -/
theorem stateOf_ensureFrom (hsound : disk.Sound) {backwards : List Text}
    (hplain : Path.up ∉ backwards) (hthere : disk.node? backwards.reverse = some .directory) :
    Outcome.stateOf (ensureFrom .root backwards disk) = disk := by
  induction backwards with
  | nil => exact stateOf_ensureOne_of_directory List.not_mem_nil rfl
  | cons part enclosing ih =>
    have hlast : Outcome.stateOf (ensureOne ⟨.root, (part :: enclosing).reverse⟩ disk) = disk :=
      stateOf_ensureOne_of_directory (fun hmember => hplain (List.mem_reverse.mp hmember)) hthere
    rcases ensureFrom_cons_cases .root part enclosing disk with halone | hafter
    · rw [halone]
      exact hlast
    · have habove : disk.node? enclosing.reverse = some .directory := by
        have habove := hsound.directory_dropLast hthere
        rwa [List.reverse_cons, List.dropLast_concat] at habove
      have hunchanged := ih (fun hmember => hplain (List.mem_cons_of_mem _ hmember)) habove
      rw [hafter]
      cases hresult : ensureFrom .root enclosing disk with
      | error error disk' =>
        rw [hresult] at hunchanged
        rw [Outcome.run_bind_of_error hresult]
        exact hunchanged
      | ok _ disk' =>
        rw [hresult] at hunchanged
        obtain rfl : disk' = disk := hunchanged
        rw [Outcome.run_bind_of_ok hresult]
        exact hlast

/-- Making a directory, whether it succeeds or not, changes the content of none of the
files in it. -/
theorem content?_ensureDirectory (hsound : disk.Sound) (output : Path) {name : Text}
    (hplain : name ≠ Path.up) :
    (Outcome.stateOf (ensureDirectory (output.resolve disk.here) disk)).content?
      (output.child name) = disk.content? (output.child name) := by
  have hgains : disk.Gains (Outcome.stateOf (ensureDirectory (output.resolve disk.here) disk)) :=
    ensureFrom_gains _ _ disk
  have hentry : ((output.child name).resolve disk.here).parts =
      (output.resolve disk.here).parts ++ [name] := Path.parts_resolve_child hplain
  by_cases hfile : ∃ content, disk.node? ((output.resolve disk.here).parts ++ [name]) =
      some (.file content)
  -- The file lies in the directory, so the directory is there and nothing is made.
  · obtain ⟨content, h⟩ := hfile
    have hthere : disk.node? (output.resolve disk.here).parts = some .directory := by
      have habove := hsound.directory_dropLast h
      rwa [List.dropLast_concat] at habove
    have hunchanged : Outcome.stateOf (ensureDirectory (output.resolve disk.here) disk) = disk :=
      hsound.stateOf_ensureFrom
        (fun hmember => Path.up_notMem_resolve hsound.here_plain (List.mem_reverse.mp hmember))
        (by rwa [List.reverse_reverse])
    rw [hunchanged]
  · have hbefore : disk.content? (output.child name) = none := by
      refine Option.eq_none_iff_forall_ne_some.mpr fun content h => ?_
      have hfound := node?_of_content? h
      rw [hentry] at hfound
      exact hfile ⟨content, hfound⟩
    rw [hbefore]
    refine Option.eq_none_iff_forall_ne_some.mpr fun content h => ?_
    have hfound := node?_of_content? h
    rw [hgains.here_eq, hentry] at hfound
    exact hfile ⟨content, hgains.file_iff.mp hfound⟩

end Sound

end Disk
end CilAtlas
