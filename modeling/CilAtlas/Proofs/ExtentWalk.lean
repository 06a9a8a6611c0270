import CilAtlas.Proofs.BodyExtent
import CilAtlas.Report.Analysis

/-!
# Finding an extent stays in the image and ends

The extent of a body is found from raw bytes, by a walk over data sections whose
sizes the bytes themselves state.  Here the same walk is written a second time with
everything that could go wrong in it: a byte that is looked at must lie in the image,
and only so many rounds over the sections are allowed.  The two agree, for every
image and position, as soon as four times the rounds exceed the size of the image:
each round that does not fail moves the end forward by four bytes or more.  So the
faults of the body are the only way to fail, and the walk ends.

The sizes are those that decoding a body reports, so its code can be taken out of
the image wherever a body decodes.
-/

namespace CilAtlas

/-- What can stop a walk over the bytes of an image. -/
inductive WalkError where
  | fault (fault : BodyFault)
  /-- A byte outside the image was looked at. -/
  | outside (place : Nat)
  /-- The allowed rounds did not suffice. -/
  | unfinished
deriving DecidableEq

namespace Image

/-- The byte at a place that must lie in the image. -/
def checkedByte (image : Image) (place : Nat) : Except WalkError UInt8 :=
  match image.bytes[place]? with
  | some b => .ok b
  | none => .error (.outside place)

/-- So many bytes from a place on, which must lie in the image. -/
def checkedBytes (image : Image) (place count : Nat) : Except WalkError (List UInt8) :=
  (List.range' place count).mapM image.checkedByte

variable {image : Image}

theorem checkedByte_of_lt {place : Nat} (hinside : place < image.size) :
    image.checkedByte place = .ok (image.byteAt place) := by
  have hfound : image.bytes[place]? = some image.bytes[place] := Array.getElem?_eq_getElem hinside
  rw [checkedByte, byteAt, hfound]
  rfl

/-- Bytes of the image, one by one and as a slice. -/
theorem map_byteAt_eq_slice {place count : Nat} (hinside : place + count ≤ image.size) :
    (List.range' place count).map image.byteAt = image.slice place (place + count) := by
  induction count generalizing place with
  | zero =>
    have hhere : (place : Int) + (0 : Nat) = place := by omega
    rw [hhere, slice_self]
    rfl
  | succ count ih =>
    have hothers := @ih (place + 1) (by omega)
    have hnext : ((place + 1 : Nat) : Int) = place + 1 := by omega
    have hlast : (place : Int) + 1 + count = place + (count + 1 : Nat) := by omega
    rw [hnext, hlast] at hothers
    have hjoined : image.slice place (place + 1) ++
        image.slice (place + 1) (place + (count + 1 : Nat)) =
        image.slice place (place + (count + 1 : Nat)) :=
      slice_append (by omega) (by omega) (by omega)
    rw [List.range'_succ, List.map_cons, hothers, ← hjoined, slice_one image place (by omega)]
    rfl

theorem checkedBytes_of_le {place count : Nat} (hinside : place + count ≤ image.size) :
    image.checkedBytes place count = .ok ((List.range' place count).map image.byteAt) := by
  have heach : ∀ k ∈ List.range' place count, image.checkedByte k = .ok (image.byteAt k) := by
    intro k hmember
    obtain ⟨i, hbelow, rfl⟩ := List.mem_range'.mp hmember
    exact checkedByte_of_lt (by omega)
  have hsteps := Outcome.mapM_map_eq_ok (g := id) heach
  rwa [List.map_id] at hsteps

end Image

namespace Body

variable {image : Image} {rva : Int} {stop : Nat}

/-! ### The walk with its checks -/

/-- One round of the walk: where the section behind `stop` ends, and whether another
one follows. -/
def checkedSection (image : Image) (rva : Int) (stop : Nat) : Except WalkError (Nat × Bool) :=
  let start := align4 stop
  if start + sectionHeaderSize > image.size then .error (.fault (.sectionTruncated rva))
  else do
    let kind ← image.checkedByte start
    let size ←
      if kind.toNat / 0x40 % 2 = 1 then do
        let bytes ← image.checkedBytes (start + 1) 3
        pure (littleEndian bytes)
      else do
        let byte ← image.checkedByte (start + 1)
        pure byte.toNat
    pure (min (start + max size sectionHeaderSize) image.size,
      kind.toNat / 0x80 % 2 = 1 && sectionHeaderSize ≤ size)

/-- The end of the data sections, found in the given number of rounds. -/
def checkedSections (image : Image) (rva : Int) :
    (rounds : Nat) → (stop : Nat) → Except WalkError Nat
  | 0, _ => .error .unfinished
  | rounds + 1, stop => do
    let (next, more) ← checkedSection image rva stop
    if more then checkedSections image rva rounds next else pure next

/-- The end of the body at `rva`, with every byte checked and the rounds counted. -/
def checkedExtent (rounds : Nat) (image : Image) (rva : Int) : Except WalkError Nat :=
  if rva < 0 ∨ rva ≥ image.size then .error (.fault (.outsideImage rva))
  else do
    let start := rva.toNat
    let first ← image.checkedByte start
    if isTinyFormat (formatOf first) then
      let stop := start + 1 + first.toNat / 4
      if stop > image.size then .error (.fault (.tinyTruncated rva)) else .ok stop
    else if formatOf first ≠ fatFormat then .error (.fault (.badHeader first rva))
    else if start + 12 > image.size then .error (.fault (.headerTruncated rva))
    else do
      let flagBytes ← image.checkedBytes start 2
      let sizeBytes ← image.checkedBytes (start + 4) 4
      let flags := littleEndian flagBytes
      let stop := max (start + flags / 0x1000 * 4 + littleEndian sizeBytes) (start + 12)
      if stop > image.size then .error (.fault (.codeOverrun rva))
      else if flags / 8 % 2 = 1 then checkedSections image rva rounds stop
      else .ok stop

/-! ### Both walks agree -/

/-- A round fails with a fault of the body only, and otherwise finds what the bytes
of the section say. -/
theorem checkedSection_eq (image : Image) (rva : Int) (stop : Nat) :
    checkedSection image rva stop =
      if align4 stop + sectionHeaderSize > image.size then
        .error (.fault (.sectionTruncated rva))
      else
        let size := sectionSize image (align4 stop)
        .ok (min (align4 stop + max size sectionHeaderSize) image.size,
          announcesSection image (align4 stop) && decide (sectionHeaderSize ≤ size)) := by
  unfold checkedSection
  by_cases hbeyond : align4 stop + sectionHeaderSize > image.size
  · simp only [if_pos hbeyond]
  · have hfits : align4 stop + 4 ≤ image.size := Nat.le_of_not_gt hbeyond
    simp only [if_neg hbeyond]
    rw [Outcome.bind_of_ok (Image.checkedByte_of_lt (by omega))]
    by_cases hfat : (image.byteAt (align4 stop)).toNat / 0x40 % 2 = 1
    · simp only [if_pos hfat, sectionSize]
      rw [Image.checkedBytes_of_le (by omega)]
      rfl
    · simp only [if_neg hfat, sectionSize]
      rw [Image.checkedByte_of_lt (by omega)]
      rfl

/-- A round that does not fail moves the end forward by at least the four bytes of a
section header, and not out of the image. -/
theorem checkedSection_advances {next : Nat} {more : Bool}
    (h : checkedSection image rva stop = .ok (next, more)) :
    stop + sectionHeaderSize ≤ next ∧ next ≤ image.size := by
  rw [checkedSection_eq] at h
  split at h
  · cases h
  · next hinside =>
    obtain ⟨rfl, -⟩ := Prod.mk.inj (Except.ok.inj h)
    have haligned := le_align4 stop
    have hgrows : sectionHeaderSize ≤ max (sectionSize image (align4 stop)) sectionHeaderSize :=
      Nat.le_max_right _ _
    constructor <;> omega

theorem sectionsEnd_eq (image : Image) (rva : Int) (stop : Nat) :
    (sectionsEnd image rva stop).mapError .fault = (do
      let (next, more) ← checkedSection image rva stop
      if more then (sectionsEnd image rva next).mapError .fault else pure next) := by
  rw [sectionsEnd, checkedSection_eq]
  by_cases hbeyond : align4 stop + sectionHeaderSize > image.size
  · simp only [dif_pos hbeyond, if_pos hbeyond]
    rfl
  · simp only [dif_neg hbeyond, if_neg hbeyond]
    rw [Outcome.bind_of_ok rfl]
    simp only [Bool.and_eq_true, decide_eq_true_eq]
    split
    · rfl
    · rfl

/-- Rounds of four bytes that cover what is left of the image suffice, since every
round uses up as many. -/
theorem checkedSections_eq {rounds : Nat} (hinside : stop ≤ image.size)
    (henough : image.size < stop + 4 * rounds) :
    checkedSections image rva rounds stop = (sectionsEnd image rva stop).mapError .fault := by
  induction rounds generalizing stop with
  | zero => omega
  | succ rounds ih =>
    rw [checkedSections, sectionsEnd_eq]
    cases hround : checkedSection image rva stop with
    | error e => rfl
    | ok result =>
      obtain ⟨next, more⟩ := result
      obtain ⟨hadvanced, hinside'⟩ := checkedSection_advances hround
      rw [Outcome.bind_of_ok rfl, Outcome.bind_of_ok rfl]
      cases more with
      | false => rfl
      | true =>
        have hfour : sectionHeaderSize = 4 := rfl
        exact ih hinside' (by omega)

/-- The checks of the walk never fail, and the rounds suffice. -/
theorem checkedExtent_eq {rounds : Nat} (henough : image.size < 4 * rounds) :
    checkedExtent rounds image rva = (extent image rva).mapError .fault := by
  unfold checkedExtent extent
  by_cases houtside : rva < 0 ∨ rva ≥ image.size
  · rw [if_pos houtside, if_pos houtside]
    rfl
  · have hbegins : rva.toNat < image.size := by omega
    rw [if_neg houtside, if_neg houtside, Outcome.bind_of_ok (Image.checkedByte_of_lt hbegins)]
    simp only
    split
    · split
      · rfl
      · rfl
    · split
      · rfl
      · split
        · rfl
        · next hcomplete =>
          -- the header is complete, so its flags and its code size lie in the image
          have hflagBytes : image.checkedBytes rva.toNat 2 =
              .ok (image.slice rva.toNat (rva.toNat + 2)) := by
            rw [Image.checkedBytes_of_le (by omega), Image.map_byteAt_eq_slice (by omega)]
            rfl
          have hsizeBytes : image.checkedBytes (rva.toNat + 4) 4 =
              .ok (image.slice (rva.toNat + 4) (rva.toNat + 8)) := by
            rw [Image.checkedBytes_of_le (by omega), Image.map_byteAt_eq_slice (by omega)]
            rfl
          rw [Outcome.bind_of_ok hflagBytes, Outcome.bind_of_ok hsizeBytes]
          split
          · rfl
          · next hfits =>
            split
            · exact checkedSections_eq (by omega) (by omega)
            · rfl

end Body

/-! ### Extents and decoded bodies -/

/-- Size and dump of a method's code can be had from any body that decodes at its
address. -/
theorem Store.ilBytes_of_decode (store : Store) {method : MethodDef} {body? : Option Body}
    (hdecodes : ∀ body, body? = some body →
      Body.decode store.image method.rva none = .ok body) :
    ∃ size text, store.ilBytes method body? = .ok (size, text) := by
  unfold ilBytes
  split
  · exact ⟨_, _, rfl⟩
  · cases body? with
    | none => exact ⟨_, _, rfl⟩
    | some body =>
      obtain ⟨code, hbytes, -⟩ := codeBytes_of_decode (hdecodes body rfl)
      exact ⟨_, _, Outcome.bind_of_ok hbytes _⟩

namespace Body

/-- An extent is found or a fault of the body is reported, and nothing else can
happen: no byte outside the image is looked at, and the walk over the sections ends,
because each round moves the end forward by four bytes or more.  The extent lies
behind its start and in the image.  A body that decodes up to it has its header and
code in it, so showing its code cannot fail. -/
theorem extent_found_and_covers_code (image : Image) (rva : Int) :
    (∀ rounds, image.size < 4 * rounds →
      checkedExtent rounds image rva = (extent image rva).mapError .fault) ∧
    (∀ stop next more, checkedSection image rva stop = .ok (next, more) →
      stop + 4 ≤ next ∧ next ≤ image.size) ∧
    (∀ stop, extent image rva = .ok stop → rva < stop ∧ stop ≤ image.size) ∧
    (∀ body, decode image rva none = .ok body →
      ∃ stop : Nat, extent image rva = .ok stop ∧
        rva + body.headerSize + body.codeSize ≤ stop ∧ stop ≤ image.size) ∧
    ∀ (store : Store) (method : MethodDef) (body? : Option Body),
      store.image = image → method.rva = rva →
      (∀ body, body? = some body → decode image rva none = .ok body) →
      ∃ size text, store.ilBytes method body? = .ok (size, text) := by
  refine ⟨fun rounds henough => checkedExtent_eq henough,
    fun stop next more hround => checkedSection_advances hround, ?_, ?_, ?_⟩
  · intro stop hextent
    obtain ⟨-, hbegins, hinside, -⟩ := extent_ok hextent
    exact ⟨hbegins, hinside⟩
  · intro body hdecoded
    obtain ⟨stop, hextent, hcovered⟩ := code_inside_of_decode hdecoded
    obtain ⟨-, -, hinside, -⟩ := extent_ok hextent
    exact ⟨stop, hextent, hcovered, hinside⟩
  · rintro store method body? rfl rfl hdecodes
    exact store.ilBytes_of_decode hdecodes

/-- A body of one instruction with two data sections, of which the first announces
the second. -/
def twoSections : Image :=
  ⟨#[0x0B, 0x30, 0x08, 0x00, 0x01, 0x00, 0x00, 0x00, 0x00, 0x00, 0x00, 0x00, 0x2A, 0x00, 0x00, 0x00,
    0x81, 0x04, 0x00, 0x00, 0x41, 0x04, 0x00, 0x00]⟩

/-- Two rounds lead to the end, seven are always enough for an image of that size. -/
theorem twoSections_extent :
    extent twoSections 0 = .ok 24 ∧ checkedExtent 1 twoSections 0 = .error .unfinished ∧
      checkedExtent 2 twoSections 0 = .ok 24 ∧ checkedExtent 7 twoSections 0 = .ok 24 ∧
      checkedSection twoSections 0 13 = .ok (20, true) ∧ 13 + 4 ≤ 20 ∧ 20 ≤ twoSections.size ∧
      ∃ body : Body, decode twoSections 0 none = .ok body ∧
        (∃ stop : Nat, extent twoSections 0 = .ok stop ∧
          0 + (body.headerSize : Int) + body.codeSize ≤ stop ∧ stop ≤ twoSections.size) := by
  obtain ⟨hagrees, hadvances, -, hcovers, -⟩ := extent_found_and_covers_code twoSections 0
  have hextent : extent twoSections 0 = .ok 24 := by decide +kernel
  have hround : checkedSection twoSections 0 13 = .ok (20, true) := by decide +kernel
  obtain ⟨hforward, hinside⟩ := hadvances 13 20 true hround
  obtain ⟨body, hdecoded⟩ : ∃ body, decode twoSections 0 none = .ok body :=
    Outcome.exists_of_isOk (by decide +kernel)
  refine ⟨hextent, by decide +kernel, by decide +kernel, ?_, hround, hforward, hinside, body,
    hdecoded, hcovers body hdecoded⟩
  rw [hagrees 7 (by decide), hextent]
  rfl

end Body
end CilAtlas
