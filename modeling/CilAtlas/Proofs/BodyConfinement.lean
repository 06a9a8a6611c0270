import CilAtlas.Proofs.BodyExtent

/-!
# A body is decoded from its own bytes

Two images of one size that agree on the extent of a body give the body the same
extent, and decoding it returns the same body on both or fails on both.  Which
fault is reported may differ: the guard in front of a branch table looks at four
bytes of the image even where the body has fewer left, and its message shows the
number found there.

The argument runs both decodings side by side.  Each step reads from a position
at or after the start of the body, so that within the limit it sees the same
bytes on both sides, and moves both to the same position.
-/

namespace CilAtlas

namespace Image

/-- Two images of one size hold the same bytes from `low` up to `high`. -/
structure AgreeOn (image other : Image) (low high : Int) : Prop where
  size_eq : other.size = image.size
  byteAt_eq : ∀ place : Nat, low ≤ place → place < high → other.byteAt place = image.byteAt place

namespace AgreeOn

variable {image other : Image} {low high : Int}

theorem place_eq (hagree : image.AgreeOn other low high) (position : Int) :
    other.place position = image.place position := by
  unfold place
  rw [hagree.size_eq]

/-- Slices within the range are the same. -/
theorem slice_eq (hagree : image.AgreeOn other low high) {a b : Int} (hnonneg : 0 ≤ a)
    (hbegins : low ≤ a) (hends : b ≤ high) (hordered : a ≤ b) :
    other.slice a b = image.slice a b := by
  have hsize : other.bytes.size = image.bytes.size := hagree.size_eq
  have ha : image.place a = min a.toNat image.bytes.size := place_of_nonneg hnonneg
  have hb : image.place b = min b.toNat image.bytes.size := place_of_nonneg (by omega)
  unfold slice
  rw [hagree.place_eq, hagree.place_eq]
  congr 1
  apply Array.ext
  · simp only [Array.size_extract, hsize]
  · intro i hinOther hinImage
    simp only [Array.size_extract] at hinOther hinImage
    have hsame := hagree.byteAt_eq (image.place a + i) (by omega) (by omega)
    simp only [byteAt] at hsame
    rw [Array.getElem?_eq_getElem (by omega), Array.getElem?_eq_getElem (by omega)] at hsame
    simpa using hsame

end AgreeOn
end Image

namespace Body

variable {image other : Image} {rva : Int}

/-! ### The extent -/

theorem sectionSize_eq {low high : Int} {start : Nat} (hagree : image.AgreeOn other low high)
    (hbegins : low ≤ start) (hends : start + 4 ≤ high) :
    sectionSize other start = sectionSize image start := by
  unfold sectionSize
  rw [hagree.byteAt_eq start hbegins (by omega), hagree.byteAt_eq (start + 1) (by omega) (by omega),
    hagree.byteAt_eq (start + 2) (by omega) (by omega),
    hagree.byteAt_eq (start + 3) (by omega) (by omega)]

theorem announcesSection_eq {low high : Int} {start : Nat} (hagree : image.AgreeOn other low high)
    (hbegins : low ≤ start) (hends : start < high) :
    announcesSection other start = announcesSection image start := by
  unfold announcesSection
  rw [hagree.byteAt_eq start hbegins hends]

/-- One section of the walk, as the first image describes it. -/
theorem sectionsEnd_step {low : Int} {stop last : Nat} (hbegins : low ≤ stop)
    (hinside : align4 stop + 4 ≤ image.size) (hcovered : align4 stop + 4 ≤ last)
    (hagree : image.AgreeOn other low last) :
    sectionsEnd other rva stop =
      let size := sectionSize image (align4 stop)
      let next := min (align4 stop + max size sectionHeaderSize) image.size
      if announcesSection image (align4 stop) ∧ size ≥ sectionHeaderSize then
        sectionsEnd other rva next
      else .ok next := by
  have haligned := le_align4 stop
  have hfits : ¬ align4 stop + sectionHeaderSize > other.size := by
    rw [hagree.size_eq]
    exact Nat.not_lt.mpr hinside
  rw [sectionsEnd]
  simp only [dif_neg hfits]
  rw [sectionSize_eq hagree (by omega) (by omega), announcesSection_eq hagree (by omega) (by omega),
    hagree.size_eq]

/-- The walk over the sections looks at bytes before its end only. -/
theorem sectionsEnd_of_agreeOn {low : Int} {stop last : Nat} (hbegins : low ≤ stop)
    (h : sectionsEnd image rva stop = .ok last) (hagree : image.AgreeOn other low last) :
    sectionsEnd other rva stop = .ok last := by
  obtain ⟨hcovered, -⟩ := sectionsEnd_ok h
  fun_induction sectionsEnd image rva stop with
  | case1 => cases h
  | case2 stop start hinside size next hmore ih =>
    obtain ⟨hcovered', -⟩ := sectionsEnd_ok h
    have haligned := le_align4 stop
    have hgrows : sectionHeaderSize ≤ max size sectionHeaderSize := Nat.le_max_right _ _
    rw [sectionsEnd_step hbegins (Nat.le_of_not_gt hinside) hcovered hagree]
    simp only
    rw [if_pos hmore]
    exact ih (by omega) h hcovered'
  | case3 stop start hinside size next hdone =>
    rw [sectionsEnd_step hbegins (Nat.le_of_not_gt hinside) hcovered hagree]
    simp only
    rw [if_neg hdone]
    exact h

/-- The extent of a body follows from the bytes that it covers. -/
theorem extent_of_agreeOn {stop : Nat} (h : extent image rva = .ok stop)
    (hagree : image.AgreeOn other rva stop) : extent other rva = .ok stop := by
  obtain ⟨hnonneg, hbegins, hinside, hbound⟩ := extent_ok h
  have hrva : (rva.toNat : Int) = rva := Int.toNat_of_nonneg hnonneg
  have hfirst : other.byteAt rva.toNat = image.byteAt rva.toNat :=
    hagree.byteAt_eq rva.toNat (by omega) (by omega)
  unfold extent at h ⊢
  simp only [hrva, hfirst, hagree.size_eq] at h hbound ⊢
  split at h
  · cases h
  · next hwithin =>
    rw [if_neg hwithin]
    split at h
    · next htiny =>
      rw [if_pos htiny]
      exact h
    · next hlarge =>
      -- a fat header is covered, so its flags and its code size are the same
      rw [if_neg hlarge] at hbound ⊢
      rw [hagree.slice_eq (a := rva) (b := rva + 2) hnonneg (by omega) (by omega) (by omega),
        hagree.slice_eq (a := rva + 4) (b := rva + 8) (by omega) (by omega) (by omega) (by omega)]
      split at h
      · cases h
      · next hfat =>
        rw [if_neg hfat]
        split at h
        · cases h
        · next hcomplete =>
          rw [if_neg hcomplete]
          split at h
          · cases h
          · next hfits =>
            rw [if_neg hfits]
            split at h
            · next hsections =>
              rw [if_pos hsections]
              exact sectionsEnd_of_agreeOn (by omega) h hagree
            · next hnone =>
              rw [if_neg hnone]
              exact h

/-! ### Two runs side by side -/

/-- Two windows with one limit, whose images agree from `low` up to it. -/
structure Window.Matches (low : Int) (window other : Window) : Prop where
  nonneg : 0 ≤ low
  limit_eq : other.limit = window.limit
  agree : window.image.AgreeOn other.image low window.limit

/-- Two runs of a step from one position: both return the same result at the same
position, and then `post` holds of these, or both fail. -/
inductive RunsAlike {α : Type} (window other : Window) (step : Read α) (p : Int)
    (post : α → Int → Prop) : Prop
  | returns (a : α) (q : Int) (hleft : step window p = .ok a q) (hright : step other p = .ok a q)
      (hholds : post a q)
  | fails (fault fault' : BodyFault) (q q' : Int) (hleft : step window p = .error fault q)
      (hright : step other p = .error fault' q')

section Runs

variable {α β : Type} {window other : Window} {low p : Int} {post : α → Int → Prop}

theorem bind_of_ok {step : Read α} {next : α → Read β} {a : α} {q : Int}
    (h : step window p = .ok a q) : (step >>= next) window p = next a window q := by
  show EStateM.bind (step window) (fun a => next a window) p = next a window q
  simp only [EStateM.bind, h]

theorem bind_of_error {step : Read α} {next : α → Read β} {fault : BodyFault} {q : Int}
    (h : step window p = .error fault q) : (step >>= next) window p = .error fault q := by
  show EStateM.bind (step window) (fun a => next a window) p = .error fault q
  simp only [EStateM.bind, h]

namespace RunsAlike

theorem pure {a : α} (hholds : post a p) : RunsAlike window other (pure a) p post :=
  .returns a p rfl rfl hholds

/-- Steps run alike one after the other when the second does from wherever the
first can end. -/
theorem bind {step : Read α} {next : α → Read β} {post' : β → Int → Prop}
    (hruns : RunsAlike window other step p post)
    (hlater : ∀ a q, post a q → RunsAlike window other (next a) q post') :
    RunsAlike window other (step >>= next) p post' := by
  cases hruns with
  | returns a q hleft hright hholds =>
    cases hlater a q hholds with
    | returns b q' hleft' hright' hholds' =>
      exact .returns b q' ((bind_of_ok hleft).trans hleft')
        ((bind_of_ok hright).trans hright') hholds'
    | fails fault fault' r r' hleft' hright' =>
      exact .fails fault fault' r r' ((bind_of_ok hleft).trans hleft')
        ((bind_of_ok hright).trans hright')
  | fails fault fault' q q' hleft hright =>
    exact .fails fault fault' q q' (bind_of_error hleft) (bind_of_error hright)

end RunsAlike

theorem currentPosition_alike :
    RunsAlike window other currentPosition p fun position q => p = position ∧ p = q :=
  .returns p p rfl rfl ⟨rfl, rfl⟩

theorem seek_alike (target : Int) : RunsAlike window other (seek target) p fun _ q => q = target :=
  .returns () target rfl rfl rfl

/-- A read within the limit sees the same bytes. -/
theorem read_alike (hsame : window.Matches low other) (hbegins : low ≤ p) (count : Int) :
    RunsAlike window other (read count) p fun _ q => q = p + count ∧ 0 ≤ count := by
  by_cases hrefused : count < 0 ∨ p + count > window.limit
  · have hrefused' : count < 0 ∨ p + count > other.limit := by rwa [hsame.limit_eq]
    exact .fails _ _ p p (if_pos hrefused) (if_pos hrefused')
  · have hrefused' : ¬ (count < 0 ∨ p + count > other.limit) := by rwa [hsame.limit_eq]
    have hnonneg := hsame.nonneg
    have hbytes := hsame.agree.slice_eq (a := p) (b := p + count) (by omega) hbegins (by omega)
      (by omega)
    refine .returns _ (p + count) (if_neg hrefused) ?_ ⟨rfl, by omega⟩
    rw [← hbytes]
    exact if_neg hrefused'

theorem readExact_alike (hsame : window.Matches low other) (hbegins : low ≤ p) (count : Nat) :
    RunsAlike window other (readExact count) p fun _ q => q = p + count := by
  cases read_alike hsame hbegins count with
  | returns bytes q hleft hright hmoved =>
    by_cases hcomplete : bytes.length = count
    · refine .returns bytes q ?_ ?_ hmoved.1
      · simp only [readExact, hleft, if_pos hcomplete]
      · simp only [readExact, hright, if_pos hcomplete]
    · refine .fails (.shortRead (q - bytes.length)) (.shortRead (q - bytes.length)) q q ?_ ?_
      · simp only [readExact, hleft, if_neg hcomplete]
      · simp only [readExact, hright, if_neg hcomplete]
  | fails fault fault' q q' hleft hright =>
    refine .fails (.unreadable count q) (.unreadable count q') q q' ?_ ?_
    · simp only [readExact, hleft]
    · simp only [readExact, hright]

theorem readUnsigned_alike (hsame : window.Matches low other) (hbegins : low ≤ p) (count : Nat) :
    RunsAlike window other (readUnsigned count) p fun _ q => q = p + count :=
  (readExact_alike hsame hbegins count).bind fun _ _ hmoved => .pure hmoved

theorem readSigned_alike (hsame : window.Matches low other) (hbegins : low ≤ p) (count : Nat) :
    RunsAlike window other (readSigned count) p fun _ q => q = p + count :=
  (readExact_alike hsame hbegins count).bind fun _ _ hmoved => .pure hmoved

theorem readOpcode_alike (hsame : window.Matches low other) (hbegins : low ≤ p) :
    RunsAlike window other readOpcode p fun _ q => low ≤ q := by
  refine (readExact_alike hsame hbegins 1).bind fun first q hmoved => ?_
  split
  · refine (readExact_alike hsame (by omega) 1).bind fun second q' hmoved' => ?_
    exact .pure (by omega)
  · exact .pure (by omega)

theorem readDeltas_alike (hsame : window.Matches low other) (hbegins : low ≤ p) (count : Nat) :
    RunsAlike window other (readDeltas count) p fun _ q => low ≤ q := by
  induction count generalizing p with
  | zero => exact .pure hbegins
  | succ count ih =>
    refine (readSigned_alike hsame hbegins 4).bind fun ⟨delta, bytes⟩ q hmoved => ?_
    refine (ih (p := q) (by omega)).bind fun ⟨deltas, more⟩ q' hbegins' => ?_
    exact .pure hbegins'

theorem readSwitch_alike (hsame : window.Matches low other) (hbegins : low ≤ p) (offset : Int)
    (opcodeSize : Nat) :
    RunsAlike window other (readSwitch offset opcodeSize) p fun _ q => low ≤ q := by
  refine (readUnsigned_alike hsame hbegins 4).bind fun ⟨count, bytes⟩ q hmoved => ?_
  refine (readDeltas_alike hsame (by omega) count).bind fun ⟨deltas, more⟩ q' hbegins' => ?_
  exact .pure hbegins'

/-- The guard looks at the image past the limit only where it refuses anyway. -/
theorem readGuardedSwitch_alike (hsame : window.Matches low other) (hbegins : low ≤ p)
    (offset : Int) (opcodeSize : Nat) :
    RunsAlike window other (readGuardedSwitch offset opcodeSize) p fun _ q => low ≤ q := by
  by_cases hroom : p + 4 > window.limit
  · -- whatever the count is, the table does not fit
    have hrefused : p + 4 + peekCount window p * 4 > window.limit := by omega
    have hrefused' : p + 4 + peekCount other p * 4 > other.limit := by
      rw [hsame.limit_eq]
      omega
    exact .fails _ _ p p (if_pos hrefused) (if_pos hrefused')
  · have hnonneg := hsame.nonneg
    have hcount : peekCount other p = peekCount window p :=
      congrArg littleEndian
        (hsame.agree.slice_eq (a := p) (b := p + 4) (by omega) hbegins (by omega) (by omega))
    by_cases hrefused : p + 4 + peekCount window p * 4 > window.limit
    · have hrefused' : p + 4 + peekCount other p * 4 > other.limit := by
        rwa [hcount, hsame.limit_eq]
      exact .fails _ _ p p (if_pos hrefused) (if_pos hrefused')
    · have hrefused' : ¬ p + 4 + peekCount other p * 4 > other.limit := by
        rwa [hcount, hsame.limit_eq]
      cases readSwitch_alike hsame hbegins offset opcodeSize with
      | returns operand q hleft hright hbegins' =>
        exact .returns operand q ((if_neg hrefused).trans hleft) ((if_neg hrefused').trans hright)
          hbegins'
      | fails fault fault' q q' hleft hright =>
        exact .fails fault fault' q q' ((if_neg hrefused).trans hleft)
          ((if_neg hrefused').trans hright)

theorem readOperand_alike (hsame : window.Matches low other) (hbegins : low ≤ p)
    (kind : OperandKind) (offset : Int) (opcodeSize : Nat) :
    RunsAlike window other (readOperand kind offset opcodeSize) p fun _ q => low ≤ q := by
  have hunsigned (count : Nat) (value : Nat × List UInt8 → Operand × List UInt8) :
      RunsAlike window other (do return value (← readUnsigned count)) p fun _ q => low ≤ q :=
    (readUnsigned_alike hsame hbegins count).bind fun _ _ hmoved => .pure (by omega)
  have hsigned (count : Nat) (value : Int × List UInt8 → Operand × List UInt8) :
      RunsAlike window other (do return value (← readSigned count)) p fun _ q => low ≤ q :=
    (readSigned_alike hsame hbegins count).bind fun _ _ hmoved => .pure (by omega)
  cases kind with
  | none => exact .pure hbegins
  | int8 => exact hsigned 1 _
  | int32 => exact hsigned 4 _
  | int64 => exact hsigned 8 _
  | float32 => exact hunsigned 4 _
  | float64 => exact hunsigned 8 _
  | token => exact hunsigned 4 _
  | string => exact hunsigned 4 _
  | argument8 => exact hunsigned 1 _
  | argument16 => exact hunsigned 2 _
  | local8 => exact hunsigned 1 _
  | local16 => exact hunsigned 2 _
  | shortBranch => exact hsigned 1 _
  | branch => exact hsigned 4 _
  | switch => exact readGuardedSwitch_alike hsame hbegins offset opcodeSize

theorem readInstruction_alike (hsame : window.Matches low other) (hbegins : low ≤ p)
    (offset : Int) :
    RunsAlike window other (readInstruction offset) p fun _ q => low ≤ q := by
  refine (readOpcode_alike hsame hbegins).bind fun ⟨opcode, code⟩ q hbegins' => ?_
  refine (readOperand_alike hsame hbegins' opcode.operand offset code.length).bind
    fun ⟨operand, bytes⟩ q' hbegins'' => ?_
  exact .pure hbegins''

/-- Reading instructions repeats one step, so that both runs read the same ones. -/
theorem readInstructions_alike (hsame : window.Matches low other) (hbegins : low ≤ p) (stop : Int)
    (fuel : Nat) :
    RunsAlike window other (readInstructions stop fuel) p fun _ q => low ≤ q := by
  induction fuel generalizing p with
  | zero => exact .pure hbegins
  | succ fuel ih =>
    refine currentPosition_alike.bind ?_
    rintro _ _ ⟨rfl, rfl⟩
    split
    · exact .pure hbegins
    · refine (readInstruction_alike hsame hbegins p).bind fun instruction q hbegins' => ?_
      exact (ih (p := q) hbegins').bind fun rest q' hbegins'' => .pure hbegins''

/-- The code starts at or after the start of the body, also when the header states
a length below that of its own fields. -/
theorem readHeader_alike (hsame : window.Matches low other) :
    RunsAlike window other readHeader low fun _ q => low ≤ q := by
  refine (readUnsigned_alike hsame (Int.le_refl low) 1).bind fun ⟨first, _⟩ q₁ hmoved₁ => ?_
  simp only
  split
  · exact .pure (by omega)
  · split
    · refine (readUnsigned_alike hsame (by omega) 1).bind fun ⟨second, _⟩ q₂ hmoved₂ => ?_
      refine (readUnsigned_alike hsame (by omega) 2).bind fun ⟨maxStack, _⟩ q₃ hmoved₃ => ?_
      refine (readUnsigned_alike hsame (by omega) 4).bind fun ⟨codeSize, _⟩ q₄ hmoved₄ => ?_
      refine (readUnsigned_alike hsame (by omega) 4).bind fun ⟨localToken, _⟩ q₅ hmoved₅ => ?_
      refine currentPosition_alike.bind ?_
      rintro _ _ ⟨rfl, rfl⟩
      refine (seek_alike _).bind fun _ q₆ hsought => ?_
      exact .pure (by omega)
    · exact .fails _ _ q₁ q₁ rfl rfl

theorem readClause_alike (hsame : window.Matches low other) (hbegins : low ≤ p)
    (flagSize offsetSize lengthSize : Nat) :
    RunsAlike window other (readClause flagSize offsetSize lengthSize) p fun _ q => low ≤ q := by
  refine (readUnsigned_alike hsame hbegins flagSize).bind fun ⟨kind, _⟩ q₁ hmoved₁ => ?_
  refine (readUnsigned_alike hsame (by omega) offsetSize).bind fun ⟨tryStart, _⟩ q₂ hmoved₂ => ?_
  refine (readUnsigned_alike hsame (by omega) lengthSize).bind fun ⟨tryLength, _⟩ q₃ hmoved₃ => ?_
  refine (readUnsigned_alike hsame (by omega) offsetSize).bind fun ⟨start, _⟩ q₄ hmoved₄ => ?_
  refine (readUnsigned_alike hsame (by omega) lengthSize).bind fun ⟨length, _⟩ q₅ hmoved₅ => ?_
  refine (readUnsigned_alike hsame (by omega) 4).bind fun ⟨last, _⟩ q₆ hmoved₆ => ?_
  exact .pure (by omega)

theorem readClauses_alike {clause : Read ExceptionHandler}
    (heach : ∀ p, low ≤ p → RunsAlike window other clause p fun _ q => low ≤ q)
    (hbegins : low ≤ p) (count : Nat) :
    RunsAlike window other (readClauses clause count) p fun _ q => low ≤ q := by
  induction count generalizing p with
  | zero => exact .pure hbegins
  | succ count ih =>
    refine (heach p hbegins).bind fun handler q hbegins' => ?_
    exact (ih (p := q) hbegins').bind fun rest q' hbegins'' => .pure hbegins''

theorem readHandlers_alike (hsame : window.Matches low other) (hbegins : low ≤ p) :
    RunsAlike window other readHandlers p fun _ q => low ≤ q := by
  refine currentPosition_alike.bind ?_
  rintro _ _ ⟨rfl, rfl⟩
  refine (seek_alike _).bind fun _ q₁ hsought => ?_
  refine (readUnsigned_alike hsame (by omega) 1).bind fun ⟨kind, _⟩ q₂ hmoved => ?_
  simp only
  split
  · exact .pure (by omega)
  · split
    · -- a fat section is read again from its first byte
      refine currentPosition_alike.bind ?_
      rintro _ _ ⟨rfl, rfl⟩
      refine (seek_alike _).bind fun _ q₃ hsought₃ => ?_
      refine (readUnsigned_alike hsame (by omega) 4).bind fun ⟨word, _⟩ q₄ hmoved₄ => ?_
      exact readClauses_alike (fun p hbegins' => readClause_alike hsame hbegins' 4 4 4) (by omega) _
    · refine (readUnsigned_alike hsame (by omega) 1).bind fun ⟨size, _⟩ q₃ hmoved₃ => ?_
      refine currentPosition_alike.bind ?_
      rintro _ _ ⟨rfl, rfl⟩
      refine (seek_alike _).bind fun _ q₄ hsought₄ => ?_
      exact readClauses_alike (fun p hbegins' => readClause_alike hsame hbegins' 2 2 1) (by omega) _

theorem readBody_alike (hsame : window.Matches low other) :
    RunsAlike window other readBody low fun _ _ => True := by
  -- the body is read once more as a whole, from its start to where reading ended
  have hwhole (made : Int → Body) (q : Int) : RunsAlike window other (do
      let stop ← currentPosition
      seek low
      let _ ← read (stop - low)
      return made stop) q fun _ _ => True := by
    refine currentPosition_alike.bind ?_
    rintro _ _ ⟨rfl, rfl⟩
    refine (seek_alike low).bind fun _ q₁ hsought => ?_
    exact (read_alike hsame (by omega) _).bind fun _ q₂ _ => .pure trivial
  refine currentPosition_alike.bind ?_
  rintro _ _ ⟨rfl, rfl⟩
  refine (readHeader_alike hsame).bind fun header q₁ hbegins₁ => ?_
  refine (readInstructions_alike hsame hbegins₁ _ _).bind fun instructions q₂ hbegins₂ => ?_
  simp only
  split
  · exact (readHandlers_alike hsame hbegins₂).bind fun handlers q₃ _ => hwhole _ q₃
  · have hunprotected : RunsAlike window other (pure ([] : List ExceptionHandler)) q₂
        fun _ _ => True := .pure trivial
    exact hunprotected.bind fun handlers q₃ _ => hwhole _ q₃

end Runs

/-- Decoding a body looks at the bytes of its extent only: on another image with
the same bytes there it returns the same body, or fails on both. -/
theorem decode_of_agreeOn {stop : Nat} (h : extent image rva = .ok stop)
    (hagree : image.AgreeOn other rva stop) :
    (∃ body, decode image rva none = .ok body ∧ decode other rva none = .ok body) ∨
      (∃ fault, decode image rva none = .error fault) ∧
        ∃ fault, decode other rva none = .error fault := by
  obtain ⟨hnonneg, -⟩ := extent_ok h
  have hopened : Window.of image rva none = .ok ⟨image, stop⟩ := by
    simp only [Window.of, h]
    rfl
  have hopened' : Window.of other rva none = .ok ⟨other, stop⟩ := by
    simp only [Window.of, extent_of_agreeOn h hagree]
    rfl
  have hsame : Window.Matches rva ⟨image, stop⟩ ⟨other, stop⟩ := ⟨hnonneg, rfl, hagree⟩
  unfold decode
  rw [hopened, hopened']
  cases readBody_alike hsame with
  | returns body q hleft hright _ =>
    simp only [hleft, hright]
    exact .inl ⟨body, rfl, rfl⟩
  | fails fault fault' q q' hleft hright =>
    simp only [hleft, hright]
    exact .inr ⟨⟨fault, rfl⟩, fault', rfl⟩

end Body
end CilAtlas
