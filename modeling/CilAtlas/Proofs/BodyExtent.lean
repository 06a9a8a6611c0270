import CilAtlas.Metadata.Store
import CilAtlas.Proofs.Outcomes

/-!
# The code of a decoded body lies in the image

A body is looked at twice: once to find where it ends, from the raw bytes of its
header, and once to decode it, through a window that ends there.  Both read the
same header, so the code of a body that decodes lies in the body's extent and so
in the image, and taking its bytes out of the image cannot fail.
-/

namespace CilAtlas

namespace Image

variable {image : Image}

theorem place_of_nonneg {position : Int} (hnonneg : 0 ≤ position) :
    image.place position = min position.toNat image.size := by
  rw [place, if_neg (by omega)]

/-- Neighbouring slices join. -/
theorem slice_append {a b c : Int} (ha : 0 ≤ a) (hab : a ≤ b) (hbc : b ≤ c) :
    image.slice a b ++ image.slice b c = image.slice a c := by
  have hplaces : image.place a ≤ image.place b ∧ image.place b ≤ image.place c := by
    rw [place_of_nonneg ha, place_of_nonneg (by omega), place_of_nonneg (by omega)]
    omega
  unfold slice
  rw [← Array.toList_append, Array.extract_append_extract, Nat.min_eq_left hplaces.1,
    Nat.max_eq_right hplaces.2]

theorem length_slice {a b : Int} (ha : 0 ≤ a) (hab : a ≤ b) (hb : b ≤ image.size) :
    (image.slice a b).length = (b - a).toNat := by
  have hsize : image.bytes.size = image.size := rfl
  rw [slice, Array.length_toList, Array.size_extract, place_of_nonneg ha,
    place_of_nonneg (Int.le_trans ha hab), hsize]
  omega

theorem slice_self (image : Image) (a : Int) : image.slice a a = [] := by
  simp [slice]

theorem slice_one (image : Image) (start : Nat) (hinside : start < image.size) :
    image.slice start (start + 1) = [image.byteAt start] := by
  have hstart : image.place start = start := by
    rw [place_of_nonneg (by omega)]
    omega
  have hstop : image.place (start + 1) = start + 1 := by
    rw [place_of_nonneg (by omega)]
    omega
  have hlength : start < image.bytes.toList.length := hinside
  rw [slice, hstart, hstop, Array.toList_extract, List.extract_eq_take_drop,
    Nat.add_sub_cancel_left, List.drop_eq_getElem_cons hlength, List.take_succ_cons,
    List.take_zero, byteAt, Array.getElem?_eq_getElem hinside]
  rfl

end Image

namespace Body

variable {α β : Type} {window : Window}

theorem bind_ok_iff {step : Read α} {next : α → Read β} {p p'' : Int} {b : β} :
    (step >>= next) window p = .ok b p'' ↔
      ∃ a p', step window p = .ok a p' ∧ next a window p' = .ok b p'' := by
  show EStateM.bind (step window) (fun a => next a window) p = .ok b p'' ↔ _
  unfold EStateM.bind
  cases step window p with
  | ok a p' => simp
  | error fault p' => simp

theorem readExact_ok {count : Nat} {p p' : Int} {bytes : List UInt8}
    (h : readExact count window p = .ok bytes p') :
    bytes = window.image.slice p (p + count) ∧ bytes.length = count ∧ p' = p + count := by
  unfold readExact at h
  split at h
  · cases h
  · next bytes' after hraw =>
    split at h
    · next hlength =>
      cases h
      unfold read at hraw
      split at hraw
      · cases hraw
      · cases hraw
        exact ⟨rfl, hlength, rfl⟩
    · cases h

theorem readUnsigned_ok {count : Nat} {p p' : Int} {n : Nat} {bytes : List UInt8}
    (h : readUnsigned count window p = .ok (n, bytes) p') :
    n = littleEndian bytes ∧ bytes = window.image.slice p (p + count) ∧ bytes.length = count ∧
      p' = p + count := by
  obtain ⟨bytes', p₁, hread, hdone⟩ := bind_ok_iff.mp h
  cases hdone
  exact ⟨rfl, readExact_ok hread⟩

/-- The first byte of a body as the reader sees it. -/
theorem readFirst_ok {p p' : Int} {n : Nat} {bytes : List UInt8} (hnonneg : 0 ≤ p)
    (hinside : p < window.image.size) (h : readUnsigned 1 window p = .ok (n, bytes) p') :
    n = (window.image.byteAt p.toNat).toNat ∧ bytes = [window.image.byteAt p.toNat] ∧
      p' = p + 1 := by
  obtain ⟨hn, hbytes, -, hp⟩ := readUnsigned_ok h
  have hslice := window.image.slice_one p.toNat (by omega)
  rw [Int.toNat_of_nonneg hnonneg] at hslice
  have hbyte : bytes = [window.image.byteAt p.toNat] := hbytes.trans hslice
  refine ⟨?_, hbyte, hp⟩
  rw [hn, hbyte]
  rfl

/-- What a header says, in terms of the bytes of the image. -/
theorem readHeader_ok {p p' : Int} {header : Header} (hnonneg : 0 ≤ p)
    (hinside : p < window.image.size) (h : readHeader window p = .ok header p') :
    let first := window.image.byteAt p.toNat
    if isTinyFormat (formatOf first) then header.headerSize = 1 ∧ header.codeSize = first.toNat / 4
    else header.headerSize = littleEndian (window.image.slice p (p + 2)) / 0x1000 * 4 ∧
      header.codeSize = littleEndian (window.image.slice (p + 4) (p + 8)) := by
  obtain ⟨⟨first, firstBytes⟩, p₁, hfirst, h⟩ := bind_ok_iff.mp h
  obtain ⟨rfl, hfirstBytes, rfl⟩ := readFirst_ok hnonneg hinside hfirst
  simp only at h
  show if isTinyFormat (formatOf _) then _ else _
  split at h
  · next htiny =>
    rw [if_pos (show isTinyFormat (formatOf _) from htiny)]
    cases h
    exact ⟨rfl, rfl⟩
  · next hlarge =>
    rw [if_neg (show ¬ isTinyFormat (formatOf _) from hlarge)]
    split at h
    · obtain ⟨⟨second, secondBytes⟩, p₂, hsecond, h⟩ := bind_ok_iff.mp h
      obtain ⟨⟨maxStack, stackBytes⟩, p₃, hstack, h⟩ := bind_ok_iff.mp h
      obtain ⟨⟨codeSize, codeBytes⟩, p₄, hcode, h⟩ := bind_ok_iff.mp h
      obtain ⟨⟨localToken, localBytes⟩, p₅, hlocal, h⟩ := bind_ok_iff.mp h
      obtain ⟨position, p₆, hposition, h⟩ := bind_ok_iff.mp h
      obtain ⟨_, p₇, hseek, h⟩ := bind_ok_iff.mp h
      cases h
      obtain ⟨rfl, hsecondBytes, hsecondLength, rfl⟩ := readUnsigned_ok hsecond
      obtain ⟨-, -, -, rfl⟩ := readUnsigned_ok hstack
      obtain ⟨rfl, hcodeBytes, -, -⟩ := readUnsigned_ok hcode
      obtain ⟨second, rfl⟩ := List.length_eq_one_iff.mp hsecondLength
      -- the two bytes of the flags are read one by one
      have hflags : window.image.slice p (p + 2) = [window.image.byteAt p.toNat, second] := by
        obtain ⟨-, hfirstSlice, -, -⟩ := readUnsigned_ok hfirst
        rw [hfirstBytes] at hfirstSlice
        rw [show p + 2 = p + 1 + 1 by omega,
          ← Image.slice_append (b := p + 1) hnonneg (by omega) (by omega)]
        exact congrArg₂ (· ++ ·) hfirstSlice.symm hsecondBytes.symm
      have hplace : p + 1 + (1 : Nat) + (2 : Nat) = p + 4 := by omega
      rw [hplace, show p + 4 + (4 : Nat) = p + 8 by omega] at hcodeBytes
      refine ⟨?_, by rw [← hcodeBytes]⟩
      rw [hflags]
      simp only [littleEndian]
      omega
    · cases h

/-- The walk over the data sections passes the header of each, and ends in the
image. -/
theorem sectionsEnd_ok {image : Image} {rva : Int} {stop last : Nat}
    (h : sectionsEnd image rva stop = .ok last) :
    align4 stop + sectionHeaderSize ≤ last ∧ last ≤ image.size := by
  fun_induction sectionsEnd image rva stop with
  | case1 => cases h
  | case2 stop start hinside size next hmore ih =>
    obtain ⟨hbeyond, hbounded⟩ := ih h
    have haligned := le_align4 next
    have hgrows : sectionHeaderSize ≤ max size sectionHeaderSize := Nat.le_max_right _ _
    exact ⟨by omega, hbounded⟩
  | case3 stop start hinside size next hdone =>
    obtain rfl := Except.ok.inj h
    have hgrows : sectionHeaderSize ≤ max size sectionHeaderSize := Nat.le_max_right _ _
    constructor <;> omega

/-- The extent of a body lies in the image and covers its header and its code. -/
theorem extent_ok {image : Image} {rva : Int} {stop : Nat} (h : extent image rva = .ok stop) :
    0 ≤ rva ∧ rva < stop ∧ stop ≤ image.size ∧
      let first := image.byteAt rva.toNat
      if isTinyFormat (formatOf first) then rva + 1 + (first.toNat / 4 : Nat) ≤ stop
      else rva + 12 ≤ stop ∧ rva + (littleEndian (image.slice rva (rva + 2)) / 0x1000 * 4 : Nat) +
        (littleEndian (image.slice (rva + 4) (rva + 8)) : Nat) ≤ stop := by
  unfold extent at h
  split at h
  · cases h
  · next hinside =>
    have hnonneg : 0 ≤ rva := by omega
    have hrva : (rva.toNat : Int) = rva := Int.toNat_of_nonneg hnonneg
    refine ⟨hnonneg, ?_⟩
    simp only [hrva] at h
    split at h
    · next htiny =>
      show _ ∧ _ ∧ if isTinyFormat (formatOf _) then _ else _
      rw [if_pos htiny]
      split at h
      · cases h
      · cases h
        omega
    · next hlarge =>
      show _ ∧ _ ∧ if isTinyFormat (formatOf _) then _ else _
      rw [if_neg hlarge]
      split at h
      · cases h
      · split at h
        · cases h
        · split at h
          · cases h
          · split at h
            · -- the sections start behind header and code
              obtain ⟨hbeyond, hbounded⟩ := sectionsEnd_ok h
              have haligned := le_align4 (max (rva.toNat +
                littleEndian (image.slice rva (rva + 2)) / 0x1000 * 4 +
                littleEndian (image.slice (rva + 4) (rva + 8))) (rva.toNat + 12))
              omega
            · cases h
              omega

/-- Without a limit of its own a window ends where the body does. -/
theorem opened_to_extent_iff {image : Image} {rva : Int} :
    Window.of image rva none = .ok window ↔
      ∃ stop, extent image rva = .ok stop ∧ window = ⟨image, stop⟩ := by
  constructor
  · intro hopened
    obtain ⟨_, hlimit, rfl⟩ := Outcome.map_eq_ok_iff.mp hopened
    obtain ⟨stop, hextent, hstop⟩ := Outcome.bind_eq_ok_iff.mp hlimit
    obtain rfl := Outcome.pure_eq_ok_iff.mp hstop
    exact ⟨stop, hextent, rfl⟩
  · rintro ⟨stop, hextent, rfl⟩
    simp only [Window.of, hextent]
    rfl

/-- The limit of a window lies in its image. -/
theorem limit_le_of_opened {image : Image} {rva : Int} {limit? : Option Int}
    (hopened : Window.of image rva limit? = .ok window) :
    window.image = image ∧ window.limit ≤ image.size := by
  cases limit? with
  | none =>
    obtain ⟨stop, hextent, rfl⟩ := opened_to_extent_iff.mp hopened
    obtain ⟨-, -, hinside, -⟩ := extent_ok hextent
    exact ⟨rfl, Int.ofNat_le.mpr hinside⟩
  | some limit =>
    obtain rfl := Except.ok.inj hopened
    exact ⟨rfl, Int.min_le_right _ _⟩

theorem decode_eq_ok_iff {image : Image} {rva : Int} {limit? : Option Int} {body : Body} :
    decode image rva limit? = .ok body ↔
      ∃ window q, Window.of image rva limit? = .ok window ∧ readBody window rva = .ok body q := by
  unfold decode
  cases Window.of image rva limit? with
  | error fault => simp
  | ok window =>
    cases hresult : readBody window rva with
    | ok decoded q => simp [hresult]
    | error fault q => simp [hresult]

/-- A body states the sizes of its header and has the instructions behind it. -/
theorem parts_of_readBody {p p' : Int} {body : Body} (h : readBody window p = .ok body p') :
    ∃ header p₁ p₂, readHeader window p = .ok header p₁ ∧
      readInstructions (p + header.headerSize + header.codeSize) header.codeSize window p₁ =
        .ok body.instructions p₂ ∧
      body.headerSize = header.headerSize ∧ body.codeSize = header.codeSize := by
  obtain ⟨offset, p₁, hoffset, h⟩ := bind_ok_iff.mp h
  cases hoffset
  obtain ⟨header, p₂, hheader, h⟩ := bind_ok_iff.mp h
  obtain ⟨instructions, p₃, hinstructions, h⟩ := bind_ok_iff.mp h
  refine ⟨header, p₂, p₃, hheader, ?_⟩
  -- with sections and without, these parts stay as they are
  split at h
  all_goals
    obtain ⟨handlers, p₄, -, h⟩ := bind_ok_iff.mp h
    obtain ⟨stop, p₅, -, h⟩ := bind_ok_iff.mp h
    obtain ⟨_, p₆, -, h⟩ := bind_ok_iff.mp h
    obtain ⟨_, p₇, -, h⟩ := bind_ok_iff.mp h
    cases h
    exact ⟨hinstructions, rfl, rfl⟩

theorem forall_of_readInstructions {P : Instruction → Prop}
    (heach : ∀ offset q q' i, readInstruction offset window q = .ok i q' → P i)
    {stop p p' : Int} {fuel : Nat} {instructions : List Instruction}
    (h : readInstructions stop fuel window p = .ok instructions p') : ∀ i ∈ instructions, P i := by
  induction fuel generalizing instructions p with
  | zero =>
    cases h
    simp
  | succ fuel ih =>
    obtain ⟨position, p₁, -, h⟩ := bind_ok_iff.mp h
    split at h
    · cases h
      simp
    · obtain ⟨first, p₂, hfirst, h⟩ := bind_ok_iff.mp h
      obtain ⟨rest, p₃, hrest, h⟩ := bind_ok_iff.mp h
      cases h
      exact List.forall_mem_cons.mpr ⟨heach _ _ _ _ hfirst, ih hrest⟩

/-- What holds of every instruction that is read holds of those of a decoded
body. -/
theorem forall_of_decode {P : Instruction → Prop}
    (heach : ∀ window offset q q' i, readInstruction offset window q = .ok i q' → P i)
    {image : Image} {rva : Int} {limit? : Option Int} {body : Body}
    (hdecoded : decode image rva limit? = .ok body) : ∀ i ∈ body.instructions, P i := by
  obtain ⟨window, q, -, hbody⟩ := decode_eq_ok_iff.mp hdecoded
  obtain ⟨header, p₁, p₂, -, hinstructions, -⟩ := parts_of_readBody hbody
  exact forall_of_readInstructions (heach window) hinstructions

/-- The code of a body that decodes lies in the body's extent. -/
theorem code_inside_of_decode {image : Image} {rva : Int} {body : Body}
    (hdecoded : decode image rva none = .ok body) :
    ∃ stop, extent image rva = .ok stop ∧ rva + body.headerSize + body.codeSize ≤ stop := by
  obtain ⟨window, q, hopened, hbody⟩ := decode_eq_ok_iff.mp hdecoded
  obtain ⟨stop, hextent, rfl⟩ := opened_to_extent_iff.mp hopened
  obtain ⟨hnonneg, hbegins, hinside, hbound⟩ := extent_ok hextent
  obtain ⟨header, p₁, _, hheader, -, hsame⟩ := parts_of_readBody hbody
  refine ⟨stop, hextent, ?_⟩
  -- extent and reader look at the same bytes for the sizes
  have hsizes := readHeader_ok hnonneg (show rva < image.size by omega) hheader
  rw [hsame.1, hsame.2]
  simp only at hsizes hbound
  split at hsizes
  · next htiny =>
    rw [if_pos htiny] at hbound
    omega
  · next hlarge =>
    rw [if_neg hlarge] at hbound
    omega

end Body

namespace Store

variable {store : Store} {method : MethodDef} {body : Body}

theorem readBody?_eq_some_iff :
    store.readBody? method = some body ↔
      method.hasBody = true ∧ Body.decode store.image method.rva none = .ok body := by
  unfold readBody? readBody
  split
  · next hpresent =>
    split
    · next decoded hdecode => simp [Except.toOption, hpresent, hdecode]
    · next fault hdecode => simp [Except.toOption, hdecode]
  · next habsent => simp [Except.toOption, habsent]

/-- The code bytes of a body that decodes at the method's address can always be
had, as many as it states. -/
theorem codeBytes_of_decode (hdecoded : Body.decode store.image method.rva none = .ok body) :
    ∃ code, store.codeBytes method body = .ok code ∧ code.length = body.codeSize := by
  obtain ⟨stop, hextent, hcovered⟩ := Body.code_inside_of_decode hdecoded
  obtain ⟨hnonneg, -, hinside, -⟩ := Body.extent_ok hextent
  have hrange : ¬ (method.rva + body.headerSize < 0 ∨ (body.codeSize : Int) < 0 ∨
      method.rva + body.headerSize + body.codeSize > store.image.size) := by omega
  refine ⟨_, if_neg hrange, ?_⟩
  rw [Image.length_slice (by omega) (by omega) (by omega)]
  omega

theorem exists_codeBytes (hdecoded : store.readBody? method = some body) :
    ∃ code, store.codeBytes method body = .ok code ∧ code.length = body.codeSize :=
  codeBytes_of_decode (readBody?_eq_some_iff.mp hdecoded).2

end Store
end CilAtlas
