import CilAtlas.Proofs.BodyConfinement

/-!
# The guard of branch tables

A branch table states how many branches it has, and takes four bytes for that
number and four for each branch.  The guarded reader compares the stated number
with the limit before it reads anything; the plain one reads on until a read
fails.  Both return exactly when the whole table lies before the limit, and then
they return the same targets and end at the same position, so the guard does
nothing but fail earlier.

The guard looks at the image itself, where the number may lie behind the limit or
be cut by the end of the image.  In these cases not even the number fits, and the
table is refused whatever the guard sees.
-/

namespace CilAtlas
namespace Body

variable {image : Image} {window : Window} {p : Int}

/-! ### Reads that fit and reads that do not -/

theorem readExact_of_fits (count : Nat) (hinside : window.limit ≤ window.image.size)
    (hnonneg : 0 ≤ p) (hfits : p + count ≤ window.limit) :
    readExact count window p = .ok (window.image.slice p (p + count)) (p + count) := by
  have hallowed : ¬ ((count : Int) < 0 ∨ p + count > window.limit) := by omega
  have hcomplete : (window.image.slice p (p + count)).length = count := by
    rw [Image.length_slice hnonneg (by omega) (by omega)]
    omega
  simp only [readExact, read, if_neg hallowed, if_pos hcomplete]

theorem readExact_of_overrun (count : Nat) (hoverrun : window.limit < p + count) :
    readExact count window p = .error (.unreadable count p) p := by
  have hrefused : (count : Int) < 0 ∨ p + count > window.limit := by omega
  simp only [readExact, read, if_pos hrefused]

/-! ### The distances of a table -/

/-- The signed number in the four bytes from a position on. -/
def deltaAt (image : Image) (position : Int) : Int :=
  asSigned 32 (littleEndian (image.slice position (position + 4)))

/-- `count` signed numbers from a position on. -/
def deltasFrom (image : Image) (position : Int) (count : Nat) : List Int :=
  (List.range count).map fun i : Nat => deltaAt image (position + 4 * i)

theorem deltasFrom_succ (image : Image) (position : Int) (count : Nat) :
    deltasFrom image position (count + 1) =
      deltaAt image position :: deltasFrom image (position + 4) count := by
  unfold deltasFrom
  rw [List.range_succ_eq_map, List.map_cons, List.map_map]
  congr 1
  · congr 1
    omega
  · apply List.map_congr_left
    intro i _
    show deltaAt image (position + 4 * ((i + 1 : Nat) : Int)) = _
    congr 1
    omega

theorem readSigned_of_fits (hinside : window.limit ≤ window.image.size) (hnonneg : 0 ≤ p)
    (hfits : p + 4 ≤ window.limit) :
    readSigned 4 window p =
      .ok (deltaAt window.image p, window.image.slice p (p + 4)) (p + 4) :=
  bind_of_ok (readExact_of_fits 4 hinside hnonneg hfits)

/-- Distances that fit before the limit are read, each from its own four bytes. -/
theorem readDeltas_of_fits (hinside : window.limit ≤ window.image.size) (hnonneg : 0 ≤ p)
    {count : Nat} (hfits : p + 4 * count ≤ window.limit) :
    readDeltas count window p =
      .ok (deltasFrom window.image p count, window.image.slice p (p + 4 * count))
        (p + 4 * count) := by
  induction count generalizing p with
  | zero =>
    have hhere : p + 4 * ((0 : Nat) : Int) = p := by omega
    rw [hhere, Image.slice_self]
    rfl
  | succ count ih =>
    have hfirst := readSigned_of_fits hinside hnonneg (by omega)
    have hothers := ih (p := p + 4) (by omega) (by omega)
    have hlast : p + 4 + 4 * (count : Int) = p + 4 * ((count + 1 : Nat) : Int) := by omega
    rw [hlast] at hothers
    rw [deltasFrom_succ, ← Image.slice_append (b := p + 4) hnonneg (by omega) (by omega)]
    exact (bind_of_ok hfirst).trans (bind_of_ok hothers)

/-- Distances that do not fit make the reader fail, at the first that passes the
limit. -/
theorem readDeltas_of_overrun (hinside : window.limit ≤ window.image.size) (hnonneg : 0 ≤ p)
    {count : Nat} (hbegins : p ≤ window.limit) (hoverrun : window.limit < p + 4 * count) :
    ∃ fault q, readDeltas count window p = .error fault q := by
  induction count generalizing p with
  | zero => omega
  | succ count ih =>
    by_cases hroom : p + 4 ≤ window.limit
    · obtain ⟨fault, q, hfails⟩ := ih (p := p + 4) (by omega) hroom (by omega)
      have hfirst := readSigned_of_fits hinside hnonneg hroom
      exact ⟨fault, q, (bind_of_ok hfirst).trans (bind_of_error hfails)⟩
    · have hfirst : readSigned 4 window p = .error (.unreadable 4 p) p :=
        bind_of_error (readExact_of_overrun 4 (by omega))
      exact ⟨_, _, bind_of_error hfirst⟩

/-! ### Both readers -/

/-- The table at `p` for an instruction of the given offset: the targets, each
counted from the end of the instruction. -/
def branchTable (image : Image) (p offset : Int) (opcodeSize count : Nat) : Operand :=
  .list ((deltasFrom image (p + 4) count).map fun delta =>
    .int (offset + opcodeSize + 4 + 4 * count + delta))

variable {offset : Int} {opcodeSize : Nat}

theorem readCount_of_fits (hinside : window.limit ≤ window.image.size) (hnonneg : 0 ≤ p)
    (hfits : p + 4 ≤ window.limit) :
    readUnsigned 4 window p =
      .ok (peekCount window p, window.image.slice p (p + 4)) (p + 4) :=
  bind_of_ok (readExact_of_fits 4 hinside hnonneg hfits)

theorem readSwitch_of_fits (hinside : window.limit ≤ window.image.size) (hnonneg : 0 ≤ p)
    (hfits : p + 4 + 4 * peekCount window p ≤ window.limit) :
    readSwitch offset opcodeSize window p =
      .ok (branchTable window.image p offset opcodeSize (peekCount window p),
        window.image.slice p (p + 4 + 4 * peekCount window p))
        (p + 4 + 4 * peekCount window p) := by
  have hnumber := readCount_of_fits hinside hnonneg (by omega)
  have hdeltas := readDeltas_of_fits hinside (p := p + 4) (by omega) hfits
  rw [← Image.slice_append (b := p + 4) hnonneg (by omega) (by omega)]
  exact (bind_of_ok hnumber).trans (bind_of_ok hdeltas)

theorem readSwitch_of_overrun (hinside : window.limit ≤ window.image.size) (hnonneg : 0 ≤ p)
    (hoverrun : window.limit < p + 4 + 4 * peekCount window p) :
    ∃ fault q, readSwitch offset opcodeSize window p = .error fault q := by
  by_cases hroom : p + 4 ≤ window.limit
  · have hnumber := readCount_of_fits hinside hnonneg hroom
    obtain ⟨fault, q, hfails⟩ :=
      readDeltas_of_overrun hinside (p := p + 4) (by omega) hroom hoverrun
    exact ⟨fault, q, (bind_of_ok hnumber).trans (bind_of_error hfails)⟩
  · have hnumber : readUnsigned 4 window p = .error (.unreadable 4 p) p :=
      bind_of_error (readExact_of_overrun 4 (by omega))
    exact ⟨_, _, bind_of_error hnumber⟩

theorem readGuardedSwitch_of_fits (hfits : p + 4 + 4 * peekCount window p ≤ window.limit) :
    readGuardedSwitch offset opcodeSize window p = readSwitch offset opcodeSize window p :=
  if_neg (by omega)

theorem readGuardedSwitch_of_overrun
    (hoverrun : window.limit < p + 4 + 4 * peekCount window p) :
    readGuardedSwitch offset opcodeSize window p =
      .error (.switchOverrun (peekCount window p) p) p :=
  if_pos (by omega)

/-- The guard only fails earlier.  In every window of an image, and from every
position in it, the guarded and the plain reader return the same table at the same
position or both fail.  The guarded one fails exactly when the table does not fit
before the limit, which includes that its number does not, and then it has not
moved.  A table that fits is read from its own bytes. -/
theorem guard_only_fails_earlier {rva : Int} {limit? : Option Int}
    (hopened : Window.of image rva limit? = .ok window) (hnonneg : 0 ≤ p) (offset : Int)
    (opcodeSize : Nat) :
    let guarded := readGuardedSwitch offset opcodeSize window p
    let plain := readSwitch offset opcodeSize window p
    let count := littleEndian (image.slice p (p + 4))
    ((∃ table q, guarded = .ok table q ∧ plain = .ok table q) ∨
      (∃ fault, guarded = .error fault p) ∧ ∃ fault q, plain = .error fault q) ∧
    ((∃ fault q, guarded = .error fault q) ↔
      window.limit < p + 4 ∨ window.limit < p + (4 + 4 * count)) ∧
    (p + (4 + 4 * count) ≤ window.limit →
      guarded = .ok (branchTable image p offset opcodeSize count,
        image.slice p (p + (4 + 4 * count))) (p + (4 + 4 * count))) := by
  obtain ⟨rfl, hinside⟩ := limit_le_of_opened hopened
  intro guarded plain count
  have hstop : p + (4 + 4 * (count : Int)) = p + 4 + 4 * peekCount window p := by
    show p + (4 + 4 * (peekCount window p : Int)) = _
    omega
  rw [hstop]
  by_cases hfits : p + 4 + 4 * peekCount window p ≤ window.limit
  · have htable : plain = .ok _ _ := readSwitch_of_fits hinside hnonneg hfits
    have hsame : guarded = plain := readGuardedSwitch_of_fits hfits
    refine ⟨.inl ⟨_, _, hsame.trans htable, htable⟩, ?_, fun _ => hsame.trans htable⟩
    constructor
    · rintro ⟨fault, q, hfails⟩
      rw [hsame.trans htable] at hfails
      cases hfails
    · intro hoverrun
      omega
  · have hoverrun : window.limit < p + 4 + 4 * peekCount window p := by omega
    have hrefused : guarded = .error _ p := readGuardedSwitch_of_overrun hoverrun
    have hfails : ∃ fault q, plain = .error fault q :=
      readSwitch_of_overrun hinside hnonneg hoverrun
    refine ⟨.inr ⟨⟨_, hrefused⟩, hfails⟩, ?_, fun hroom => absurd hroom hfits⟩
    exact iff_of_true ⟨_, _, hrefused⟩ (.inr hoverrun)

/-- The bytes of a table with two branches, behind a byte of another instruction. -/
def twoBranches : Image :=
  ⟨#[0x45, 0x02, 0x00, 0x00, 0x00, 0x05, 0x00, 0x00, 0x00, 0xFF, 0xFF, 0xFF, 0xFF]⟩

/-- A table that ends at the limit is read, and with a limit one byte before its
end both readers refuse it. -/
theorem twoBranches_at_the_limit :
    Window.of twoBranches 0 (some 13) = .ok ⟨twoBranches, 13⟩ ∧
      readGuardedSwitch 0 1 ⟨twoBranches, 13⟩ 1 =
        .ok (.list [.int 18, .int 12], twoBranches.slice 1 13) 13 ∧
      Window.of twoBranches 0 (some 12) = .ok ⟨twoBranches, 12⟩ ∧
      (∃ fault, readGuardedSwitch 0 1 ⟨twoBranches, 12⟩ 1 = .error fault 1) ∧
      ∃ fault q, readSwitch 0 1 ⟨twoBranches, 12⟩ 1 = .error fault q := by
  have hwide : Window.of twoBranches 0 (some 13) = .ok ⟨twoBranches, 13⟩ := rfl
  have hnarrow : Window.of twoBranches 0 (some 12) = .ok ⟨twoBranches, 12⟩ := rfl
  obtain ⟨-, -, htable⟩ := guard_only_fails_earlier hwide (p := 1) (by decide) 0 1
  obtain ⟨houtcome, hrefuses, -⟩ := guard_only_fails_earlier hnarrow (p := 1) (by decide) 0 1
  obtain ⟨fault, q, hrefused⟩ := hrefuses.mpr (.inr (by decide))
  refine ⟨hwide, htable (by decide), hnarrow, ?_⟩
  rcases houtcome with ⟨_, _, hreturned, -⟩ | hfails
  · rw [hrefused] at hreturned
    cases hreturned
  · exact hfails

end Body
end CilAtlas
