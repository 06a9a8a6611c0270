import CilAtlas.Proofs.BodyConfinement

/-!
# A greater limit changes no decoded body

The limit of a window is seen in two places: every read is tested against it, and
the guard of branch tables tests a whole table at once.  A greater limit lets both
tests pass where a smaller one did, and what is read comes from the image and not
from the limit.  So whatever a step returns through a window it returns through
every wider one, with the same position after it, and this carries over from the
single reads to whole bodies.

Nothing is said about a body that does not decode: with a greater limit it may
decode or fail with another fault.
-/

namespace CilAtlas
namespace Body

/-- The second window shows the same image up to the same limit or a greater one. -/
structure Window.Within (window wider : Window) : Prop where
  image_eq : wider.image = window.image
  limit_le : window.limit ≤ wider.limit

/-- What the step returns through a window it returns through every wider one. -/
def Persists {α : Type} (step : Read α) : Prop :=
  ∀ ⦃window wider : Window⦄, window.Within wider →
    ∀ ⦃p : Int⦄ ⦃a : α⦄ ⦃q : Int⦄, step window p = .ok a q → step wider p = .ok a q

variable {α β : Type}

namespace Persists

theorem pure (a : α) : Persists (pure a) :=
  fun _ _ _ _ _ _ hreturned => hreturned

theorem bind {step : Read α} {next : α → Read β} (hfirst : Persists step)
    (hlater : ∀ a, Persists (next a)) : Persists (step >>= next) := by
  intro window wider hwithin p b r hreturned
  obtain ⟨a, q, hbegun, hfinished⟩ := bind_ok_iff.mp hreturned
  exact bind_ok_iff.mpr ⟨a, q, hfirst hwithin hbegun, hlater a hwithin hfinished⟩

theorem throw (fault : BodyFault) : Persists (throw fault : Read α) := by
  intro window wider hwithin p a q hreturned
  cases hreturned

end Persists

/-! ### Single reads -/

theorem currentPosition_persists : Persists currentPosition :=
  fun _ _ _ _ _ _ hreturned => hreturned

theorem seek_persists (target : Int) : Persists (seek target) :=
  fun _ _ _ _ _ _ hreturned => hreturned

/-- A read that stays before the limit stays before a greater one, and its bytes
come from the image. -/
theorem read_persists (count : Int) : Persists (read count) := by
  intro window wider hwithin p bytes q hreturned
  unfold read at hreturned ⊢
  split at hreturned
  · cases hreturned
  · next hallowed =>
    have hlimits := hwithin.limit_le
    rw [if_neg (by omega), hwithin.image_eq]
    exact hreturned

theorem readExact_persists (count : Nat) : Persists (readExact count) := by
  intro window wider hwithin p bytes q hreturned
  unfold readExact at hreturned ⊢
  split at hreturned
  · cases hreturned
  · next bytes' after htaken =>
    rw [read_persists count hwithin htaken]
    exact hreturned

theorem readUnsigned_persists (count : Nat) : Persists (readUnsigned count) :=
  (readExact_persists count).bind fun _ => .pure _

theorem readSigned_persists (count : Nat) : Persists (readSigned count) :=
  (readExact_persists count).bind fun _ => .pure _

/-! ### Instructions -/

theorem readOpcode_persists : Persists readOpcode := by
  refine (readExact_persists 1).bind fun first => ?_
  split
  · exact (readExact_persists 1).bind fun second => .pure _
  · exact .pure _

theorem readDeltas_persists (count : Nat) : Persists (readDeltas count) := by
  induction count with
  | zero => exact .pure _
  | succ count ih =>
    refine (readSigned_persists 4).bind fun ⟨delta, bytes⟩ => ?_
    exact ih.bind fun ⟨deltas, more⟩ => .pure _

theorem readSwitch_persists (offset : Int) (opcodeSize : Nat) :
    Persists (readSwitch offset opcodeSize) := by
  refine (readUnsigned_persists 4).bind fun ⟨count, bytes⟩ => ?_
  exact (readDeltas_persists count).bind fun ⟨deltas, more⟩ => .pure _

/-- The guard sees the same number in both windows, and a table that fits before
the limit fits before a greater one. -/
theorem readGuardedSwitch_persists (offset : Int) (opcodeSize : Nat) :
    Persists (readGuardedSwitch offset opcodeSize) := by
  intro window wider hwithin p table q hreturned
  have hnumber : peekCount wider p = peekCount window p := by
    unfold peekCount
    rw [hwithin.image_eq]
  unfold readGuardedSwitch at hreturned ⊢
  simp only [hnumber] at hreturned ⊢
  split at hreturned
  · cases hreturned
  · next hfits =>
    have hlimits := hwithin.limit_le
    rw [if_neg (by omega)]
    exact readSwitch_persists offset opcodeSize hwithin hreturned

theorem readOperand_persists (kind : OperandKind) (offset : Int) (opcodeSize : Nat) :
    Persists (readOperand kind offset opcodeSize) := by
  have hunsigned (count : Nat) (value : Nat × List UInt8 → Operand × List UInt8) :
      Persists (do return value (← readUnsigned count)) :=
    (readUnsigned_persists count).bind fun _ => .pure _
  have hsigned (count : Nat) (value : Int × List UInt8 → Operand × List UInt8) :
      Persists (do return value (← readSigned count)) :=
    (readSigned_persists count).bind fun _ => .pure _
  cases kind with
  | none => exact .pure _
  | int8 => exact hsigned 1 _
  | int32 => exact hsigned 4 _
  | int64 => exact hsigned 8 _
  | float32 => exact hunsigned 4 _
  | float64 => exact hunsigned 8 _
  | token => exact hunsigned 4 _
  | string => exact hunsigned 4 _
  | argument8 => exact hunsigned 1 _
  | argument16 => exact hunsigned 2 _
  | local8 => exact hunsigned 1 _
  | local16 => exact hunsigned 2 _
  | shortBranch => exact hsigned 1 _
  | branch => exact hsigned 4 _
  | switch => exact readGuardedSwitch_persists offset opcodeSize

theorem readInstruction_persists (offset : Int) : Persists (readInstruction offset) := by
  refine readOpcode_persists.bind fun ⟨opcode, code⟩ => ?_
  exact (readOperand_persists opcode.operand offset code.length).bind fun ⟨operand, bytes⟩ =>
    .pure _

/-- Instructions are read one after the other, and where to stop does not depend on
the limit. -/
theorem readInstructions_persists (stop : Int) (fuel : Nat) :
    Persists (readInstructions stop fuel) := by
  induction fuel with
  | zero => exact .pure _
  | succ fuel ih =>
    refine currentPosition_persists.bind fun position => ?_
    split
    · exact .pure _
    · refine (readInstruction_persists position).bind fun instruction => ?_
      exact ih.bind fun rest => .pure _

/-! ### Headers, handlers and bodies -/

theorem readHeader_persists : Persists readHeader := by
  refine (readUnsigned_persists 1).bind fun ⟨first, _⟩ => ?_
  simp only
  split
  · exact .pure _
  · split
    · refine (readUnsigned_persists 1).bind fun ⟨second, _⟩ => ?_
      refine (readUnsigned_persists 2).bind fun ⟨maxStack, _⟩ => ?_
      refine (readUnsigned_persists 4).bind fun ⟨codeSize, _⟩ => ?_
      refine (readUnsigned_persists 4).bind fun ⟨localToken, _⟩ => ?_
      refine currentPosition_persists.bind fun position => ?_
      exact (seek_persists _).bind fun _ => .pure _
    · exact .throw _

theorem readClause_persists (flagSize offsetSize lengthSize : Nat) :
    Persists (readClause flagSize offsetSize lengthSize) := by
  refine (readUnsigned_persists flagSize).bind fun ⟨kind, _⟩ => ?_
  refine (readUnsigned_persists offsetSize).bind fun ⟨tryStart, _⟩ => ?_
  refine (readUnsigned_persists lengthSize).bind fun ⟨tryLength, _⟩ => ?_
  refine (readUnsigned_persists offsetSize).bind fun ⟨handlerStart, _⟩ => ?_
  refine (readUnsigned_persists lengthSize).bind fun ⟨handlerLength, _⟩ => ?_
  exact (readUnsigned_persists 4).bind fun ⟨last, _⟩ => .pure _

theorem readClauses_persists {clause : Read ExceptionHandler} (heach : Persists clause)
    (count : Nat) : Persists (readClauses clause count) := by
  induction count with
  | zero => exact .pure _
  | succ count ih => exact heach.bind fun handler => ih.bind fun rest => .pure _

theorem readHandlers_persists : Persists readHandlers := by
  refine currentPosition_persists.bind fun position => ?_
  refine (seek_persists _).bind fun _ => ?_
  refine (readUnsigned_persists 1).bind fun ⟨kind, _⟩ => ?_
  simp only
  split
  · exact .pure _
  · split
    · refine currentPosition_persists.bind fun position => ?_
      refine (seek_persists _).bind fun _ => ?_
      refine (readUnsigned_persists 4).bind fun ⟨word, _⟩ => ?_
      exact readClauses_persists (readClause_persists 4 4 4) _
    · refine (readUnsigned_persists 1).bind fun ⟨size, _⟩ => ?_
      refine currentPosition_persists.bind fun position => ?_
      refine (seek_persists _).bind fun _ => ?_
      exact readClauses_persists (readClause_persists 2 2 1) _

theorem readBody_persists : Persists readBody := by
  -- the body is read once more as a whole, from its start to where reading ended
  have hwhole (offset : Int) (made : Int → Body) : Persists (do
      let stop ← currentPosition
      seek offset
      let _ ← read (stop - offset)
      return made stop) := by
    refine currentPosition_persists.bind fun stop => ?_
    refine (seek_persists _).bind fun _ => ?_
    exact (read_persists _).bind fun _ => .pure _
  refine currentPosition_persists.bind fun offset => ?_
  refine readHeader_persists.bind fun header => ?_
  refine (readInstructions_persists _ _).bind fun instructions => ?_
  simp only
  split
  · exact readHandlers_persists.bind fun handlers => hwhole offset _
  · exact (Persists.pure _).bind fun handlers => hwhole offset _

/-! ### Decoding under two limits -/

variable {image : Image} {rva : Int} {body : Body}

/-- A body that decodes through a window decodes under every limit that is not
before the window's. -/
theorem decode_of_window {window : Window} {q : Int} (hshows : window.image = image)
    (hinside : window.limit ≤ image.size)
    (hdecoded : readBody window rva = .ok body q) {limit : Int}
    (hreaches : window.limit ≤ limit) : decode image rva (some limit) = .ok body := by
  have hwithin : window.Within ⟨image, min limit image.size⟩ :=
    ⟨hshows.symm, Int.le_min.mpr ⟨hreaches, hinside⟩⟩
  exact decode_eq_ok_iff.mpr ⟨_, q, rfl, readBody_persists hwithin hdecoded⟩

/-- A body that decodes under a limit decodes to the same body under every greater
one.  In particular one that decodes up to its own extent does so under every limit
from there on, the size of the image among them. -/
theorem decode_under_greater_limit (image : Image) (rva : Int) (body : Body) :
    (∀ limit limit' : Int, limit ≤ limit' → decode image rva (some limit) = .ok body →
      decode image rva (some limit') = .ok body) ∧
    (decode image rva none = .ok body →
      decode image rva (some image.size) = .ok body ∧
      ∃ stop, extent image rva = .ok stop ∧
        ∀ limit : Int, stop ≤ limit → decode image rva (some limit) = .ok body) := by
  constructor
  · intro limit limit' hordered hdecoded
    obtain ⟨window, q, hopened, hread⟩ := decode_eq_ok_iff.mp hdecoded
    obtain rfl := Except.ok.inj hopened
    have hbounded : min limit (image.size : Int) ≤ limit := Int.min_le_left _ _
    exact decode_of_window rfl (Int.min_le_right _ _) hread (Int.le_trans hbounded hordered)
  · intro hdecoded
    obtain ⟨window, q, hopened, hread⟩ := decode_eq_ok_iff.mp hdecoded
    obtain ⟨stop, hextent, rfl⟩ := opened_to_extent_iff.mp hopened
    obtain ⟨-, -, hinside, -⟩ := extent_ok hextent
    have hreached : (stop : Int) ≤ image.size := Int.ofNat_le.mpr hinside
    have hevery (limit : Int) (hreaches : stop ≤ limit) :
        decode image rva (some limit) = .ok body := decode_of_window rfl hreached hread hreaches
    exact ⟨hevery image.size hreached, stop, hextent, hevery⟩

/-- A body with a branch table and a handler, and two bytes behind it. -/
def guardedCode : Image :=
  ⟨#[0x0B, 0x30, 0x08, 0x00, 0x0A, 0x00, 0x00, 0x00, 0x00, 0x00, 0x00, 0x00,
    0x45, 0x01, 0x00, 0x00, 0x00, 0x00, 0x00, 0x00, 0x00, 0x2A, 0x00, 0x00,
    0x01, 0x10, 0x00, 0x00, 0x00, 0x00, 0x00, 0x00, 0x09, 0x09, 0x00, 0x01, 0x01, 0x00, 0x00, 0x01,
    0xFF, 0xFF]⟩

/-- The body decodes under its own end and behind it alike, and under no limit
before it. -/
theorem guardedCode_under_limits :
    extent guardedCode 0 = .ok 40 ∧ (decode guardedCode 0 (some 39)).isOk = false ∧
      ∃ body, body.instructions.length = 2 ∧ body.handlers.length = 1 ∧
        decode guardedCode 0 none = .ok body ∧ decode guardedCode 0 (some 40) = .ok body ∧
        decode guardedCode 0 (some 41) = .ok body ∧ decode guardedCode 0 (some 42) = .ok body := by
  have hparts : (decode guardedCode 0 none).toOption.map
      (fun body => (body.instructions.length, body.handlers.length)) = some (2, 1) := by
    decide +kernel
  obtain ⟨body, hdecoded⟩ : ∃ body, decode guardedCode 0 none = .ok body :=
    Outcome.exists_of_isOk (by decide +kernel)
  have hextent : extent guardedCode 0 = .ok 40 := by decide +kernel
  obtain ⟨hgreater, hown⟩ := decode_under_greater_limit guardedCode 0 body
  obtain ⟨hwhole, stop, hstop, hevery⟩ := hown hdecoded
  obtain rfl : stop = 40 := Except.ok.inj (hstop.symm.trans hextent)
  have hexact : decode guardedCode 0 (some 40) = .ok body := hevery 40 (by decide)
  rw [hdecoded] at hparts
  obtain ⟨hinstructions, hhandlers⟩ := Prod.mk.inj (Option.some.inj hparts)
  exact ⟨hextent, by decide +kernel, body, hinstructions, hhandlers, hdecoded, hexact,
    hgreater 40 41 (by decide) hexact, hwhole⟩

end Body
end CilAtlas
