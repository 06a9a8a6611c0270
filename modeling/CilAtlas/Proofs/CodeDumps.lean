import CilAtlas.Proofs.SignatureText
import CilAtlas.Proofs.SoftFailures

/-!
# The dump of a method's code

A report shows the code of a method as pairs of digits with blanks between them, and one of
three marks where there is no code.  The dump can be read back: split at its blanks, each
piece is the byte it was made from.  So no two codes have the same dump, and since no mark
can be read that way, none is ever taken for code.

The bytes that are dumped are found by the sizes that the decoder reads off the header.  A
body that decodes has them in the image, so showing it cannot fail.
-/

namespace CilAtlas

/-! ### Reading a dump -/

/-- The value of a hexadecimal digit that is no small letter. -/
def CodePoint.capitalDigit? (c : CodePoint) : Option Nat :=
  if c.toNat < 0x61 then c.hexValue? else none

/-- The byte that a text of two digits writes. -/
def byteOfPair? : Text → Option UInt8
  | [high, low] => do
    let upper ← high.capitalDigit?
    let lower ← low.capitalDigit?
    return (upper * 16 + lower).toUInt8
  | _ => none

/-- The bytes that the pieces between the blanks of a text write. -/
def readDump? (t : Text) : Option (List UInt8) :=
  (t.splitOn (CodePoint.ofChar ' ')).mapM byteOfPair?

theorem toNat_digitSign_lt (d : Nat) : (Text.digitSign d).toNat < 0x61 := by
  unfold Text.digitSign
  split
  · show 0x30 + d % 10 < 0x61
    omega
  · show 0x41 + (d - 10) % 6 < 0x61
    omega

theorem capitalDigit?_digitSign {d : Nat} (hd : d < 16) :
    (Text.digitSign d).capitalDigit? = some d := by
  rw [CodePoint.capitalDigit?, if_pos (toNat_digitSign_lt d), Text.hexValue?_digitSign hd]

theorem byteOfPair?_hexByte (b : UInt8) : byteOfPair? (Text.hexByte b) = some b := by
  have hb : b.toNat < 256 := b.toNat_lt
  have hwhole : b.toNat / 16 * 16 + b.toNat % 16 = b.toNat := by omega
  simp only [Text.hexByte, byteOfPair?, capitalDigit?_digitSign (show b.toNat / 16 < 16 by omega),
    capitalDigit?_digitSign (show b.toNat % 16 < 16 by omega), Option.bind_eq_bind,
    Option.bind_some, hwhole]
  simp

theorem blank_notMem_hexByte (b : UInt8) : CodePoint.ofChar ' ' ∉ Text.hexByte b := by
  have hapart : ∀ d, CodePoint.ofChar ' ' ≠ Text.digitSign d := by
    intro d hsame
    have hlower : 0x30 ≤ (Text.digitSign d).toNat := by
      unfold Text.digitSign
      split
      · exact Nat.le_add_right _ _
      · exact Nat.le_trans (by decide) (Nat.le_add_right 0x41 _)
    rw [← hsame] at hlower
    exact absurd hlower (by decide)
  simp [Text.hexByte, hapart]

theorem Text.splitOn_eq (mark : CodePoint) (t : Text) :
    Text.splitOn mark t = List.splitOn mark t := by
  induction t with
  | nil => rfl
  | cons c rest ih =>
    rw [Text.splitOn, ih, List.splitOn_eq_splitOnP, List.splitOn_eq_splitOnP,
      List.splitOnP_cons_eq_if_modifyHead]
    by_cases hc : c = mark
    · rw [if_pos hc, if_pos (beq_iff_eq.mpr hc)]
    · rw [if_neg hc, if_neg (fun hsame => hc (beq_iff_eq.mp hsame))]
      cases hpieces : rest.splitOnP (· == mark) with
      | nil => exact absurd hpieces (List.splitOnP_ne_nil _ _)
      | cons piece later => rfl

/-- Parts without the mark come back when the text that the mark joins is split. -/
theorem Text.splitOn_join {mark : CodePoint} {parts : List Text} (hnonempty : parts ≠ [])
    (hplain : ∀ part ∈ parts, mark ∉ part) :
    Text.splitOn mark (Text.join [mark] parts) = parts := by
  rw [Text.splitOn_eq, Signature.join_eq_intercalate]
  exact List.splitOn_intercalate mark hplain hnonempty

theorem splitOn_ilBytesText {code : List UInt8} (hnonempty : code ≠ []) :
    Text.splitOn (CodePoint.ofChar ' ') (ilBytesText code) = code.map Text.hexByte := by
  refine Text.splitOn_join (by simpa using hnonempty) ?_
  intro part hlisted
  obtain ⟨b, -, rfl⟩ := List.mem_map.mp hlisted
  exact blank_notMem_hexByte b

theorem mapM_byteOfPair?_hexByte (code : List UInt8) :
    (code.map Text.hexByte).mapM byteOfPair? = some code := by
  induction code with
  | nil => rfl
  | cons b rest ih => simp [byteOfPair?_hexByte, ih]

/-- A dump reads as the bytes it was made from, unless there are none. -/
theorem readDump?_ilBytesText (code : List UInt8) :
    readDump? (ilBytesText code) = if code = [] then none else some code := by
  by_cases hempty : code = []
  · rw [if_pos hempty, hempty]
    rfl
  · rw [if_neg hempty, readDump?, splitOn_ilBytesText hempty, mapM_byteOfPair?_hexByte]

-- small letters are refused, and so are two blanks
example : readDump? (lit "0A FF") = some [0x0A, 0xFF] ∧ readDump? (lit "0a") = none ∧
    readDump? (lit "0A  FF") = none := by decide

theorem ilBytesText_injective : Function.Injective ilBytesText := by
  intro code code' hsame
  have hread := congrArg readDump? hsame
  rw [readDump?_ilBytesText, readDump?_ilBytesText] at hread
  by_cases hempty : code = []
  · by_cases hempty' : code' = []
    · rw [hempty, hempty']
    · rw [if_pos hempty, if_neg hempty'] at hread
      cases hread
  · by_cases hempty' : code' = []
    · rw [if_neg hempty, if_pos hempty'] at hread
      cases hread
    · rw [if_neg hempty, if_neg hempty'] at hread
      exact Option.some.inj hread

/-- What stands where there is no code to show. -/
def codeMarks : List Text :=
  [absentCode, unreadableCode, emptyCode]

theorem readDump?_of_mem_codeMarks {mark : Text} (hlisted : mark ∈ codeMarks) :
    readDump? mark = none ∧ mark ≠ [] := by
  have hall : ∀ mark ∈ codeMarks, readDump? mark = none ∧ mark ≠ [] := by decide
  exact hall mark hlisted

/-- No dump is one of the marks. -/
theorem ilBytesText_notMem_codeMarks (code : List UInt8) : ilBytesText code ∉ codeMarks := by
  intro hlisted
  obtain ⟨hunread, hnonempty⟩ := readDump?_of_mem_codeMarks hlisted
  rw [readDump?_ilBytesText] at hunread
  by_cases hempty : code = []
  · rw [hempty] at hnonempty
    exact hnonempty rfl
  · rw [if_neg hempty] at hunread
    cases hunread

/-! ### The code that is dumped -/

theorem Image.slice_eq_take_drop (image : Image) {start count : Nat}
    (hinside : start + count ≤ image.size) :
    image.slice start (start + count) = (image.bytes.toList.drop start).take count := by
  have hstart : image.place start = start := by
    rw [place_of_nonneg (by omega)]
    omega
  have hstop : image.place (start + count) = start + count := by
    rw [place_of_nonneg (by omega)]
    omega
  rw [slice, hstart, hstop, Array.toList_extract, List.extract_eq_take_drop,
    Nat.add_sub_cancel_left]

namespace Store

variable {store : Store} {method : MethodDef} {body : Body}

/-- The bytes of the image that a body's header says are its code. -/
def codeInImage (store : Store) (method : MethodDef) (body : Body) : List UInt8 :=
  (store.image.bytes.toList.drop (method.rva.toNat + body.headerSize)).take body.codeSize

theorem codeBytes_eq (hdecoded : store.readBody? method = some body) :
    store.codeBytes method body = .ok (store.codeInImage method body) ∧
      (store.codeInImage method body).length = body.codeSize := by
  obtain ⟨stop, hextent, hcovered⟩ :=
    Body.code_inside_of_decode (readBody?_eq_some_iff.mp hdecoded).2
  obtain ⟨hnonneg, -, hinside, -⟩ := Body.extent_ok hextent
  obtain ⟨start, hstart⟩ := Int.eq_ofNat_of_zero_le hnonneg
  have hwithin : start + body.headerSize + body.codeSize ≤ store.image.size := by omega
  have hcode : store.codeBytes method body = .ok (store.codeInImage method body) := by
    rw [codeBytes, imageRange, Image.range, if_neg (by omega), codeInImage, hstart]
    exact congrArg Except.ok (store.image.slice_eq_take_drop hwithin)
  obtain ⟨bytes, htaken, hlength⟩ := exists_codeBytes hdecoded
  rw [hcode] at htaken
  exact ⟨hcode, Except.ok.inj htaken ▸ hlength⟩

theorem readBody?_eq_none_iff :
    store.readBody? method = none ↔
      method.hasBody = false ∨ ∃ fault, Body.decode store.image method.rva none = .error fault := by
  unfold readBody? readBody
  split
  · next hpresent =>
    split
    · next decoded hdecode => simp [Except.toOption, hpresent, hdecode]
    · next fault hdecode => simp [Except.toOption, hdecode]
  · next habsent =>
    have hnoBody : method.hasBody = false := Bool.eq_false_of_not_eq_true habsent
    simp [Except.toOption, hnoBody]

/-- Size and text show the code of a method: as its bytes when it has any, else as the mark
for the reason why there are none. -/
structure ShowsCode (store : Store) (method : MethodDef) (size : Int) (text : Text) : Prop where
  code : ∀ body, store.readBody? method = some body → body.codeSize ≠ 0 →
    size = body.codeSize ∧ readDump? text = some (store.codeInImage method body)
  noCode : (∀ body, store.readBody? method = some body → body.codeSize = 0) →
    size = 0 ∧ text ∈ codeMarks
  absent_iff : text = absentCode ↔ method.rva = 0
  unreadable_iff : text = unreadableCode ↔ method.rva ≠ 0 ∧
    (method.hasBody = false ∨ ∃ fault, Body.decode store.image method.rva none = .error fault)
  empty_iff : text = emptyCode ↔ ∃ body, store.readBody? method = some body ∧ body.codeSize = 0

theorem rva_ne_zero_of_readBody? (hdecoded : store.readBody? method = some body) :
    method.rva ≠ 0 := by
  have hpresent := (readBody?_eq_some_iff.mp hdecoded).1
  simp only [MethodDef.hasBody, Bool.and_eq_true, decide_eq_true_eq] at hpresent
  exact hpresent.1.1.1.1

theorem not_unreadable_of_readBody? (hdecoded : store.readBody? method = some body) :
    ¬ (method.hasBody = false ∨
      ∃ fault, Body.decode store.image method.rva none = .error fault) := by
  rw [← readBody?_eq_none_iff, hdecoded]
  nofun

theorem showsCode_absent (hnoAddress : method.rva = 0) : store.ShowsCode method 0 absentCode where
  code body hdecoded := absurd hnoAddress (rva_ne_zero_of_readBody? hdecoded)
  noCode _ := ⟨rfl, by decide⟩
  absent_iff := ⟨fun _ => hnoAddress, fun _ => rfl⟩
  unreadable_iff := ⟨fun hsame => absurd hsame (by decide), fun hboth => absurd hnoAddress hboth.1⟩
  empty_iff := by
    refine ⟨fun hsame => absurd hsame (by decide), ?_⟩
    rintro ⟨body, hdecoded, -⟩
    exact absurd hnoAddress (rva_ne_zero_of_readBody? hdecoded)

theorem showsCode_unreadable (haddress : method.rva ≠ 0)
    (hundecoded : store.readBody? method = none) : store.ShowsCode method 0 unreadableCode where
  code body hdecoded := absurd (hundecoded.symm.trans hdecoded) nofun
  noCode _ := ⟨rfl, by decide⟩
  absent_iff :=
    ⟨fun hsame => absurd hsame (by decide), fun hnoAddress => absurd hnoAddress haddress⟩
  unreadable_iff := ⟨fun _ => ⟨haddress, readBody?_eq_none_iff.mp hundecoded⟩, fun _ => rfl⟩
  empty_iff := by
    refine ⟨fun hsame => absurd hsame (by decide), ?_⟩
    rintro ⟨body, hdecoded, -⟩
    exact absurd (hundecoded.symm.trans hdecoded) nofun

theorem showsCode_empty (hdecoded : store.readBody? method = some body)
    (hnoCode : body.codeSize = 0) : store.ShowsCode method 0 emptyCode where
  code other hdecoded' hhasCode := by
    obtain rfl : body = other := Option.some.inj (hdecoded.symm.trans hdecoded')
    exact absurd hnoCode hhasCode
  noCode _ := ⟨rfl, by decide⟩
  absent_iff := ⟨fun hsame => absurd hsame (by decide),
    fun hnoAddress => absurd hnoAddress (rva_ne_zero_of_readBody? hdecoded)⟩
  unreadable_iff := ⟨fun hsame => absurd hsame (by decide),
    fun hboth => absurd hboth.2 (not_unreadable_of_readBody? hdecoded)⟩
  empty_iff := ⟨fun _ => ⟨body, hdecoded, hnoCode⟩, fun _ => rfl⟩

theorem showsCode_dumped (hdecoded : store.readBody? method = some body)
    (hhasCode : body.codeSize ≠ 0) :
    store.ShowsCode method body.codeSize (ilBytesText (store.codeInImage method body)) := by
  obtain ⟨-, hlength⟩ := codeBytes_eq hdecoded
  have hnonempty : store.codeInImage method body ≠ [] := by
    intro hempty
    rw [hempty] at hlength
    exact hhasCode hlength.symm
  have hunmarked := ilBytesText_notMem_codeMarks (store.codeInImage method body)
  simp only [codeMarks, List.mem_cons, List.not_mem_nil, or_false, not_or] at hunmarked
  obtain ⟨hnotAbsent, hnotUnreadable, hnotEmpty⟩ := hunmarked
  constructor
  case code =>
    intro other hdecoded' _
    obtain rfl : body = other := Option.some.inj (hdecoded.symm.trans hdecoded')
    exact ⟨rfl, by rw [readDump?_ilBytesText, if_neg hnonempty]⟩
  case noCode => exact fun hnoCode => absurd (hnoCode body hdecoded) hhasCode
  case absent_iff =>
    exact ⟨fun hsame => absurd hsame hnotAbsent,
      fun hnoAddress => absurd hnoAddress (rva_ne_zero_of_readBody? hdecoded)⟩
  case unreadable_iff =>
    exact ⟨fun hsame => absurd hsame hnotUnreadable,
      fun hboth => absurd hboth.2 (not_unreadable_of_readBody? hdecoded)⟩
  case empty_iff =>
    refine ⟨fun hsame => absurd hsame hnotEmpty, ?_⟩
    rintro ⟨other, hdecoded', hnoCode⟩
    obtain rfl : body = other := Option.some.inj (hdecoded.symm.trans hdecoded')
    exact absurd hnoCode hhasCode

/-- What a report shows of a method's code can always be had.  Code is shown by its size and
by a dump that reads back as the bytes that the image has there; each of the three marks
stands for one reason why there is no code, and for no other.  Different codes have
different dumps, and no dump is a mark. -/
theorem ilBytes_shows_code (store : Store) (method : MethodDef) :
    (∃ size text, store.ilBytes method (store.readBody? method) = .ok (size, text) ∧
      store.ShowsCode method size text) ∧
    Function.Injective ilBytesText ∧ ∀ code, ilBytesText code ∉ codeMarks := by
  refine ⟨?_, ilBytesText_injective, ilBytesText_notMem_codeMarks⟩
  obtain ⟨size, text, hcomputed, hshown⟩ := exists_ilBytes store method
  refine ⟨size, text, hcomputed, ?_⟩
  cases hshown with
  | absent hnoAddress => exact showsCode_absent hnoAddress
  | unreadable haddress hundecoded => exact showsCode_unreadable haddress hundecoded
  | @dumped body code hdecoded hbytes =>
    obtain ⟨hfound, hlength⟩ := codeBytes_eq hdecoded
    obtain rfl : store.codeInImage method body = code := Except.ok.inj (hfound.symm.trans hbytes)
    by_cases hnoCode : body.codeSize = 0
    · have hempty := List.eq_nil_of_length_eq_zero (hlength.trans hnoCode)
      rw [hempty, hnoCode]
      exact showsCode_empty hdecoded hnoCode
    · rw [if_neg (by simpa [← List.length_eq_zero_iff, hlength] using hnoCode)]
      exact showsCode_dumped hdecoded hnoCode

end Store
end CilAtlas
