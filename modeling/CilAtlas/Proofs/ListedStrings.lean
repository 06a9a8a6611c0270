import CilAtlas.Proofs.SoftFailures
import CilAtlas.Proofs.UnquotedNames

/-!
# The string literals of a report

A report takes the string literals of a method out of the text of its listing.
In a store without quotes in its names they are exactly the user strings that
the method's instructions load, in order and with repetitions, whatever these
strings contain and however the listing is written: every other part of a
listing is free of quotes, and leaving out, replacing, trimming and joining
lines keeps the literals as they are.
-/

namespace CilAtlas

open Quoted

/-! ### Instructions of a decoded body -/

/-- An operand without user strings, as instructions are decoded. -/
inductive Operand.Plain : Operand → Prop
  | none : Plain .none
  | int (value : Int) : Plain (.int value)
  | float (value : Double) : Plain (.float value)
  | token (value : Int) : Plain (.token value)
  | argument (index : Int) : Plain (.argument index)
  | local (index : Int) : Plain (.local index)
  | branches (targets : List Int) : Plain (.list (targets.map .int))

/-- An instruction as a decoded body has it: its mnemonic has no quotes, and a
user string is the operand of a string load and of nothing else. -/
structure Instruction.Listable (i : Instruction) : Prop where
  mnemonic : Unquoted i.mnemonic
  operand : (i.mnemonic = lit "ldstr" ∧ ∃ token, i.operand = .string token) ∨
    i.mnemonic ≠ lit "ldstr" ∧ i.operand.Plain

namespace Body

variable {window : Window}

/-- No mnemonic has a quote, and of all operations only one loads a string. -/
theorem opcodes_sound : ∀ entry ∈ oneByteOpcodes ++ twoByteOpcodes,
    Unquoted (lit entry.2.1) ∧ (entry.2.2 = .string ↔ lit entry.2.1 = lit "ldstr") := by
  decide +kernel

/-- The operations read from a body, whether their bytes have an entry or not. -/
theorem findOpcode_sound {table : List (UInt8 × String × OperandKind)} {unknown : String}
    (hlisted : table ⊆ oneByteOpcodes ++ twoByteOpcodes) (hother : Unquoted (lit unknown))
    (hnotLoad : lit unknown ≠ lit "ldstr") (b : UInt8) :
    Unquoted (findOpcode table unknown b).mnemonic ∧
      ((findOpcode table unknown b).operand = .string ↔
        (findOpcode table unknown b).mnemonic = lit "ldstr") := by
  unfold findOpcode
  split
  · next code mnemonic operand hfound =>
    exact opcodes_sound _ (hlisted (List.mem_of_find?_eq_some hfound))
  · exact ⟨hother, iff_of_false nofun hnotLoad⟩

theorem readOpcode_ok {p p' : Int} {opcode : Opcode} {bytes : List UInt8}
    (h : readOpcode window p = .ok (opcode, bytes) p') :
    Unquoted opcode.mnemonic ∧ (opcode.operand = .string ↔ opcode.mnemonic = lit "ldstr") := by
  obtain ⟨first, p₁, -, h⟩ := bind_ok_iff.mp h
  split at h
  · obtain ⟨second, p₂, -, h⟩ := bind_ok_iff.mp h
    cases h
    exact findOpcode_sound (List.subset_append_right _ _) (by decide) (by decide) _
  · cases h
    exact findOpcode_sound (List.subset_append_left _ _) (by decide) (by decide) _

theorem readSwitch_ok {offset : Int} {opcodeSize : Nat} {p p' : Int} {operand : Operand}
    {bytes : List UInt8}
    (h : readGuardedSwitch offset opcodeSize window p = .ok (operand, bytes) p') :
    operand.Plain := by
  simp only [readGuardedSwitch] at h
  split at h
  · cases h
  · obtain ⟨⟨count, countBytes⟩, p₁, -, h⟩ := bind_ok_iff.mp h
    obtain ⟨⟨deltas, more⟩, p₂, -, h⟩ := bind_ok_iff.mp h
    cases h
    have htargets := Operand.Plain.branches
      (deltas.map fun delta => offset + opcodeSize + 4 + 4 * count + delta)
    rw [List.map_map] at htargets
    exact htargets

theorem readOperand_ok {kind : OperandKind} {offset : Int} {opcodeSize : Nat} {p p' : Int}
    {operand : Operand} {bytes : List UInt8}
    (h : readOperand kind offset opcodeSize window p = .ok (operand, bytes) p') :
    (kind = .string ∧ ∃ token, operand = .string token) ∨ kind ≠ .string ∧ operand.Plain := by
  cases kind with
  | none =>
    cases h
    exact .inr ⟨nofun, .none⟩
  | string =>
    obtain ⟨⟨value, valueBytes⟩, p₁, -, h⟩ := bind_ok_iff.mp h
    cases h
    exact .inl ⟨rfl, value, rfl⟩
  | switch => exact .inr ⟨nofun, readSwitch_ok h⟩
  | float32 | float64 =>
    obtain ⟨⟨value, valueBytes⟩, p₁, -, h⟩ := bind_ok_iff.mp h
    cases h
    exact .inr ⟨nofun, .float _⟩
  | token =>
    obtain ⟨⟨value, valueBytes⟩, p₁, -, h⟩ := bind_ok_iff.mp h
    cases h
    exact .inr ⟨nofun, .token _⟩
  | argument8 | argument16 =>
    obtain ⟨⟨value, valueBytes⟩, p₁, -, h⟩ := bind_ok_iff.mp h
    cases h
    exact .inr ⟨nofun, .argument _⟩
  | local8 | local16 =>
    obtain ⟨⟨value, valueBytes⟩, p₁, -, h⟩ := bind_ok_iff.mp h
    cases h
    exact .inr ⟨nofun, .local _⟩
  | int8 | int32 | int64 | shortBranch | branch =>
    obtain ⟨⟨value, valueBytes⟩, p₁, -, h⟩ := bind_ok_iff.mp h
    cases h
    exact .inr ⟨nofun, .int _⟩

theorem readInstruction_ok {offset p p' : Int} {i : Instruction}
    (h : readInstruction offset window p = .ok i p') : i.Listable := by
  obtain ⟨⟨opcode, code⟩, p₁, hopcode, h⟩ := bind_ok_iff.mp h
  obtain ⟨⟨operand, bytes⟩, p₂, hoperand, h⟩ := bind_ok_iff.mp h
  cases h
  obtain ⟨hmnemonic, hloads⟩ := readOpcode_ok hopcode
  refine ⟨hmnemonic, ?_⟩
  rcases readOperand_ok hoperand with ⟨hstring, hshown⟩ | ⟨hnotString, hplain⟩
  · exact .inl ⟨hloads.mp hstring, hshown⟩
  · exact .inr ⟨fun hload => hnotString (hloads.mpr hload), hplain⟩

theorem instructions_listable {image : Image} {rva : Int} {limit? : Option Int} {body : Body}
    (hdecoded : decode image rva limit? = .ok body) : ∀ i ∈ body.instructions, i.Listable :=
  forall_of_decode (fun _ _ _ _ _ h => readInstruction_ok h) hdecoded

end Body

namespace Store

/-! ### The strings that a body loads -/

/-- The user string that an instruction loads, if the heap has it. -/
def loadedString? (store : Store) (i : Instruction) : Option Text :=
  if i.mnemonic = lit "ldstr" then
    i.operand.tokenValue?.bind fun token =>
      (store.userStrings (Handle.ofToken token).rid).toOption.join
  else none

/-- The user strings that a body loads, in the order of its instructions. -/
def loadedStrings (store : Store) (body : Body) : List Text :=
  body.instructions.filterMap store.loadedString?

/-- Every place of the heap of user strings holds a text or nothing. -/
def HeapOfTexts (store : Store) : Prop :=
  ∀ offset, ∃ value?, store.userStrings offset = .ok value?

variable {store : Store} {options : ListingOptions}

/-! ### Lines -/

theorem operandTexts_ints (targets : List Int) :
    store.operandTexts (targets.map .int) = .ok (targets.map Text.ofInt) := by
  induction targets with
  | nil => rfl
  | cons target targets ih =>
    rw [List.map_cons, operandTexts, ih]
    rfl

/-- Only a user string can keep an operand from having a text. -/
theorem exists_operandText {operand : Operand} (hplain : operand.Plain) :
    ∃ text, store.operandText operand = .ok text := by
  cases hplain with
  | branches targets =>
    rw [operandText, operandTexts_ints]
    exact ⟨_, rfl⟩
  | _ => exact ⟨_, rfl⟩

theorem operandText_of_plain (hnames : store.NamesUnquoted) (hfields : store.FieldsUnquoted)
    {operand : Operand} (hplain : operand.Plain) :
    ∃ text, store.operandText operand = .ok text ∧ Unquoted text := by
  have hvariableText : ∀ (word : String), Unquoted (lit word) → ∀ index,
      Unquoted (variableText word index) := by
    intro word hunquoted index
    simp only [Store.variableText, unquoted_append_iff, hunquoted, Text.unquoted_hexInt, and_true,
      true_and]
    decide
  cases hplain with
  | none => exact ⟨_, rfl, unquoted_nil⟩
  | int value => exact ⟨_, rfl, Text.unquoted_ofInt value⟩
  | float value => exact ⟨_, rfl, Decimal.unquoted_text value⟩
  | token value => exact ⟨_, rfl, hnames.tokenText hfields value⟩
  | argument index => exact ⟨_, rfl, hvariableText _ (by decide) index⟩
  | «local» index => exact ⟨_, rfl, hvariableText _ (by decide) index⟩
  | branches targets =>
    have hlist : Unquoted (Text.join (lit ", ") (targets.map Text.ofInt)) := by
      refine unquoted_join (by decide) ?_
      intro part hmember
      obtain ⟨target, -, rfl⟩ := List.mem_map.mp hmember
      exact Text.unquoted_ofInt target
    refine ⟨lit "(" ++ Text.join (lit ", ") (targets.map Text.ofInt) ++ lit ")", ?_, ?_⟩
    · rw [operandText, operandTexts_ints]
      rfl
    · simp only [unquoted_append_iff, hlist, and_true]
      decide

/-- The text of an operand carries the string that its instruction loads. -/
theorem operandText_carries (hnames : store.NamesUnquoted) (hfields : store.FieldsUnquoted)
    (hheap : store.HeapOfTexts) {i : Instruction} (hlistable : i.Listable) :
    ∃ text, store.operandText i.operand = .ok text ∧
      Carries text (store.loadedString? i).toList := by
  rcases hlistable.operand with ⟨hloads, token, hoperand⟩ | ⟨hother, hplain⟩
  · obtain ⟨value?, hvalue⟩ := hheap (Handle.ofToken token).rid
    have hloaded : store.loadedString? i = value? := by
      rw [loadedString?, if_pos hloads, hoperand]
      show (store.userStrings (Handle.ofToken token).rid).toOption.join = value?
      rw [hvalue]
      rfl
    rw [hoperand, operandText, stringText, hvalue, hloaded]
    cases value? with
    | none => exact ⟨_, rfl, .plain (Handle.unquoted_text _)⟩
    | some value => exact ⟨_, rfl, .quote value⟩
  · obtain ⟨text, hwritten, hunquoted⟩ := operandText_of_plain hnames hfields hplain
    rw [loadedString?, if_neg hother]
    exact ⟨text, hwritten, .plain hunquoted⟩

/-- A string load is neither left out nor replaced. -/
theorem localSlot?_of_load {i : Instruction} (hloads : i.mnemonic = lit "ldstr") :
    i.localSlot? (lit "stloc") = none := by
  have hapart : Text.after? (lit "stloc") (lit "ldstr") = none := by decide
  rw [Instruction.localSlot?, Instruction.localSlot, hloads, hapart]
  rfl

/-- The line of an instruction, or its absence, carries the string that it
loads. -/
theorem instructionLine_carries (hnames : store.NamesUnquoted) (hfields : store.FieldsUnquoted)
    (hheap : store.HeapOfTexts) (dead : List Int) (base : Int) {i : Instruction}
    (hlistable : i.Listable) :
    (store.instructionLine options dead base i = .ok none ∧ store.loadedString? i = none) ∨
    ∃ line, store.instructionLine options dead base i = .ok (some line) ∧
      Carries line (store.loadedString? i).toList := by
  have hstart : Unquoted (indent ++ lit "IL_" ++ Text.hexInt 4 (i.offset - base) ++ lit ": ") := by
    simp only [unquoted_append_iff, Text.unquoted_hexInt, and_true]
    decide
  simp only [instructionLine]
  split
  · next hskipped =>
    refine .inl ⟨rfl, ?_⟩
    have hnop : i.mnemonic = lit "nop" := by
      simp only [Bool.and_eq_true, decide_eq_true_eq] at hskipped
      exact hskipped.2
    rw [loadedString?, hnop, if_neg (by decide)]
  · split
    · next hdropped =>
      refine .inr ⟨_, rfl, ?_⟩
      have hother : i.mnemonic ≠ lit "ldstr" := by
        intro hloads
        rw [localSlot?_of_load hloads] at hdropped
        cases hdropped
      rw [loadedString?, if_neg hother]
      exact .plain (unquoted_append_iff.mpr ⟨hstart, by decide⟩)
    · obtain ⟨text, hwritten, hcarries⟩ := operandText_carries hnames hfields hheap hlistable
      refine .inr ⟨_, by rw [hwritten]; rfl, ?_⟩
      have hfront : Carries (indent ++ lit "IL_" ++ Text.hexInt 4 (i.offset - base) ++ lit ": " ++
          i.mnemonic) [] :=
        .plain (unquoted_append_iff.mpr ⟨hstart, hlistable.mnemonic⟩)
      have hrest : Carries (if text.isEmpty then [] else lit " " ++ text)
          (store.loadedString? i).toList := by
        split
        · next hempty =>
          rw [List.isEmpty_iff] at hempty
          rwa [hempty] at hcarries
        · have hblank : Carries (lit " ") [] := .plain (by decide)
          exact hblank.append hcarries
      exact hfront.append hrest

theorem instructionLines_carry (hnames : store.NamesUnquoted) (hfields : store.FieldsUnquoted)
    (hheap : store.HeapOfTexts) (dead : List Int) (base : Int) {instructions : List Instruction}
    (hlistable : ∀ i ∈ instructions, i.Listable) :
    ∃ lines valuess, instructions.mapM (store.instructionLine options dead base) = .ok lines ∧
      List.Forall₂ Carries (lines.filterMap id) valuess ∧
      valuess.flatten = instructions.filterMap store.loadedString? := by
  induction instructions with
  | nil => exact ⟨[], [], rfl, .nil, rfl⟩
  | cons i instructions ih =>
    obtain ⟨hfirst, hothers⟩ := List.forall_mem_cons.mp hlistable
    obtain ⟨lines, valuess, hlines, hcarry, hvalues⟩ := ih hothers
    rw [List.mapM_cons, hlines]
    rcases instructionLine_carries hnames hfields hheap dead base hfirst with
      ⟨hline, hloaded⟩ | ⟨line, hline, hcarries⟩
    · rw [hline]
      refine ⟨none :: lines, valuess, rfl, hcarry, ?_⟩
      rw [List.filterMap_cons_none hloaded]
      exact hvalues
    · rw [hline]
      refine ⟨some line :: lines, _ :: valuess, rfl, .cons hcarries hcarry, ?_⟩
      rw [List.flatten_cons, hvalues]
      cases hloaded : store.loadedString? i with
      | none => rw [List.filterMap_cons_none hloaded]; rfl
      | some value => rw [List.filterMap_cons_some hloaded]; rfl

/-! ### Listings -/

theorem listing_of_noBody {method : MethodDef} {h : Handle}
    (hfound : store.methodDefs.get? h = some method) (habsent : method.hasBody = false)
    (body? : Option Body) :
    store.listing options h body? =
      .ok (joinLines options [store.listingHeader method, indent ++ lit "// no IL body"]) := by
  rw [listing, methodDef, hfound]
  show (if method.hasBody then _ else _) = _
  rw [habsent]
  rfl

theorem listing_of_body {method : MethodDef} {h : Handle}
    (hfound : store.methodDefs.get? h = some method) (hpresent : method.hasBody = true)
    (body : Body) :
    store.listing options h (some body) = (do
      let lines ← (store.bodyLines options body).mapError ListingError.userString
      return joinLines options
        (store.listingHeader method :: lit "\x7b" :: lines ++ [lit "\x7d"])) := by
  rw [listing, methodDef, hfound]
  show (if method.hasBody then _ else _) = _
  rw [if_pos hpresent]
  rfl

theorem joinLines_carries (options : ListingOptions) {lines : List Text}
    {valuess : List (List Text)}
    (hcarry : List.Forall₂ Carries lines valuess) :
    Carries (joinLines options lines) valuess.flatten := by
  unfold joinLines
  split
  · refine Carries.join (by decide) ?_
    rw [List.forall₂_map_left_iff]
    exact hcarry.imp fun line values hcarries => hcarries.trim
  · exact Carries.join (by decide) hcarry

/-- The listing of a decoded body carries the strings that it loads. -/
theorem listing_carries (hnames : store.NamesUnquoted) (hfields : store.FieldsUnquoted)
    (hheap : store.HeapOfTexts) {method : MethodDef}
    (hfound : store.methodDefs.get? method.handle = some method) {body : Body}
    (hdecoded : store.readBody? method = some body) (options : ListingOptions) :
    ∃ text, store.listing options method.handle (some body) = .ok text ∧
      Carries text (store.loadedStrings body) := by
  obtain ⟨hpresent, hdecodes⟩ := readBody?_eq_some_iff.mp hdecoded
  obtain ⟨lines, valuess, hlines, hcarry, hvalues⟩ :=
    instructionLines_carry hnames hfields hheap
      (if options.removeDeadStores then Instruction.deadSlots body.instructions else [])
      (body.offset + body.headerSize) (Body.instructions_listable hdecodes)
  have hbody : store.bodyLines options body = .ok (lines.filterMap id) := by
    rw [bodyLines, hlines]
    rfl
  have hheader : Carries (store.listingHeader method) [] :=
    .plain (hnames.listingHeader (OrderedMap.mem_values_of_get? hfound))
  have hopening : Carries (lit "\x7b") [] := .plain (by decide)
  have hclosing : Carries (lit "\x7d") [] := .plain (by decide)
  have hall : List.Forall₂ Carries
      (store.listingHeader method :: lit "\x7b" :: lines.filterMap id ++ [lit "\x7d"])
      ([] :: [] :: valuess ++ [[]]) :=
    List.rel_append (.cons hheader (.cons hopening hcarry)) (.cons hclosing .nil)
  refine ⟨joinLines options
    (store.listingHeader method :: lit "\x7b" :: lines.filterMap id ++ [lit "\x7d"]), ?_, ?_⟩
  · rw [listing_of_body hfound hpresent, hbody]
    rfl
  · have hcarries := joinLines_carries options hall
    simp only [List.cons_append, List.flatten_cons, List.nil_append, List.flatten_append,
      List.flatten_nil, List.append_nil, hvalues] at hcarries
    exact hcarries

/-- A method without body is listed without literals. -/
theorem listing_of_bodiless (hnames : store.NamesUnquoted) {method : MethodDef}
    (hfound : store.methodDefs.get? method.handle = some method)
    (habsent : method.hasBody = false) (body? : Option Body) :
    ∃ text, store.listing options method.handle body? = .ok text ∧ Carries text [] := by
  have hheader : Carries (store.listingHeader method) [] :=
    .plain (hnames.listingHeader (OrderedMap.mem_values_of_get? hfound))
  have hremark : Carries (indent ++ lit "// no IL body") [] := .plain (by decide)
  exact ⟨_, listing_of_noBody hfound habsent body?,
    joinLines_carries options (.cons hheader (.cons hremark .nil))⟩

theorem literalsReadable (hnames : store.NamesUnquoted) (hfields : store.FieldsUnquoted)
    (hheap : store.HeapOfTexts) {method : MethodDef}
    (hfound : store.methodDefs.get? method.handle = some method) (listing : ListingOptions) :
    store.LiteralsReadable listing method := by
  intro hdecodes text hlists
  have hcarried : ∃ values, Carries text values := by
    cases hpresent : method.hasBody with
    | false =>
      obtain ⟨text', hlists', hcarries⟩ := listing_of_bodiless hnames hfound hpresent _
      cases hlists.symm.trans hlists'
      exact ⟨_, hcarries⟩
    | true =>
      obtain ⟨body, hdecoded⟩ := Option.isSome_iff_exists.mp (hdecodes hpresent)
      obtain ⟨text', hlists', hcarries⟩ :=
        listing_carries hnames hfields hheap hfound hdecoded listing
      rw [hdecoded] at hlists
      cases hlists.symm.trans hlists'
      exact ⟨_, hcarries⟩
  obtain ⟨values, hcarries⟩ := hcarried
  exact (literals_ok_iff text).mp ⟨values, hcarries.literals_eq⟩

theorem reportedSource_of_decoded (hnames : store.NamesUnquoted) (hfields : store.FieldsUnquoted)
    (hheap : store.HeapOfTexts) {method : MethodDef}
    (hfound : store.methodDefs.get? method.handle = some method) {body : Body}
    (hdecoded : store.readBody? method = some body) (listing : ListingOptions) :
    ∃ source, reportedSource (store.lister listing) method (some body) =
      .ok (source, store.loadedStrings body) := by
  obtain ⟨text, hlists, hcarries⟩ := listing_carries hnames hfields hheap hfound hdecoded listing
  refine ⟨text, ?_⟩
  have hasked : (store.lister listing).listing method.handle (some body) = .ok text := hlists
  have hhanded : ¬ (method.hasBody && (some body).isNone) = true := by simp
  rw [reportedSource, if_neg hhanded, hasked]
  simp only [hcarries.literals_eq]
  rfl

/-- **The string literals of a method are the strings that it loads.**  Where no
name has a quote, every entry of a report for a method whose body decodes shows
the user strings of its string loads, in order and with repetitions, under all
options of the listing; and no string can keep the report from being made. -/
theorem stringLiterals_eq_loadedStrings (hkeyed : store.Keyed) (hnames : store.NamesUnquoted)
    (hfields : store.FieldsUnquoted) (hheap : store.HeapOfTexts) (listing : ListingOptions)
    (options : AnalysisOptions) :
    (∀ report, store.analyze (store.lister listing) options = .ok report →
      List.Forall₂
        (fun method reported => reported.handle = method.handle ∧
          ∀ body, store.readBody? method = some body →
            reported.stringLiterals = store.loadedStrings body)
        (store.visited options) report.methods) ∧
    (store.OwnersDefined → ∃ report,
      store.analyze (store.lister listing) options = .ok report) := by
  constructor
  · intro report hanalyzed
    obtain ⟨scanned, -, -, hentries⟩ := reports_of_analyze hkeyed hanalyzed
    have hstored := (List.forall₂_and_left _ _).mpr
      ⟨fun method hmember => get?_of_mem_visited hkeyed hmember, hentries⟩
    refine hstored.imp ?_
    rintro method reported ⟨hfound, hshown⟩
    obtain ⟨_, _, _, _, literals, -, -, hlisted, rfl⟩ := hshown.parts
    refine ⟨rfl, fun body hdecoded => ?_⟩
    obtain ⟨source, hcomputed⟩ :=
      reportedSource_of_decoded hnames hfields hheap hfound hdecoded listing
    rw [hdecoded, hcomputed] at hlisted
    exact (congrArg Prod.snd (Except.ok.inj hlisted)).symm
  · intro howners
    refine (store.analyze_returnsIff listing options hkeyed howners).exists_ok_iff.mpr ?_
    intro method hmember
    exact literalsReadable hnames hfields hheap (get?_of_mem_visited hkeyed hmember) listing

/-! ### Two stores -/

/-- A string with a quote, a backslash, a line feed and a zero. -/
def awkwardText : Text :=
  lit "a\"b\\c\n\x00"

/-- A string that looks like an escape with an open literal behind it. -/
def escapeLikeText : Text :=
  lit "\\u0041\""

/-- The strings of the store below, at the first two places of its heap. -/
def awkwardHeap (offset : Int) : Option Text :=
  if offset = 1 then some awkwardText else if offset = 2 then some escapeLikeText else none

/-- A method that loads the first string, the second one into a variable that is
never read, one that is missing, and the first one again. -/
def awkwardStrings : Store :=
  { typeWith [bareMethod 1 (lit "M") 1]
      #[0x00, 0x6A, 0x00, 0x72, 0x01, 0x00, 0x00, 0x70, 0x26, 0x72, 0x02, 0x00, 0x00, 0x70, 0x0A,
        0x72, 0x09, 0x00, 0x00, 0x70, 0x26, 0x72, 0x01, 0x00, 0x00, 0x70, 0x26, 0x2A] with
    userStrings := fun offset => .ok (awkwardHeap offset) }

theorem awkwardStrings_reported :
    awkwardStrings.Keyed ∧ awkwardStrings.NamesUnquoted ∧ awkwardStrings.FieldsUnquoted ∧
      awkwardStrings.HeapOfTexts ∧ awkwardStrings.OwnersDefined ∧ ∃ report reported,
      awkwardStrings.analyze (awkwardStrings.lister ⟨true, true, true⟩) unnamedAnalysis =
        .ok report ∧
      report.methods = [reported] ∧
      reported.stringLiterals = [awkwardText, escapeLikeText, awkwardText] := by
  have hkeyed : awkwardStrings.Keyed := by constructor <;> decide
  have hnames : awkwardStrings.NamesUnquoted := by constructor <;> decide
  have hfields : awkwardStrings.FieldsUnquoted := by decide
  have hheap : awkwardStrings.HeapOfTexts := fun offset => ⟨awkwardHeap offset, rfl⟩
  have howners : awkwardStrings.OwnersDefined := by decide
  have hload : (awkwardStrings.readBody? (bareMethod 1 (lit "M") 1)).map
      awkwardStrings.loadedStrings = some [awkwardText, escapeLikeText, awkwardText] := by
    decide +kernel
  obtain ⟨hentries, hreturns⟩ :=
    stringLiterals_eq_loadedStrings hkeyed hnames hfields hheap ⟨true, true, true⟩ unnamedAnalysis
  obtain ⟨report, hanalyzed⟩ := hreturns howners
  obtain ⟨reported, rest, ⟨-, hshown⟩, hlast, hmethods⟩ :=
    List.forall₂_cons_left_iff.mp (hentries report hanalyzed)
  cases hlast
  obtain ⟨body, hdecoded, hloads⟩ := Option.map_eq_some_iff.mp hload
  refine ⟨hkeyed, hnames, hfields, hheap, howners, report, reported, hanalyzed, hmethods, ?_⟩
  rw [hshown body hdecoded, hloads]

/-- A method that loads a field whose name has quotes in it. -/
def quotedField : Store :=
  { typeWith [{ bareMethod 1 (lit "M") 1 with signature := [0x00, 0x00, 0x01] }]
      #[0x00, 0x1A, 0x7B, 0x01, 0x00, 0x00, 0x0A, 0x2A] with
    memberRefs := OrderedMap.ofList
      [(⟨TableNumber.memberRef, 1⟩, ⟨⟨TableNumber.memberRef, 1⟩, some ⟨TableNumber.typeDef, 1⟩,
        lit "a\"b\"c", [0x06, 0x08]⟩)] }

/-- The names of types and methods are not enough: one of a field can bring a
literal into a listing that loads no string. -/
theorem quotedField_adds_literal :
    quotedField.Keyed ∧ quotedField.OwnersDefined ∧ quotedField.NamesUnquoted ∧
      quotedField.HeapOfTexts ∧ ¬ quotedField.FieldsUnquoted ∧
      (quotedField.methodDefs.values.map fun method =>
        (quotedField.readBody? method).map quotedField.loadedStrings) = [some []] ∧
      ∃ report, quotedField.analyze (quotedField.lister .plain) unnamedAnalysis = .ok report ∧
        report.methods.map ReportedMethod.stringLiterals = [[lit "b"]] := by
  have hshown : (quotedField.analyze (quotedField.lister .plain) unnamedAnalysis).toOption.map
      (fun report => report.methods.map ReportedMethod.stringLiterals) = some [[lit "b"]] := by
    decide +kernel
  obtain ⟨report, hanalyzed⟩ : ∃ report,
      quotedField.analyze (quotedField.lister .plain) unnamedAnalysis = .ok report :=
    Outcome.exists_of_isOk (by decide +kernel)
  rw [hanalyzed] at hshown
  exact ⟨by constructor <;> decide, by decide, by constructor <;> decide,
    fun _ => ⟨none, rfl⟩, by decide, by decide +kernel, report, hanalyzed, Option.some.inj hshown⟩

end Store
end CilAtlas
