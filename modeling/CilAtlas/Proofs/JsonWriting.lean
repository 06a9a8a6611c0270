import CilAtlas.Proofs.JsonReading
import CilAtlas.Proofs.Utf8Encoding

/-!
# The pieces of a written document

A document is written in pieces, and a piece is missing where a number has too
many digits.  When none is missing, the pieces put together lay out the document,
so it is read back; and when its strings have no surrogates, neither have the
pieces.
-/

namespace CilAtlas
namespace Json

/-! ### The parts of a document -/

mutual

/-- A value with all values inside it. -/
def parts : Json → List Json
  | list items => list items :: partsOfItems items
  | object fields => object fields :: partsOfFields fields
  | value => [value]

/-- The parts of several items. -/
def partsOfItems : List Json → List Json
  | [] => []
  | item :: rest => item.parts ++ partsOfItems rest

/-- The parts of the values of several fields. -/
def partsOfFields : List (Text × Json) → List Json
  | [] => []
  | (_, value) :: rest => value.parts ++ partsOfFields rest

end

/-- Every part of the document is as asked. -/
def Throughout (asked : Json → Prop) (v : Json) : Prop :=
  ∀ part ∈ v.parts, asked part

instance (asked : Json → Prop) [DecidablePred asked] (v : Json) : Decidable (Throughout asked v) :=
  inferInstanceAs (Decidable (∀ part ∈ v.parts, asked part))

theorem mem_partsOfItems_iff {part : Json} {items : List Json} :
    part ∈ partsOfItems items ↔ ∃ item ∈ items, part ∈ item.parts := by
  induction items with
  | nil => simp [partsOfItems]
  | cons item rest ih => simp [partsOfItems, ih]

theorem mem_partsOfFields_iff {part : Json} {fields : List (Text × Json)} :
    part ∈ partsOfFields fields ↔ ∃ field ∈ fields, part ∈ field.2.parts := by
  induction fields with
  | nil => simp [partsOfFields]
  | cons field rest ih => simp [partsOfFields, ih]

theorem throughout_list_iff {asked : Json → Prop} {items : List Json} :
    Throughout asked (list items) ↔ asked (list items) ∧ ∀ item ∈ items, Throughout asked item := by
  simp only [Throughout, parts, List.forall_mem_cons, mem_partsOfItems_iff]
  constructor
  · rintro ⟨hwhole, hinside⟩
    exact ⟨hwhole, fun item hmember part hpart => hinside part ⟨item, hmember, hpart⟩⟩
  · rintro ⟨hwhole, hinside⟩
    exact ⟨hwhole, fun part ⟨item, hmember, hpart⟩ => hinside item hmember part hpart⟩

theorem throughout_object_iff {asked : Json → Prop} {fields : List (Text × Json)} :
    Throughout asked (object fields) ↔
      asked (object fields) ∧ ∀ field ∈ fields, Throughout asked field.2 := by
  simp only [Throughout, parts, List.forall_mem_cons, mem_partsOfFields_iff]
  constructor
  · rintro ⟨hwhole, hinside⟩
    exact ⟨hwhole, fun field hmember part hpart => hinside part ⟨field, hmember, hpart⟩⟩
  · rintro ⟨hwhole, hinside⟩
    exact ⟨hwhole, fun part ⟨field, hmember, hpart⟩ => hinside field hmember part hpart⟩

theorem Throughout.self {asked : Json → Prop} {v : Json} (h : Throughout asked v) : asked v := by
  refine h v ?_
  cases v with
  | list items => exact List.mem_cons_self
  | object fields => exact List.mem_cons_self
  | null => exact List.mem_singleton_self _
  | bool value => exact List.mem_singleton_self _
  | int value => exact List.mem_singleton_self _
  | real value => exact List.mem_singleton_self _
  | text value => exact List.mem_singleton_self _

/-- Induction over documents, with the items and the values of the fields as what
is inside. -/
@[elab_as_elim]
theorem inductInside {motive : Json → Prop} (null : motive null)
    (bool : ∀ value, motive (bool value)) (int : ∀ value, motive (int value))
    (real : ∀ value, motive (real value)) (text : ∀ value, motive (text value))
    (list : ∀ items, (∀ item ∈ items, motive item) → motive (list items))
    (object : ∀ fields : List (Text × Json), (∀ field ∈ fields, motive field.2) →
      motive (object fields)) (v : Json) : motive v :=
  @Json.rec motive (fun items => ∀ item ∈ items, motive item)
    (fun fields => ∀ field ∈ fields, motive field.2) (fun field => motive field.2)
    null bool int real text list object nofun
    (fun _ _ hfirst hothers => List.forall_mem_cons.mpr ⟨hfirst, hothers⟩) nofun
    (fun _ _ hfirst hothers => List.forall_mem_cons.mpr ⟨hfirst, hothers⟩)
    (fun _ _ hvalue => hvalue) v

/-! ### What can be written -/

/-- A number has no more digits than a numeral may have. -/
def Fits : Json → Prop
  | int n => (Text.ofNat n.natAbs).length ≤ NumeralError.digitLimit
  | _ => True

instance : DecidablePred Fits
  | null => inferInstanceAs (Decidable True)
  | bool _ => inferInstanceAs (Decidable True)
  | int n => inferInstanceAs (Decidable ((Text.ofNat n.natAbs).length ≤ NumeralError.digitLimit))
  | real _ => inferInstanceAs (Decidable True)
  | text _ => inferInstanceAs (Decidable True)
  | list _ => inferInstanceAs (Decidable True)
  | object _ => inferInstanceAs (Decidable True)

/-- A string, and every name of a field, is without surrogates. -/
def Encodable : Json → Prop
  | text s => s.Encodable
  | object fields => ∀ field ∈ fields, field.1.Encodable
  | _ => True

instance : DecidablePred Encodable
  | null => inferInstanceAs (Decidable True)
  | bool _ => inferInstanceAs (Decidable True)
  | int _ => inferInstanceAs (Decidable True)
  | real _ => inferInstanceAs (Decidable True)
  | text s => inferInstanceAs (Decidable s.Encodable)
  | list _ => inferInstanceAs (Decidable True)
  | object fields => inferInstanceAs (Decidable (∀ field ∈ fields, field.1.Encodable))

/-- No number has a fraction, and the fields of an object have different names. -/
def Tidy : Json → Prop
  | real _ => False
  | object fields => (fields.map (·.1)).Nodup
  | _ => True

theorem scalarPiece_int (n : Int) :
    scalarPiece (int n) = none ↔ ¬ Fits (int n) := by
  rw [scalarPiece, Fits, Nat.not_le]
  split
  · simp [*]
  · simp [*]

/-! ### Missing pieces -/

/-- The pieces of an item with what leads to it. -/
def ledPieces (level : Nat) (lead : Text) : Json → List (Option Text)
  | list items => some lead :: prettyPieces (level + 1) (list items)
  | object fields => some lead :: prettyPieces (level + 1) (object fields)
  | value => [(scalarPiece value).map (lead ++ ·)]

theorem prettyItems_cons (level : Nat) (lead : Text) (item : Json) (rest : List Json) :
    prettyItems level lead (item :: rest) =
      ledPieces level lead item ++ prettyItems level (lit "," ++ newLine (level + 1)) rest := by
  cases item <;> rfl

theorem prettyFields_cons (level : Nat) (field next : Text × Json) (rest : List (Text × Json)) :
    prettyFields level (field :: next :: rest) =
      some (quoted escapePretty field.1) :: some (lit ": ") :: prettyPieces (level + 1) field.2 ++
        some (lit "," ++ newLine (level + 1)) :: prettyFields level (next :: rest) :=
  rfl

theorem none_mem_ledPieces_iff (level : Nat) (lead : Text) (item : Json) :
    none ∈ ledPieces level lead item ↔ none ∈ prettyPieces (level + 1) item := by
  have hscalar (piece : Option Text) : none ∈ [piece.map (lead ++ ·)] ↔ none ∈ [piece] := by
    cases piece with
    | none => simp
    | some t => simp
  cases item with
  | null => exact hscalar _
  | bool value => exact hscalar _
  | int value => exact hscalar _
  | real value => exact hscalar _
  | text value => exact hscalar _
  | list items => simp [ledPieces]
  | object fields => simp [ledPieces]

theorem none_mem_prettyItems_iff {level : Nat} {lead : Text} {items : List Json} :
    none ∈ prettyItems level lead items ↔
      ∃ item ∈ items, none ∈ prettyPieces (level + 1) item := by
  induction items generalizing lead with
  | nil => simp [prettyItems]
  | cons item rest ih =>
    rw [prettyItems_cons, List.mem_append, none_mem_ledPieces_iff, ih, List.exists_mem_cons_iff]

theorem none_mem_prettyFields_iff {level : Nat} {fields : List (Text × Json)} :
    none ∈ prettyFields level fields ↔
      ∃ field ∈ fields, none ∈ prettyPieces (level + 1) field.2 := by
  induction fields with
  | nil => simp [prettyFields]
  | cons field rest ih =>
    cases rest with
    | nil => simp [prettyFields]
    | cons next rest =>
      rw [prettyFields_cons, List.exists_mem_cons_iff, ← ih]
      simp

theorem none_mem_prettyPieces_list_iff (level : Nat) (items : List Json) :
    none ∈ prettyPieces level (list items) ↔
      ∃ item ∈ items, none ∈ prettyPieces (level + 1) item := by
  cases items with
  | nil => simp [prettyPieces, scalarPiece]
  | cons item items =>
    have hwritten : prettyPieces level (list (item :: items)) =
        prettyItems level (lit "[" ++ newLine (level + 1)) (item :: items) ++
          [some (newLine level), some (lit "]")] := rfl
    rw [hwritten, List.mem_append, none_mem_prettyItems_iff]
    simp

theorem none_mem_prettyPieces_object_iff (level : Nat) (fields : List (Text × Json)) :
    none ∈ prettyPieces level (object fields) ↔
      ∃ field ∈ fields, none ∈ prettyPieces (level + 1) field.2 := by
  cases fields with
  | nil => simp [prettyPieces, scalarPiece]
  | cons field fields =>
    have hwritten : prettyPieces level (object (field :: fields)) =
        some (lit "\x7b") :: some (newLine (level + 1)) :: prettyFields level (field :: fields) ++
          [some (newLine level), some (lit "\x7d")] := rfl
    rw [hwritten, ← none_mem_prettyFields_iff]
    simp

/-- A piece is missing exactly when a number does not fit. -/
theorem none_notMem_prettyPieces_iff (v : Json) (level : Nat) :
    none ∉ prettyPieces level v ↔ Throughout Fits v := by
  induction v using inductInside generalizing level with
  | null => simp [prettyPieces, scalarPiece, Throughout, parts, Fits]
  | bool value => simp [prettyPieces, scalarPiece, Throughout, parts, Fits]
  | int n =>
    have hpiece : prettyPieces level (int n) = [scalarPiece (int n)] := rfl
    rw [hpiece, List.mem_singleton, eq_comm, scalarPiece_int, not_not]
    simp [Throughout, parts]
  | real value => simp [prettyPieces, scalarPiece, Throughout, parts, Fits]
  | text value => simp [prettyPieces, scalarPiece, Throughout, parts, Fits]
  | list items ih =>
    rw [none_mem_prettyPieces_list_iff, throughout_list_iff, not_exists]
    constructor
    · intro hpresent
      exact ⟨trivial, fun item hmember =>
        (ih item hmember (level + 1)).mp fun hmissing => hpresent item ⟨hmember, hmissing⟩⟩
    · rintro ⟨-, hfit⟩ item ⟨hmember, hmissing⟩
      exact (ih item hmember (level + 1)).mpr (hfit item hmember) hmissing
  | object fields ih =>
    rw [none_mem_prettyPieces_object_iff, throughout_object_iff, not_exists]
    constructor
    · intro hpresent
      exact ⟨trivial, fun field hmember =>
        (ih field hmember (level + 1)).mp fun hmissing => hpresent field ⟨hmember, hmissing⟩⟩
    · rintro ⟨-, hfit⟩ field ⟨hmember, hmissing⟩
      exact (ih field hmember (level + 1)).mpr (hfit field hmember) hmissing

/-! ### Texts without surrogates -/

section Encodable

theorem encodable_append_iff {s t : Text} :
    Text.Encodable (s ++ t) ↔ s.Encodable ∧ t.Encodable :=
  List.forall_mem_append

theorem encodable_ofChar (c : Char) : (CodePoint.ofChar c).isSurrogate = false := by
  have hvalid : c.toNat < 0xD800 ∨ 0xDFFF < c.toNat := c.valid.imp id And.left
  rw [CodePoint.isSurrogate, Bool.and_eq_false_iff, decide_eq_false_iff_not,
    decide_eq_false_iff_not]
  show ¬ 0xD800 ≤ c.toNat ∨ ¬ c.toNat ≤ 0xDFFF
  omega

theorem encodable_lit (s : String) : (lit s).Encodable := by
  intro c hmember
  obtain ⟨char, -, rfl⟩ := List.mem_map.mp hmember
  exact encodable_ofChar char

theorem encodable_newLine (level : Nat) : (newLine level).Encodable := by
  intro c hmember
  rcases List.mem_cons.mp hmember with rfl | hblank
  · exact encodable_ofChar '\n'
  · rw [List.eq_of_mem_replicate hblank]
    exact encodable_ofChar ' '

/-- Code points below the surrogates. -/
theorem encodable_of_small {t : Text} (hsmall : ∀ c ∈ t, c.toNat < 0xD800) : t.Encodable := by
  intro c hmember
  have hbound := hsmall c hmember
  rw [CodePoint.isSurrogate, Bool.and_eq_false_iff, decide_eq_false_iff_not]
  exact .inl (by omega)

theorem encodable_ofNat (n : Nat) : (Text.ofNat n).Encodable := by
  refine encodable_of_small fun c hmember => ?_
  obtain ⟨d, -, rfl⟩ := List.mem_map.mp hmember
  unfold Text.digitSign
  split
  · show 0x30 + d % 10 < 0xD800
    omega
  · show 0x41 + (d - 10) % 6 < 0xD800
    omega

theorem encodable_ofInt (n : Int) : (Text.ofInt n).Encodable := by
  cases n with
  | ofNat n => exact encodable_ofNat n
  | negSucc n => exact encodable_append_iff.mpr ⟨encodable_lit "-", encodable_ofNat (n + 1)⟩

theorem encodable_hexQuad (n : Nat) : (hexQuad n).Encodable := by
  refine encodable_of_small fun c hmember => ?_
  obtain ⟨d, -, rfl⟩ := List.mem_map.mp hmember
  unfold Text.digitSignLower
  split
  · show 0x30 + d % 10 < 0xD800
    omega
  · show 0x61 + (d - 10) % 6 < 0xD800
    omega

theorem encodable_escapePretty {c : CodePoint} (hscalar : c.isSurrogate = false) :
    (escapePretty c).Encodable := by
  rcases shortEscape?_cases c with ⟨hlong, -⟩ | ⟨letter, hshort, -⟩
  · rw [escapePretty, hlong]
    dsimp only
    split
    · exact encodable_append_iff.mpr ⟨encodable_lit _, encodable_hexQuad _⟩
    · exact List.forall_mem_singleton.mpr hscalar
  · rw [escapePretty, hshort]
    exact List.forall_mem_cons.mpr
      ⟨encodable_ofChar '\\', List.forall_mem_singleton.mpr (encodable_ofChar letter)⟩

theorem encodable_quoted {s : Text} (hencodable : s.Encodable) :
    (quoted escapePretty s).Encodable := by
  have hinside : Text.Encodable (s.flatMap escapePretty) := by
    intro c hmember
    obtain ⟨c', hlisted, hwritten⟩ := List.mem_flatMap.mp hmember
    exact encodable_escapePretty (hencodable c' hlisted) c hwritten
  exact encodable_append_iff.mpr
    ⟨encodable_append_iff.mpr ⟨encodable_lit _, hinside⟩, encodable_lit _⟩

end Encodable

/-! ### The pieces put together -/

/-- The text of the pieces that are there. -/
def textOf (pieces : List (Option Text)) : Text :=
  (pieces.filterMap id).flatten

@[simp] theorem textOf_nil : textOf [] = [] :=
  rfl

@[simp] theorem textOf_cons_some (piece : Text) (pieces : List (Option Text)) :
    textOf (some piece :: pieces) = piece ++ textOf pieces :=
  rfl

@[simp] theorem textOf_append (front back : List (Option Text)) :
    textOf (front ++ back) = textOf front ++ textOf back := by
  rw [textOf, List.filterMap_append, List.flatten_append]
  rfl

theorem blank_newLine (level : Nat) : Blank (newLine level) := by
  intro c hmember
  rcases List.mem_cons.mp hmember with rfl | hblank
  · decide
  · rw [List.eq_of_mem_replicate hblank]
    decide

/-- The text lays out the document and can be encoded. -/
structure Lays (v : Json) (t : Text) : Prop where
  laidOut : LaidOut v t
  encodable : t.Encodable

theorem textOf_ledPieces (level : Nat) (lead : Text) {item : Json} (hfits : Fits item) :
    textOf (ledPieces level lead item) = lead ++ textOf (prettyPieces (level + 1) item) := by
  have hscalar (piece : Text) :
      textOf [(some piece).map (lead ++ ·)] = lead ++ textOf [some piece] := by
    simp
  cases item with
  | null => exact hscalar _
  | bool value => exact hscalar _
  | int n =>
    have hpiece : scalarPiece (int n) = some (Text.ofInt n) := if_neg (Nat.not_lt.mpr hfits)
    show textOf [(scalarPiece (int n)).map (lead ++ ·)] = lead ++ textOf [scalarPiece (int n)]
    rw [hpiece]
    exact hscalar _
  | real value => exact hscalar _
  | text value => exact hscalar _
  | list items => rfl
  | object fields => rfl

/-- The items of a list behind what leads to them, up to the closing bracket. -/
theorem exists_laid_items (level : Nat) (lead : Text) {item : Json} {items : List Json}
    (hfit : ∀ item' ∈ item :: items, Fits item')
    (heach : ∀ item' ∈ item :: items, Lays item' (textOf (prettyPieces (level + 1) item'))) :
    ∃ t, textOf (prettyItems level lead (item :: items)) = lead ++ t ∧ t.Encodable ∧
      LaidElements (CodePoint.ofChar ']') LaidOut (item :: items)
        (t ++ (newLine level ++ lit "]")) := by
  induction items generalizing lead item with
  | nil =>
    have hfirst := heach item List.mem_cons_self
    refine ⟨_, ?_, hfirst.encodable, .last hfirst.laidOut (blank_newLine level)⟩
    rw [prettyItems_cons, textOf_append, textOf_ledPieces level lead (hfit item List.mem_cons_self)]
    simp [prettyItems]
  | cons next items ih =>
    have hfirst := heach item List.mem_cons_self
    obtain ⟨t, hwritten, hencodable, hfollowing⟩ := ih (lit "," ++ newLine (level + 1))
      (fun item' hmember => hfit item' (List.mem_cons_of_mem item hmember))
      (fun item' hmember => heach item' (List.mem_cons_of_mem item hmember))
    have hbetween := encodable_append_iff.mpr ⟨encodable_lit ",", encodable_newLine (level + 1)⟩
    refine ⟨textOf (prettyPieces (level + 1) item) ++
      (lit "," ++ newLine (level + 1) ++ t), ?_, ?_, ?_⟩
    · rw [prettyItems_cons, textOf_append,
        textOf_ledPieces level lead (hfit item List.mem_cons_self),
        hwritten, List.append_assoc]
    · exact encodable_append_iff.mpr
        ⟨hfirst.encodable, encodable_append_iff.mpr ⟨hbetween, hencodable⟩⟩
    · have hmore := LaidElements.more hfirst.laidOut (nofun : Blank [])
        (blank_newLine (level + 1)) hfollowing
      simpa only [List.append_assoc, List.nil_append] using hmore

/-- The fields of an object, up to the closing brace. -/
theorem laid_fields (level : Nat) {field : Text × Json} {fields : List (Text × Json)}
    (hnames : ∀ field' ∈ field :: fields, field'.1.Encodable)
    (heach : ∀ field' ∈ field :: fields,
      Lays field'.2 (textOf (prettyPieces (level + 1) field'.2))) :
    Text.Encodable (textOf (prettyFields level (field :: fields))) ∧
      LaidElements (CodePoint.ofChar '}') (LaidField LaidOut) (field :: fields)
        (textOf (prettyFields level (field :: fields)) ++ (newLine level ++ lit "\x7d")) := by
  have hsingle (field' : Text × Json) (hmember : field' ∈ field :: fields) :
      Text.Encodable (quoted escapePretty field'.1 ++
          (lit ": " ++ textOf (prettyPieces (level + 1) field'.2))) ∧
        LaidField LaidOut field' (quoted escapePretty field'.1 ++
          (lit ": " ++ textOf (prettyPieces (level + 1) field'.2))) := by
    have hvalue := heach field' hmember
    have hname := encodable_quoted (hnames field' hmember)
    have hblank : Blank (lit " ") := List.forall_mem_singleton.mpr (by decide)
    exact ⟨encodable_append_iff.mpr ⟨hname, encodable_append_iff.mpr
      ⟨encodable_lit ": ", hvalue.encodable⟩⟩, LaidField.intro field'.1 hblank hvalue.laidOut⟩
  induction fields generalizing field with
  | nil =>
    obtain ⟨hencodable, hlaid⟩ := hsingle field List.mem_cons_self
    exact ⟨hencodable, LaidElements.last hlaid (blank_newLine level)⟩
  | cons next fields ih =>
    obtain ⟨hencodable, hlaid⟩ := hsingle field List.mem_cons_self
    obtain ⟨hothers, hfollowing⟩ := ih
      (fun field' hmember => hnames field' (List.mem_cons_of_mem field hmember))
      (fun field' hmember => heach field' (List.mem_cons_of_mem field hmember))
      (fun field' hmember => hsingle field' (List.mem_cons_of_mem field hmember))
    have hbetween := encodable_append_iff.mpr ⟨encodable_lit ",", encodable_newLine (level + 1)⟩
    have hwritten : textOf (prettyFields level (field :: next :: fields)) =
        quoted escapePretty field.1 ++ (lit ": " ++ textOf (prettyPieces (level + 1) field.2)) ++
          (lit "," ++ newLine (level + 1) ++ textOf (prettyFields level (next :: fields))) := by
      rw [prettyFields_cons]
      simp
    rw [hwritten]
    constructor
    · exact encodable_append_iff.mpr ⟨hencodable, encodable_append_iff.mpr ⟨hbetween, hothers⟩⟩
    · have hmore :=
        LaidElements.more hlaid (nofun : Blank []) (blank_newLine (level + 1)) hfollowing
      simpa only [List.append_assoc, List.nil_append] using hmore

/-- The pieces of a document lay it out: strings, names and numbers are as the
writer needs them. -/
theorem lays_prettyPieces {v : Json} (htidy : Throughout Tidy v) (hfit : Throughout Fits v)
    (hencodable : Throughout Encodable v) (level : Nat) :
    Lays v (textOf (prettyPieces level v)) := by
  induction v using inductInside generalizing level with
  | null => exact ⟨.null, encodable_lit "null"⟩
  | bool value =>
    cases value with
    | false => exact ⟨.no, encodable_lit "false"⟩
    | true => exact ⟨.yes, encodable_lit "true"⟩
  | int n =>
    have hfits : Fits (int n) := hfit.self
    have hwritten : textOf (prettyPieces level (int n)) = Text.ofInt n := by
      have hpiece : scalarPiece (int n) = some (Text.ofInt n) := if_neg (Nat.not_lt.mpr hfits)
      show textOf [scalarPiece (int n)] = _
      rw [hpiece]
      simp
    rw [hwritten]
    exact ⟨.int hfits, encodable_ofInt n⟩
  | real value => exact absurd htidy.self id
  | text s =>
    have hwritten : textOf (prettyPieces level (text s)) = quoted escapePretty s :=
      List.append_nil _
    rw [hwritten]
    exact ⟨.text s, encodable_quoted hencodable.self⟩
  | list items ih =>
    obtain ⟨-, htidyInside⟩ := throughout_list_iff.mp htidy
    obtain ⟨-, hfitInside⟩ := throughout_list_iff.mp hfit
    obtain ⟨-, hencodableInside⟩ := throughout_list_iff.mp hencodable
    cases items with
    | nil => exact ⟨.emptyList, encodable_lit "[]"⟩
    | cons item items =>
      obtain ⟨t, hwritten, hclean, hlaid⟩ :=
        exists_laid_items level (lit "[" ++ newLine (level + 1))
        (fun item' hmember => (hfitInside item' hmember).self)
        fun item' hmember => ih item' hmember (htidyInside item' hmember) (hfitInside item' hmember)
          (hencodableInside item' hmember) (level + 1)
      have hwhole : textOf (prettyPieces level (list (item :: items))) =
          lit "[" ++ (newLine (level + 1) ++ (t ++ (newLine level ++ lit "]"))) := by
        show textOf (prettyItems level _ (item :: items) ++ _) = _
        rw [textOf_append, hwritten]
        simp
      rw [hwhole]
      refine ⟨.list (blank_newLine (level + 1)) hlaid, ?_⟩
      simp only [encodable_append_iff]
      exact ⟨encodable_lit "[", encodable_newLine _, hclean, encodable_newLine _, encodable_lit "]"⟩
  | object fields ih =>
    obtain ⟨hdistinct, htidyInside⟩ := throughout_object_iff.mp htidy
    obtain ⟨-, hfitInside⟩ := throughout_object_iff.mp hfit
    obtain ⟨hnames, hencodableInside⟩ := throughout_object_iff.mp hencodable
    cases fields with
    | nil => exact ⟨.emptyObject, encodable_lit "\x7b\x7d"⟩
    | cons field fields =>
      obtain ⟨hclean, hlaid⟩ := laid_fields level hnames fun field' hmember =>
        ih field' hmember (htidyInside field' hmember) (hfitInside field' hmember)
          (hencodableInside field' hmember) (level + 1)
      have hwhole : textOf (prettyPieces level (object (field :: fields))) =
          lit "\x7b" ++ (newLine (level + 1) ++ (textOf (prettyFields level (field :: fields)) ++
            (newLine level ++ lit "\x7d"))) := by
        show textOf (some _ :: some _ :: prettyFields level (field :: fields) ++ _) = _
        simp
      rw [hwhole]
      refine ⟨.object (blank_newLine (level + 1)) hdistinct hlaid, ?_⟩
      simp only [encodable_append_iff]
      exact ⟨encodable_lit "\x7b", encodable_newLine _, hclean, encodable_newLine _,
        encodable_lit "\x7d"⟩

end Json
end CilAtlas
