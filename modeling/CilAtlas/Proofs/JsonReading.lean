import CilAtlas.Json.Reader
import CilAtlas.Json.Writer
import CilAtlas.Proofs.Numerals
import CilAtlas.Proofs.Outcomes
import CilAtlas.Proofs.StoreRows
import Mathlib.Tactic.IntervalCases

/-!
# Documents that are read back

How a document may be laid out, as rules that mention no reader: strings and
numbers as they are written, commas and colons between them, and any blanks
around items and values.  Every text that the rules give a document is read as
that document.  The rules have no numbers with fractions, and the fields of an
object have different names.
-/

namespace CilAtlas
namespace Json

/-! ### The layout of documents -/

/-- Nothing but blanks. -/
def Blank (t : Text) : Prop :=
  ∀ c ∈ t, isSpace c = true

/-- Elements with commas between them up to a closing mark. -/
inductive LaidElements {α : Type} (closing : CodePoint) (element : α → Text → Prop) :
    List α → Text → Prop
  | last {a : α} {t blanks : Text} (hfirst : element a t) (hblank : Blank blanks) :
      LaidElements closing element [a] (t ++ (blanks ++ [closing]))
  | more {a : α} {t blanks lead : Text} {others : List α} {ts : Text} (hfirst : element a t)
      (hblank : Blank blanks) (hblank' : Blank lead)
      (hfollowing : LaidElements closing element others ts) :
      LaidElements closing element (a :: others) (t ++ (blanks ++ (lit "," ++ (lead ++ ts))))

/-- A name, a colon and a value. -/
inductive LaidField (item : Json → Text → Prop) : Text × Json → Text → Prop
  | intro (name : Text) {v : Json} {t between : Text} (hblank : Blank between) (hvalue : item v t) :
      LaidField item (name, v) (quoted escapePretty name ++ (lit ":" ++ (between ++ t)))

/-- The text lays out the document. -/
inductive LaidOut : Json → Text → Prop
  | null : LaidOut null (lit "null")
  | yes : LaidOut (bool true) (lit "true")
  | no : LaidOut (bool false) (lit "false")
  | int {n : Int} (hfits : (Text.ofNat n.natAbs).length ≤ NumeralError.digitLimit) :
      LaidOut (int n) (Text.ofInt n)
  | text (s : Text) : LaidOut (text s) (quoted escapePretty s)
  | emptyList : LaidOut (list []) (lit "[]")
  | list {items : List Json} {lead t : Text} (hblank : Blank lead)
      (hinside : LaidElements (CodePoint.ofChar ']') LaidOut items t) :
      LaidOut (list items) (lit "[" ++ (lead ++ t))
  | emptyObject : LaidOut (object []) (lit "\x7b\x7d")
  | object {fields : List (Text × Json)} {lead t : Text} (hblank : Blank lead)
      (hdistinct : (fields.map (·.1)).Nodup)
      (hinside : LaidElements (CodePoint.ofChar '}') (LaidField LaidOut) fields t) :
      LaidOut (object fields) (lit "\x7b" ++ (lead ++ t))

/-! ### Blanks -/

theorem isSpace_cases {c : CodePoint} (hspace : isSpace c = true) :
    c = CodePoint.ofChar ' ' ∨ c = CodePoint.ofChar '\t' ∨ c = CodePoint.ofChar '\n' ∨
      c = CodePoint.ofChar '\r' := by
  simp only [isSpace, Bool.or_eq_true, decide_eq_true_eq, or_assoc] at hspace
  simp only [← CodePoint.toNat_inj]
  exact hspace

theorem skipSpace_append {blanks : Text} (hblank : Blank blanks) (t : Text) :
    skipSpace (blanks ++ t) = skipSpace t := by
  induction blanks with
  | nil => rfl
  | cons c blanks ih =>
    have hfirst : isSpace c = true := hblank c List.mem_cons_self
    rw [List.cons_append, skipSpace, List.dropWhile_cons_of_pos hfirst]
    exact ih fun c' hmember => hblank c' (List.mem_cons_of_mem c hmember)

theorem skipSpace_cons {c : CodePoint} (hsolid : isSpace c = false) (t : Text) :
    skipSpace (c :: t) = c :: t :=
  List.dropWhile_cons_of_neg (by simp [hsolid])

/-- Behind this no digit, point or exponent goes on with a number. -/
structure Stops (rest : Text) : Prop where
  digits : digitRun rest = ([], rest)
  fraction : fraction? rest = none
  exponent : exponent? rest = none

theorem stops_nil : Stops [] :=
  ⟨rfl, rfl, rfl⟩

theorem stops_comma (rest : Text) : Stops (lit "," ++ rest) :=
  ⟨rfl, rfl, rfl⟩

theorem Stops.blanks {rest blanks : Text} (hstops : Stops rest) (hblank : Blank blanks) :
    Stops (blanks ++ rest) := by
  cases blanks with
  | nil => exact hstops
  | cons c blanks =>
    rcases isSpace_cases (hblank c List.mem_cons_self) with rfl | rfl | rfl | rfl
    · exact ⟨rfl, rfl, rfl⟩
    · exact ⟨rfl, rfl, rfl⟩
    · exact ⟨rfl, rfl, rfl⟩
    · exact ⟨rfl, rfl, rfl⟩

/-! ### Strings -/

/-- A code point has a short escape that stands for it, or it has none and is
neither a quote nor a backslash. -/
theorem shortEscape?_cases (c : CodePoint) :
    (shortEscape? c = none ∧ c ≠ CodePoint.ofChar '"' ∧ c ≠ CodePoint.ofChar '\\') ∨
    ∃ letter : Char, shortEscape? c = some [CodePoint.ofChar '\\', CodePoint.ofChar letter] ∧
      CodePoint.ofChar letter ≠ CodePoint.ofChar 'u' ∧
      escapeOf? (CodePoint.ofChar letter) = some c := by
  cases hfound : shortEscape? c with
  | none =>
    refine .inl ⟨rfl, ?_, ?_⟩
    · rintro rfl
      cases hfound
    · rintro rfl
      cases hfound
  | some t =>
    obtain ⟨entry, hentry, rfl⟩ := Option.map_eq_some_iff.mp hfound
    have hlisted := List.mem_of_find?_eq_some hentry
    have hstands : CodePoint.ofChar entry.1 = c := by simpa using List.find?_some hentry
    have hletters : ∀ entry ∈ ([('"', "\\\""), ('\\', "\\\\"), ('\n', "\\n"), ('\r', "\\r"),
        ('\t', "\\t"), ('\x08', "\\b"), ('\x0c', "\\f")] : List (Char × String)),
        ∃ letter : Char, lit entry.2 = [CodePoint.ofChar '\\', CodePoint.ofChar letter] ∧
          CodePoint.ofChar letter ≠ CodePoint.ofChar 'u' ∧
          escapeOf? (CodePoint.ofChar letter) = some (CodePoint.ofChar entry.1) := by
      simp only [List.forall_mem_cons, List.not_mem_nil, false_implies, implies_true, and_true]
      exact ⟨⟨'"', by decide⟩, ⟨'\\', by decide⟩, ⟨'n', by decide⟩, ⟨'r', by decide⟩,
        ⟨'t', by decide⟩, ⟨'b', by decide⟩, ⟨'f', by decide⟩⟩
    obtain ⟨letter, hwritten, hplain, hreads⟩ := hletters entry hlisted
    rw [hwritten, ← hstands]
    exact .inr ⟨letter, rfl, hplain, hreads⟩

theorem hexValue?_digitSignLower {d : Nat} (hsmall : d < 16) :
    (Text.digitSignLower d).hexValue? = some d := by
  interval_cases d <;> rfl

theorem hexQuad?_hexQuad {n : Nat} (hsmall : n < 0x10000) (rest : Text) :
    hexQuad? (hexQuad n ++ rest) = some (n, rest) := by
  have hvalue :
      ((n / 0x1000 % 16 * 16 + n / 0x100 % 16) * 16 + n / 0x10 % 16) * 16 + n % 16 = n := by
    omega
  simp only [hexQuad, List.map_cons, List.map_nil, List.cons_append, List.nil_append, hexQuad?,
    hexValue?_digitSignLower (Nat.mod_lt _ (by omega : 16 > 0)), Option.bind_eq_bind,
    Option.bind_some, Option.pure_def, hvalue]

theorem unicodeEscape?_hexQuad {c : CodePoint} (hcontrol : c.toNat < 0x20) (rest : Text) :
    unicodeEscape? (hexQuad c.toNat ++ rest) = some (c, rest) := by
  have hpoint : CodePoint.ofNat? c.toNat = some c := dif_pos c.isLt
  have hsingle : ¬ (0xD800 ≤ c.toNat ∧ c.toNat ≤ 0xDBFF) := by omega
  rw [unicodeEscape?, hexQuad?_hexQuad (by omega)]
  simp only [Option.bind_eq_bind, Option.bind_some, hpoint, if_neg hsingle, Option.pure_def]

/-- One step of the reader takes back what stands for one code point. -/
theorem stringBody?_escape (fuel : Nat) (c : CodePoint) (tail : Text) :
    stringBody? (fuel + 1) (escapePretty c ++ tail) =
      (stringBody? fuel tail).map fun found => (c :: found.1, found.2) := by
  have htogether (found : Option (Text × Text)) :
      (found.bind fun x => some (c :: x.1, x.2)) = found.map fun x => (c :: x.1, x.2) := by
    cases found <;> rfl
  have hnoQuote : CodePoint.ofChar '\\' ≠ CodePoint.ofChar '"' := by decide
  rcases shortEscape?_cases c with ⟨hlong, hnotQuote, hnotMark⟩ | ⟨letter, hshort, hplain, hreads⟩
  · rw [escapePretty, hlong]
    by_cases hcontrol : c.toNat < 0x20
    · simp only [if_pos hcontrol]
      show stringBody? (fuel + 1)
        (CodePoint.ofChar '\\' :: CodePoint.ofChar 'u' :: (hexQuad c.toNat ++ tail)) = _
      rw [stringBody?, if_neg hnoQuote, if_pos rfl]
      simp only [if_pos, unicodeEscape?_hexQuad hcontrol, Option.bind_eq_bind, Option.bind_some,
        Option.pure_def]
      exact htogether _
    · simp only [if_neg hcontrol, List.singleton_append]
      rw [stringBody?.eq_def]
      simp only [if_neg hnotQuote, if_neg hnotMark, if_neg hcontrol]
      exact htogether _
  · rw [escapePretty, hshort]
    show stringBody? (fuel + 1) (CodePoint.ofChar '\\' :: CodePoint.ofChar letter :: tail) = _
    rw [stringBody?, if_neg hnoQuote, if_pos rfl]
    simp only [if_neg hplain, hreads, Option.bind_eq_bind, Option.bind_some, Option.pure_def]
    exact htogether _

theorem stringBody?_quoted (s rest : Text) {fuel : Nat} (henough : s.length < fuel) :
    stringBody? fuel (s.flatMap escapePretty ++ (lit "\"" ++ rest)) = some (s, rest) := by
  induction s generalizing fuel with
  | nil =>
    obtain ⟨fuel, rfl⟩ := Nat.exists_eq_succ_of_ne_zero (Nat.ne_of_gt henough)
    rfl
  | cons c s ih =>
    obtain ⟨fuel, rfl⟩ := Nat.exists_eq_succ_of_ne_zero (Nat.ne_of_gt (Nat.zero_lt_of_lt henough))
    rw [List.flatMap_cons, List.append_assoc, stringBody?_escape,
      ih (Nat.lt_of_succ_lt_succ henough)]
    rfl

theorem escapePretty_ne_nil (c : CodePoint) : escapePretty c ≠ [] := by
  rcases shortEscape?_cases c with ⟨hlong, -⟩ | ⟨letter, hshort, -⟩
  · rw [escapePretty, hlong]
    dsimp only
    split
    · exact List.cons_ne_nil _ _
    · exact List.cons_ne_nil _ _
  · rw [escapePretty, hshort]
    exact List.cons_ne_nil _ _

theorem length_le_flatMap_escapePretty (s : Text) : s.length ≤ (s.flatMap escapePretty).length := by
  induction s with
  | nil => exact Nat.le_refl _
  | cons c s ih =>
    have hfirst := List.length_pos_of_ne_nil (escapePretty_ne_nil c)
    rw [List.flatMap_cons, List.length_append, List.length_cons]
    omega

/-- A string is read up to its closing quote. -/
theorem string_quoted (s rest : Text) :
    string (s.flatMap escapePretty ++ (lit "\"" ++ rest)) = .ok (s, rest) := by
  have hlonger := length_le_flatMap_escapePretty s
  rw [string, stringBody?_quoted s rest (by rw [List.length_append]; omega)]
  rfl

theorem quoted_append (s rest : Text) :
    quoted escapePretty s ++ rest =
      CodePoint.ofChar '"' :: (s.flatMap escapePretty ++ (lit "\"" ++ rest)) := by
  rw [quoted, List.append_assoc, List.append_assoc]
  rfl

/-! ### Numbers -/

theorem digitRun_append {ds : List Nat} (hsmall : ∀ d ∈ ds, d < 10) {rest : Text}
    (hstops : Stops rest) : digitRun (ds.map Text.digitSign ++ rest) = (ds, rest) := by
  induction ds with
  | nil => exact hstops.digits
  | cons d ds ih =>
    have hvalue : digitValue? (Text.digitSign d) = some d := by
      have hfirst := hsmall d List.mem_cons_self
      interval_cases d <;> rfl
    rw [List.map_cons, List.cons_append, digitRun, hvalue]
    simp only [ih fun d' hmember => hsmall d' (List.mem_cons_of_mem d hmember)]

theorem wholeNumber_digits (negative : Bool) {n : Nat}
    (hfits : (Text.ofNat n).length ≤ NumeralError.digitLimit) :
    wholeNumber negative (Text.digits 10 n) = .ok (int (if negative then -(n : Int) else n)) := by
  have hvalue : decimalNumber (Text.digits 10 n) = n := Text.digitsValue_digits 10 n
  rw [Text.ofNat, List.length_map] at hfits
  rw [wholeNumber, if_neg (Nat.not_lt.mpr hfits), hvalue]

/-- A number is read up to where no digit follows; only zero starts with a zero. -/
theorem unsignedNumber_ofNat (negative : Bool) {n : Nat} {rest : Text}
    (hfits : (Text.ofNat n).length ≤ NumeralError.digitLimit) (hstops : Stops rest) :
    unsignedNumber negative (Text.ofNat n ++ rest) =
      .ok (int (if negative then -(n : Int) else n), rest) := by
  have hrun : digitRun (Text.ofNat n ++ rest) = (Text.digits 10 n, rest) :=
    digitRun_append (Text.digits_lt (by omega)) hstops
  have hwhole := wholeNumber_digits negative hfits
  obtain ⟨d, ds, hdigits⟩ := List.exists_cons_of_ne_nil (Text.digits_ne_nil 10 n)
  rw [unsignedNumber, hrun, hdigits]
  simp only
  by_cases hzero : d = 0
  · have hn : n = 0 := Text.eq_zero_of_digits (by omega) (hzero ▸ hdigits)
    subst hn
    have hrest : (Text.ofNat 0 ++ rest).drop 1 = rest := rfl
    simp only [if_pos hzero, hrest, hstops.fraction, hstops.exponent]
    exact congrArg (Except.map _) hwhole
  · rw [hdigits] at hwhole
    simp only [if_neg hzero, hstops.fraction, hstops.exponent, hwhole]
    rfl

theorem exists_digitSign_ofNat (n : Nat) :
    ∃ d t, d < 10 ∧ Text.ofNat n = Text.digitSign d :: t := by
  obtain ⟨d, ds, hdigits⟩ := List.exists_cons_of_ne_nil (Text.digits_ne_nil 10 n)
  refine ⟨d, ds.map Text.digitSign, Text.digits_lt (by omega) d (hdigits ▸ List.mem_cons_self), ?_⟩
  rw [Text.ofNat, hdigits]
  rfl

/-- A text that starts with a digit is a number. -/
theorem valueStep_digit (inner : Step Json) {d : Nat} (hsmall : d < 10) (t : Text) :
    valueStep inner (Text.digitSign d :: t) = unsignedNumber false (Text.digitSign d :: t) := by
  interval_cases d <;> rfl

theorem valueStep_minus (inner : Step Json) {d : Nat} (hsmall : d < 10) (t : Text) :
    valueStep inner (CodePoint.ofChar '-' :: Text.digitSign d :: t) =
      unsignedNumber true (Text.digitSign d :: t) := by
  interval_cases d <;> rfl

theorem valueStep_ofInt (inner : Step Json) {n : Int} {rest : Text}
    (hfits : (Text.ofNat n.natAbs).length ≤ NumeralError.digitLimit) (hstops : Stops rest) :
    valueStep inner (Text.ofInt n ++ rest) = .ok (int n, rest) := by
  obtain ⟨d, t, hsmall, hnumber⟩ := exists_digitSign_ofNat n.natAbs
  cases n with
  | ofNat n =>
    have hread := unsignedNumber_ofNat false hfits hstops
    rw [hnumber] at hread
    show valueStep inner (Text.ofNat n ++ rest) = _
    rw [show Text.ofNat n = Text.digitSign d :: t from hnumber, List.cons_append,
      valueStep_digit inner hsmall]
    exact hread
  | negSucc n =>
    have hread := unsignedNumber_ofNat true hfits hstops
    rw [hnumber] at hread
    show valueStep inner (CodePoint.ofChar '-' :: (Text.ofNat (n + 1) ++ rest)) = _
    rw [show Text.ofNat (n + 1) = Text.digitSign d :: t from hnumber, List.cons_append,
      valueStep_minus inner hsmall]
    exact hread

/-! ### Elements -/

/-- A value starts with no blank and no closing bracket. -/
theorem LaidOut.exists_head {v : Json} {t : Text} (hlaid : LaidOut v t) :
    ∃ c t', t = c :: t' ∧ isSpace c = false ∧ c ≠ CodePoint.ofChar ']' := by
  cases hlaid with
  | null => exact ⟨_, _, rfl, by decide, by decide⟩
  | yes => exact ⟨_, _, rfl, by decide, by decide⟩
  | no => exact ⟨_, _, rfl, by decide, by decide⟩
  | @int n hfits =>
    cases n with
    | ofNat n =>
      obtain ⟨d, t, hsmall, hnumber⟩ := exists_digitSign_ofNat n
      refine ⟨_, t, hnumber, ?_, ?_⟩
      · interval_cases d <;> rfl
      · interval_cases d <;> decide
    | negSucc n => exact ⟨_, _, rfl, by decide, by decide⟩
  | text s => exact ⟨_, _, rfl, by decide, by decide⟩
  | emptyList => exact ⟨_, _, rfl, by decide, by decide⟩
  | list hblank hinside => exact ⟨_, _, rfl, by decide, by decide⟩
  | emptyObject => exact ⟨_, _, rfl, by decide, by decide⟩
  | object hblank hdistinct hinside => exact ⟨_, _, rfl, by decide, by decide⟩

theorem LaidField.exists_head {item : Json → Text → Prop} {f : Text × Json} {t : Text}
    (hlaid : LaidField item f t) :
    ∃ c t', t = c :: t' ∧ isSpace c = false ∧ c ≠ CodePoint.ofChar '}' := by
  cases hlaid with
  | intro name hblank hvalue => exact ⟨_, _, quoted_append name _, by decide, by decide⟩

section Elements

variable {α : Type} {closing : CodePoint} {element : α → Text → Prop} {limit : Nat} {step : Step α}

/-- Elements start as the first of them does. -/
theorem LaidElements.exists_head {elements : List α} {t : Text}
    (hheads : ∀ a t, element a t → ∃ c t', t = c :: t' ∧ isSpace c = false ∧ c ≠ closing)
    (hlaid : LaidElements closing element elements t) :
    ∃ c t', t = c :: t' ∧ isSpace c = false ∧ c ≠ closing := by
  cases hlaid with
  | last hfirst _ =>
    obtain ⟨c, t', rfl, hsolid⟩ := hheads _ _ hfirst
    exact ⟨c, _, rfl, hsolid⟩
  | more hfirst _ _ _ =>
    obtain ⟨c, t', rfl, hsolid⟩ := hheads _ _ hfirst
    exact ⟨c, _, rfl, hsolid⟩

/-- The step reads every element of bounded length, in front of anything that goes
on with no number. -/
def AcceptsWithin (element : α → Text → Prop) (limit : Nat) (step : Step α) : Prop :=
  ∀ a t, element a t → t.length ≤ limit → ∀ rest, Stops rest → step (t ++ rest) = .ok (a, rest)

/-- A mark that closes a list or an object. -/
def Closes (closing : CodePoint) : Prop :=
  closing = CodePoint.ofChar ']' ∨ closing = CodePoint.ofChar '}'

theorem Closes.stops (hcloses : Closes closing) (rest : Text) : Stops (closing :: rest) := by
  rcases hcloses with rfl | rfl
  · exact ⟨rfl, rfl, rfl⟩
  · exact ⟨rfl, rfl, rfl⟩

theorem Closes.solid (hcloses : Closes closing) : isSpace closing = false := by
  rcases hcloses with rfl | rfl
  · decide
  · decide

theorem Closes.ne_comma (hcloses : Closes closing) : CodePoint.ofChar ',' ≠ closing := by
  rcases hcloses with rfl | rfl
  · decide
  · decide

theorem elementsOf_last {t after rest : Text} {a : α} (hfirst : step t = .ok (a, after))
    (hclosed : skipSpace after = closing :: rest) (fuel : Nat) :
    elementsOf closing step (fuel + 1) t = .ok ([a], rest) := by
  rw [elementsOf, Outcome.bind_of_ok hfirst]
  simp only [hclosed, if_pos]
  rfl

theorem elementsOf_more {t after more rest : Text} {a : α} {others : List α} {fuel : Nat}
    (hcloses : Closes closing) (hfirst : step t = .ok (a, after))
    (hgoesOn : skipSpace after = CodePoint.ofChar ',' :: more)
    (hfollowing : elementsOf closing step fuel (skipSpace more) = .ok (others, rest)) :
    elementsOf closing step (fuel + 1) t = .ok (a :: others, rest) := by
  rw [elementsOf, Outcome.bind_of_ok hfirst]
  simp only [hgoesOn, if_neg hcloses.ne_comma, if_pos]
  exact Outcome.bind_of_ok hfollowing _

/-- Every element takes a code point at least, so as many steps as code points are
enough. -/
theorem elementsOf_accepts (hcloses : Closes closing)
    (hheads : ∀ a t, element a t → ∃ c t', t = c :: t' ∧ isSpace c = false ∧ c ≠ closing)
    (haccepts : AcceptsWithin element limit step) {elements : List α} {t : Text}
    (hlaid : LaidElements closing element elements t) (hshort : t.length ≤ limit) {fuel : Nat}
    (henough : t.length ≤ fuel) (rest : Text) :
    elementsOf closing step fuel (t ++ rest) = .ok (elements, rest) := by
  induction hlaid generalizing fuel with
  | @last a t blanks hfirst hblank =>
    simp only [List.length_append, List.length_singleton] at hshort henough
    obtain ⟨fuel, rfl⟩ : ∃ fuel', fuel = fuel' + 1 := Nat.exists_eq_add_of_le' (by omega)
    have hreads := haccepts a t hfirst (by omega) _ ((hcloses.stops rest).blanks hblank)
    simp only [List.append_assoc, List.singleton_append]
    exact elementsOf_last hreads
      ((skipSpace_append hblank _).trans (skipSpace_cons hcloses.solid _)) fuel
  | @more a t blanks lead others ts hfirst hblank hblank' hfollowing ih =>
    have hcomma : isSpace (CodePoint.ofChar ',') = false := by decide
    have hlength : (lit ",").length = 1 := rfl
    simp only [List.length_append, hlength] at hshort henough
    obtain ⟨fuel, rfl⟩ : ∃ fuel', fuel = fuel' + 1 := Nat.exists_eq_add_of_le' (by omega)
    have hreads :=
      haccepts a t hfirst (by omega) _ ((stops_comma (lead ++ (ts ++ rest))).blanks hblank)
    have hothers := ih (by omega) (by omega : ts.length ≤ fuel)
    obtain ⟨c, ts', rfl, hsolid, -⟩ := hfollowing.exists_head hheads
    simp only [List.append_assoc]
    refine elementsOf_more hcloses hreads
      ((skipSpace_append hblank _).trans (skipSpace_cons hcomma _)) ?_
    show elementsOf closing step fuel (skipSpace (lead ++ (c :: ts' ++ rest))) = _
    rw [skipSpace_append hblank', List.cons_append, skipSpace_cons hsolid]
    exact hothers

/-- What stands behind an opening mark: blanks, no closing mark, and the elements. -/
theorem elementsOf_opened (hcloses : Closes closing)
    (hheads : ∀ a t, element a t → ∃ c t', t = c :: t' ∧ isSpace c = false ∧ c ≠ closing)
    (haccepts : AcceptsWithin element limit step) {elements : List α} {lead t : Text}
    (hblank : Blank lead) (hlaid : LaidElements closing element elements t)
    (hshort : t.length ≤ limit) (rest : Text) :
    ∃ c t', skipSpace (lead ++ t ++ rest) = c :: t' ∧ c ≠ closing ∧
      elementsOf closing step ((lead ++ t ++ rest).length + 1) (c :: t') =
        .ok (elements, rest) := by
  have henough : t.length ≤ (lead ++ t ++ rest).length + 1 := by
    simp only [List.length_append]
    omega
  have hinside := elementsOf_accepts hcloses hheads haccepts hlaid hshort henough rest
  obtain ⟨c, t', rfl, hsolid, hnotClosing⟩ := hlaid.exists_head hheads
  refine ⟨c, t' ++ rest, ?_, hnotClosing, hinside⟩
  rw [List.append_assoc, skipSpace_append hblank, List.cons_append, skipSpace_cons hsolid]

end Elements

theorem fieldOf_accepts {limit : Nat} {value : Step Json}
    (haccepts : AcceptsWithin LaidOut limit value) :
    AcceptsWithin (LaidField LaidOut) limit (fieldOf value) := by
  rintro _ _ ⟨name, hblank, hfirst⟩ hshort rest hstops
  next v t between =>
  have hcolon : isSpace (CodePoint.ofChar ':') = false := by decide
  have hreads : value (skipSpace (between ++ (t ++ rest))) = .ok (v, rest) := by
    obtain ⟨c, t', rfl, hsolid, -⟩ := hfirst.exists_head
    simp only [List.length_append] at hshort
    rw [skipSpace_append hblank, List.cons_append, skipSpace_cons hsolid]
    exact haccepts v _ hfirst (by omega) rest hstops
  have hpasses : skipSpace (lit ":" ++ (between ++ (t ++ rest))) =
      CodePoint.ofChar ':' :: (between ++ (t ++ rest)) := skipSpace_cons hcolon _
  rw [List.append_assoc, quoted_append, fieldOf, if_pos rfl,
    Outcome.bind_of_ok (string_quoted name _)]
  simp only [List.append_assoc, hpasses, if_pos]
  exact Outcome.bind_of_ok hreads _

/-! ### Values -/

theorem putField_eq_put (name : Text) (v : Json) (fields : List (Text × Json)) :
    putField name v fields = OrderedMap.put name v fields := by
  induction fields with
  | nil => rfl
  | cons field fields ih => rw [putField, OrderedMap.put, ih]

/-- Fields with different names make an object of just these fields. -/
theorem ofFields_of_nodup {fields : List (Text × Json)} (hdistinct : (fields.map (·.1)).Nodup) :
    ofFields fields = object fields := by
  have hfolded (m : OrderedMap Text Json) (more : List (Text × Json)) :
      more.foldl (fun acc field => putField field.1 field.2 acc) m.entries =
        (m.insertAll more).entries := by
    induction more generalizing m with
    | nil => rfl
    | cons field more ih =>
      rw [List.foldl_cons, putField_eq_put]
      exact ih (m.insert field.1 field.2)
  exact congrArg object
    ((hfolded OrderedMap.empty fields).trans (OrderedMap.entries_ofList hdistinct))

theorem valueStep_bracket {inner : Step Json} {t t' rest : Text} {c : CodePoint} {items : List Json}
    (hopened : skipSpace t = c :: t') (hnotClosing : c ≠ CodePoint.ofChar ']')
    (hinside : elementsOf (CodePoint.ofChar ']') inner (t.length + 1) (c :: t') =
      .ok (items, rest)) :
    valueStep inner (CodePoint.ofChar '[' :: t) = .ok (list items, rest) := by
  have hnotQuote : CodePoint.ofChar '[' ≠ CodePoint.ofChar '"' := by decide
  rw [valueStep, if_neg hnotQuote, if_pos rfl]
  simp only [hopened, if_neg hnotClosing, hinside]
  rfl

theorem valueStep_brace {inner : Step Json} {t t' rest : Text} {c : CodePoint}
    {fields : List (Text × Json)} (hopened : skipSpace t = c :: t')
    (hnotClosing : c ≠ CodePoint.ofChar '}')
    (hinside : elementsOf (CodePoint.ofChar '}') (fieldOf inner) (t.length + 1) (c :: t') =
      .ok (fields, rest)) :
    valueStep inner (CodePoint.ofChar '{' :: t) = .ok (ofFields fields, rest) := by
  have hnotQuote : CodePoint.ofChar '{' ≠ CodePoint.ofChar '"' := by decide
  have hnotBracket : CodePoint.ofChar '{' ≠ CodePoint.ofChar '[' := by decide
  rw [valueStep, if_neg hnotQuote, if_neg hnotBracket, if_pos rfl]
  simp only [hopened, if_neg hnotClosing, hinside]
  rfl

/-- One level of a value reads what is laid out around values that the inner step
reads. -/
theorem valueStep_accepts {limit : Nat} {inner : Step Json}
    (haccepts : AcceptsWithin LaidOut limit inner) :
    AcceptsWithin LaidOut (limit + 1) (valueStep inner) := by
  intro v t hlaid hshort rest hstops
  cases hlaid with
  | null => rfl
  | yes => rfl
  | no => rfl
  | int hfits => exact valueStep_ofInt inner hfits hstops
  | text s =>
    rw [quoted_append, valueStep, if_pos rfl, string_quoted]
    rfl
  | emptyList => rfl
  | @list items lead t hblank hinside =>
    have hopening : (lit "[").length = 1 := rfl
    simp only [List.length_append, hopening] at hshort
    obtain ⟨c, t', hopened, hnotClosing, hreads⟩ := elementsOf_opened (.inl rfl)
      (fun _ _ => LaidOut.exists_head) haccepts hblank hinside (by omega) rest
    exact valueStep_bracket hopened hnotClosing hreads
  | emptyObject => rfl
  | @object fields lead t hblank hdistinct hinside =>
    have hopening : (lit "\x7b").length = 1 := rfl
    simp only [List.length_append, hopening] at hshort
    obtain ⟨c, t', hopened, hnotClosing, hreads⟩ := elementsOf_opened (.inr rfl)
      (fun _ _ => LaidField.exists_head) (fieldOf_accepts haccepts) hblank hinside (by omega) rest
    rw [← ofFields_of_nodup hdistinct]
    exact valueStep_brace hopened hnotClosing hreads

theorem valueUpTo_accepts (depth : Nat) : AcceptsWithin LaidOut depth (valueUpTo depth) := by
  induction depth with
  | zero =>
    intro v t hlaid hshort rest hstops
    obtain ⟨c, t', rfl, -⟩ := hlaid.exists_head
    cases hshort
  | succ depth ih => exact valueStep_accepts ih

/-- A text that lays out a document is read as that document. -/
theorem parse_of_laidOut {v : Json} {t : Text} (hlaid : LaidOut v t) : parse t = .ok v := by
  have hreads := valueUpTo_accepts (t.length + 1) v t hlaid (Nat.le_succ _) [] stops_nil
  have hstarts : skipSpace t = t := by
    obtain ⟨c, t', rfl, hsolid, -⟩ := hlaid.exists_head
    exact skipSpace_cons hsolid t'
  rw [List.append_nil] at hreads
  rw [parse, hstarts, Outcome.bind_of_ok hreads]
  rfl

end Json
end CilAtlas
