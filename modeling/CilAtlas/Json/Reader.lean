import CilAtlas.Json.Basic
import CilAtlas.Text.Integer
import CilAtlas.Text.Utf8

/-!
# Reading documents

A reader for JSON texts.  Beyond the standard grammar it takes the words `NaN`,
`Infinity` and `-Infinity` for numbers.  An escaped high surrogate followed by
an escaped low one is one code point; any other escaped surrogate is kept.  A
field that is given twice has its last value, in the first place.  A whole
number that is too long is refused where it stands, whatever follows it.
-/

namespace CilAtlas
namespace Json

/-- Why a text is no document. -/
inductive ReadError where
  | malformed
  | numeral (error : NumeralError)
deriving DecidableEq

/-- A step that takes a value off the front of a text. -/
abbrev Step (α : Type) := Text → Except ReadError (α × Text)

/-- What a text must hold at its front. -/
def orMalformed {α : Type} : Option α → Except ReadError α
  | some found => .ok found
  | none => .error .malformed

/-- Blanks between tokens. -/
def isSpace (c : CodePoint) : Bool :=
  c.toNat = 0x20 || c.toNat = 0x09 || c.toNat = 0x0A || c.toNat = 0x0D

/-- Passes over blanks. -/
def skipSpace (t : Text) : Text :=
  t.dropWhile isSpace

/-- The value of a decimal digit. -/
def digitValue? (c : CodePoint) : Option Nat :=
  if 0x30 ≤ c.toNat ∧ c.toNat ≤ 0x39 then some (c.toNat - 0x30) else none

/-- The run of decimal digits at the front. -/
def digitRun : Text → List Nat × Text
  | [] => ([], [])
  | c :: rest =>
    match digitValue? c with
    | some d => let (ds, after) := digitRun rest; (d :: ds, after)
    | none => ([], c :: rest)

/-- The number that decimal digits write. -/
def decimalNumber (ds : List Nat) : Nat :=
  ds.foldl (fun n d => n * 10 + d) 0

/-- Four hexadecimal digits. -/
def hexQuad? : Text → Option (Nat × Text)
  | a :: b :: c :: d :: rest => do
    let a ← a.hexValue?
    let b ← b.hexValue?
    let c ← c.hexValue?
    let d ← d.hexValue?
    return (((a * 16 + b) * 16 + c) * 16 + d, rest)
  | _ => none

/-- What a single letter after a backslash stands for. -/
def escapeOf? (c : CodePoint) : Option CodePoint :=
  (([('"', '"'), ('\\', '\\'), ('/', '/'), ('b', '\x08'), ('f', '\x0c'), ('n', '\n'),
    ('r', '\r'), ('t', '\t')] : List (Char × Char)).find?
      (fun entry => CodePoint.ofChar entry.1 = c)).map fun entry => CodePoint.ofChar entry.2

/-- The code point of an escaped number, paired with a following low surrogate
when it is a high one. -/
def unicodeEscape? (rest : Text) : Option (CodePoint × Text) := do
  let (unit, rest) ← hexQuad? rest
  let single := (← CodePoint.ofNat? unit, rest)
  if 0xD800 ≤ unit ∧ unit ≤ 0xDBFF then
    match Text.after? (lit "\\u") rest with
    | some more =>
      match hexQuad? more with
      | some (next, after) =>
        if 0xDC00 ≤ next ∧ next ≤ 0xDFFF then
          let point ← CodePoint.ofNat? (0x10000 + (unit - 0xD800) * 0x400 + (next - 0xDC00))
          return (point, after)
        else return single
      | none => return single
    | none => return single
  else return single

/-- The inside of a string and what follows its closing quote, in at most `fuel`
code points or escapes. -/
def stringBody? : (fuel : Nat) → Text → Option (Text × Text)
  | 0, _ => none
  | _ + 1, [] => none
  | fuel + 1, c :: rest =>
    if c = CodePoint.ofChar '"' then some ([], rest)
    else if c = CodePoint.ofChar '\\' then
      match rest with
      | [] => none
      | letter :: tail =>
        if letter = CodePoint.ofChar 'u' then do
          let (point, after) ← unicodeEscape? tail
          let (body, after) ← stringBody? fuel after
          return (point :: body, after)
        else do
          let point ← escapeOf? letter
          let (body, after) ← stringBody? fuel tail
          return (point :: body, after)
    else if c.toNat < 0x20 then none
    else do
      let (body, after) ← stringBody? fuel rest
      return (c :: body, after)

/-- A string, its opening quote already passed. -/
def string : Step Text := fun t =>
  orMalformed (stringBody? (t.length + 1) t)

/-- The digits after a point, if a point and a digit follow. -/
def fraction? (t : Text) : Option (List Nat × Text) :=
  match t with
  | c :: rest =>
    if c = CodePoint.ofChar '.' then
      match digitRun rest with
      | ([], _) => none
      | (ds, after) => some (ds, after)
    else none
  | [] => none

/-- A decimal exponent, if one follows. -/
def exponent? (t : Text) : Option (Int × Text) :=
  match t with
  | c :: rest =>
    if c = CodePoint.ofChar 'e' ∨ c = CodePoint.ofChar 'E' then
      let (negative, rest) : Bool × Text :=
        match rest with
        | s :: tail =>
          if s = CodePoint.ofChar '-' then (true, tail)
          else if s = CodePoint.ofChar '+' then (false, tail)
          else (false, rest)
        | [] => (false, [])
      match digitRun rest with
      | ([], _) => none
      | (ds, after) =>
        let n : Int := decimalNumber ds
        some (if negative then -n else n, after)
    else none
  | [] => none

/-- A whole number from its digits. -/
def wholeNumber (negative : Bool) (ds : List Nat) : Except ReadError Json :=
  if ds.length > NumeralError.digitLimit then .error (.numeral (.tooLong ds.length))
  else
    let n : Int := decimalNumber ds
    .ok (int (if negative then -n else n))

/-- A number after its sign. -/
def unsignedNumber (negative : Bool) : Step Json := fun t =>
  match digitRun t with
  | ([], _) => .error .malformed
  | (d :: ds, after) =>
    -- a number that starts with zero ends there
    let (whole, after) := if d = 0 then ([0], t.drop 1) else (d :: ds, after)
    match fraction? after, exponent? after with
    | none, none => (wholeNumber negative whole).map fun n => (n, after)
    | none, some (e, after) =>
      .ok (real (Double.ofDecimal negative (decimalNumber whole) e), after)
    | some (ds, after), _ =>
      let significand := decimalNumber (whole ++ ds)
      match exponent? after with
      | none => .ok (real (Double.ofDecimal negative significand (-(ds.length : Int))), after)
      | some (e, after) =>
        .ok (real (Double.ofDecimal negative significand (e - ds.length)), after)

/-- The words that are values, with their values. -/
def words : List (String × Json) :=
  [("null", null), ("true", bool true), ("false", bool false),
    ("NaN", real (Double.ofFields false 0x7FF (Nat.pow 2 51))),
    ("Infinity", real (Double.ofFields false 0x7FF 0)),
    ("-Infinity", real (Double.ofFields true 0x7FF 0))]

/-- One of the words, or a number. -/
def scalar : Step Json := fun t =>
  match words.findSome? fun w => (Text.after? (lit w.1) t).map fun rest => (w.2, rest) with
  | some found => .ok found
  | none =>
    match t with
    | c :: rest =>
      if c = CodePoint.ofChar '-' then unsignedNumber true rest else unsignedNumber false t
    | [] => .error .malformed

/-- Elements with commas between them up to a closing mark, in at most `fuel`
elements. -/
def elementsOf {α : Type} (closing : CodePoint) (element : Step α) : (fuel : Nat) → Step (List α)
  | 0, _ => .error .malformed
  | fuel + 1, t => do
    let (first, rest) ← element t
    match skipSpace rest with
    | c :: after =>
      if c = closing then return ([first], after)
      else if c = CodePoint.ofChar ',' then
        let (others, rest) ← elementsOf closing element fuel (skipSpace after)
        return (first :: others, rest)
      else throw .malformed
    | [] => throw .malformed

/-- A name, a colon and a value. -/
def fieldOf (value : Step Json) : Step (Text × Json)
  | c :: rest => do
    if c = CodePoint.ofChar '"' then
      let (name, rest) ← string rest
      match skipSpace rest with
      | c :: after =>
        if c = CodePoint.ofChar ':' then
          let (v, rest) ← value (skipSpace after)
          return ((name, v), rest)
        else throw .malformed
      | [] => throw .malformed
    else throw .malformed
  | [] => .error .malformed

/-- An object from its fields, a repeated one keeping its first place and its
last value. -/
def ofFields (fields : List (Text × Json)) : Json :=
  object (fields.foldl (fun acc field => putField field.1 field.2 acc) [])

/-- One level of a value, the values inside read by `inner`. -/
def valueStep (inner : Step Json) : Step Json
  | [] => .error .malformed
  | c :: rest =>
    if c = CodePoint.ofChar '"' then
      (string rest).map fun found => (text found.1, found.2)
    else if c = CodePoint.ofChar '[' then
      match skipSpace rest with
      | d :: after =>
        if d = CodePoint.ofChar ']' then .ok (list [], after)
        else (elementsOf (CodePoint.ofChar ']') inner (rest.length + 1) (d :: after)).map
          fun found => (list found.1, found.2)
      | [] => .error .malformed
    else if c = CodePoint.ofChar '{' then
      match skipSpace rest with
      | d :: after =>
        if d = CodePoint.ofChar '}' then .ok (object [], after)
        else (elementsOf (CodePoint.ofChar '}') (fieldOf inner) (rest.length + 1) (d :: after)).map
          fun found => (ofFields found.1, found.2)
      | [] => .error .malformed
    else scalar (c :: rest)

/-- A value of at most `depth` levels. -/
def valueUpTo : (depth : Nat) → Step Json
  | 0 => fun _ => .error .malformed
  | depth + 1 => valueStep (valueUpTo depth)

/-- The document that a text holds. -/
def parse (t : Text) : Except ReadError Json := do
  let (value, rest) ← valueUpTo (t.length + 1) (skipSpace t)
  if (skipSpace rest).isEmpty then return value else throw .malformed

end Json
end CilAtlas
