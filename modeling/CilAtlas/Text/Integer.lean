import CilAtlas.Text.Blank
import CilAtlas.Text.Digit
import CilAtlas.Text.Shown

/-!
# Reading integers

An integer is written as decimal digits of any script, with a sign in front if
wanted and single underscores between digits.  Blanks may stand around it.  A
numeral has a greatest length, leading zeroes included.
-/

namespace CilAtlas

/-- Why a text is no integer, or an integer has no text. -/
inductive NumeralError where
  /-- The text, as a message shows it. -/
  | invalid (shown : Text)
  | tooLong (count : Nat)
  | tooLarge
deriving DecidableEq

namespace NumeralError

/-- How many digits a numeral may have. -/
def digitLimit : Nat := 4300

/-- How much of a text a message shows. -/
def shownLimit : Nat := 200

/-- The wording of each error. -/
def message : NumeralError → Text
  | invalid shown =>
    lit "invalid literal for int() with base 10: " ++ shown.take shownLimit
  | tooLong count =>
    lit "Exceeds the limit (" ++ Text.ofNat digitLimit ++
      lit " digits) for integer string conversion: value has " ++ Text.ofNat count ++
      lit " digits; use sys.set_int_max_str_digits() to increase the limit"
  | tooLarge =>
    lit "Exceeds the limit (" ++ Text.ofNat digitLimit ++
      lit " digits) for integer string conversion; use sys.set_int_max_str_digits() " ++
      lit "to increase the limit"

end NumeralError

/-- A blank that may stand around a numeral: the information separators do not
count. -/
def CodePoint.isNumeralBlank (c : CodePoint) : Bool :=
  c.isBlank && !(0x1C ≤ c.toNat && c.toNat ≤ 0x1F)

namespace Text

/-- The decimal digits at the start, single underscores between them left out,
and what follows them.  An underscore that no digit follows spoils them. -/
def digitRun : Text → Option (List Nat × Text)
  | [] => some ([], [])
  | c :: rest =>
    match c.decimal? with
    | some d => (digitRun rest).map fun (ds, after) => (d :: ds, after)
    | none =>
      if c = CodePoint.ofChar '_' then
        match rest with
        | [] => none
        | next :: later =>
          match next.decimal? with
          | some d => (digitRun later).map fun (ds, after) => (d :: ds, after)
          | none => none
      else some ([], c :: rest)

/-- The number that digits write, most significant first. -/
def ofDigits (ds : List Nat) : Nat :=
  ds.foldl (fun n d => n * 10 + d) 0

/-- The sign in front of a numeral, `true` when it is a minus, and what follows
it. -/
def signOf : Text → Bool × Text
  | [] => (false, [])
  | c :: rest =>
    if c = CodePoint.ofChar '-' then (true, rest)
    else if c = CodePoint.ofChar '+' then (false, rest)
    else (false, c :: rest)

/-- The integer that a text writes; `shown` is the text as a message shows it. -/
def readInteger (shown t : Text) : Except NumeralError Int :=
  let (negative, digits) := signOf (t.dropWhile CodePoint.isNumeralBlank)
  match digits with
  | [] => .error (.invalid shown)
  | first :: _ =>
    match (if first.decimal?.isSome then digitRun digits else none) with
    | none => .error (.invalid shown)
    | some (ds, after) =>
      if ds.length > NumeralError.digitLimit then .error (.tooLong ds.length)
      else if after.all CodePoint.isNumeralBlank then
        .ok (if negative then -(ofDigits ds : Int) else ofDigits ds)
      else .error (.invalid shown)

/-- The integer that a text writes. -/
def integer (t : Text) : Except NumeralError Int :=
  readInteger t.shown t

end Text
end CilAtlas
