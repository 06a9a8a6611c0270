import CilAtlas.Decimal.Double
import CilAtlas.Text.Numeral

/-!
# The shortest decimal of a number

Among the decimals that read back as a given binary number, the ones with the
fewest digits are sought, and of those the nearest.  For each digit count the
two neighbours of the number on that decimal grid are tried in exact
arithmetic; seventeen digits are always enough.  A `Layout` then says how the
digits are written.
-/

namespace CilAtlas
namespace Decimal

/-- The number `significand * 10 ^ exponent`. -/
structure Scientific where
  significand : Nat
  exponent : Int
deriving DecidableEq

/-- Exact comparison of `d * 10 ^ k` with `n * 2 ^ e`. -/
def compare (d : Nat) (k : Int) (n : Nat) (e : Int) : Ordering :=
  Ord.compare (d * Nat.pow 10 k.toNat * Nat.pow 2 (-e).toNat)
    (n * Nat.pow 2 e.toNat * Nat.pow 10 (-k).toNat)

/-- The whole part of `n * 2 ^ e / 10 ^ k`. -/
def floorDiv (n : Nat) (e k : Int) : Nat :=
  n * Nat.pow 2 e.toNat * Nat.pow 10 (-k).toNat / (Nat.pow 2 (-e).toNat * Nat.pow 10 k.toNat)

/-- The reals that round to a number, in units of a quarter of its last place. -/
structure Interval where
  unit : Int
  low : Nat
  middle : Nat
  high : Nat
  closed : Bool

/-- The rounding interval of `mantissa * 2 ^ exponent`.  Below a power of two the
numbers lie twice as close, except at the very bottom. -/
def Interval.of (mantissa : Nat) (exponent : Int) : Interval where
  unit := exponent - 2
  low := if mantissa = Nat.pow 2 52 ∧ exponent > -1074 then 4 * mantissa - 1 else 4 * mantissa - 2
  middle := 4 * mantissa
  high := 4 * mantissa + 2
  closed := mantissa % 2 = 0

/-- Whether the decimal reads back as the number. -/
def Interval.holds (i : Interval) (d : Nat) (k : Int) : Bool :=
  let below := compare d k i.low i.unit
  let above := compare d k i.high i.unit
  (below = .gt || (i.closed && below = .eq)) && (above = .lt || (i.closed && above = .eq))

/-- The power of ten just below `n * 2 ^ e`, searched downward from `top`. -/
def magnitude (n : Nat) (e : Int) : (fuel : Nat) → (top : Int) → Int
  | 0, top => top
  | fuel + 1, top =>
    if compare 1 top n e = .gt then magnitude n e fuel (top - 1) else top

/-- The nearer of the two grid neighbours that reads back, if one does. -/
def Interval.onGrid? (i : Interval) (k : Int) : Option Scientific :=
  let d := floorDiv i.middle i.unit k
  match i.holds d k, i.holds (d + 1) k with
  | true, false => some ⟨d, k⟩
  | false, true => some ⟨d + 1, k⟩
  | false, false => none
  | true, true =>
    -- the midpoint of the two neighbours decides; an exact half goes to the even one
    match compare (2 * d + 1) k (2 * i.middle) i.unit with
    | .lt => some ⟨d + 1, k⟩
    | .gt => some ⟨d, k⟩
    | .eq => some ⟨if d % 2 = 0 then d else d + 1, k⟩

/-- Tries finer and finer grids from `k` downward. -/
def Interval.search (i : Interval) : (fuel : Nat) → (k : Int) → Scientific
  | 0, k => ⟨floorDiv i.middle i.unit k, k⟩
  | fuel + 1, k =>
    match i.onGrid? k with
    | some found => found
    | none => i.search fuel (k - 1)

/-- The shortest decimal of `mantissa * 2 ^ exponent`, which is not zero. -/
def shortest (mantissa : Nat) (exponent : Int) : Scientific :=
  let i := Interval.of mantissa exponent
  i.search 17 (magnitude i.middle i.unit 700 310)

/-- How digits are written. -/
structure Layout where
  /-- Least decimal exponent that is written positionally. -/
  positionalFrom : Int
  /-- First decimal exponent that is not. -/
  positionalTo : Int
  /-- What follows a whole number. -/
  wholeSuffix : Text
  /-- Least number of digits in an exponent. -/
  exponentDigits : Nat
  infinity : Text
  notANumber : Text

/-- A number's text under a layout, the sign apart. -/
def Layout.magnitudeText (layout : Layout) (s : Scientific) : Text :=
  let signs := Text.ofNat s.significand
  let signs := (signs.reverse.dropWhile (· = CodePoint.ofChar '0')).reverse
  let count : Int := (Text.ofNat s.significand).length
  let point := count + s.exponent - 1
  let zero := CodePoint.ofChar '0'
  if layout.positionalFrom ≤ point ∧ point < layout.positionalTo then
    if point < 0 then
      lit "0." ++ List.replicate (-point - 1).toNat zero ++ signs
    else
      let whole := point.toNat + 1
      if signs.length ≤ whole then
        signs ++ List.replicate (whole - signs.length) zero ++ layout.wholeSuffix
      else signs.take whole ++ lit "." ++ signs.drop whole
  else
    let lead := signs.take 1
    let fraction := if signs.length ≤ 1 then [] else lit "." ++ signs.drop 1
    let sign := if point < 0 then lit "-" else lit "+"
    lead ++ fraction ++ lit "e" ++ sign ++
      Text.zeroPad layout.exponentDigits (Text.ofNat point.natAbs)

/-- A number's text under a layout. -/
def Layout.text (layout : Layout) (x : Double) : Text :=
  let sign := if x.isNegative then lit "-" else []
  match x.kind with
  | .nan => layout.notANumber
  | .infinite => sign ++ layout.infinity
  | .finite 0 _ => sign ++ lit "0" ++ layout.wholeSuffix
  | .finite mantissa exponent => sign ++ layout.magnitudeText (shortest mantissa exponent)

/-- Numbers in listings: positional from `0.0001` up to sixteen digits, a whole
number with `.0`, and at least two digits in an exponent. -/
def listing : Layout where
  positionalFrom := -4
  positionalTo := 16
  wholeSuffix := lit ".0"
  exponentDigits := 2
  infinity := lit "inf"
  notANumber := lit "nan"

end Decimal
end CilAtlas
