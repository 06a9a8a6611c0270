import CilAtlas.Text.Basic

/-!
# Quoted string literals

A literal stands between double quotes on one line; a backslash introduces an
escape.  `quote` writes a text as a literal, `unescape` reads the inside of one,
and `literals` finds the literals of a listing from left to right.  A quote that
is not closed on its line opens nothing.
-/

namespace CilAtlas

/-- Why an escape names no code point. -/
inductive EscapeError where
  /-- The number does not fit in thirty-one bits. -/
  | tooWide
  /-- The number is above U+10FFFF. -/
  | notCodePoint
deriving DecidableEq

namespace Quoted

/-- The double quote. -/
def mark : CodePoint := '"'

/-- The backslash. -/
def escapeMark : CodePoint := '\\'

/-- The line feed, which no literal may hold. -/
def newline : CodePoint := '\n'

/-- The escapes of one letter, with what they stand for. -/
def letterEscapes : List (CodePoint × CodePoint) :=
  [('\'', '\''), ('"', '"'), ('\\', '\\'), ('0', '\x00'), ('a', '\x07'), ('b', '\x08'),
    ('f', '\x0c'), ('n', '\n'), ('r', '\r'), ('t', '\t'), ('v', '\x0b')]

/-- The letter that escapes a code point, when writing has to escape it. -/
def escapeLetter? (c : CodePoint) : Option CodePoint :=
  (letterEscapes.find? fun entry => entry.2 = c ∧ entry.1 ≠ CodePoint.ofChar '\'').map (·.1)

/-- One code point as it is written inside a literal. -/
def escape (c : CodePoint) : Text :=
  match escapeLetter? c with
  | some letter => [escapeMark, letter]
  | none => [c]

/-- A text as a literal, quotes included. -/
def quote (t : Text) : Text :=
  mark :: t.flatMap escape ++ [mark]

/-- Several texts in one literal.  A text of one code point is escaped like that
code point; any other is taken to be escaped already. -/
def quotePieces (pieces : List Text) : Text :=
  let inside (piece : Text) : Text :=
    match piece with
    | [c] => escape c
    | _ => piece
  mark :: pieces.flatMap inside ++ [mark]

/-- The hexadecimal digits at the front, at most `limit` of them. -/
def hexRun : (limit : Nat) → Text → List Nat
  | 0, _ => []
  | _ + 1, [] => []
  | limit + 1, c :: rest =>
    match c.hexValue? with
    | some d => d :: hexRun limit rest
    | none => []

/-- The number written by hexadecimal digits. -/
def hexNumber (ds : List Nat) : Nat :=
  ds.foldl (fun n d => n * 16 + d) 0

/-- How many digits the escape letters with a number want: least and most. -/
def digitBounds? (letter : CodePoint) : Option (Nat × Nat) :=
  if letter = CodePoint.ofChar 'u' then some (4, 4)
  else if letter = CodePoint.ofChar 'U' then some (8, 8)
  else if letter = CodePoint.ofChar 'x' then some (1, 4)
  else none

/-- The digits of a numbered escape, given its letter and what follows it. -/
def numberedEscape? (letter : CodePoint) (rest : Text) : Option (List Nat) :=
  match digitBounds? letter with
  | none => none
  | some (least, most) =>
    let run := hexRun most rest
    if least ≤ run.length then some run else none

/-- The code point with the number of an escape. -/
def pointOfNumber (n : Nat) : Except EscapeError CodePoint :=
  if n > 0x7FFFFFFF then .error .tooWide
  else match CodePoint.ofNat? n with
    | some c => .ok c
    | none => .error .notCodePoint

/-- What a letter after the backslash stands for; an unknown one for itself. -/
def letterEscape (letter : CodePoint) : CodePoint :=
  ((letterEscapes.find? fun entry => entry.1 = letter).map (·.2)).getD letter

/-- Resolves the escapes of a literal's inside.  A backslash before a line feed
or at the end stands for itself. -/
def unescape : Text → Except EscapeError Text
  | [] => .ok []
  | c :: rest =>
    if c = escapeMark then
      match rest with
      | [] => .ok [c]
      | letter :: tail =>
        if letter = newline then do
          return c :: newline :: (← unescape tail)
        else match numberedEscape? letter tail with
          | some run => do
            let point ← pointOfNumber (hexNumber run)
            return point :: (← unescape (tail.drop run.length))
          | none => do
            return letterEscape letter :: (← unescape tail)
    else do
      return c :: (← unescape rest)
termination_by t => t.length
decreasing_by all_goals simp only [List.length_drop, List.length_cons]; omega

/-- The inside of a literal whose opening quote was just passed, and what
follows its closing quote; `none` when the line or the text ends first. -/
def inside? : Text → Option (Text × Text)
  | [] => none
  | c :: rest =>
    if c = mark then some ([], rest)
    else if c = newline then none
    else if c = escapeMark then
      match rest with
      | [] => none
      | d :: tail =>
        if d = newline then none
        else (inside? tail).map fun found => (c :: d :: found.1, found.2)
    else (inside? rest).map fun found => (c :: found.1, found.2)

/-- What follows a literal is shorter than what follows its opening quote. -/
theorem inside?_length {t body rest : Text} (h : inside? t = some (body, rest)) :
    rest.length < t.length := by
  fun_induction inside? t generalizing body rest with
  | case1 => simp at h
  | case2 => simp_all
  | case3 => simp at h
  | case4 => simp at h
  | case5 => simp at h
  | case6 _ _ _ htail _ ih =>
    obtain ⟨⟨inner, after⟩, hfound, heq⟩ := Option.map_eq_some_iff.1 h
    have := ih hfound
    simp only [Prod.mk.injEq] at heq
    simp only [List.length_cons, ← heq.2]
    omega
  | case7 _ _ _ _ _ ih =>
    obtain ⟨⟨inner, after⟩, hfound, heq⟩ := Option.map_eq_some_iff.1 h
    have := ih hfound
    simp only [Prod.mk.injEq] at heq
    simp only [List.length_cons, ← heq.2]
    omega

/-- The insides of the literals of a text, from left to right, escapes kept. -/
def bodies : Text → List Text
  | [] => []
  | c :: rest =>
    if c = mark then
      match _hfound : inside? rest with
      | some (body, after) => body :: bodies after
      | none => bodies rest
    else bodies rest
termination_by t => t.length
decreasing_by
  · have := inside?_length _hfound
    simp only [List.length_cons]; omega
  all_goals simp

/-- The literals of a text in order; the first bad escape is the error. -/
def literals (t : Text) : Except EscapeError (List Text) :=
  (bodies t).mapM unescape

end Quoted

namespace EscapeError

/-- The wording of an escape error that has one. -/
def message : EscapeError → Text
  | tooWide => lit "escape number does not fit in 31 bits"
  | notCodePoint => lit "chr() arg not in range(0x110000)"

end EscapeError
end CilAtlas
