import CilAtlas.Text.Shown

/-!
# Lines for a terminal

A sequence that tells a terminal to change colours or move the cursor is an
escape and an opening bracket, digits and marks, and a letter.  Lines that do
not go to a terminal are written without such sequences.
-/

namespace CilAtlas
namespace CodePoint

/-- The sign that opens a sequence. -/
def escape : CodePoint := ofChar '\x1b'

/-- A sign between bracket and letter of a sequence. -/
def isSequenceMark (c : CodePoint) : Bool :=
  c = ofChar ';' || c = ofChar '?' || (0x30 ≤ c.toNat && c.toNat ≤ 0x39)

/-- A letter of ASCII. -/
def isLetterAscii (c : CodePoint) : Bool :=
  0x61 ≤ c.toLowerAscii.toNat && c.toLowerAscii.toNat ≤ 0x7A

end CodePoint

namespace Text

/-- How many code points after an escape complete a sequence. -/
def sequenceLength? : (afterEscape : Text) → Option Nat
  | [] => none
  | bracket :: rest =>
    let marks := rest.takeWhile CodePoint.isSequenceMark
    match rest.drop marks.length with
    | [] => none
    | last :: _ =>
      if bracket = CodePoint.ofChar '[' ∧ last.isLetterAscii then some (marks.length + 2) else none

/-- The text without the sequences that it holds. -/
def withoutSequences : Text → Text
  | [] => []
  | c :: rest =>
    match if c = CodePoint.escape then sequenceLength? rest else none with
    | some length => withoutSequences (rest.drop length)
    | none => c :: withoutSequences rest
termination_by t => t.length
decreasing_by all_goals simp only [List.length_drop, List.length_cons]; omega

/-- The text with a numbered escape for each surrogate. -/
def escapeSurrogates (t : Text) : Text :=
  t.flatMap fun c => if c.isSurrogate then numberedEscape "\\u" 4 c.toNat else [c]

end Text
end CilAtlas
