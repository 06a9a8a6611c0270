import CilAtlas.Proofs.Numerals
import CilAtlas.Proofs.Outcomes
import CilAtlas.Text.Quoted

/-!
# When the escapes of a literal can be resolved

Of all escapes only those with eight digits can name a number above the last
code point.  The inside of a literal is therefore readable exactly when no such
escape stands in it.  Whether a backslash starts an escape or is the letter of
one before it depends on the backslashes in front of it only: it starts one when
their number is even.
-/

namespace CilAtlas
namespace Quoted

/-- How many backslashes a text ends with. -/
def trailingMarks (t : Text) : Nat :=
  (t.reverse.takeWhile (· = escapeMark)).length

/-- The text starts with an escape of eight digits above the last code point. -/
def StartsWide (t : Text) : Prop :=
  ∃ run rest, t = escapeMark :: CodePoint.ofChar 'U' :: (run ++ rest) ∧ run.length = 8 ∧
    (∀ c ∈ run, c.hexValue?.isSome) ∧ 0x110000 ≤ Text.hexTextValue run

/-- An escape above the last code point stands in the text. -/
def HasWide (t : Text) : Prop :=
  ∃ front rest, t = front ++ rest ∧ trailingMarks front % 2 = 0 ∧ StartsWide rest

/-! ### Runs of digits -/

theorem hexRun_spec (limit : Nat) (t : Text) :
    ∃ run rest, t = run ++ rest ∧ hexRun limit t = run.map (fun c => c.hexValue?.getD 0) ∧
      run.length ≤ limit ∧ ∀ c ∈ run, c.hexValue?.isSome := by
  induction limit generalizing t with
  | zero => exact ⟨[], t, rfl, rfl, Nat.le_refl 0, by simp⟩
  | succ limit ih =>
    cases t with
    | nil => exact ⟨[], [], rfl, rfl, Nat.zero_le _, by simp⟩
    | cons c t =>
      rw [hexRun]
      split
      · next d hd =>
        obtain ⟨run, rest, rfl, hrun, hlength, hdigits⟩ := ih t
        refine ⟨c :: run, rest, rfl, ?_, ?_, ?_⟩
        · rw [hrun, List.map_cons, hd]
          rfl
        · rw [List.length_cons]
          omega
        · intro c' hmember
          rcases List.mem_cons.mp hmember with rfl | hlater
          · rw [hd]
            rfl
          · exact hdigits c' hlater
      · exact ⟨[], c :: t, rfl, rfl, Nat.zero_le _, by simp⟩

theorem hexRun_append {run : Text} (hdigits : ∀ c ∈ run, c.hexValue?.isSome) (rest : Text) :
    hexRun run.length (run ++ rest) = run.map (fun c => c.hexValue?.getD 0) := by
  induction run with
  | nil => rfl
  | cons c run ih =>
    obtain ⟨d, hd⟩ := Option.isSome_iff_exists.mp (hdigits c List.mem_cons_self)
    have hlater := ih fun c' hmember => hdigits c' (List.mem_cons_of_mem c hmember)
    rw [List.length_cons, List.cons_append, hexRun, hd, List.map_cons, hd, hlater]
    rfl

theorem hexNumber_map (run : Text) :
    hexNumber (run.map fun c => c.hexValue?.getD 0) = Text.hexTextValue run :=
  rfl

theorem hexValue?_lt {c : CodePoint} {d : Nat} (h : c.hexValue? = some d) : d < 16 := by
  simp only [CodePoint.hexValue?] at h
  split at h
  · cases h
    omega
  · split at h
    · cases h
      omega
    · split at h
      · cases h
        omega
      · cases h

theorem hexTextValue_lt {run : Text} (hdigits : ∀ c ∈ run, c.hexValue?.isSome) :
    Text.hexTextValue run < Nat.pow 16 run.length := by
  have hsmall : ∀ d ∈ run.map (fun c => c.hexValue?.getD 0), d < 16 := by
    intro d hmember
    obtain ⟨c, hc, rfl⟩ := List.mem_map.mp hmember
    obtain ⟨d, hd⟩ := Option.isSome_iff_exists.mp (hdigits c hc)
    rw [hd]
    exact hexValue?_lt hd
  have hbound := Text.digitsValue_lt hsmall
  rwa [List.length_map] at hbound

/-! ### Where escapes start -/

theorem trailingMarks_concat (t : Text) (c : CodePoint) :
    trailingMarks (t ++ [c]) = if c = escapeMark then trailingMarks t + 1 else 0 := by
  unfold trailingMarks
  rw [List.reverse_append, List.reverse_singleton, List.singleton_append, List.takeWhile_cons]
  by_cases hc : c = escapeMark
  · simp [hc]
  · simp [hc]

/-- What stands before an even number of backslashes does not change where
escapes start behind it. -/
theorem trailingMarks_append {a : Text} (heven : trailingMarks a % 2 = 0) (b : Text) :
    trailingMarks (a ++ b) % 2 = trailingMarks b % 2 := by
  unfold trailingMarks at *
  rw [List.reverse_append, List.takeWhile_append]
  split
  · next hall =>
    rw [List.length_append, hall]
    omega
  · rfl

/-- A piece of a text at whose end a new escape may start, and inside which none
does. -/
structure Closed (piece : Text) : Prop where
  even : trailingMarks piece % 2 = 0
  inner : ∀ front back, piece = front ++ escapeMark :: back → front ≠ [] →
    trailingMarks front % 2 = 1

theorem closed_plain {c : CodePoint} (hother : c ≠ escapeMark) : Closed [c] where
  even := by
    have h := trailingMarks_concat [] c
    rw [if_neg hother] at h
    rw [List.nil_append] at h
    rw [h]
  inner := by
    intro front back hpiece hnonempty
    cases front with
    | nil => exact absurd rfl hnonempty
    | cons c' front =>
      have hlength := congrArg List.length hpiece
      simp at hlength

theorem closed_pair (letter : CodePoint) : Closed [escapeMark, letter] where
  even := by
    rw [show [escapeMark, letter] = [escapeMark] ++ [letter] from rfl, trailingMarks_concat]
    split
    · rfl
    · rfl
  inner := by
    intro front back hpiece hnonempty
    cases front with
    | nil => exact absurd rfl hnonempty
    | cons c front =>
      cases front with
      | nil =>
        cases hpiece
        rfl
      | cons c' front =>
        have hlength := congrArg List.length hpiece
        simp at hlength

theorem escapeMark_not_digit : escapeMark.hexValue?.isSome = false := by
  decide

theorem closed_numbered {letter : CodePoint} {run : Text} (hother : letter ≠ escapeMark)
    (hdigits : ∀ c ∈ run, c.hexValue?.isSome) : Closed (escapeMark :: letter :: run) where
  even := by
    have hlast : ∀ c ∈ letter :: run, c ≠ escapeMark := by
      rintro c hmember rfl
      rcases List.mem_cons.mp hmember with hsame | hlater
      · exact hother hsame.symm
      · have hdigit := hdigits _ hlater
        rw [escapeMark_not_digit] at hdigit
        cases hdigit
    obtain ⟨front, c, hpiece⟩ := (List.eq_nil_or_concat' (letter :: run)).resolve_left (by simp)
    rw [hpiece, show escapeMark :: (front ++ [c]) = (escapeMark :: front) ++ [c] from rfl,
      trailingMarks_concat, if_neg (hlast c (by rw [hpiece]; simp))]
  inner := by
    intro front back hpiece hnonempty
    cases front with
    | nil => exact absurd rfl hnonempty
    | cons c front =>
      obtain ⟨-, hpiece⟩ := List.cons.inj hpiece
      cases front with
      | nil =>
        obtain ⟨hsame, -⟩ := List.cons.inj hpiece
        exact absurd hsame hother
      | cons c' front =>
        obtain ⟨-, hrun⟩ := List.cons.inj hpiece
        have hdigit := hdigits escapeMark (by rw [hrun]; simp)
        rw [escapeMark_not_digit] at hdigit
        cases hdigit

/-- A wide escape stands at the front of a closed piece or behind it. -/
theorem hasWide_append_iff {piece : Text} (hclosed : Closed piece) (tail : Text) :
    HasWide (piece ++ tail) ↔ StartsWide (piece ++ tail) ∨ HasWide tail := by
  constructor
  · rintro ⟨front, rest, hsplit, heven, hwide⟩
    -- the escape starts behind the piece, at its front, or inside it
    rcases List.append_eq_append_iff.mp hsplit with ⟨between, rfl, rfl⟩ | ⟨between, rfl, rfl⟩
    · rw [trailingMarks_append hclosed.even] at heven
      exact .inr ⟨between, rest, rfl, heven, hwide⟩
    · cases front with
      | nil => exact .inl hwide
      | cons c front =>
        cases between with
        | nil => exact .inr ⟨[], tail, rfl, rfl, hwide⟩
        | cons c' between =>
          -- inside, the backslashes before it are odd in number
          obtain ⟨run, rest, hstart, -⟩ := hwide
          obtain ⟨rfl, -⟩ := List.cons.inj hstart
          have hodd := hclosed.inner (c :: front) between rfl (by simp)
          omega
  · rintro (hwide | ⟨front, rest, rfl, heven, hwide⟩)
    · exact ⟨[], piece ++ tail, rfl, rfl, hwide⟩
    · refine ⟨piece ++ front, rest, by rw [List.append_assoc], ?_, hwide⟩
      rw [trailingMarks_append hclosed.even]
      exact heven

/-! ### Numbered escapes -/

theorem numberedEscape?_spec {letter : CodePoint} {tail : Text} {values : List Nat}
    (hfound : numberedEscape? letter tail = some values) :
    letter ≠ escapeMark ∧ ∃ run rest, tail = run ++ rest ∧
      values = run.map (fun c => c.hexValue?.getD 0) ∧ (∀ c ∈ run, c.hexValue?.isSome) ∧
      (letter = CodePoint.ofChar 'U' ∧ run.length = 8 ∨
        letter ≠ CodePoint.ofChar 'U' ∧ run.length ≤ 4) := by
  unfold numberedEscape? at hfound
  split at hfound
  · cases hfound
  · next least most hbounds =>
    simp only at hfound
    split at hfound
    · next henough =>
      cases hfound
      obtain ⟨run, rest, rfl, hrun, hmost, hdigits⟩ := hexRun_spec most tail
      rw [hrun, List.length_map] at henough
      unfold digitBounds? at hbounds
      split at hbounds
      · next hshort =>
        cases hbounds
        exact ⟨by rw [hshort]; decide, run, rest, rfl, hrun, hdigits,
          .inr ⟨by rw [hshort]; decide, hmost⟩⟩
      · split at hbounds
        · next hlong =>
          cases hbounds
          exact ⟨by rw [hlong]; decide, run, rest, rfl, hrun, hdigits,
            .inl ⟨hlong, Nat.le_antisymm hmost henough⟩⟩
        · split at hbounds
          · next hnotLong hvariable =>
            cases hbounds
            exact ⟨by rw [hvariable]; decide, run, rest, rfl, hrun, hdigits,
              .inr ⟨hnotLong, hmost⟩⟩
          · cases hbounds
    · cases hfound

theorem startsWide_iff_of_numbered {letter : CodePoint} {tail : Text} {values : List Nat}
    (hfound : numberedEscape? letter tail = some values) :
    StartsWide (escapeMark :: letter :: tail) ↔ 0x110000 ≤ hexNumber values := by
  obtain ⟨-, run, rest, rfl, rfl, hdigits, hcase⟩ := numberedEscape?_spec hfound
  rw [hexNumber_map]
  rcases hcase with ⟨rfl, hlength⟩ | ⟨hnotLong, hshort⟩
  · constructor
    · rintro ⟨run', rest', hstart, hlength', -, hwide⟩
      have hsplit : run ++ rest = run' ++ rest' := (List.cons.inj (List.cons.inj hstart).2).2
      obtain ⟨rfl, -⟩ := List.append_inj hsplit (hlength.trans hlength'.symm)
      exact hwide
    · intro hwide
      exact ⟨run, rest, rfl, hlength, hdigits, hwide⟩
  · constructor
    · rintro ⟨_, _, hstart, -⟩
      exact absurd (List.cons.inj (List.cons.inj hstart).2).1 hnotLong
    · intro hwide
      -- four digits do not reach the first number that is no code point
      have hsmall := hexTextValue_lt hdigits
      have hbound : Nat.pow 16 run.length ≤ Nat.pow 16 4 := Nat.pow_le_pow_right (by decide) hshort
      have hpower : Nat.pow 16 4 = 0x10000 := rfl
      omega

theorem not_startsWide_of_unnumbered {letter : CodePoint} {tail : Text}
    (hmissing : numberedEscape? letter tail = none) :
    ¬ StartsWide (escapeMark :: letter :: tail) := by
  rintro ⟨run, rest, hstart, hlength, hdigits, -⟩
  obtain ⟨-, hstart⟩ := List.cons.inj hstart
  obtain ⟨rfl, rfl⟩ := List.cons.inj hstart
  have hbounds : digitBounds? (CodePoint.ofChar 'U') = some (8, 8) := by decide
  have hrun := hexRun_append hdigits rest
  rw [hlength] at hrun
  have henough : 8 ≤ (hexRun 8 (run ++ rest)).length := by
    rw [hrun, List.length_map]
    omega
  unfold numberedEscape? at hmissing
  rw [hbounds] at hmissing
  simp only [if_pos henough] at hmissing
  cases hmissing

theorem pointOfNumber_ok_iff (n : Nat) : (∃ c, pointOfNumber n = .ok c) ↔ n < 0x110000 := by
  unfold pointOfNumber CodePoint.ofNat?
  by_cases hsmall : n < 0x110000
  · have hnarrow : ¬ n > 0x7FFFFFFF := by omega
    simp [hsmall, hnarrow]
  · by_cases hnarrow : n > 0x7FFFFFFF
    · simp [hsmall, hnarrow]
    · simp [hsmall, hnarrow]

theorem HasWide.length_le {t : Text} (hwide : HasWide t) : 10 ≤ t.length := by
  obtain ⟨front, _, rfl, -, run, rest, rfl, hlength, -⟩ := hwide
  simp only [List.length_append, List.length_cons]
  omega

/-! ### Reading piece by piece -/

theorem unescape_newline (tail : Text) :
    unescape (escapeMark :: newline :: tail) =
      do return escapeMark :: newline :: (← unescape tail) := by
  rw [unescape, if_pos rfl]
  simp only [if_pos]

theorem unescape_numbered {letter : CodePoint} {tail : Text} {values : List Nat}
    (hother : letter ≠ newline) (hfound : numberedEscape? letter tail = some values) :
    unescape (escapeMark :: letter :: tail) = do
      let point ← pointOfNumber (hexNumber values)
      return point :: (← unescape (tail.drop values.length)) := by
  rw [unescape, if_pos rfl]
  simp only [if_neg hother, hfound]

theorem unescape_letter {letter : CodePoint} {tail : Text} (hother : letter ≠ newline)
    (hmissing : numberedEscape? letter tail = none) :
    unescape (escapeMark :: letter :: tail) =
      do return letterEscape letter :: (← unescape tail) := by
  rw [unescape, if_pos rfl]
  simp only [if_neg hother, hmissing]

theorem unescape_plain {c : CodePoint} (hother : c ≠ escapeMark) (rest : Text) :
    unescape (c :: rest) = do return c :: (← unescape rest) := by
  rw [unescape.eq_def]
  simp only [if_neg hother]

/-- A step that only puts the rest together does not fail by itself. -/
theorem exists_map_ok_iff {α β : Type} {x : Except EscapeError α} (f : α → β) :
    (∃ b, (do return f (← x)) = Except.ok b) ↔ ∃ a, x = .ok a := by
  constructor
  · rintro ⟨b, h⟩
    obtain ⟨a, ha, -⟩ := Outcome.bind_eq_ok_iff.mp h
    exact ⟨a, ha⟩
  · rintro ⟨a, rfl⟩
    exact ⟨f a, rfl⟩

/-- The inside of a literal can be read exactly when no escape in it names a
number above the last code point. -/
theorem unescape_ok_iff (body : Text) : (∃ t, unescape body = .ok t) ↔ ¬ HasWide body := by
  induction body using unescape.induct with
  | case1 =>
    have hshort : ¬ HasWide [] := fun hhas => absurd hhas.length_le (by decide)
    simp [unescape, hshort]
  | case2 =>
    have hshort : ¬ HasWide [escapeMark] := fun hhas => absurd hhas.length_le (by decide)
    simp [unescape, hshort]
  | case3 tail ih =>
    have hstart : ¬ StartsWide ([escapeMark, newline] ++ tail) := by
      rintro ⟨run, rest, hstart, -⟩
      exact absurd (List.cons.inj (List.cons.inj hstart).2).1 (by decide)
    have hwide := hasWide_append_iff (closed_pair newline) tail
    rw [or_iff_right hstart] at hwide
    rw [unescape_newline, exists_map_ok_iff, ih]
    exact not_congr hwide.symm
  | case4 letter tail hother values hfound ih =>
    obtain ⟨hnotMark, run, rest, rfl, rfl, hdigits, -⟩ := numberedEscape?_spec hfound
    have hwide := hasWide_append_iff (closed_numbered hnotMark hdigits) rest
    have hstart := startsWide_iff_of_numbered hfound
    rw [List.length_map, List.drop_left] at ih
    rw [unescape_numbered hother hfound, List.length_map, List.drop_left]
    have hparts : (∃ t, (do
        let point ← pointOfNumber (hexNumber (run.map fun c => c.hexValue?.getD 0))
        return point :: (← unescape rest)) = Except.ok t) ↔
        hexNumber (run.map fun c => c.hexValue?.getD 0) < 0x110000 ∧ ¬ HasWide rest := by
      rw [← pointOfNumber_ok_iff, ← ih]
      constructor
      · rintro ⟨t, h⟩
        obtain ⟨point, hpoint, h⟩ := Outcome.bind_eq_ok_iff.mp h
        obtain ⟨others, hothers, -⟩ := Outcome.bind_eq_ok_iff.mp h
        exact ⟨⟨point, hpoint⟩, others, hothers⟩
      · rintro ⟨⟨point, hpoint⟩, others, hothers⟩
        rw [hpoint, hothers]
        exact ⟨_, rfl⟩
    rw [hparts, ← Nat.not_le, ← hstart, ← not_or]
    exact not_congr hwide.symm
  | case5 letter tail hother hmissing ih =>
    have hstart : ¬ StartsWide ([escapeMark, letter] ++ tail) :=
      not_startsWide_of_unnumbered hmissing
    have hwide := hasWide_append_iff (closed_pair letter) tail
    rw [or_iff_right hstart] at hwide
    rw [unescape_letter hother hmissing, exists_map_ok_iff, ih]
    exact not_congr hwide.symm
  | case6 c rest hother ih =>
    have hstart : ¬ StartsWide ([c] ++ rest) := by
      rintro ⟨run, tail, hstart, -⟩
      exact hother (List.cons.inj hstart).1
    have hwide := hasWide_append_iff (closed_plain hother) rest
    rw [or_iff_right hstart] at hwide
    rw [unescape_plain hother, exists_map_ok_iff, ih]
    exact not_congr hwide.symm

/-- The literals of a text can be read exactly when no escape in one of them names
a number above the last code point. -/
theorem literals_ok_iff (t : Text) :
    (∃ values, literals t = .ok values) ↔ ∀ body ∈ bodies t, ¬ HasWide body := by
  constructor
  · rintro ⟨values, h⟩ body hmember
    obtain ⟨value, -, hvalue⟩ :=
      exists_mem_of_forall₂_left (Outcome.mapM_eq_ok_iff.mp h) hmember
    exact (unescape_ok_iff body).mp ⟨value, hvalue⟩
  · intro hreadable
    exact Outcome.exists_mapM_ok fun body hmember =>
      (unescape_ok_iff body).mpr (hreadable body hmember)

end Quoted
end CilAtlas
