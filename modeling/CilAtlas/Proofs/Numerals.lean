import CilAtlas.Metadata.Handle
import Mathlib.Data.List.Basic
import Mathlib.Data.List.Induction
import Mathlib.Tactic.Common

/-!
# Numerals can be read back

A hexadecimal numeral determines its number whatever its width, because leading
zeroes do not count.  A token of four bytes is written in exactly eight digits,
so the token at the end of a longer text is found by counting from the end,
whatever stands before it.
-/

namespace CilAtlas
namespace Text

/-- The number that digits write in a base, most significant first. -/
def digitsValue (base : Nat) (ds : List Nat) : Nat :=
  ds.foldl (fun n d => n * base + d) 0

theorem digitsValue_append_one (base : Nat) (ds : List Nat) (d : Nat) :
    digitsValue base (ds ++ [d]) = digitsValue base ds * base + d := by
  simp [digitsValue, List.foldl_append]

/-- Digits below the base write a number below its power. -/
theorem digitsValue_lt {base : Nat} {ds : List Nat} (hsmall : ∀ d ∈ ds, d < base) :
    digitsValue base ds < Nat.pow base ds.length := by
  induction ds using List.reverseRecOn with
  | nil => exact Nat.one_pos
  | append_singleton ds d ih =>
    have hd : d < base := hsmall d (by simp)
    have hds := ih fun d' hmember => hsmall d' (by simp [hmember])
    rw [digitsValue_append_one, List.length_append, List.length_singleton]
    show _ < Nat.pow base ds.length * base
    calc digitsValue base ds * base + d
        < digitsValue base ds * base + base := by omega
      _ = (digitsValue base ds + 1) * base := by rw [Nat.add_mul, Nat.one_mul]
      _ ≤ Nat.pow base ds.length * base := Nat.mul_le_mul_right base hds

/-- The bound on the number of divisions never changes the number written. -/
theorem digitsValue_digitsUpTo (base fuel n : Nat) :
    digitsValue base (digitsUpTo base fuel n) = n := by
  induction fuel generalizing n with
  | zero => simp [digitsUpTo, digitsValue]
  | succ fuel ih =>
    rw [digitsUpTo]
    split
    · simp [digitsValue]
    · rw [digitsValue_append_one, ih, Nat.mul_comm]
      exact Nat.div_add_mod n base

theorem digitsValue_digits (base n : Nat) : digitsValue base (digits base n) = n :=
  digitsValue_digitsUpTo base n n

/-- With enough divisions allowed, every digit is below the base. -/
theorem digitsUpTo_lt {base fuel n : Nat} (hbase : 2 ≤ base) (hfuel : n ≤ fuel) :
    ∀ d ∈ digitsUpTo base fuel n, d < base := by
  induction fuel generalizing n with
  | zero =>
    intro d hd
    have hn : n = 0 := Nat.le_zero.mp hfuel
    rw [digitsUpTo, List.mem_singleton] at hd
    omega
  | succ fuel ih =>
    intro d hd
    rw [digitsUpTo] at hd
    split at hd
    · next hlt =>
      rw [List.mem_singleton] at hd
      omega
    · next hge =>
      rcases List.mem_append.mp hd with hfront | hlast
      · have hdiv : n / base < n := Nat.div_lt_self (by omega) hbase
        exact ih (by omega) d hfront
      · rw [List.mem_singleton] at hlast
        rw [hlast]
        exact Nat.mod_lt n (by omega)

theorem digits_lt {base n : Nat} (hbase : 2 ≤ base) : ∀ d ∈ digits base n, d < base :=
  digitsUpTo_lt hbase (Nat.le_refl n)

/-- A number below the power of the base has at most that many digits. -/
theorem length_digitsUpTo_le {base fuel n : Nat} (width : Nat)
    (hn : n < Nat.pow base (width + 1)) : (digitsUpTo base fuel n).length ≤ width + 1 := by
  induction fuel generalizing n width with
  | zero => simp [digitsUpTo]
  | succ fuel ih =>
    rw [digitsUpTo]
    split
    · simp
    · next hge =>
      cases width with
      | zero =>
        have hone : Nat.pow base (0 + 1) = base := Nat.pow_one base
        omega
      | succ width =>
        have hdiv : n / base < Nat.pow base (width + 1) := by
          apply Nat.div_lt_of_lt_mul
          rw [Nat.mul_comm]
          exact hn
        have hrest := ih width hdiv
        simp only [List.length_append, List.length_singleton]
        omega

theorem digitsUpTo_ne_nil (base fuel n : Nat) : digitsUpTo base fuel n ≠ [] := by
  cases fuel with
  | zero => exact List.cons_ne_nil _ _
  | succ fuel =>
    rw [digitsUpTo]
    split
    · exact List.cons_ne_nil _ _
    · exact List.append_ne_nil_of_right_ne_nil _ (List.cons_ne_nil _ _)

theorem digits_ne_nil (base n : Nat) : digits base n ≠ [] :=
  digitsUpTo_ne_nil base n n

/-- Only zero is written with a leading zero. -/
theorem eq_zero_of_digitsUpTo {base fuel n : Nat} {ds : List Nat} (hbase : 2 ≤ base)
    (hfuel : n ≤ fuel) (h : digitsUpTo base fuel n = 0 :: ds) : n = 0 := by
  induction fuel generalizing n ds with
  | zero => exact Nat.le_zero.mp hfuel
  | succ fuel ih =>
    rw [digitsUpTo] at h
    split at h
    · exact (List.cons.inj h).1
    · next hge =>
      have hdiv : n / base < n := Nat.div_lt_self (by omega) hbase
      obtain ⟨d, front, hfront⟩ := List.exists_cons_of_ne_nil
        (digitsUpTo_ne_nil base fuel (n / base))
      rw [hfront, List.cons_append] at h
      rw [(List.cons.inj h).1] at hfront
      have hquotient := ih (by omega) hfront
      have hlt := (Nat.div_eq_zero_iff_lt (by omega)).mp hquotient
      omega

theorem eq_zero_of_digits {base n : Nat} {ds : List Nat} (hbase : 2 ≤ base)
    (h : digits base n = 0 :: ds) : n = 0 :=
  eq_zero_of_digitsUpTo hbase (Nat.le_refl n) h

theorem digitSign_eq_digitChar {d : Nat} (hd : d < 10) :
    digitSign d = CodePoint.ofChar d.digitChar := by
  have hall : ∀ e : Fin 10, digitSign e = CodePoint.ofChar e.val.digitChar := by decide
  exact hall ⟨d, hd⟩

theorem map_digitSign_digitsUpTo {fuel n : Nat} (hfuel : n ≤ fuel) :
    (digitsUpTo 10 fuel n).map digitSign = (Nat.toDigits 10 n).map CodePoint.ofChar := by
  induction fuel generalizing n with
  | zero =>
    rw [Nat.le_zero.mp hfuel]
    rfl
  | succ fuel ih =>
    rw [digitsUpTo]
    split
    · next hlt => simp [Nat.toDigits_of_lt_base hlt, digitSign_eq_digitChar hlt]
    · next hge =>
      have hdiv : n / 10 < n := Nat.div_lt_self (by omega) (by omega)
      have hmod : n % 10 < 10 := Nat.mod_lt n (by omega)
      rw [Nat.toDigits_of_base_le (by omega) (by omega), List.map_append, List.map_append,
        ih (by omega), List.map_singleton, List.map_singleton, digitSign_eq_digitChar hmod]

/-- A decimal numeral is the usual one. -/
theorem ofNat_eq_lit (n : Nat) : ofNat n = lit (toString n) := by
  have hstring : (toString n).toList = Nat.toDigits 10 n := String.toList_ofList
  rw [lit, ofString, hstring]
  exact map_digitSign_digitsUpTo (Nat.le_refl n)

/-- The number that a text writes in hexadecimal, signs that are no digits
counting as zero. -/
def hexTextValue (t : Text) : Nat :=
  digitsValue 16 (t.map fun c => c.hexValue?.getD 0)

theorem hexValue?_digitSign {d : Nat} (hd : d < 16) : (digitSign d).hexValue? = some d := by
  have hall : ∀ e : Fin 16, (digitSign e).hexValue? = some e.val := by decide
  exact hall ⟨d, hd⟩

theorem map_hexValue?_digitSign {ds : List Nat} (hds : ∀ d ∈ ds, d < 16) :
    (ds.map digitSign).map (fun c => c.hexValue?.getD 0) = ds := by
  rw [List.map_map]
  conv_rhs => rw [← List.map_id ds]
  apply List.map_congr_left
  intro d hd
  simp [hexValue?_digitSign (hds d hd)]

/-- Leading zeroes do not count. -/
theorem hexTextValue_zeroPad (width : Nat) (t : Text) :
    hexTextValue (zeroPad width t) = hexTextValue t := by
  have hzero : (CodePoint.ofChar '0').hexValue?.getD 0 = 0 := rfl
  unfold zeroPad
  induction width - t.length with
  | zero => rfl
  | succ count ih =>
    rw [← ih]
    simp [hexTextValue, digitsValue, List.replicate_succ, hzero]

theorem hexTextValue_hexNat (width n : Nat) : hexTextValue (hexNat width n) = n := by
  rw [hexNat, hexTextValue_zeroPad, hexTextValue, map_hexValue?_digitSign (digits_lt (by omega)),
    digitsValue_digits]

/-- Numerals of any widths that agree write one number. -/
theorem hexNat_inj {width width' m n : Nat} (h : hexNat width m = hexNat width' n) : m = n := by
  rw [← hexTextValue_hexNat width m, h, hexTextValue_hexNat]

/-- A number of four bytes is written in exactly eight digits. -/
theorem length_hexNat_eight {n : Nat} (hn : n < 0x100000000) : (hexNat 8 n).length = 8 := by
  have hdigits : (digits 16 n).length ≤ 7 + 1 := length_digitsUpTo_le 7 hn
  simp only [hexNat, zeroPad, List.length_append, List.length_replicate, List.length_map]
  omega

end Text
end CilAtlas
