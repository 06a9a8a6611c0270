import CilAtlas.Text.Utf8
import Mathlib.Data.List.Basic
import Mathlib.Tactic.Common
import Mathlib.Tactic.IntervalCases

/-!
# Encoded texts can be decoded

The bytes of a code point are one well-formed piece, whatever bytes follow them.
So the bytes of a text decode to the text, and the bytes of texts one after the
other to the texts one after the other.
-/

namespace CilAtlas

/-- A text without surrogates. -/
def Text.Encodable (t : Text) : Prop :=
  ∀ c ∈ t, c.isSurrogate = false

instance (t : Text) : Decidable t.Encodable :=
  inferInstanceAs (Decidable (∀ c ∈ t, _))

namespace Utf8

theorem toNat_toUInt8_of_lt {n : Nat} (hsmall : n < 256) : n.toUInt8.toNat = n :=
  UInt8.toNat_ofNat_of_lt hsmall

/-! ### One code point -/

theorem lead?_one {n : Nat} (hsmall : n < 0x80) : lead? n.toUInt8 = some ⟨0, 0x80, 0xBF, n⟩ := by
  rw [lead?, toNat_toUInt8_of_lt (by omega)]
  exact if_pos hsmall

theorem lead?_two {k : Nat} (hleast : 2 ≤ k) (hmost : k < 0x20) :
    lead? (0xC0 + k).toUInt8 = some ⟨1, 0x80, 0xBF, k⟩ := by
  interval_cases k <;> rfl

/-- Behind the smallest lead of three bytes the small numbers are left out, and
behind `0xED` the surrogates. -/
theorem lead?_three {k : Nat} (hmost : k < 0x10) :
    lead? (0xE0 + k).toUInt8 =
      some ⟨2, if k = 0 then 0xA0 else 0x80, if k = 0xD then 0x9F else 0xBF, k⟩ := by
  interval_cases k <;> rfl

theorem lead?_four {k : Nat} (hmost : k < 5) :
    lead? (0xF0 + k).toUInt8 =
      some ⟨3, if k = 0 then 0x90 else 0x80, if k = 4 then 0x8F else 0xBF, k⟩ := by
  interval_cases k <;> rfl

theorem takeTrailing_cons {low high bits : Nat} (need value : Nat) (rest : List UInt8)
    (hsmall : bits < 0x40) (hleast : low ≤ 0x80 + bits) (hmost : 0x80 + bits ≤ high) :
    takeTrailing (need + 1) low high value ((0x80 + bits).toUInt8 :: rest) =
      ((takeTrailing need 0x80 0xBF (value * 0x40 + bits) rest).1,
        (takeTrailing need 0x80 0xBF (value * 0x40 + bits) rest).2 + 1) := by
  have hbyte : (0x80 + bits).toUInt8.toNat = 0x80 + bits := toNat_toUInt8_of_lt (by omega)
  have hbits : (0x80 + bits) % 0x40 = bits := by omega
  rw [takeTrailing, hbyte, if_pos ⟨hleast, hmost⟩, hbits]

theorem ofNat?_toNat (c : CodePoint) : CodePoint.ofNat? c.toNat = some c :=
  dif_pos c.isLt

/-- The bytes of a code point are one piece, whatever follows. -/
theorem piece_of_encodePoint {c : CodePoint} {bytes : List UInt8}
    (hencoded : encodePoint? c = some bytes) (rest : List UInt8) :
    ∃ b trailing, bytes = b :: trailing ∧ piece b (trailing ++ rest) =
      (some c, trailing.length) := by
  have hlimit : c.toNat < 0x110000 := c.isLt
  have hwhole : CodePoint.ofNat? c.toNat = some c := ofNat?_toNat c
  rw [encodePoint?] at hencoded
  split at hencoded
  · next hsmall =>
    cases hencoded
    refine ⟨_, [], rfl, ?_⟩
    rw [piece, lead?_one hsmall]
    exact congrArg (·, 0) hwhole
  split at hencoded
  · next hlarge hsmall =>
    cases hencoded
    refine ⟨_, _, rfl, ?_⟩
    have hvalue : c.toNat / 0x40 * 0x40 + c.toNat % 0x40 = c.toNat := by omega
    rw [piece, lead?_two (by omega) (by omega)]
    simp only [List.cons_append, List.nil_append]
    rw [takeTrailing_cons 0 _ _ (by omega) (by omega) (by omega), hvalue]
    exact congrArg (·, 1) hwhole
  split at hencoded
  · cases hencoded
  next hlarge hsurrogate =>
  have hunpaired : c.toNat < 0xD800 ∨ 0xDFFF < c.toNat := by
    rw [CodePoint.isSurrogate, Bool.and_eq_true, decide_eq_true_eq, decide_eq_true_eq] at hsurrogate
    omega
  split at hencoded
  · next hsmall =>
    cases hencoded
    refine ⟨_, _, rfl, ?_⟩
    have hvalue : (c.toNat / 0x1000 * 0x40 + c.toNat / 0x40 % 0x40) * 0x40 + c.toNat % 0x40 =
        c.toNat := by omega
    have hleast : (if c.toNat / 0x1000 = 0 then 0xA0 else 0x80) ≤ 0x80 + c.toNat / 0x40 % 0x40 := by
      split <;> omega
    have hmost : 0x80 + c.toNat / 0x40 % 0x40 ≤
        (if c.toNat / 0x1000 = 0xD then 0x9F else 0xBF) := by
      split <;> omega
    rw [piece, lead?_three (by omega)]
    simp only [List.cons_append, List.nil_append]
    rw [takeTrailing_cons 1 _ _ (by omega) hleast hmost,
      takeTrailing_cons 0 _ _ (by omega) (by omega) (by omega), hvalue]
    exact congrArg (·, 2) hwhole
  · next hlarge =>
    cases hencoded
    refine ⟨_, _, rfl, ?_⟩
    have hvalue : ((c.toNat / 0x40000 * 0x40 + c.toNat / 0x1000 % 0x40) * 0x40 +
        c.toNat / 0x40 % 0x40) * 0x40 + c.toNat % 0x40 = c.toNat := by omega
    have hleast : (if c.toNat / 0x40000 = 0 then 0x90 else 0x80) ≤
        0x80 + c.toNat / 0x1000 % 0x40 := by
      split <;> omega
    have hmost : 0x80 + c.toNat / 0x1000 % 0x40 ≤
        (if c.toNat / 0x40000 = 4 then 0x8F else 0xBF) := by
      split <;> omega
    rw [piece, lead?_four (by omega)]
    simp only [List.cons_append, List.nil_append]
    rw [takeTrailing_cons 2 _ _ (by omega) hleast hmost,
      takeTrailing_cons 1 _ _ (by omega) (by omega) (by omega),
      takeTrailing_cons 0 _ _ (by omega) (by omega) (by omega), hvalue]
    exact congrArg (·, 3) hwhole

theorem pieces_of_encodePoint {c : CodePoint} {bytes : List UInt8}
    (hencoded : encodePoint? c = some bytes) (rest : List UInt8) :
    pieces (bytes ++ rest) = some c :: pieces rest := by
  obtain ⟨b, trailing, rfl, hpiece⟩ := piece_of_encodePoint hencoded rest
  rw [List.cons_append, pieces, hpiece]
  simp only [List.drop_left]

theorem exists_encodePoint {c : CodePoint} (hunpaired : c.isSurrogate = false) :
    ∃ bytes, encodePoint? c = some bytes := by
  unfold encodePoint?
  simp only [hunpaired]
  split
  · exact ⟨_, rfl⟩
  split
  · exact ⟨_, rfl⟩
  split
  · next hwrong => cases hwrong
  split
  · exact ⟨_, rfl⟩
  · exact ⟨_, rfl⟩

/-! ### Texts -/

/-- A text without surrogates has bytes, and these are the pieces of its code points. -/
theorem exists_encode {t : Text} (hencodable : t.Encodable) :
    ∃ bytes, encode? t = some bytes ∧
      ∀ rest, pieces (bytes ++ rest) = t.map some ++ pieces rest := by
  induction t with
  | nil => exact ⟨[], rfl, fun rest => rfl⟩
  | cons c t ih =>
    obtain ⟨others, hothers, hpieces⟩ := ih fun c' hmember =>
      hencodable c' (List.mem_cons_of_mem c hmember)
    obtain ⟨first, hfirst⟩ := exists_encodePoint (hencodable c List.mem_cons_self)
    obtain ⟨points, hpoints, rfl⟩ := Option.map_eq_some_iff.mp hothers
    refine ⟨first ++ points.flatten, ?_, fun rest => ?_⟩
    · rw [encode?, List.mapM_cons, hfirst, hpoints]
      rfl
    · rw [List.append_assoc, pieces_of_encodePoint hfirst, hpieces]
      rfl

/-- Bytes whose pieces are all code points decode to these. -/
theorem decode?_of_pieces {bytes : List UInt8} {t : Text} (h : pieces bytes = t.map some) :
    decode? bytes = some t := by
  have hpresent (points : Text) : (points.map some).mapM id = some points := by
    induction points with
    | nil => rfl
    | cons c points ih =>
      rw [List.map_cons, List.mapM_cons, ih]
      rfl
  rw [decode?, h, hpresent]

end Utf8
end CilAtlas
