import Mathlib.Algebra.Order.Ring.Int
import Mathlib.Data.Nat.Log
import Mathlib.Data.List.Basic

/-!
# Byte lists read as little-endian bit streams

Bit `p` of a byte list is bit `p % 8` of byte `p / 8`, least significant
first, and reads `false` past the end.  A stream is cut into fields of a fixed
width: field `i` of width `w` is the window `[i * w, i * w + w)`.

A writer is described by `Writes lo hi v a b`: the window `[lo, hi)` of `b`
holds `v` and every other bit is the one of `a`.  Adjacent windows compose
(`Writes.trans`), which is all a byte-by-byte or bit-by-bit loop needs.
-/

namespace BitStream

/-- One byte of a stream. -/
abbrev Byte := BitVec 8

/-- Bit `p` of the stream, least significant bit of each byte first. -/
def bitAt (a : List Byte) (p : Nat) : Bool :=
  (a.getD (p / 8) 0#8).getLsbD (p % 8)

/-- Field `i` of width `w`, least significant bit first. -/
def fieldAt (a : List Byte) (w i : Nat) : Nat :=
  Nat.ofBits (fun k : Fin w => bitAt a (i * w + k))

/-- Field `i` of width `w` lies inside the stream. -/
def Inside (a : List Byte) (w i : Nat) : Prop :=
  i * w + w ≤ 8 * a.length

/-- A stream has no bits past its end. -/
theorem bitAt_of_length_le {a : List Byte} {p : Nat} (h : 8 * a.length ≤ p) :
    bitAt a p = false := by
  have hlen : a.length ≤ p / 8 := by omega
  simp [bitAt, List.getD_eq_getElem?_getD, List.getElem?_eq_none hlen]

/-- An all-zero stream reads `false` everywhere. -/
theorem bitAt_replicate_zero (n p : Nat) :
    bitAt (List.replicate n 0#8) p = false := by
  by_cases h : p / 8 < n <;>
    simp [bitAt, List.getD_eq_getElem?_getD, h]

/-- Padding with zero bytes changes no bit. -/
theorem bitAt_append_replicate_zero (a : List Byte) (n p : Nat) :
    bitAt (a ++ List.replicate n 0#8) p = bitAt a p := by
  by_cases h : p / 8 < a.length
  · simp [bitAt, List.getD_eq_getElem?_getD, List.getElem?_append_left h]
  · have hlen : a.length ≤ p / 8 := by omega
    have hpad : bitAt (a ++ List.replicate n 0#8) p =
        (((List.replicate n 0#8)[p / 8 - a.length]?).getD 0#8).getLsbD (p % 8) := by
      simp [bitAt, List.getD_eq_getElem?_getD, List.getElem?_append_right hlen]
    rw [hpad, bitAt_of_length_le (by omega)]
    by_cases hn : p / 8 - a.length < n <;> simp [hn]

/-- Overwriting one byte replaces exactly its eight bits. -/
theorem bitAt_set {a : List Byte} {i : Nat} (hi : i < a.length) (b : Byte)
    (p : Nat) :
    bitAt (a.set i b) p = if p / 8 = i then b.getLsbD (p % 8) else bitAt a p := by
  by_cases h : p / 8 = i
  · subst h
    simp [bitAt, List.getD_eq_getElem?_getD, hi]
  · have hne : i ≠ p / 8 := fun he => h he.symm
    simp [bitAt, List.getD_eq_getElem?_getD, List.getElem?_set_ne hne, h]

/-- A byte of the stream is read through its own eight bits. -/
theorem getLsbD_getElem {a : List Byte} {i : Nat} (hi : i < a.length) {k : Nat}
    (hk : k < 8) : (a[i]).getLsbD k = bitAt a (8 * i + k) := by
  have hdiv : (8 * i + k) / 8 = i := by omega
  have hmod : (8 * i + k) % 8 = k := by omega
  simp [bitAt, hdiv, hmod, List.getD_eq_getElem?_getD, hi]

/-- A field is below the power of two of its width. -/
theorem fieldAt_lt (a : List Byte) (w i : Nat) : fieldAt a w i < 2 ^ w :=
  Nat.ofBits_lt_two_pow _

/-- Bits of a field are bits of the stream. -/
theorem testBit_fieldAt (a : List Byte) (w i k : Nat) :
    (fieldAt a w i).testBit k = (decide (k < w) && bitAt a (i * w + k)) := by
  rw [fieldAt, Nat.testBit_ofBits]
  by_cases h : k < w <;> simp [h]

/-- A field is determined by its bits. -/
theorem fieldAt_eq_of_bits {a : List Byte} {w i v : Nat} (hv : v < 2 ^ w)
    (h : ∀ k, k < w → bitAt a (i * w + k) = v.testBit k) :
    fieldAt a w i = v := by
  apply Nat.eq_of_testBit_eq
  intro k
  rw [testBit_fieldAt]
  by_cases hk : k < w
  · simp [hk, h k hk]
  · have hbig : v < 2 ^ k :=
      Nat.lt_of_lt_of_le hv (Nat.pow_le_pow_right (by decide) (by omega))
    simp [hk, Nat.testBit_lt_two_pow hbig]

/-- Streams with the same bits in a window have the same field there. -/
theorem fieldAt_congr {a b : List Byte} {w i : Nat}
    (h : ∀ k, k < w → bitAt a (i * w + k) = bitAt b (i * w + k)) :
    fieldAt a w i = fieldAt b w i := by
  apply fieldAt_eq_of_bits (fieldAt_lt b w i)
  intro k hk
  rw [h k hk, testBit_fieldAt]
  simp [hk]

/-- A field of an all-zero stream is zero. -/
theorem fieldAt_replicate_zero (n w i : Nat) :
    fieldAt (List.replicate n 0#8) w i = 0 :=
  fieldAt_eq_of_bits (Nat.two_pow_pos w) (fun k _ => by simp [bitAt_replicate_zero])

/-- `b` is `a` with the window `[lo, hi)` overwritten by `v`. -/
structure Writes (lo hi : Nat) (v : Nat → Bool) (a b : List Byte) : Prop where
  length : b.length = a.length
  bit : ∀ p, bitAt b p = if lo ≤ p ∧ p < hi then v p else bitAt a p

/-- An empty window writes nothing. -/
theorem Writes.refl (lo : Nat) (v : Nat → Bool) (a : List Byte) :
    Writes lo lo v a a :=
  ⟨rfl, fun p => by rw [if_neg (by omega)]⟩

/-- Adjacent windows of one value compose. -/
theorem Writes.trans {lo mid hi : Nat} {v : Nat → Bool} {a b c : List Byte}
    (hlm : lo ≤ mid) (hmh : mid ≤ hi)
    (h₁ : Writes lo mid v a b) (h₂ : Writes mid hi v b c) :
    Writes lo hi v a c := by
  refine ⟨h₂.length.trans h₁.length, ?_⟩
  intro p
  rw [h₂.bit, h₁.bit]
  by_cases hlo : lo ≤ p <;> by_cases hmid : p < mid <;> by_cases hhi : p < hi <;>
    simp [hlo, hmid, hhi, show mid ≤ p ↔ ¬ p < mid by omega] <;> omega

/-- A written field reads back. -/
theorem Writes.fieldAt_self {w i value : Nat} {a b : List Byte}
    (hvalue : value < 2 ^ w)
    (h : Writes (i * w) (i * w + w) (fun p => value.testBit (p - i * w)) a b) :
    fieldAt b w i = value := by
  apply fieldAt_eq_of_bits hvalue
  intro k hk
  rw [h.bit, if_pos ⟨by omega, by omega⟩]
  congr 1
  omega

/-- Distinct fields of one width occupy disjoint windows. -/
theorem field_windows_disjoint {w i j k : Nat} (hij : j ≠ i) (hk : k < w) :
    ¬ (i * w ≤ j * w + k ∧ j * w + k < i * w + w) := by
  rintro ⟨hlo, hhi⟩
  rcases Nat.lt_or_gt_of_ne hij with hlt | hgt
  · have hmul : (j + 1) * w ≤ i * w := Nat.mul_le_mul_right w hlt
    rw [Nat.succ_mul] at hmul
    omega
  · have hmul : (i + 1) * w ≤ j * w := Nat.mul_le_mul_right w hgt
    rw [Nat.succ_mul] at hmul
    omega

/-- Writing one field leaves every other field alone. -/
theorem Writes.fieldAt_ne {w i j : Nat} {v : Nat → Bool} {a b : List Byte}
    (hij : j ≠ i) (h : Writes (i * w) (i * w + w) v a b) :
    fieldAt b w j = fieldAt a w j := by
  apply fieldAt_congr
  intro k hk
  rw [h.bit, if_neg (field_windows_disjoint hij hk)]

end BitStream
