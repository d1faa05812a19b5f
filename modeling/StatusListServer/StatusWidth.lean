import StatusListServer.SlotReader

/-!
# Field widths and array sizes

`determine_bits` returns the least width that holds every requested value and
never less than the stored width; `calculate_array_size` returns the least
number of bytes that holds the largest requested index.  Both are put in closed
form here, so that the proofs about `create` and `update` never unfold them.
-/

namespace StatusListServer

open BitStream CheckedEval

/-- The least positive width that holds `v`. -/
def widthOf (v : Nat) : Nat := max 1 (Nat.clog 2 (v + 1))

/-- Every value takes a bit. -/
theorem widthOf_pos (v : Nat) : 1 ≤ widthOf v := Nat.le_max_left _ _

/-- Greater values take no fewer bits. -/
theorem widthOf_mono {v w : Nat} (h : v ≤ w) : widthOf v ≤ widthOf w := by
  have hclog : Nat.clog 2 (v + 1) ≤ Nat.clog 2 (w + 1) := Nat.clog_mono_right 2 (by omega)
  unfold widthOf
  omega

/-- A value is below two to its width. -/
theorem lt_two_pow_widthOf (v : Nat) : v < 2 ^ widthOf v := by
  have hclog : v + 1 ≤ 2 ^ Nat.clog 2 (v + 1) := Nat.le_pow_clog (by decide) _
  have hmax : 2 ^ Nat.clog 2 (v + 1) ≤ 2 ^ widthOf v :=
    Nat.pow_le_pow_right (by decide) (Nat.le_max_right _ _)
  omega

/-- A 32-bit value needs at most 32 bits. -/
theorem widthOf_le_of_lt {v n : Nat} (hn : 1 ≤ n) (h : v < 2 ^ n) : widthOf v ≤ n :=
  Nat.max_le.mpr ⟨hn, Nat.clog_le_of_le_pow h⟩

/-- Values in the application-specific range need at least nine bits. -/
theorem nine_le_widthOf {v : Nat} (h : 256 ≤ v) : 9 ≤ widthOf v := by
  have hlt : 8 < Nat.clog 2 (v + 1) :=
    (Nat.lt_clog_iff_pow_lt (by decide)).mpr (by omega)
  exact Nat.le_trans hlt (Nat.le_max_right _ _)

/-- The lowest set bit of a power of two. -/
theorem trailingZeros_two_pow {k : Nat} (hk : k < 64) : trailingZeros (2 ^ k) = k := by
  have hfind : (List.range 64).find? (fun j => (2 ^ k).testBit j) = some k := by
    rw [List.find?_range_eq_some]
    refine ⟨by simp, List.mem_range.mpr hk, ?_⟩
    intro j hj
    simp [show k ≠ j by omega]
  simp [trailingZeros, hfind]

/-- On legal values the width arms compute the least width. -/
theorem requiredBits_of_legal {v : Nat} (hlegal : Legal v) (hv : v < 2 ^ 32) :
    requiredBits v = .ok (widthOf v) := by
  rcases hlegal with hsmall | hbig
  · have hcases : v = 0 ∨ v = 1 ∨ v = 2 := by omega
    rcases hcases with rfl | rfl | rfl <;> decide +kernel
  · have hnine := nine_le_widthOf hbig
    have hle : Nat.clog 2 (v + 1) ≤ 32 := Nat.clog_le_of_le_pow hv
    have hmax : widthOf v = Nat.clog 2 (v + 1) := by
      unfold widthOf at hnine ⊢
      omega
    have hzeros : trailingZeros (nextPowerOfTwo (v + 1)) = widthOf v := by
      rw [nextPowerOfTwo, trailingZeros_two_pow (by omega), hmax]
    rw [requiredBits, if_neg (by omega), if_neg (by omega), if_neg (by omega),
      if_neg (by omega), hzeros]
    exact if_neg (by omega)

/-- The least width for a list of entries. -/
def maxWidth (entries : List StatusEntry) : Nat :=
  entries.foldr (fun entry w => max (widthOf entry.status.code) w) 1

/-- Every list has a width. -/
theorem maxWidth_pos (entries : List StatusEntry) : 1 ≤ maxWidth entries := by
  induction entries with
  | nil => exact Nat.le_refl 1
  | cons entry rest ih => exact Nat.le_trans ih (Nat.le_max_right _ _)

/-- The width of two lists together. -/
theorem maxWidth_append (xs ys : List StatusEntry) :
    maxWidth (xs ++ ys) = max (maxWidth xs) (maxWidth ys) := by
  induction xs with
  | nil => exact (Nat.max_eq_right (maxWidth_pos ys)).symm
  | cons x rest ih =>
      have hcons : ∀ zs, maxWidth (x :: zs) = max (widthOf x.status.code) (maxWidth zs) :=
        fun _ => rfl
      rw [List.cons_append, hcons, hcons, ih, Nat.max_assoc]

/-- Every entry fits. -/
theorem widthOf_le_maxWidth {entries : List StatusEntry} {entry : StatusEntry}
    (h : entry ∈ entries) : widthOf entry.status.code ≤ maxWidth entries := by
  induction entries with
  | nil => cases h
  | cons x rest ih =>
      rcases List.mem_cons.mp h with rfl | h
      · exact Nat.le_max_left _ _
      · exact Nat.le_trans (ih h) (Nat.le_max_right _ _)

/-- The width is the least into which all entries fit. -/
theorem maxWidth_le {entries : List StatusEntry} {n : Nat} (hn : 1 ≤ n)
    (h : ∀ entry ∈ entries, widthOf entry.status.code ≤ n) : maxWidth entries ≤ n := by
  induction entries with
  | nil => exact hn
  | cons x rest ih =>
      exact Nat.max_le.mpr ⟨h x List.mem_cons_self,
        ih (fun e he => h e (List.mem_cons_of_mem _ he))⟩

/-- A status is a number of 32 bits. -/
theorem Status.code_lt (status : Status) : status.code < 2 ^ 32 := by
  cases status with
  | applicationSpecific value => exact value.isLt
  | _ => decide

/-- No list is wider than 32 bits. -/
theorem maxWidth_le_thirtyTwo (entries : List StatusEntry) : maxWidth entries ≤ 32 :=
  maxWidth_le (by decide) (fun entry _ => widthOf_le_of_lt (by decide) entry.status.code_lt)

/-- `determine_bits` accepts exactly lists of accepted statuses. -/
theorem accepted_of_determineBits {entries : List StatusEntry} {original : Option Nat}
    {bits : Nat} (h : determineBits entries original = .ok bits) :
    ∀ entry ∈ entries, entry.status.Accepted := by
  obtain ⟨values, hvalues, _⟩ := bind_eq_ok h
  intro entry he
  obtain ⟨value, hvalue⟩ := mapM_ok_mem hvalues entry he
  exact accepted_of_statusValue hvalue

/-- **Width, closed form.**  For a nonempty list of accepted entries
`determine_bits` is the larger of the stored width and the least width for the
list. -/
theorem determineBits_eq {entries : List StatusEntry} {original : Option Nat}
    (hne : entries ≠ []) (hacc : ∀ entry ∈ entries, entry.status.Accepted) :
    determineBits entries original =
      .ok (max (original.getD (maxWidth entries)) (maxWidth entries)) := by
  obtain ⟨values, hvalues, hall⟩ := mapM_eq_ok (f := fun e : StatusEntry => statusValue e.status)
    (fun entry he => statusValue_of_accepted (hacc entry he))
  have hcodes : values.map BitVec.toNat = entries.map (fun entry => entry.status.code) := by
    clear hvalues hne hacc
    induction hall with
    | nil => rfl
    | cons h _ ih => rw [List.map_cons, List.map_cons, h, ih]
  obtain ⟨top, htop⟩ := Option.isSome_iff_exists.mp
    (List.isSome_max?_of_ne_nil (l := entries.map (fun entry => entry.status.code))
      (by simpa using hne))
  obtain ⟨hmem, hmax⟩ := List.max?_eq_some_iff.mp htop
  obtain ⟨largest, hlargest, rfl⟩ := List.mem_map.mp hmem
  have hwidth : widthOf largest.status.code = maxWidth entries := by
    apply Nat.le_antisymm (widthOf_le_maxWidth hlargest)
    apply maxWidth_le (widthOf_pos _)
    intro entry he
    exact widthOf_mono (hmax _ (List.mem_map.mpr ⟨entry, he, rfl⟩))
  rw [determineBits, hvalues, ok_bind, hcodes, htop]
  simp only []
  rw [requiredBits_of_legal (hacc largest hlargest).legal largest.status.code_lt, hwidth]
  rfl

/-- The number of bytes that holds slots `0 .. maxIndex` of width `bits`. -/
def bytesFor (maxIndex bits : Nat) : Nat := (maxIndex * bits + bits - 1) / 8 + 1

/-- Slot `maxIndex`, and every slot below it, fits in `bytesFor` bytes. -/
theorem inside_of_bytesFor {a : List Byte} {maxIndex bits i : Nat} (hpos : 0 < bits)
    (hlen : bytesFor maxIndex bits ≤ a.length) (hi : i ≤ maxIndex) : Inside a bits i := by
  have hmul : i * bits ≤ maxIndex * bits := Nat.mul_le_mul_right bits hi
  unfold Inside
  unfold bytesFor at hlen
  omega

/-- An array sized for a slot wastes less than a byte. -/
theorem bytesFor_whole {maxIndex bits : Nat} (hpos : 0 < bits) :
    8 * bytesFor maxIndex bits % bits < 8 := by
  obtain ⟨r, hr, hsum⟩ : ∃ r, r < 8 ∧
      8 * bytesFor maxIndex bits = (maxIndex + 1) * bits + r := by
    have hsucc : (maxIndex + 1) * bits = maxIndex * bits + bits := Nat.succ_mul _ _
    refine ⟨8 * bytesFor maxIndex bits - (maxIndex + 1) * bits, ?_, ?_⟩
    · unfold bytesFor
      omega
    · unfold bytesFor
      omega
  rw [hsum, Nat.mul_comm, Nat.mul_add_mod]
  exact Nat.lt_of_le_of_lt (Nat.mod_le _ _) hr

/-- Indices are 31-bit, which bounds the array. -/
theorem bytesFor_le {maxIndex bits : Nat} (hpos : 0 < bits) (h : maxIndex < 2 ^ 31) :
    bytesFor maxIndex bits ≤ 2 ^ 28 * bits := by
  have hmul : maxIndex * bits + bits ≤ 2 ^ 31 * bits := by
    rw [← Nat.succ_mul]
    exact Nat.mul_le_mul_right bits h
  unfold bytesFor
  omega

/-- **Size, closed form.**  On a nonempty list `calculate_array_size` is the
size for the largest index, or an error when every index is negative. -/
theorem calculateArraySize_of_nonneg {entries : List StatusEntry} {bits : Nat}
    (hpos : 0 < bits) (hne : entries ≠ [])
    (hidx : ∀ entry ∈ entries, 0 ≤ entry.index.toInt) :
    ∃ maxIndex, maxIndex < 2 ^ 31 ∧
      calculateArraySize entries bits = .ok (bytesFor maxIndex bits) ∧
      (∀ entry ∈ entries, entry.slot ≤ maxIndex) ∧
      ∃ entry ∈ entries, entry.slot = maxIndex := by
  obtain ⟨top, htop⟩ := Option.isSome_iff_exists.mp
    (List.isSome_max?_of_ne_nil (l := entries.map (fun update => update.index.toInt))
      (by simpa using hne))
  obtain ⟨hmem, hmax⟩ := List.max?_eq_some_iff.mp htop
  obtain ⟨largest, hlargest, rfl⟩ := List.mem_map.mp hmem
  have hnneg : ¬ largest.index.toInt < 0 := Int.not_lt.mpr (hidx largest hlargest)
  refine ⟨largest.slot, ?_, ?_, ?_, largest, hlargest, rfl⟩
  · have := largest.index.toInt_lt
    unfold StatusEntry.slot
    omega
  · rw [calculateArraySize, if_neg (by simpa using hne), htop]
    simp only [hnneg, if_false]
    rw [sub_of_le (by omega)]
    rfl
  · intro entry he
    have hle := hmax _ (List.mem_map.mpr ⟨entry, he, rfl⟩)
    unfold StatusEntry.slot
    omega

end StatusListServer
