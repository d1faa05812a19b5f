import StatusListServer.StatusList

/-!
# The slot writer

`apply_updates` writes one field per entry, through a single-byte path when
the field fits the byte it starts in and through a bit-by-bit path when it
does not.  Both paths are shown to be the same window write: the field of the
entry's index is overwritten with the low bits of its value and no other bit
of the array changes.  `applyUpdates_spec` is the resulting description of a
whole update list as an assignment sequence on a map from slots to values.
-/

namespace StatusListServer

open BitStream CheckedEval

/-- The low `n` ones of a word. -/
theorem getLsbD_lowOnes {w n : Nat} (hn : n < w) (k : Nat) :
    ((1#w <<< n) - 1#w).getLsbD k = decide (k < n) := by
  have hpow : 2 ^ n < 2 ^ w := Nat.pow_lt_pow_right (by decide) hn
  have hpos : 0 < 2 ^ n := Nat.two_pow_pos n
  have hw : 1 < 2 ^ w := by omega
  have htoNat : ((1#w <<< n) - 1#w).toNat = 2 ^ n - 1 := by
    simp only [BitVec.toNat_sub, BitVec.toNat_shiftLeft, BitVec.toNat_ofNat,
      Nat.mod_eq_of_lt hw, Nat.shiftLeft_eq, Nat.one_mul, Nat.mod_eq_of_lt hpow]
    have hsum : 2 ^ w - 1 + 2 ^ n = 2 ^ w + (2 ^ n - 1) := by omega
    rw [hsum, Nat.add_mod_left, Nat.mod_eq_of_lt (by omega)]
  rw [BitVec.getLsbD, htoNat, Nat.testBit_two_pow_sub_one]

/-- The mask of both writer paths covers `[offset, offset + n)`. -/
def windowMask (n offset : Nat) : Byte :=
  (((1#32 <<< n) - 1#32) <<< offset).setWidth 8

/-- The bits of the mask. -/
theorem getLsbD_windowMask {n offset : Nat} (hn : n < 32) {k : Nat} (hk : k < 8) :
    (windowMask n offset).getLsbD k = decide (offset ≤ k ∧ k < offset + n) := by
  rw [windowMask, BitVec.getLsbD_setWidth, BitVec.getLsbD_shiftLeft, getLsbD_lowOnes hn]
  by_cases h₁ : offset ≤ k <;> by_cases h₂ : k < offset + n
  all_goals simp [hk, h₁, h₂] <;> omega

/-- Clear a window of byte `i`, then or the masked value in. -/
def writeMasked (a : List Byte) (i : Nat) (h : i < a.length) (n offset : Nat)
    (value : BitVec 32) : List Byte :=
  a.set i ((a[i] &&& ~~~windowMask n offset) |||
    ((value.setWidth 8 <<< offset) &&& windowMask n offset))

/-- A masked write writes its window. -/
theorem writes_writeMasked {a : List Byte} {i offset n : Nat} (hi : i < a.length)
    (hfit : offset + n ≤ 8) (hn : n < 32) (value : BitVec 32) :
    Writes (8 * i + offset) (8 * i + offset + n)
      (fun p => value.getLsbD (p - (8 * i + offset))) a
      (writeMasked a i hi n offset value) := by
  refine ⟨by simp [writeMasked], ?_⟩
  intro p
  rw [writeMasked, bitAt_set hi]
  by_cases hp : p / 8 = i
  · have hk : p % 8 < 8 := Nat.mod_lt _ (by decide)
    have hpe : p = 8 * i + p % 8 := by omega
    have hbyte : a[i].getLsbD (p % 8) = bitAt a p := by
      rw [getLsbD_getElem hi hk, ← hpe]
    have hwin : (8 * i + offset ≤ p ∧ p < 8 * i + offset + n) ↔
        (offset ≤ p % 8 ∧ p % 8 < offset + n) := by omega
    rw [if_pos hp, BitVec.getLsbD_or, BitVec.getLsbD_and, BitVec.getLsbD_and,
      BitVec.getLsbD_not, BitVec.getLsbD_shiftLeft, BitVec.getLsbD_setWidth,
      getLsbD_windowMask hn hk, hbyte]
    by_cases hin : offset ≤ p % 8 ∧ p % 8 < offset + n
    · have hsub : p % 8 - offset = p - (8 * i + offset) := by omega
      have hlow : ¬ p % 8 < offset := by omega
      have hsmall : p - (8 * i + offset) < 8 := by omega
      simp [hin, hwin, hk, hsub, hlow, hsmall]
    · simp [hin, hwin, hk]
  · have hout : ¬ (8 * i + offset ≤ p ∧ p < 8 * i + offset + n) := by omega
    rw [if_neg hp, if_neg hout]

/-- The single-byte path writes its window. -/
theorem writeWithinByte_eq {a : List Byte} {i offset n : Nat} (hi : i < a.length)
    (hfit : offset + n ≤ 8) (hpos : 0 < n) (value : BitVec 32) :
    writeWithinByte a i offset n value = .ok (writeMasked a i hi n offset value) := by
  have hn : n < 32 := by omega
  have ho : offset < 8 := by omega
  have ho' : offset < 32 := by omega
  simp [writeWithinByte, hn, ho, ho', hi, writeMasked, windowMask]

/-- Byte `i` with bit `offset` replaced by bit `g` of the value. -/
def writeBit (a : List Byte) (i : Nat) (h : i < a.length) (offset : Nat)
    (value : BitVec 32) (g : Nat) : List Byte :=
  a.set i ((a[i] &&& ~~~(1#8 <<< offset)) |||
    (((value >>> g) &&& 1#32).setWidth 8 <<< offset))

/-- The write of a bit writes one position. -/
theorem writes_writeBit {a : List Byte} {i offset : Nat} (hi : i < a.length)
    (ho : offset < 8) (value : BitVec 32) (g : Nat) :
    Writes (8 * i + offset) (8 * i + offset + 1) (fun _ => value.getLsbD g) a
      (writeBit a i hi offset value g) := by
  refine ⟨by simp [writeBit], ?_⟩
  intro p
  rw [writeBit, bitAt_set hi]
  by_cases hp : p / 8 = i
  · have hk : p % 8 < 8 := Nat.mod_lt _ (by decide)
    have hpe : p = 8 * i + p % 8 := by omega
    have hbyte : a[i].getLsbD (p % 8) = bitAt a p := by
      rw [getLsbD_getElem hi hk, ← hpe]
    have hwin : (8 * i + offset ≤ p ∧ p < 8 * i + offset + 1) ↔ p % 8 = offset := by
      omega
    rw [if_pos hp, BitVec.getLsbD_or, BitVec.getLsbD_and, BitVec.getLsbD_not,
      BitVec.getLsbD_shiftLeft, BitVec.getLsbD_shiftLeft, BitVec.getLsbD_setWidth,
      BitVec.getLsbD_and, BitVec.getLsbD_ushiftRight, BitVec.getLsbD_one,
      BitVec.getLsbD_one, hbyte]
    by_cases heq : p % 8 = offset
    · rw [if_pos (hwin.mpr heq)]
      simp [heq, ho]
    · rw [if_neg (fun h => heq (hwin.mp h))]
      by_cases hlt : p % 8 < offset
      · simp [hk, hlt]
      · have hne : p % 8 - offset ≠ 0 := by omega
        simp [hk, hne]
  · have hout : ¬ (8 * i + offset ≤ p ∧ p < 8 * i + offset + 1) := by omega
    rw [if_neg hp, if_neg hout]

/-- Writing one bit of the value advances the cursor by one bit. -/
theorem writeValueBit_spec (value : BitVec 32) {written i : Nat} {cursor : WriteCursor}
    (hbit : written + i < 32) (hoff : cursor.curOffset < 8)
    (hin : cursor.curByte < cursor.statusArray.length) :
    ∃ next, writeValueBit value written cursor i = .ok next ∧
      next.curOffset < 8 ∧
      8 * next.curByte + next.curOffset = 8 * cursor.curByte + cursor.curOffset + 1 ∧
      Writes (8 * cursor.curByte + cursor.curOffset)
        (8 * cursor.curByte + cursor.curOffset + 1)
        (fun _ => value.getLsbD (written + i)) cursor.statusArray next.statusArray := by
  have hwrite := writes_writeBit hin hoff value (written + i)
  have heval : writeValueBit value written cursor i =
      if 8 ≤ cursor.curOffset + 1 then
        .ok ⟨writeBit cursor.statusArray cursor.curByte hin cursor.curOffset value
          (written + i), cursor.curByte + 1, 0⟩
      else
        .ok ⟨writeBit cursor.statusArray cursor.curByte hin cursor.curOffset value
          (written + i), cursor.curByte, cursor.curOffset + 1⟩ := by
    simp [writeValueBit, hbit, hoff, hin, writeBit, pure, Except.pure]
  rw [heval]
  split
  · exact ⟨_, rfl, by simp, by simp; omega, hwrite⟩
  · exact ⟨_, rfl, by simp; omega, by simp; omega, hwrite⟩

/-- The inner `for` loop writes the next `n` bits of the value. -/
theorem writeValueBits_spec (value : BitVec 32) {written start : Nat} :
    ∀ {n : Nat} {cursor : WriteCursor}, written + n ≤ 32 → cursor.curOffset < 8 →
      8 * cursor.curByte + cursor.curOffset = start + written →
      start + written + n ≤ 8 * cursor.statusArray.length →
      ∃ next, (List.range n).foldlM (writeValueBit value written) cursor = .ok next ∧
        next.curOffset < 8 ∧
        8 * next.curByte + next.curOffset = start + written + n ∧
        Writes (start + written) (start + written + n)
          (fun p => value.getLsbD (p - start)) cursor.statusArray next.statusArray := by
  intro n cursor hbits hoff hpos hin
  induction n with
  | zero => exact ⟨cursor, rfl, hoff, by simpa using hpos, Writes.refl _ _ _⟩
  | succ n ih =>
      obtain ⟨mid, hmid, hmidOff, hmidPos, hmidWrites⟩ := ih (by omega) (by omega)
      have hmidIn : mid.curByte < mid.statusArray.length := by
        rw [hmidWrites.length]
        omega
      obtain ⟨next, hnext, hnextOff, hnextPos, hnextWrites⟩ :=
        writeValueBit_spec value (show written + n < 32 by omega) hmidOff hmidIn
      refine ⟨next, ?_, hnextOff, by omega, ?_⟩
      · rw [List.range_succ, foldlM_append_singleton, hmid]
        exact hnext
      · rw [hmidPos] at hnextWrites
        refine hmidWrites.trans (by omega) (by omega) ⟨hnextWrites.length, ?_⟩
        intro p
        rw [hnextWrites.bit]
        by_cases hp : start + written + n ≤ p ∧ p < start + written + n + 1
        · have hval : p - start = written + n := by omega
          simp [hp, hval, show p < start + written + (n + 1) by omega]
        · have hp' : ¬ (start + written + n ≤ p ∧ p < start + written + (n + 1)) := by
            omega
          rw [if_neg hp, if_neg hp']

/-- The `while` loop writes every remaining bit of the value. -/
theorem writeRemaining_spec (value : BitVec 32) {bits start : Nat} (hbits : bits ≤ 32)
    (cursor : WriteCursor) (written : Nat) (hw : written ≤ bits)
    (hoff : cursor.curOffset < 8)
    (hpos : 8 * cursor.curByte + cursor.curOffset = start + written)
    (hin : start + bits ≤ 8 * cursor.statusArray.length) :
    ∃ out, writeRemaining value bits cursor written = .ok out ∧
      Writes (start + written) (start + bits) (fun p => value.getLsbD (p - start))
        cursor.statusArray out := by
  fun_induction writeRemaining value bits cursor written with
  | case1 cursor written hlt n ih =>
      have hn : n = min (bits - written) 8 := rfl
      obtain ⟨next, hnext, hnextOff, hnextPos, hnextWrites⟩ :=
        writeValueBits_spec value (n := n) (by omega) hoff hpos (by omega)
      obtain ⟨out, hout, houtWrites⟩ := ih next (by omega) hnextOff
        (by omega) (by rw [hnextWrites.length]; exact hin)
      refine ⟨out, ?_, ?_⟩
      · rw [hnext]
        exact hout
      · rw [← Nat.add_assoc] at houtWrites
        exact hnextWrites.trans (by omega) (by omega) houtWrites
  | case2 cursor written hge =>
      have heq : written = bits := by omega
      subst heq
      exact ⟨_, rfl, Writes.refl _ _ _⟩

/-- The multi-byte path writes its window. -/
theorem writeAcrossBytes_spec {a : List Byte} {i offset bits : Nat}
    (hoff : offset < 8) (hcross : 8 < offset + bits) (hbits : bits ≤ 32)
    (hin : 8 * i + offset + bits ≤ 8 * a.length) (value : BitVec 32) :
    ∃ out, writeAcrossBytes a i offset bits value = .ok out ∧
      Writes (8 * i + offset) (8 * i + offset + bits)
        (fun p => value.getLsbD (p - (8 * i + offset))) a out := by
  have hi : i < a.length := by omega
  have hfirst := writes_writeMasked hi (show offset + (8 - offset) ≤ 8 by omega)
    (by omega) value
  have hstart : 8 * (i + 1) + 0 = 8 * i + offset + (8 - offset) := by omega
  obtain ⟨out, hout, hwrites⟩ := writeRemaining_spec value hbits
    ⟨writeMasked a i hi (8 - offset) offset value, i + 1, 0⟩ (8 - offset)
    (by omega) (by simp) hstart (by simpa [hfirst.length] using hin)
  refine ⟨out, ?_, hfirst.trans (by omega) (by omega) hwrites⟩
  have ho : offset < 32 := by omega
  have hfb : 8 - offset < 32 := by omega
  rw [← hout]
  simp [writeAcrossBytes, hoff, ho, hfb, hi, writeMasked, windowMask]

/-- The number a status is stored as. -/
def Status.code : Status → Nat
  | .valid => 0
  | .invalid => 1
  | .suspended => 2
  | .applicationSpecific value => value.toNat

/-- Statuses the writer accepts: application-specific values start at 256. -/
def Status.Accepted (status : Status) : Prop :=
  ∀ value, status = .applicationSpecific value → 256 ≤ value.toNat

/-- The slot an entry addresses. -/
def StatusEntry.slot (entry : StatusEntry) : Nat := entry.index.toInt.toNat

/-- `statusValue` succeeds exactly on accepted statuses, with their code. -/
theorem statusValue_of_accepted {status : Status} (h : status.Accepted) :
    ∃ value, statusValue status = .ok value ∧ value.toNat = status.code := by
  cases status with
  | valid => exact ⟨0, rfl, rfl⟩
  | invalid => exact ⟨1, rfl, rfl⟩
  | suspended => exact ⟨2, rfl, rfl⟩
  | applicationSpecific value =>
      exact ⟨value, by simp [statusValue, h value rfl], rfl⟩

/-- A status with a value is accepted. -/
theorem accepted_of_statusValue {status : Status} {value : BitVec 32}
    (h : statusValue status = .ok value) : status.Accepted := by
  rintro v rfl
  by_contra hlt
  simp [statusValue, hlt, fail] at h

/-- One entry overwrites its own field and nothing else. -/
theorem applyUpdate_spec {bits : Nat} (hpos : 0 < bits) (hle : bits ≤ 32)
    {a : List Byte} {entry : StatusEntry} (hidx : 0 ≤ entry.index.toInt)
    (hacc : entry.status.Accepted) (hin : Inside a bits entry.slot) :
    ∃ b, applyUpdate bits a entry = .ok b ∧
      Writes (entry.slot * bits) (entry.slot * bits + bits)
        (fun p => entry.status.code.testBit (p - entry.slot * bits)) a b := by
  obtain ⟨value, hvalue, hcode⟩ := statusValue_of_accepted hacc
  have hnneg : ¬ entry.index.toInt < 0 := by omega
  unfold Inside at hin
  have hsplit : 8 * (entry.slot * bits / 8) + entry.slot * bits % 8 =
      entry.slot * bits := Nat.div_add_mod _ 8
  have hbyte : entry.slot * bits / 8 < a.length := by omega
  have hoff : entry.slot * bits % 8 < 8 := Nat.mod_lt _ (by decide)
  have hstep : applyUpdate bits a entry =
      if entry.slot * bits % 8 + bits ≤ 8 then
        writeWithinByte a (entry.slot * bits / 8) (entry.slot * bits % 8) bits value
      else
        writeAcrossBytes a (entry.slot * bits / 8) (entry.slot * bits % 8) bits value := by
    rw [applyUpdate, if_neg hnneg]
    simp only [show entry.index.toInt.toNat = entry.slot from rfl]
    rw [if_neg (Nat.not_le.mpr hbyte), hvalue, ok_bind]
  rw [hstep, ← hcode]
  by_cases hfit : entry.slot * bits % 8 + bits ≤ 8
  · rw [if_pos hfit, writeWithinByte_eq hbyte hfit hpos]
    have hwrites := writes_writeMasked hbyte hfit (by omega) value
    rw [hsplit] at hwrites
    exact ⟨_, rfl, hwrites⟩
  · rw [if_neg hfit]
    obtain ⟨b, hb, hwrites⟩ := writeAcrossBytes_spec hoff (by omega) hle
      (show 8 * (entry.slot * bits / 8) + entry.slot * bits % 8 + bits ≤ 8 * a.length by
        omega) value
    rw [hsplit] at hwrites
    exact ⟨b, hb, hwrites⟩

/-- Assign every entry in order: a later entry for a slot replaces an earlier
one. -/
def assign (m : Nat → Nat) (entries : List StatusEntry) : Nat → Nat :=
  entries.foldl (fun m entry => Function.update m entry.slot entry.status.code) m

/-- What the writer needs of an entry: a slot inside the array and a value that
fits the width. -/
structure Writable (bits : Nat) (a : List Byte) (entry : StatusEntry) : Prop where
  index_nonneg : 0 ≤ entry.index.toInt
  accepted : entry.status.Accepted
  fits : entry.status.code < 2 ^ bits
  inside : Inside a bits entry.slot

/-- A longer array can be written as well. -/
theorem Writable.of_length {bits : Nat} {a b : List Byte} {entry : StatusEntry}
    (hlen : a.length ≤ b.length) (h : Writable bits a entry) : Writable bits b entry where
  index_nonneg := h.index_nonneg
  accepted := h.accepted
  fits := h.fits
  inside := by
    have := h.inside
    unfold Inside at *
    omega

/-- **The writer is an assignment sequence.**  On writable entries
`apply_updates` succeeds, keeps the length, performs the assignments on the
fields in list order and leaves the bits past the last whole field alone. -/
theorem applyUpdates_spec {bits : Nat} (hpos : 0 < bits) (hle : bits ≤ 32) :
    ∀ {entries : List StatusEntry} {a : List Byte},
      (∀ entry ∈ entries, Writable bits a entry) →
      ∃ b, applyUpdates a entries bits = .ok b ∧ b.length = a.length ∧
        (∀ i, fieldAt b bits i = assign (fieldAt a bits) entries i) ∧
        ∀ p, 8 * a.length / bits * bits ≤ p → bitAt b p = bitAt a p := by
  intro entries
  induction entries with
  | nil => exact fun _ => ⟨_, rfl, rfl, fun _ => rfl, fun _ _ => rfl⟩
  | cons entry rest ih =>
      intro a hall
      have hw := hall entry List.mem_cons_self
      obtain ⟨mid, hmid, hwrites⟩ :=
        applyUpdate_spec hpos hle hw.index_nonneg hw.accepted hw.inside
      obtain ⟨b, hb, hlen, hfields, htail⟩ := ih (a := mid) (fun e he =>
        (hall e (List.mem_cons_of_mem _ he)).of_length (by rw [hwrites.length]))
      refine ⟨b, ?_, hlen.trans hwrites.length, ?_, ?_⟩
      · rw [applyUpdates, List.foldlM_cons, hmid]
        exact hb
      · intro i
        have hstep : fieldAt mid bits =
            Function.update (fieldAt a bits) entry.slot entry.status.code := by
          funext j
          by_cases hj : j = entry.slot
          · subst hj
            rw [Function.update_self]
            exact hwrites.fieldAt_self hw.fits
          · rw [Function.update_of_ne hj, hwrites.fieldAt_ne hj]
        rw [hfields, hstep]
        rfl
      · intro p hp
        rw [htail p (by rw [hwrites.length]; exact hp), hwrites.bit, if_neg]
        rintro ⟨_, hlt⟩
        have hslots : entry.slot + 1 ≤ 8 * a.length / bits := by
          rw [Nat.le_div_iff_mul_le hpos, Nat.succ_mul]
          exact hw.inside
        have hmul := Nat.mul_le_mul_right bits hslots
        rw [Nat.succ_mul] at hmul
        omega

/-- A successful update list had no negative index. -/
theorem index_nonneg_of_applyUpdates {bits : Nat} :
    ∀ {entries : List StatusEntry} {a b : List Byte},
      applyUpdates a entries bits = .ok b → ∀ entry ∈ entries, 0 ≤ entry.index.toInt := by
  intro entries
  induction entries with
  | nil => simp
  | cons entry rest ih =>
      intro a b h
      rw [applyUpdates, List.foldlM_cons] at h
      obtain ⟨mid, hmid, hrest⟩ := bind_eq_ok h
      intro e he
      rcases List.mem_cons.mp he with rfl | he
      · by_contra hneg
        simp [applyUpdate, Int.not_le.mp hneg, fail] at hmid
      · exact ih hrest e he

end StatusListServer
