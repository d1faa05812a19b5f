import StatusListServer.SlotWriter

/-!
# The slot reader

Widening decodes the stored array with `decode_status_array`, a byte-at-a-time
loop that is unrelated to the writer's.  Here it is shown to read exactly the
fields of the bit stream: `readValue_spec` for one field, and
`decodeStatusArray_spec` for the whole array.
-/

namespace StatusListServer

open BitStream CheckedEval

/-- The loop invariant of the reader: the low `bitsRead` bits of the field that
starts at `start` are in `value`, and as long as bits are missing the cursor
stands on the next one. -/
structure ReadCursor.At (array : List Byte) (bits start : Nat) (cursor : ReadCursor) :
    Prop where
  read_le : cursor.bitsRead ≤ bits
  value_bit : ∀ k, cursor.value.getLsbD k =
    (decide (k < cursor.bitsRead) && bitAt array (start + k))
  byte : cursor.bitsRead < bits → cursor.curOffset + cursor.bitsInCurrentByte = 8
  position : cursor.bitsRead < bits →
    8 * cursor.curByte + cursor.curOffset = start + cursor.bitsRead

/-- The bits taken out of the current byte. -/
theorem getLsbD_extracted {byte : Byte} {offset n : Nat} (hfit : offset + n ≤ 8)
    (k : Nat) :
    (((byte.setWidth 16 >>> offset) &&& ((1#16 <<< n) - 1#16)).setWidth 32
      : BitVec 32).getLsbD k = (decide (k < n) && byte.getLsbD (offset + k)) := by
  rw [BitVec.getLsbD_setWidth, BitVec.getLsbD_and, BitVec.getLsbD_ushiftRight,
    BitVec.getLsbD_setWidth, getLsbD_lowOnes (by omega)]
  by_cases hk : k < n
  · simp [hk, show k < 32 by omega, show offset + k < 16 by omega]
  · simp [hk]

/-- One iteration of the reader keeps the invariant. -/
theorem ReadCursor.At.step {array : List Byte} {bits start n : Nat}
    {cursor : ReadCursor} (hat : cursor.At array bits start) (hbits : bits ≤ 32)
    (hlt : cursor.bitsRead < bits) (hbyte : cursor.curByte < array.length)
    (hn : n = min cursor.bitsInCurrentByte (bits - cursor.bitsRead)) :
    (cursor.advance n (cursor.value |||
      ((((array[cursor.curByte]).setWidth 16 >>> cursor.curOffset) &&&
        ((1#16 <<< n) - 1#16)).setWidth 32 <<< cursor.bitsRead))).At array bits start := by
  have hleft := cursor.bits_left
  have hoff := hat.byte hlt
  have hpos := hat.position hlt
  have hvalue : ∀ k, (cursor.value |||
      ((((array[cursor.curByte]).setWidth 16 >>> cursor.curOffset) &&&
        ((1#16 <<< n) - 1#16)).setWidth 32 <<< cursor.bitsRead)).getLsbD k =
      (decide (k < cursor.bitsRead + n) && bitAt array (start + k)) := by
    intro k
    rw [BitVec.getLsbD_or, hat.value_bit, BitVec.getLsbD_shiftLeft,
      getLsbD_extracted (by omega)]
    by_cases hk : k < cursor.bitsRead
    · simp [hk, show k < cursor.bitsRead + n by omega]
    · by_cases hk' : k < cursor.bitsRead + n
      · have hread : (array[cursor.curByte]).getLsbD
            (cursor.curOffset + (k - cursor.bitsRead)) = bitAt array (start + k) := by
          rw [getLsbD_getElem hbyte (by omega)]
          congr 1
          omega
        simp [hk, hk', hread, show k < 32 by omega,
          show k - cursor.bitsRead < n by omega]
      · simp [hk, hk', show ¬ k - cursor.bitsRead < n by omega]
  unfold ReadCursor.advance
  split
  · exact ⟨by simp; omega, hvalue, fun _ => rfl, fun _ => by simp; omega⟩
  · exact ⟨by simp; omega, hvalue, fun h => by simp at h; omega,
      fun h => by simp at h; omega⟩

/-- The reader's loop collects the whole field. -/
theorem readValue_spec {array : List Byte} {bits start : Nat} (hbits : bits ≤ 32)
    (hin : start + bits ≤ 8 * array.length) (cursor : ReadCursor)
    (hat : cursor.At array bits start) :
    ∃ value, readValue array bits cursor = .ok value ∧
      ∀ k, value.getLsbD k = (decide (k < bits) && bitAt array (start + k)) := by
  fun_induction readValue array bits cursor with
  | case1 cursor hlt hout =>
      have := hat.position hlt
      have := hat.byte hlt
      have := cursor.bits_left
      omega
  | case2 cursor hlt hbyte n ih =>
      have hlen : cursor.curByte < array.length := by omega
      have hoff := hat.byte hlt
      have hleft := cursor.bits_left
      have hn : n = min cursor.bitsInCurrentByte (bits - cursor.bitsRead) := rfl
      rw [index_of_lt hlen, ok_bind, shr_of_lt (by omega), ok_bind,
        shl_of_lt (show n < 16 by omega), ok_bind]
      simp only []
      rw [shl_of_lt (show cursor.bitsRead < 32 by omega), ok_bind]
      exact ih _ (hat.step hbits hlt hlen hn)
  | case3 cursor hge =>
      have heq : cursor.bitsRead = bits := by
        have := hat.read_le
        omega
      exact ⟨_, rfl, by rw [← heq]; exact hat.value_bit⟩

/-- Every decoded value is a field of the stream. -/
theorem readValue_start {array : List Byte} {bits i : Nat} (hbits : bits ≤ 32)
    (hin : Inside array bits i) :
    ∃ value, readValue array bits (ReadCursor.start bits i) = .ok value ∧
      value.toNat = fieldAt array bits i := by
  have hsplit := Nat.div_add_mod (i * bits) 8
  have hmod : i * bits % 8 < 8 := Nat.mod_lt _ (by decide)
  obtain ⟨value, hread, hbit⟩ := readValue_spec hbits hin (ReadCursor.start bits i)
    ⟨by simp [ReadCursor.start], by simp [ReadCursor.start],
      fun _ => by simp [ReadCursor.start]; omega,
      fun _ => by simp [ReadCursor.start]; omega⟩
  refine ⟨value, hread, ?_⟩
  apply Nat.eq_of_testBit_eq
  intro k
  rw [BitVec.testBit_toNat, hbit, testBit_fieldAt]

/-- The values a slot can hold: the three base statuses and the
application-specific range. -/
def Legal (v : Nat) : Prop := v ≤ 2 ∨ 256 ≤ v

/-- Accepted statuses have legal codes. -/
theorem Status.Accepted.legal {status : Status} (h : status.Accepted) :
    Legal status.code := by
  cases status with
  | valid => exact Or.inl (by decide)
  | invalid => exact Or.inl (by decide)
  | suspended => exact Or.inl (by decide)
  | applicationSpecific value => exact Or.inr (h value rfl)

/-- A slot with a legal value decodes to an accepted status with that code. -/
theorem readStatus_spec {array : List Byte} {bits i : Nat} (hbits : bits ≤ 32)
    (hin : Inside array bits i) (hlegal : Legal (fieldAt array bits i)) :
    ∃ status, readStatus array bits i = .ok status ∧
      status.code = fieldAt array bits i ∧ status.Accepted := by
  obtain ⟨value, hread, hvalue⟩ := readValue_start hbits hin
  have hstep : readStatus array bits i =
      if value = 0 then .ok .valid
      else if value = 1 then .ok .invalid
      else if value = 2 then .ok .suspended
      else if 256 ≤ value.toNat then .ok (.applicationSpecific value)
      else fail (.corruptStoredList "Invalid status value in existing list") := by
    rw [readStatus, hread]
    rfl
  rw [hstep, ← hvalue]
  by_cases h0 : value = 0
  · exact ⟨.valid, if_pos h0, by subst h0; rfl, nofun⟩
  by_cases h1 : value = 1
  · exact ⟨.invalid, by rw [if_neg h0, if_pos h1], by subst h1; rfl, nofun⟩
  by_cases h2 : value = 2
  · exact ⟨.suspended, by rw [if_neg h0, if_neg h1, if_pos h2], by subst h2; rfl, nofun⟩
  have hbig : 256 ≤ value.toNat := by
    rcases hvalue ▸ hlegal with hsmall | hbig
    · have hcases : value.toNat = 0 ∨ value.toNat = 1 ∨ value.toNat = 2 := by omega
      rcases hcases with h | h | h
      · exact absurd (BitVec.eq_of_toNat_eq h) h0
      · exact absurd (BitVec.eq_of_toNat_eq h) h1
      · exact absurd (BitVec.eq_of_toNat_eq h) h2
    · exact hbig
  refine ⟨.applicationSpecific value, by rw [if_neg h0, if_neg h1, if_neg h2, if_pos hbig],
    rfl, ?_⟩
  intro v hv
  cases hv
  exact hbig

/-- A slot below the slot count lies inside the array. -/
theorem inside_of_lt_slots {a : List Byte} {bits i : Nat}
    (hi : i < 8 * a.length / bits) : Inside a bits i := by
  have hmul := Nat.mul_le_mul_right bits hi
  rw [Nat.succ_mul] at hmul
  exact Nat.le_trans hmul (Nat.div_mul_le_self _ _)

/-- And conversely. -/
theorem lt_slots_of_inside {a : List Byte} {bits i : Nat} (hpos : 0 < bits)
    (h : Inside a bits i) : i < 8 * a.length / bits := by
  rw [← Nat.succ_le_iff, Nat.le_div_iff_mul_le hpos, Nat.succ_mul]
  exact h

/-- **The reader reads the stream.**  On an array whose slots hold legal values
and which wastes no byte, `decode_status_array` returns one accepted status per
slot, with the value of that field. -/
theorem decodeStatusArray_spec {array : List Byte} {bits : Nat} (hpos : 0 < bits)
    (hbits : bits ≤ 32) (hwhole : 8 * array.length % bits < 8)
    (hlegal : ∀ i, Legal (fieldAt array bits i)) :
    ∃ statuses, decodeStatusArray array bits = .ok statuses ∧
      List.Forall₂ (fun i (status : Status) =>
          status.code = fieldAt array bits i ∧ status.Accepted)
        (List.range (8 * array.length / bits)) statuses := by
  obtain ⟨statuses, hmap, hall⟩ := mapM_eq_ok (f := readStatus array bits)
    (fun i hi => readStatus_spec hbits
      (inside_of_lt_slots (List.mem_range.mp hi)) (hlegal i))
  refine ⟨statuses, ?_, hall⟩
  rw [decodeStatusArray, rem_of_pos hpos, ok_bind, Nat.mul_comm array.length 8,
    if_neg (by omega)]
  exact hmap

end StatusListServer
