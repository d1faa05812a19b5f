import StatusListServer.StatusOutcomes

/-!
# Updates of a stored list in any state

The width and the text of a stored list come from the database, so `update` can
meet any of them.  A text that does not decode and an array whose slots do not
hold statuses are reported; the width is not checked at all.  Width zero reaches
the remainder of the decoder, and a width above 32 shifts a 32-bit value by its
own width and more in the writer.
-/

namespace StatusListServer

open BitStream CheckedEval

/-- The answers the handlers can classify: success, a corrupt stored list, or a
request error. -/
def Reported (r : Eval StatusListError StatusList) : Prop :=
  (∃ list, r = .ok list) ∨ (∃ message, r = fail (.corruptStoredList message)) ∨
    (∃ message, r = fail (.invalidStatusList message)) ∨ r = fail .invalidIndex

/-- A panic is no reported error. -/
theorem not_reported_panic (p : Panic) : ¬Reported (.error (.panic p)) := by
  unfold Reported fail
  grind

/-- A `collect` whose elements succeed or stop with an error of one kind. -/
theorem mapM_cases {ε α β : Type} {P : β → Prop} {E : Fault ε → Prop} {f : α → Eval ε β} :
    ∀ {xs : List α}, (∀ x ∈ xs, (∃ y, f x = .ok y ∧ P y) ∨ ∃ e, f x = .error e ∧ E e) →
      (∃ ys, xs.mapM f = .ok ys ∧ ∀ y ∈ ys, P y) ∨ ∃ e, xs.mapM f = .error e ∧ E e := by
  intro xs
  induction xs with
  | nil => exact fun _ => .inl ⟨[], rfl, by simp⟩
  | cons x rest ih =>
      intro h
      rw [List.mapM_cons]
      rcases h x List.mem_cons_self with ⟨y, hy, hPy⟩ | ⟨e, he, hE⟩
      · rw [hy, ok_bind]
        rcases ih (fun z hz => h z (List.mem_cons_of_mem _ hz)) with ⟨ys, hys, hPys⟩ | ⟨e, he, hE⟩
        · left
          refine ⟨y :: ys, by rw [hys, ok_bind]; rfl, ?_⟩
          intro z hz
          rcases List.mem_cons.mp hz with rfl | hz
          · exact hPy
          · exact hPys z hz
        · exact .inr ⟨e, by rw [he, error_bind], hE⟩
      · exact .inr ⟨e, by rw [he, error_bind], hE⟩

/-- A corrupt stored list. -/
def IsCorrupt (fault : Fault StatusListError) : Prop :=
  ∃ message, fault = .error (.corruptStoredList message)

/-- Any slot of any array decodes to an accepted status or is reported. -/
theorem readStatus_cases {array : List Byte} {bits i : Nat} (hbits : bits ≤ 32)
    (hin : Inside array bits i) :
    (∃ status, readStatus array bits i = .ok status ∧ status.Accepted) ∨
      ∃ e, readStatus array bits i = .error e ∧ IsCorrupt e := by
  by_cases hlegal : Legal (fieldAt array bits i)
  · obtain ⟨status, hread, _, hacc⟩ := readStatus_spec hbits hin hlegal
    exact .inl ⟨status, hread, hacc⟩
  · right
    obtain ⟨value, hread, hvalue⟩ := readValue_start hbits hin
    unfold Legal at hlegal
    rw [← hvalue] at hlegal
    have hne : ∀ n : Nat, n ≤ 2 → value ≠ BitVec.ofNat 32 n := by
      intro n hn heq
      apply hlegal
      left
      rw [heq, BitVec.toNat_ofNat]
      omega
    have h0 : value ≠ 0 := hne 0 (by decide)
    have h1 : value ≠ 1 := hne 1 (by decide)
    have h2 : value ≠ 2 := hne 2 (by decide)
    have hsmall : ¬256 ≤ value.toNat := fun hle => hlegal (.inr hle)
    refine ⟨_, ?_, "Invalid status value in existing list", rfl⟩
    rw [readStatus, hread, ok_bind, if_neg h0, if_neg h1, if_neg h2, if_neg hsmall]
    rfl

/-- Any array of a possible width decodes to accepted statuses or is reported. -/
theorem decodeStatusArray_cases (array : List Byte) {bits : Nat} (hpos : 0 < bits)
    (hbits : bits ≤ 32) :
    (∃ statuses, decodeStatusArray array bits = .ok statuses ∧
        ∀ status ∈ statuses, status.Accepted) ∨
      ∃ e, decodeStatusArray array bits = .error e ∧ IsCorrupt e := by
  rw [decodeStatusArray, rem_of_pos hpos, ok_bind]
  by_cases hunused : 8 ≤ array.length * 8 % bits
  · rw [if_pos hunused]
    exact .inr ⟨_, rfl, _, rfl⟩
  · rw [if_neg hunused, Nat.mul_comm array.length 8]
    apply mapM_cases
    intro i hi
    exact readStatus_cases hbits (inside_of_lt_slots (List.mem_range.mp hi))

/-- Encoding gives a text, or a reported error. -/
theorem encodeCompressed_cases (codec : Codec) (bytes : List Byte) :
    (∃ lst, encodeCompressed codec bytes = .ok lst) ∨
      ∃ message, encodeCompressed codec bytes = fail (.invalidStatusList message) := by
  unfold encodeCompressed
  cases codec.zlibWriteAll bytes with
  | error err => exact .inr ⟨_, rfl⟩
  | ok _ =>
      cases codec.zlibFinish bytes with
      | ok packed => exact .inl ⟨_, rfl⟩
      | error err => exact .inr ⟨_, rfl⟩

/-- Decoding gives bytes, or a reported error. -/
theorem decodeCompressed_cases (codec : Codec) (lst : String) :
    (∃ bytes, decodeCompressed codec lst = .ok bytes) ∨
      ∃ message, decodeCompressed codec lst = fail (.corruptStoredList message) := by
  unfold decodeCompressed
  cases codec.base64Decode lst with
  | error err => exact .inr ⟨_, rfl⟩
  | ok bytes =>
      simp only []
      cases codec.zlibReadToEnd bytes with
      | error err => exact .inr ⟨_, rfl⟩
      | ok decoded => exact .inl ⟨_, rfl⟩

/-- What is written at a possible width is reported. -/
theorem writeEntries_reported (codec : Codec) {bits : Nat} (hpos : 0 < bits) (hle : bits ≤ 32)
    {entries : List StatusEntry} (hne : entries ≠ [])
    (hacc : ∀ entry ∈ entries, entry.status.Accepted) {start : Nat → List Byte}
    (hstart : ∀ len, len ≤ (start len).length) (stored : BitVec 8) :
    Reported (writeEntries codec bits start stored entries) := by
  rcases writeEntries_cases codec hpos hle hne hacc hstart stored with
    ⟨hneg, _⟩ | ⟨⟨array, hwritten⟩, _⟩
  · exact .inr (.inr (.inr hneg))
  · rw [hwritten]
    rcases encodeCompressed_cases codec array with ⟨lst, hlst⟩ | ⟨message, hmessage⟩
    · exact .inl ⟨⟨stored, lst⟩, by rw [hlst, ok_bind]⟩
    · exact .inr (.inr (.inl ⟨message, by rw [hmessage]; rfl⟩))

/-- Whatever the array holds, an update at a possible width is reported. -/
theorem update_reported {codec : Codec} {list : StatusList} (hpos : 0 < list.bits.toNat)
    (hle : list.bits.toNat ≤ 32) {entries : List StatusEntry} (hne : entries ≠ [])
    (hacc : ∀ entry ∈ entries, entry.status.Accepted) {bytes : List Byte}
    (hdecode : decodeCompressed codec list.lst = .ok bytes) :
    Reported (StatusList.update codec list entries) := by
  rw [update_eq codec list hne hacc, hdecode, ok_bind]
  by_cases hlt : list.bits.toNat < maxWidth entries
  · rw [if_pos hlt]
    rcases decodeStatusArray_cases bytes hpos hle with
      ⟨statuses, hstatuses, hold⟩ | ⟨e, he, message, rfl⟩
    · rw [hstatuses, ok_bind]
      apply writeEntries_reported codec (maxWidth_pos entries) (maxWidth_le_thirtyTwo entries)
        (by simp [hne]) _ length_zeros
      intro entry he
      rcases List.mem_append.mp he with he | he
      · obtain ⟨i, hi, rfl⟩ := mem_reindex.mp he
        exact hold _ (List.getElem_mem hi)
      · exact hacc entry he
    · rw [he]
      exact .inr (.inl ⟨message, rfl⟩)
  · rw [if_neg hlt]
    exact writeEntries_reported codec hpos hle hne hacc
      (fun len => (StatusList.le_length_growTo bytes len).1) _

/-- Bit 32 of a 32-bit value. -/
theorem writeValueBit_overflow (value : BitVec 32) {written i : Nat} (h : 32 ≤ written + i)
    (cursor : WriteCursor) :
    writeValueBit value written cursor i = .error (.panic .shiftOverflow) := by
  simp [writeValueBit, shr, Nat.not_lt.mpr h]

/-- The inner `for` loop panics when it passes bit 32. -/
theorem writeValueBits_overflow (value : BitVec 32) {written start : Nat} {cursor : WriteCursor}
    (hwritten : written ≤ 32) (hoff : cursor.curOffset < 8)
    (hpos : 8 * cursor.curByte + cursor.curOffset = start + written)
    (hin : start + 32 ≤ 8 * cursor.statusArray.length) :
    ∀ n, 32 < written + n → (List.range n).foldlM (writeValueBit value written) cursor =
      .error (.panic .shiftOverflow) := by
  intro n
  induction n with
  | zero =>
      intro h
      omega
  | succ n ih =>
      intro h
      rw [List.range_succ, foldlM_append_singleton]
      by_cases hbefore : 32 < written + n
      · rw [ih hbefore, error_bind]
      · obtain ⟨next, hnext, _⟩ := writeValueBits_spec value (n := n) (by omega) hoff hpos
          (by omega)
        rw [hnext, ok_bind]
        exact writeValueBit_overflow value (by omega) next

/-- The `while` loop reaches bit 32 of a wider field. -/
theorem writeRemaining_overflow (value : BitVec 32) {bits start : Nat} (hbits : 32 < bits)
    (cursor : WriteCursor) (written : Nat) (hw : written ≤ 32) (hoff : cursor.curOffset < 8)
    (hpos : 8 * cursor.curByte + cursor.curOffset = start + written)
    (hin : start + bits ≤ 8 * cursor.statusArray.length) :
    writeRemaining value bits cursor written = .error (.panic .shiftOverflow) := by
  fun_induction writeRemaining value bits cursor written with
  | case1 cursor written hlt n ih =>
      have hn : n = min (bits - written) 8 := rfl
      by_cases hnext : written + n ≤ 32
      · obtain ⟨next, hnext, hnextOff, hnextPos, hnextWrites⟩ :=
          writeValueBits_spec value (n := n) hnext hoff hpos (by omega)
        rw [hnext]
        exact ih next (by omega) hnextOff (by omega) (by rw [hnextWrites.length]; exact hin)
      · rw [writeValueBits_overflow value hw hoff hpos (by omega) n (by omega)]
        rfl
  | case2 cursor written hge => omega

/-- A field of more than 32 bits cannot be written. -/
theorem applyUpdate_overflow {bits : Nat} (hbits : 32 < bits) {a : List Byte}
    {entry : StatusEntry} (hidx : 0 ≤ entry.index.toInt) (hacc : entry.status.Accepted)
    (hin : Inside a bits entry.slot) :
    applyUpdate bits a entry = .error (.panic .shiftOverflow) := by
  obtain ⟨value, hvalue, _⟩ := statusValue_of_accepted hacc
  have hnneg : ¬entry.index.toInt < 0 := by omega
  unfold Inside at hin
  have hsplit := Nat.div_add_mod (entry.slot * bits) 8
  have hbyte : entry.slot * bits / 8 < a.length := by omega
  have hoff : entry.slot * bits % 8 < 8 := Nat.mod_lt _ (by decide)
  rw [applyUpdate, if_neg hnneg]
  simp only [show entry.index.toInt.toNat = entry.slot from rfl]
  rw [if_neg (Nat.not_le.mpr hbyte), hvalue, ok_bind, if_neg (by omega)]
  generalize entry.slot * bits / 8 = i at *
  generalize entry.slot * bits % 8 = offset at *
  have hlength : (writeMasked a i hbyte (8 - offset) offset value).length = a.length := by
    simp [writeMasked]
  have hposition : 8 * (i + 1) + 0 = 8 * i + offset + (8 - offset) := by omega
  have hloop := writeRemaining_overflow value hbits
    ⟨writeMasked a i hbyte (8 - offset) offset value, i + 1, 0⟩ (8 - offset) (by omega)
    (by simp) hposition (by simp only [hlength]; omega)
  have ho : offset < 32 := by omega
  have hfirst : 8 - offset < 32 := by omega
  rw [← hloop]
  simp [writeAcrossBytes, hoff, ho, hfirst, hbyte, writeMasked, windowMask]

/-- Widths above 32 never grow, and their first written entry panics. -/
theorem update_wide {codec : Codec} {list : StatusList} (hwide : 32 < list.bits.toNat)
    {entry : StatusEntry} {rest : List StatusEntry}
    (hacc : ∀ e ∈ entry :: rest, e.status.Accepted) {bytes : List Byte}
    (hdecode : decodeCompressed codec list.lst = .ok bytes) :
    StatusList.update codec list (entry :: rest) =
      if entry.index.toInt < 0 then fail .invalidIndex else .error (.panic .shiftOverflow) := by
  have hkept : ¬list.bits.toNat < maxWidth (entry :: rest) := by
    have := maxWidth_le_thirtyTwo (entry :: rest)
    omega
  rw [update_eq codec list (by simp) hacc, hdecode, ok_bind, if_neg hkept]
  have hpos : 0 < list.bits.toNat := by omega
  rcases calculateArraySize_cases hpos (List.cons_ne_nil entry rest) with
    ⟨hsize, hneg⟩ | ⟨maxIndex, _, hsize, hslots⟩
  · rw [hsize, if_pos (hneg entry List.mem_cons_self)]
    rfl
  · have hroom := inside_of_bytesFor (i := entry.slot) hpos
      (StatusList.le_length_growTo bytes (bytesFor maxIndex list.bits.toNat)).1
      (hslots entry List.mem_cons_self)
    rw [hsize, ok_bind, applyUpdates, List.foldlM_cons]
    by_cases hneg : entry.index.toInt < 0
    · rw [if_pos hneg, applyUpdate, if_pos hneg]
      rfl
    · rw [if_neg hneg, applyUpdate_overflow hwide (Int.not_lt.mp hneg)
        (hacc entry List.mem_cons_self) hroom]
      rfl

/-- Width zero always widens, and the decoder divides by it. -/
theorem update_zero_width {codec : Codec} {list : StatusList} (hzero : list.bits.toNat = 0)
    {entries : List StatusEntry} (hne : entries ≠ [])
    (hacc : ∀ e ∈ entries, e.status.Accepted) {bytes : List Byte}
    (hdecode : decodeCompressed codec list.lst = .ok bytes) :
    StatusList.update codec list entries = .error (.panic .remainderByZero) := by
  have hpos := maxWidth_pos entries
  rw [update_eq codec list hne hacc, hdecode, ok_bind, if_pos (by omega), decodeStatusArray,
    hzero]
  rfl

/-- **Stored lists in any state.**  An update panics exactly when it has entries,
all of them with accepted statuses, the text decodes, and the stored width is zero
or is above 32 with a first index that is not negative.  In every other case it
succeeds, reports a corrupt list or reports a request error. -/
theorem update_reported_iff (codec : Codec) (list : StatusList) (entries : List StatusEntry) :
    Reported (StatusList.update codec list entries) ↔
      entries = [] ∨ (∃ entry ∈ entries, ¬entry.status.Accepted) ∨
      (∃ e, decodeCompressed codec list.lst = .error e) ∨
      list.bits.toNat ≠ 0 ∧ (list.bits.toNat ≤ 32 ∨
        ∃ entry, entries.head? = some entry ∧ entry.index.toInt < 0) := by
  cases entries with
  | nil => exact ⟨fun _ => .inl rfl, fun _ => .inl ⟨list, rfl⟩⟩
  | cons entry rest =>
      by_cases hacc : ∀ e ∈ entry :: rest, e.status.Accepted
      · have hnone : ¬∃ e ∈ entry :: rest, ¬e.status.Accepted := by
          push Not
          exact hacc
        rcases decodeCompressed_cases codec list.lst with ⟨bytes, hdecode⟩ | ⟨message, hdecode⟩
        · simp only [reduceCtorEq, hnone, hdecode, exists_false, false_or, List.head?_cons,
            Option.some.injEq, exists_eq_left']
          by_cases hzero : list.bits.toNat = 0
          · rw [update_zero_width hzero (by simp) hacc hdecode]
            simp [hzero, not_reported_panic]
          by_cases hle : list.bits.toNat ≤ 32
          · simp only [hzero, hle, ne_eq, not_false_eq_true, true_or, and_self, iff_true]
            exact update_reported (Nat.pos_of_ne_zero hzero) hle (by simp) hacc hdecode
          · rw [update_wide (Nat.not_le.mp hle) hacc hdecode]
            by_cases hneg : entry.index.toInt < 0
            · simp only [hneg, if_true, hzero, ne_eq, not_false_eq_true, or_true, and_self,
                iff_true]
              exact .inr (.inr (.inr rfl))
            · simp [hneg, hle, not_reported_panic]
        · have hr : StatusList.update codec list (entry :: rest) =
              fail (.corruptStoredList message) := by
            rw [update_eq codec list (by simp) hacc, hdecode]
            rfl
          rw [hr]
          exact ⟨fun _ => .inr (.inr (.inl ⟨_, hdecode⟩)), fun _ => .inr (.inl ⟨message, rfl⟩)⟩
      · push Not at hacc
        rw [update_of_refused codec list hacc]
        exact ⟨fun _ => .inr (.inl hacc), fun _ => .inr (.inr (.inl ⟨_, rfl⟩))⟩

/-- An empty list stored with width zero, and one with width 33. -/
theorem unchecked_width_panics :
    StatusList.update sampleCodec ⟨0, ""⟩ [⟨0, .valid⟩] = .error (.panic .remainderByZero) ∧
      StatusList.update sampleCodec ⟨33, ""⟩ [⟨0, .valid⟩] = .error (.panic .shiftOverflow) ∧
      ¬Reported (StatusList.update sampleCodec ⟨0, ""⟩ [⟨0, .valid⟩]) ∧
      ¬Reported (StatusList.update sampleCodec ⟨33, ""⟩ [⟨0, .valid⟩]) := by
  have hdecode : decodeCompressed sampleCodec "" = .ok [] := by decide
  have hacc : ∀ entry ∈ [(⟨0, .valid⟩ : StatusEntry)], entry.status.Accepted := by
    simp [Status.Accepted]
  have hzero : StatusList.update sampleCodec ⟨0, ""⟩ [⟨0, .valid⟩] =
      .error (.panic .remainderByZero) := update_zero_width rfl (by simp) hacc hdecode
  have hwide : StatusList.update sampleCodec ⟨33, ""⟩ [⟨0, .valid⟩] =
      .error (.panic .shiftOverflow) := update_wide (by decide) hacc hdecode
  refine ⟨hzero, hwide, ?_, ?_⟩
  · rw [hzero]
    exact not_reported_panic _
  · rw [hwide]
    exact not_reported_panic _

end StatusListServer
