import StatusListServer.StatusOutcomes

/-!
# The layout of a published list

A run of `create` and `update` calls leaves an array that wastes less than a byte
after its last slot, keeps the bits behind that slot zero and holds only statuses
in its slots.  Widening turns the padding of the old array into slots and encodes
them again; the number of slots still never passes the largest requested index
rounded up to a multiple of eight, however often the list is widened.
-/

namespace StatusListServer

open BitStream CheckedEval

/-- One more than the largest slot that some entry addresses, zero for none. -/
def slotBound (entries : List StatusEntry) : Nat :=
  entries.foldr (fun entry n => max (entry.slot + 1) n) 0

/-- The bound of two lists together. -/
theorem slotBound_append (xs ys : List StatusEntry) :
    slotBound (xs ++ ys) = max (slotBound xs) (slotBound ys) := by
  induction xs with
  | nil => exact (Nat.zero_max _).symm
  | cons x rest ih =>
      have hcons : ∀ zs, slotBound (x :: zs) = max (x.slot + 1) (slotBound zs) := fun _ => rfl
      rw [List.cons_append, hcons, hcons, ih, Nat.max_assoc]

/-- Every slot is below the bound. -/
theorem slot_lt_slotBound {entries : List StatusEntry} {entry : StatusEntry}
    (h : entry ∈ entries) : entry.slot < slotBound entries := by
  induction entries with
  | nil => cases h
  | cons x rest ih =>
      rcases List.mem_cons.mp h with rfl | h
      · exact Nat.le_max_left _ _
      · exact Nat.lt_of_lt_of_le (ih h) (Nat.le_max_right _ _)

/-- The bytes that eight slots at a time take up to a bound. -/
def roundedBytes (bound bits : Nat) : Nat := (bound + 7) / 8 * bits

/-- More slots take no fewer bytes. -/
theorem roundedBytes_mono {bound bound' bits : Nat} (h : bound ≤ bound') :
    roundedBytes bound bits ≤ roundedBytes bound' bits :=
  Nat.mul_le_mul_right bits (Nat.div_le_div_right (Nat.add_le_add_right h 7))

/-- An array sized for a slot stays below the rounded size. -/
theorem bytesFor_le_roundedBytes (maxIndex : Nat) {bits : Nat} (hpos : 0 < bits) :
    bytesFor maxIndex bits ≤ roundedBytes (maxIndex + 1) bits := by
  have hslots : maxIndex + 1 ≤ 8 * ((maxIndex + 1 + 7) / 8) := by omega
  have hbits := Nat.mul_le_mul_right bits hslots
  rw [Nat.mul_assoc, Nat.succ_mul] at hbits
  unfold bytesFor roundedBytes
  omega

/-- The slots of an array below the rounded size stay below the rounded bound. -/
theorem slots_le_of_length {len bound bits : Nat} (hpos : 0 < bits)
    (h : len ≤ roundedBytes bound bits) : 8 * len / bits ≤ 8 * ((bound + 7) / 8) := by
  have hmul : 8 * len ≤ 8 * ((bound + 7) / 8) * bits := by
    rw [Nat.mul_assoc]
    exact Nat.mul_le_mul_left 8 h
  calc 8 * len / bits ≤ 8 * ((bound + 7) / 8) * bits / bits := Nat.div_le_div_right hmul
    _ = 8 * ((bound + 7) / 8) := Nat.mul_div_cancel _ hpos

/-- A list whose array stays below the rounded size. -/
def Compact (codec : Codec) (list : StatusList) (bound : Nat) : Prop :=
  ∃ bytes, decodeCompressed codec list.lst = .ok bytes ∧
    bytes.length ≤ roundedBytes bound list.bits.toNat

/-- What is written has the length it was sized for. -/
theorem written_length {codec : Codec} (hcodec : codec.Lawful) {bits : Nat} (hpos : 0 < bits)
    (hle : bits ≤ 32) {entries : List StatusEntry} (hne : entries ≠ [])
    (hacc : ∀ entry ∈ entries, entry.status.Accepted) {start : Nat → List Byte}
    (hstart : ∀ len, len ≤ (start len).length) {stored : BitVec 8} {list : StatusList}
    (h : writeEntries codec bits start stored entries = .ok list) :
    ∃ maxIndex bytes, (∃ entry ∈ entries, entry.slot = maxIndex) ∧
      decodeCompressed codec list.lst = .ok bytes ∧
      bytes.length = (start (bytesFor maxIndex bits)).length := by
  obtain ⟨len, hlen, h⟩ := bind_eq_ok h
  obtain ⟨array, harray, h⟩ := bind_eq_ok h
  obtain ⟨lst, hlst, h⟩ := bind_eq_ok h
  cases h
  obtain ⟨maxIndex, _, hsize, hslots, hmax⟩ := calculateArraySize_of_nonneg hpos hne
    (index_nonneg_of_applyUpdates harray)
  rw [hsize] at hlen
  cases hlen
  refine ⟨maxIndex, array, hmax, decode_encodeCompressed hcodec hlst, ?_⟩
  have hroom : ∀ entry ∈ entries, Inside (start (bytesFor maxIndex bits)) bits entry.slot :=
    fun entry he => inside_of_bytesFor hpos (hstart _) (hslots entry he)
  rcases applyUpdates_cases hpos hle hacc hroom with ⟨hfail, _⟩ | ⟨b, hb, hlength, _⟩
  · rw [harray] at hfail
    cases hfail
  · rw [harray] at hb
    cases hb
    exact hlength

/-- `create` is compact. -/
theorem create_compact {codec : Codec} (hcodec : codec.Lawful) {entries : List StatusEntry}
    {list : StatusList} (h : StatusList.create codec entries = .ok list) :
    Compact codec list (slotBound entries) := by
  obtain ⟨hbits, hacc⟩ := create_bits h
  by_cases hne : entries = []
  · subst hne
    obtain ⟨_, bytes, hdecode, _⟩ := create_spec hcodec h
    cases h
    have hempty : decodeCompressed codec "" = .ok [] := by
      rw [decodeCompressed, hcodec.base64_empty]
      simp only [hcodec.zlib_empty]
    exact ⟨[], hempty, Nat.zero_le _⟩
  · rw [create_eq codec hne, determineBits_eq hne hacc, Option.getD_none, Nat.max_self,
      ok_bind] at h
    obtain ⟨maxIndex, bytes, ⟨entry, he, rfl⟩, hdecode, hlength⟩ := written_length hcodec
      (maxWidth_pos entries) (maxWidth_le_thirtyTwo entries) hne hacc length_zeros h
    refine ⟨bytes, hdecode, ?_⟩
    rw [hlength, List.length_replicate, hbits]
    exact Nat.le_trans (bytesFor_le_roundedBytes _ (maxWidth_pos entries))
      (roundedBytes_mono (slot_lt_slotBound he))

/-- `update` is compact, widening or not. -/
theorem update_compact {codec : Codec} (hcodec : codec.Lawful) {list next : StatusList}
    {m : Nat → Nat} (hrep : Represents codec list m) {bound : Nat}
    (hcompact : Compact codec list bound) {entries : List StatusEntry}
    (h : StatusList.update codec list entries = .ok next) :
    Compact codec next (max bound (slotBound entries)) := by
  obtain ⟨bytes, hdecode, hpacked⟩ := hrep
  obtain ⟨bytes', hdecode', hlen⟩ := hcompact
  rw [hdecode] at hdecode'
  cases hdecode'
  have hpos := hpacked.width_pos
  obtain ⟨hbits, hacc⟩ := update_bits hpos h
  by_cases hne : entries = []
  · subst hne
    cases h
    exact ⟨bytes, hdecode, Nat.le_trans hlen (roundedBytes_mono (Nat.le_max_left _ _))⟩
  rw [update_eq codec list hne hacc, hdecode, ok_bind] at h
  by_cases hlt : list.bits.toNat < maxWidth entries
  · rw [if_pos hlt] at h
    obtain ⟨statuses, hstatuses, hold, _, _⟩ := hpacked.reindex
    rw [hstatuses, ok_bind] at h
    have hall : ∀ entry ∈ StatusList.reindex statuses ++ entries, entry.status.Accepted := by
      intro entry he
      rcases List.mem_append.mp he with he | he
      · exact (hold entry he).2.2.accepted
      · exact hacc entry he
    obtain ⟨maxIndex, array, ⟨entry, he, rfl⟩, hnext, hlength⟩ := written_length hcodec
      (maxWidth_pos entries) (maxWidth_le_thirtyTwo entries) (by simp [hne]) hall length_zeros h
    refine ⟨array, hnext, ?_⟩
    rw [hlength, List.length_replicate, hbits, Nat.max_eq_right (Nat.le_of_lt hlt)]
    apply Nat.le_trans (bytesFor_le_roundedBytes _ (maxWidth_pos entries))
    apply Nat.mul_le_mul_right
    -- an old slot lies below the old bound rounded up, a new one below its own bound
    have hslots := slots_le_of_length hpos hlen
    rcases List.mem_append.mp he with he | he
    · have hslot := lt_slots_of_inside hpos (hold entry he).2.1
      omega
    · have hslot := slot_lt_slotBound he
      omega
  · rw [if_neg hlt] at h
    obtain ⟨maxIndex, array, ⟨entry, he, rfl⟩, hnext, hlength⟩ := written_length hcodec hpos
      hpacked.width_le hne hacc
      (fun len => (StatusList.le_length_growTo bytes len).1) h
    refine ⟨array, hnext, ?_⟩
    rw [hlength, hbits, Nat.max_eq_left (Nat.not_lt.mp hlt)]
    have hsized := Nat.le_trans (bytesFor_le_roundedBytes entry.slot hpos)
      (roundedBytes_mono (Nat.le_trans (slot_lt_slotBound he) (Nat.le_max_right bound _)))
    have hkept := Nat.le_trans hlen
      (roundedBytes_mono (Nat.le_max_left bound (slotBound entries)))
    unfold StatusList.growTo
    split
    · rw [List.length_append, List.length_replicate]
      omega
    · exact hkept

/-- What holds of the array of a list after the entries of a run. -/
structure Layout (entries : List StatusEntry) (bits : Nat) (bytes : List Byte) : Prop where
  width : bits = maxWidth entries
  whole : 8 * bytes.length % bits < 8
  padding : ∀ p, 8 * bytes.length / bits * bits ≤ p → bitAt bytes p = false
  slots : ∀ i < 8 * bytes.length / bits, fieldAt bytes bits i = 0 ∨ fieldAt bytes bits i = 1 ∨
    fieldAt bytes bits i = 2 ∨ 256 ≤ fieldAt bytes bits i ∧ fieldAt bytes bits i < 2 ^ bits
  count : 8 * bytes.length / bits ≤ 8 * ((slotBound entries + 7) / 8)

/-- The bits after the last whole slot are the start of a slot that reads zero. -/
theorem Packed.padding {bits : Nat} {bytes : List Byte} {m : Nat → Nat}
    (hpacked : Packed bits bytes m) (p : Nat) (hp : 8 * bytes.length / bits * bits ≤ p) :
    bitAt bytes p = false := by
  by_cases hend : 8 * bytes.length ≤ p
  · exact bitAt_of_length_le hend
  have hpos := hpacked.width_pos
  have hmod := Nat.div_add_mod (8 * bytes.length) bits
  have hlt := Nat.mod_lt (8 * bytes.length) hpos
  rw [Nat.mul_comm] at hmod
  have hout : ¬Inside bytes bits (8 * bytes.length / bits) := by
    intro hin
    exact Nat.lt_irrefl _ (lt_slots_of_inside hpos hin)
  have hzero : fieldAt bytes bits (8 * bytes.length / bits) = 0 := by
    rw [hpacked.slot]
    exact hpacked.outside _ hout
  have hbit := testBit_fieldAt bytes bits (8 * bytes.length / bits)
    (p - 8 * bytes.length / bits * bits)
  rw [hzero, Nat.zero_testBit, Nat.add_sub_cancel' hp] at hbit
  have hin : p - 8 * bytes.length / bits * bits < bits := by omega
  simpa [hin] using hbit.symm

/-- The width of a value is the least positive one that holds it. -/
theorem isLeast_widthOf (v : Nat) : IsLeast {w | 1 ≤ w ∧ v < 2 ^ w} (widthOf v) :=
  ⟨⟨widthOf_pos v, lt_two_pow_widthOf v⟩, fun _ hw => widthOf_le_of_lt hw.1 hw.2⟩

/-- A run is compact. -/
theorem run_compact {codec : Codec} (hcodec : codec.Lawful) {first : List StatusEntry}
    {rest : List (List StatusEntry)} {list : StatusList}
    (h : StatusList.run codec first rest = .ok list) :
    Compact codec list (slotBound (first ++ rest.flatten)) := by
  have hboth := run_induction (P := fun list past => Compact codec list (slotBound past) ∧
    Represents codec list (assign (fun _ => 0) past))
    (fun hcreate => ⟨create_compact hcodec hcreate, (create_spec hcodec hcreate).2⟩) ?_ h
  · exact hboth.1
  · intro list next past entries hpast hupdate
    rw [slotBound_append, assign_append]
    exact ⟨update_compact hcodec hpast.2 hpast.1 hupdate, (update_spec hcodec hpast.2 hupdate).2.2⟩

/-- Two updates one after the other, and both at once. -/
theorem update_append_agrees {codec : Codec} (hcodec : codec.Lawful) {list : StatusList}
    {m : Nat → Nat} (hrep : Represents codec list m) {a b : List StatusEntry}
    {mid split joined : StatusList} (hmid : StatusList.update codec list a = .ok mid)
    (hsplit : StatusList.update codec mid b = .ok split)
    (hjoined : StatusList.update codec list (a ++ b) = .ok joined) :
    split.bits = joined.bits ∧ ∃ x y, decodeCompressed codec split.lst = .ok x ∧
      decodeCompressed codec joined.lst = .ok y ∧
      ∀ i, fieldAt x split.bits.toNat i = fieldAt y joined.bits.toNat i := by
  obtain ⟨_, _, hmidRep⟩ := update_spec hcodec hrep hmid
  obtain ⟨_, _, x, hx, hxPacked⟩ := update_spec hcodec hmidRep hsplit
  obtain ⟨_, _, y, hy, hyPacked⟩ := update_spec hcodec hrep hjoined
  have hpos : 0 < list.bits.toNat := by
    obtain ⟨_, _, hpacked⟩ := hrep
    exact hpacked.width_pos
  obtain ⟨hmidBits, _⟩ := update_bits hpos hmid
  obtain ⟨hsplitBits, _⟩ := update_bits (by omega) hsplit
  obtain ⟨hjoinedBits, _⟩ := update_bits hpos hjoined
  refine ⟨?_, x, y, hx, hy, ?_⟩
  · apply BitVec.eq_of_toNat_eq
    rw [hsplitBits, hmidBits, hjoinedBits, maxWidth_append, Nat.max_assoc]
  · intro i
    rw [hxPacked.slot, hyPacked.slot, assign_append]

/-- **The layout of a published list.**  After every run of successful `create`
and `update` calls the width is the least one for every value ever requested and
no update lowers it, the array wastes less than a byte and keeps it zero, every
slot holds a status, and there are at most as many slots as the requested indices
call for, rounded up to eight.  Updates can be joined. -/
theorem run_layout {codec : Codec} (hcodec : codec.Lawful) {first : List StatusEntry}
    {rest : List (List StatusEntry)} {list : StatusList}
    (h : StatusList.run codec first rest = .ok list) :
    (∃ bytes, decodeCompressed codec list.lst = .ok bytes ∧
      Layout (first ++ rest.flatten) list.bits.toNat bytes) ∧
    (∀ entries next, StatusList.update codec list entries = .ok next →
      list.bits.toNat ≤ next.bits.toNat) ∧
    ∀ a b mid split joined, StatusList.update codec list a = .ok mid →
      StatusList.update codec mid b = .ok split →
      StatusList.update codec list (a ++ b) = .ok joined →
      split.bits = joined.bits ∧ ∃ x y, decodeCompressed codec split.lst = .ok x ∧
        decodeCompressed codec joined.lst = .ok y ∧
        ∀ i, fieldAt x split.bits.toNat i = fieldAt y joined.bits.toNat i := by
  obtain ⟨hwidth, _⟩ := run_bits h
  obtain ⟨_, hrep⟩ := run_spec hcodec h
  obtain ⟨bytes, hdecode, hlength⟩ := run_compact hcodec h
  have hpacked : Packed list.bits.toNat bytes (assign (fun _ => 0) (first ++ rest.flatten)) := by
    obtain ⟨bytes', hdecode', hpacked⟩ := hrep
    rw [hdecode] at hdecode'
    cases hdecode'
    exact hpacked
  refine ⟨⟨bytes, hdecode, hwidth, hpacked.whole_slots, hpacked.padding, ?_,
    slots_le_of_length hpacked.width_pos hlength⟩, ?_, ?_⟩
  · intro i _
    have hlt := fieldAt_lt bytes list.bits.toNat i
    have hlegal := hpacked.legal i
    rw [← hpacked.slot] at hlegal
    rcases hlegal with hsmall | hbig
    · omega
    · exact .inr (.inr (.inr ⟨hbig, hlt⟩))
  · intro entries next hupdate
    rw [(update_bits hpacked.width_pos hupdate).1]
    exact Nat.le_max_left _ _
  · intro a b mid split joined hmid hsplit hjoined
    exact update_append_agrees hcodec hrep hmid hsplit hjoined

/-- The theorem at three entries. -/
theorem run_layout_sample :
    ∃ bytes, decodeCompressed sampleCodec "eNrjYAAAABIACQ" = .ok bytes ∧
      Layout [⟨0, .valid⟩, ⟨1, .invalid⟩, ⟨1, .suspended⟩] 2 bytes :=
  (run_layout sampleCodec_lawful sampleCodec_run).1

end StatusListServer
