import Mathlib.Data.List.Forall2
import StatusListServer.StatusWidth

/-!
# A status list is a map from slots to values

`Represents codec list m` says that the published text of `list` decodes to an
array whose fields are the values of `m`, and `Covers codec list i` that the
array has slot `i`.  `create` and `update` are assignments on that map, in the
narrow path as in the widening path, and never lose a slot.
-/

namespace StatusListServer

open BitStream CheckedEval

theorem assign_append (m : Nat → Nat) (xs ys : List StatusEntry) :
    assign m (xs ++ ys) = assign (assign m xs) ys := List.foldl_append

/-- Slots that no entry addresses keep their value. -/
theorem assign_of_not_mem {entries : List StatusEntry} {i : Nat} :
    ∀ {m : Nat → Nat}, (∀ entry ∈ entries, entry.slot ≠ i) → assign m entries i = m i := by
  induction entries with
  | nil => exact fun _ => rfl
  | cons entry rest ih =>
      intro m h
      have hhead : entry.slot ≠ i := h entry List.mem_cons_self
      have hrest := ih (m := Function.update m entry.slot entry.status.code)
        (fun e he => h e (List.mem_cons_of_mem _ he))
      rw [Function.update_of_ne (Ne.symm hhead)] at hrest
      exact hrest

/-- The last entry for a slot decides its value. -/
theorem assign_of_last {m : Nat → Nat} {before after : List StatusEntry}
    {entry : StatusEntry} (hlast : ∀ e ∈ after, e.slot ≠ entry.slot) :
    assign m (before ++ entry :: after) entry.slot = entry.status.code := by
  rw [assign_append]
  change assign _ after entry.slot = _
  rw [assign_of_not_mem hlast]
  exact Function.update_self _ _ _

/-- An assignment sequence changes only slots that some entry addresses. -/
theorem assign_cases (m : Nat → Nat) (entries : List StatusEntry) (i : Nat) :
    (assign m entries i = m i ∧ ∀ entry ∈ entries, entry.slot ≠ i) ∨
      ∃ entry ∈ entries, entry.slot = i ∧ assign m entries i = entry.status.code := by
  induction entries generalizing m with
  | nil => exact Or.inl ⟨rfl, by simp⟩
  | cons entry rest ih =>
      rcases ih (Function.update m entry.slot entry.status.code) with ⟨hkeep, hnone⟩ | hsome
      · by_cases hi : entry.slot = i
        · refine Or.inr ⟨entry, List.mem_cons_self, hi, ?_⟩
          subst hi
          exact hkeep.trans (Function.update_self _ _ _)
        · refine Or.inl ⟨hkeep.trans (Function.update_of_ne (Ne.symm hi) _ _), ?_⟩
          intro e he
          rcases List.mem_cons.mp he with rfl | he
          · exact hi
          · exact hnone e he
      · obtain ⟨e, he, hslot, hvalue⟩ := hsome
        exact Or.inr ⟨e, List.mem_cons_of_mem _ he, hslot, hvalue⟩

/-- A byte array that stores the map `m` in fields of width `bits`.  The slots
past the end, the partial one included, read zero: growing the array turns
padding into slots. -/
structure Packed (bits : Nat) (bytes : List Byte) (m : Nat → Nat) : Prop where
  width_pos : 0 < bits
  width_le : bits ≤ 32
  whole_slots : 8 * bytes.length % bits < 8
  length_le : bytes.length ≤ 2 ^ 28 * bits
  slot : ∀ i, fieldAt bytes bits i = m i
  outside : ∀ i, ¬ Inside bytes bits i → m i = 0
  legal : ∀ i, Legal (m i)

/-- A list represents `m` when its text decodes to an array that stores `m`. -/
def Represents (codec : Codec) (list : StatusList) (m : Nat → Nat) : Prop :=
  ∃ bytes, decodeCompressed codec list.lst = .ok bytes ∧ Packed list.bits.toNat bytes m

/-- A list covers a slot when its decoded array has it. -/
def Covers (codec : Codec) (list : StatusList) (i : Nat) : Prop :=
  ∃ bytes, decodeCompressed codec list.lst = .ok bytes ∧ Inside bytes list.bits.toNat i

/-- What `create_with_bits` and `update` ask of their entries at a width. -/
structure Fits (bits : Nat) (entry : StatusEntry) : Prop where
  accepted : entry.status.Accepted
  fits : entry.status.code < 2 ^ bits

/-- Entries fit any width that is at least their own. -/
theorem fits_of_maxWidth_le {entries : List StatusEntry} {bits : Nat}
    (hacc : ∀ entry ∈ entries, entry.status.Accepted) (hle : maxWidth entries ≤ bits) :
    ∀ entry ∈ entries, Fits bits entry := by
  intro entry he
  have hwidth := Nat.le_trans (widthOf_le_maxWidth he) hle
  exact ⟨hacc entry he, Nat.lt_of_lt_of_le (lt_two_pow_widthOf _)
    (Nat.pow_le_pow_right (by decide) hwidth)⟩

/-- Writing entries into an array large enough for all of them performs the
assignments on the stored map. -/
theorem Packed.applyUpdates {bits : Nat} {a : List Byte} {m : Nat → Nat}
    (hpacked : Packed bits a m) {entries : List StatusEntry}
    (hidx : ∀ entry ∈ entries, 0 ≤ entry.index.toInt)
    (hfits : ∀ entry ∈ entries, Fits bits entry)
    (hin : ∀ entry ∈ entries, Inside a bits entry.slot) :
    ∃ b, applyUpdates a entries bits = .ok b ∧ b.length = a.length ∧
      Packed bits b (assign m entries) := by
  obtain ⟨b, hb, hlen, hfields, _⟩ := applyUpdates_spec hpacked.width_pos hpacked.width_le
    (fun entry he => ⟨hidx entry he, (hfits entry he).accepted, (hfits entry he).fits,
      hin entry he⟩)
  have hmap : fieldAt a bits = m := funext hpacked.slot
  have hinside : ∀ i, Inside b bits i ↔ Inside a bits i := by
    intro i
    unfold Inside
    rw [hlen]
  refine ⟨b, hb, hlen, hpacked.width_pos, hpacked.width_le, ?_, ?_, ?_, ?_, ?_⟩
  · rw [hlen]
    exact hpacked.whole_slots
  · rw [hlen]
    exact hpacked.length_le
  · intro i
    rw [hfields, hmap]
  · intro i hout
    rcases assign_cases m entries i with ⟨hkeep, _⟩ | ⟨entry, he, hslot, _⟩
    · rw [hkeep]
      exact hpacked.outside i (fun h => hout ((hinside i).mpr h))
    · exact absurd ((hinside i).mpr (hslot ▸ hin entry he)) hout
  · intro i
    rcases assign_cases m entries i with ⟨hkeep, _⟩ | ⟨entry, he, _, hvalue⟩
    · rw [hkeep]
      exact hpacked.legal i
    · rw [hvalue]
      exact (hfits entry he).accepted.legal

/-- The zero array stores the zero map. -/
theorem packed_zero {bits len : Nat} (hpos : 0 < bits) (hle : bits ≤ 32)
    (hwhole : 8 * len % bits < 8) (hlen : len ≤ 2 ^ 28 * bits) :
    Packed bits (List.replicate len 0#8) (fun _ => 0) where
  width_pos := hpos
  width_le := hle
  whole_slots := by simpa using hwhole
  length_le := by simpa using hlen
  slot := fun i => fieldAt_replicate_zero len bits i
  outside := fun _ _ => rfl
  legal := fun _ => Or.inl (by decide)

/-- Growing the array keeps the map. -/
theorem Packed.growTo {bits : Nat} {a : List Byte} {m : Nat → Nat}
    (hpacked : Packed bits a m) {requiredLen : Nat}
    (hwhole : 8 * requiredLen % bits < 8) (hlen : requiredLen ≤ 2 ^ 28 * bits) :
    Packed bits (StatusList.growTo a requiredLen) m := by
  unfold StatusList.growTo
  split
  · have hlength : (a ++ List.replicate (requiredLen - a.length) 0#8).length = requiredLen := by
      rw [List.length_append, List.length_replicate]
      omega
    refine ⟨hpacked.width_pos, hpacked.width_le, by rwa [hlength], by rwa [hlength], ?_, ?_,
      hpacked.legal⟩
    · intro i
      rw [← hpacked.slot i]
      exact fieldAt_congr (fun p _ => bitAt_append_replicate_zero a _ _)
    · intro i hout
      apply hpacked.outside
      intro hin
      apply hout
      unfold Inside at *
      rw [hlength]
      omega
  · exact hpacked

theorem StatusList.le_length_growTo (a : List Byte) (requiredLen : Nat) :
    requiredLen ≤ (StatusList.growTo a requiredLen).length ∧
      a.length ≤ (StatusList.growTo a requiredLen).length := by
  unfold StatusList.growTo
  split
  · rw [List.length_append, List.length_replicate]
    omega
  · omega

/-- Compression can be undone. -/
theorem decode_encodeCompressed {codec : Codec} (hcodec : codec.Lawful) {bytes : List Byte}
    {lst : String} (h : encodeCompressed codec bytes = .ok lst) :
    decodeCompressed codec lst = .ok bytes := by
  unfold encodeCompressed at h
  split at h
  · cases h
  · split at h
    · rename_i packed hpacked
      cases h
      rw [decodeCompressed, hcodec.base64_roundtrip]
      simp only []
      rw [hcodec.zlib_roundtrip _ _ hpacked]
    · cases h

theorem toNat_ofNat_width {bits : Nat} (hle : bits ≤ 32) :
    (BitVec.ofNat 8 bits).toNat = bits := by
  rw [BitVec.toNat_ofNat, Nat.mod_eq_of_lt (by omega)]

/-- `create_with_bits` stores the width it is given. -/
theorem createWithBits_bits {codec : Codec} {entries : List StatusEntry} {bits : Nat}
    (hle : bits ≤ 32) {list : StatusList}
    (h : StatusList.createWithBits codec entries bits = .ok list) :
    list.bits.toNat = bits := by
  obtain ⟨len, _, h⟩ := bind_eq_ok h
  obtain ⟨array, _, h⟩ := bind_eq_ok h
  obtain ⟨lst, _, h⟩ := bind_eq_ok h
  cases h
  exact toNat_ofNat_width hle

/-- `create_with_bits` represents the assignment sequence of its entries. -/
theorem createWithBits_spec {codec : Codec} (hcodec : codec.Lawful)
    {entries : List StatusEntry} {bits : Nat} (hpos : 0 < bits) (hle : bits ≤ 32)
    (hne : entries ≠ []) (hfits : ∀ entry ∈ entries, Fits bits entry) {list : StatusList}
    (h : StatusList.createWithBits codec entries bits = .ok list) :
    (∀ entry ∈ entries, 0 ≤ entry.index.toInt ∧ Covers codec list entry.slot) ∧
      Represents codec list (assign (fun _ => 0) entries) := by
  obtain ⟨len, hlen, h⟩ := bind_eq_ok h
  obtain ⟨array, harray, h⟩ := bind_eq_ok h
  obtain ⟨lst, hlst, h⟩ := bind_eq_ok h
  cases h
  have hidx := index_nonneg_of_applyUpdates harray
  obtain ⟨maxIndex, hmax, hsize, hslots, _⟩ := calculateArraySize_of_nonneg hpos hne hidx
  have hlenEq : len = bytesFor maxIndex bits := by
    rw [hsize] at hlen
    cases hlen
    rfl
  subst hlenEq
  have hzero := packed_zero hpos hle (bytesFor_whole hpos) (bytesFor_le hpos hmax)
  obtain ⟨b, hb, hlength, hpacked⟩ := hzero.applyUpdates hidx hfits
    (fun entry he => inside_of_bytesFor hpos (by simp) (hslots entry he))
  rw [harray] at hb
  cases hb
  have hdecode := decode_encodeCompressed hcodec hlst
  refine ⟨fun entry he => ⟨hidx entry he, array, hdecode, ?_⟩, array, hdecode, ?_⟩
  · simp only [toNat_ofNat_width hle]
    exact inside_of_bytesFor hpos (by simp [hlength]) (hslots entry he)
  · simpa only [toNat_ofNat_width hle] using hpacked

/-- `create` is the empty list or `create_with_bits` at the least width. -/
theorem create_eq (codec : Codec) {entries : List StatusEntry} (hne : entries ≠ []) :
    StatusList.create codec entries =
      determineBits entries none >>= StatusList.createWithBits codec entries := by
  rw [StatusList.create, if_neg (by simpa using hne)]
  rfl

/-- `create` accepts its entries at the least width that holds them. -/
theorem create_bits {codec : Codec} {entries : List StatusEntry} {list : StatusList}
    (h : StatusList.create codec entries = .ok list) :
    list.bits.toNat = maxWidth entries ∧ ∀ entry ∈ entries, entry.status.Accepted := by
  by_cases hne : entries = []
  · subst hne
    cases h
    exact ⟨rfl, by simp⟩
  · rw [create_eq codec hne] at h
    obtain ⟨bits, hbits, h⟩ := bind_eq_ok h
    have hacc := accepted_of_determineBits hbits
    rw [determineBits_eq hne hacc, Option.getD_none, Nat.max_self] at hbits
    cases hbits
    exact ⟨createWithBits_bits (maxWidth_le_thirtyTwo entries) h, hacc⟩

/-- **`create` refines the assignment sequence.** -/
theorem create_spec {codec : Codec} (hcodec : codec.Lawful) {entries : List StatusEntry}
    {list : StatusList} (h : StatusList.create codec entries = .ok list) :
    (∀ entry ∈ entries, 0 ≤ entry.index.toInt ∧ Covers codec list entry.slot) ∧
      Represents codec list (assign (fun _ => 0) entries) := by
  obtain ⟨_, hacc⟩ := create_bits h
  by_cases hne : entries = []
  · subst hne
    cases h
    have hpacked : Packed 1 [] (fun _ => 0) :=
      packed_zero (by decide) (by decide) (Nat.zero_lt_succ _) (Nat.zero_le _)
    refine ⟨by simp, [], ?_, hpacked⟩
    rw [decodeCompressed, hcodec.base64_empty]
    simp only []
    rw [hcodec.zlib_empty]
  · rw [create_eq codec hne, determineBits_eq hne hacc, Option.getD_none, Nat.max_self,
      ok_bind] at h
    exact createWithBits_spec hcodec (maxWidth_pos entries) (maxWidth_le_thirtyTwo entries)
      hne (fits_of_maxWidth_le hacc (Nat.le_refl _)) h

/-- `update` on a nonempty list, with the width in closed form. -/
theorem update_eq (codec : Codec) (list : StatusList) {entries : List StatusEntry}
    (hne : entries ≠ []) (hacc : ∀ entry ∈ entries, entry.status.Accepted) :
    StatusList.update codec list entries = (do
      let statusArray ← decodeCompressed codec list.lst
      if list.bits.toNat < maxWidth entries then
        let decodedStatuses ← decodeStatusArray statusArray list.bits.toNat
        StatusList.createWithBits codec (StatusList.reindex decodedStatuses ++ entries)
          (maxWidth entries)
      else
        let requiredLen ← calculateArraySize entries list.bits.toNat
        let statusArray ← applyUpdates (StatusList.growTo statusArray requiredLen) entries
          list.bits.toNat
        let lst ← encodeCompressed codec statusArray
        return ⟨list.bits, lst⟩) := by
  rw [StatusList.update, if_neg (by simpa using hne)]
  simp only [determineBits_eq hne hacc, ok_bind, Option.getD_some]
  by_cases hlt : list.bits.toNat < maxWidth entries
  · rw [Nat.max_eq_right (Nat.le_of_lt hlt)]
  · rw [Nat.max_eq_left (Nat.not_lt.mp hlt)]
    simp only [hlt, Nat.lt_irrefl, if_false]

/-- The entries of a widened list: one per decoded slot, in slot order. -/
theorem mem_reindex {statuses : List Status} {entry : StatusEntry} :
    entry ∈ StatusList.reindex statuses ↔
      ∃ i, ∃ h : i < statuses.length, entry = ⟨Int32.ofNat i, statuses[i]⟩ := by
  simp only [StatusList.reindex, List.mem_map, Prod.exists, List.mk_mem_zipIdx_iff_getElem?,
    List.getElem?_eq_some_iff]
  constructor
  · rintro ⟨status, i, ⟨hi, rfl⟩, rfl⟩
    exact ⟨i, hi, rfl⟩
  · rintro ⟨i, hi, rfl⟩
    exact ⟨statuses[i], i, ⟨hi, rfl⟩, rfl⟩

/-- Decoding a packed array and assigning the decoded entries from zero gives
back the stored map. -/
theorem Packed.reindex {bits : Nat} {bytes : List Byte} {m : Nat → Nat}
    (hpacked : Packed bits bytes m) :
    ∃ statuses, decodeStatusArray bytes bits = .ok statuses ∧
      (∀ entry ∈ StatusList.reindex statuses,
        0 ≤ entry.index.toInt ∧ Inside bytes bits entry.slot ∧ Fits bits entry) ∧
      (∀ i, Inside bytes bits i → ∃ entry ∈ StatusList.reindex statuses, entry.slot = i) ∧
      assign (fun _ => 0) (StatusList.reindex statuses) = m := by
  have hlegal : ∀ i, Legal (fieldAt bytes bits i) := by
    intro i
    rw [hpacked.slot]
    exact hpacked.legal i
  obtain ⟨statuses, hdecode, hall⟩ := decodeStatusArray_spec hpacked.width_pos
    hpacked.width_le hpacked.whole_slots hlegal
  obtain ⟨hlen, hget⟩ := List.forall₂_iff_get.mp hall
  rw [List.length_range] at hlen
  have hslots : statuses.length ≤ 2 ^ 31 := by
    have hle := hpacked.length_le
    have hdiv : 8 * bytes.length / bits ≤ 8 * (2 ^ 28 * bits) / bits :=
      Nat.div_le_div_right (Nat.mul_le_mul_left 8 hle)
    rw [← Nat.mul_assoc, Nat.mul_div_cancel _ hpacked.width_pos] at hdiv
    omega
  have hentry : ∀ entry ∈ StatusList.reindex statuses,
      0 ≤ entry.index.toInt ∧ Inside bytes bits entry.slot ∧
        entry.status.code = m entry.slot ∧ entry.status.Accepted := by
    intro entry he
    obtain ⟨i, hi, rfl⟩ := mem_reindex.mp he
    obtain ⟨hcode, hacc⟩ := hget i (by rw [List.length_range]; omega) hi
    simp only [List.get_eq_getElem, List.getElem_range] at hcode hacc
    have hindex : (Int32.ofNat i).toInt = i := Int32.toInt_ofNat_of_lt (by omega)
    have hslot : (⟨Int32.ofNat i, statuses[i]⟩ : StatusEntry).slot = i := by
      rw [StatusEntry.slot, hindex]
      rfl
    rw [hslot, ← hpacked.slot]
    exact ⟨by rw [hindex]; omega, inside_of_lt_slots (by omega), hcode, hacc⟩
  have hcover : ∀ i, Inside bytes bits i →
      ∃ entry ∈ StatusList.reindex statuses, entry.slot = i := by
    intro i hin
    have hi : i < statuses.length := by
      rw [← hlen]
      exact lt_slots_of_inside hpacked.width_pos hin
    refine ⟨_, mem_reindex.mpr ⟨i, hi, rfl⟩, ?_⟩
    rw [StatusEntry.slot, Int32.toInt_ofNat_of_lt (by omega)]
    rfl
  refine ⟨statuses, hdecode, ?_, hcover, ?_⟩
  · intro entry he
    obtain ⟨hindex, hin, hcode, hacc⟩ := hentry entry he
    refine ⟨hindex, hin, hacc, ?_⟩
    rw [hcode, ← hpacked.slot]
    exact fieldAt_lt _ _ _
  · funext i
    rcases assign_cases (fun _ => 0) (StatusList.reindex statuses) i with
      ⟨hzero, hnone⟩ | ⟨entry, he, rfl, hvalue⟩
    · rw [hzero]
      symm
      apply hpacked.outside
      intro hin
      obtain ⟨entry, he, hslot⟩ := hcover i hin
      exact hnone entry he hslot
    · rw [hvalue]
      exact (hentry entry he).2.2.1

/-- `update` accepts its entries and stores the larger of the old width and the
least width for them. -/
theorem update_bits {codec : Codec} {list next : StatusList} (hpos : 0 < list.bits.toNat)
    {entries : List StatusEntry} (h : StatusList.update codec list entries = .ok next) :
    next.bits.toNat = max list.bits.toNat (maxWidth entries) ∧
      ∀ entry ∈ entries, entry.status.Accepted := by
  by_cases hne : entries = []
  · subst hne
    cases h
    exact ⟨(Nat.max_eq_left hpos).symm, by simp⟩
  have hacc : ∀ entry ∈ entries, entry.status.Accepted := by
    rw [StatusList.update, if_neg (by simpa using hne)] at h
    obtain ⟨newBits, hbits, _⟩ := bind_eq_ok h
    exact accepted_of_determineBits hbits
  refine ⟨?_, hacc⟩
  rw [update_eq codec list hne hacc] at h
  obtain ⟨bytes, _, h⟩ := bind_eq_ok h
  by_cases hlt : list.bits.toNat < maxWidth entries
  · rw [if_pos hlt] at h
    obtain ⟨statuses, _, h⟩ := bind_eq_ok h
    rw [createWithBits_bits (maxWidth_le_thirtyTwo entries) h]
    omega
  · rw [if_neg hlt] at h
    obtain ⟨requiredLen, _, h⟩ := bind_eq_ok h
    obtain ⟨array, _, h⟩ := bind_eq_ok h
    obtain ⟨lst, _, h⟩ := bind_eq_ok h
    cases h
    exact (Nat.max_eq_left (Nat.not_lt.mp hlt)).symm

/-- **`update` refines the assignment sequence.**  Whether the array is patched
in place, grown, or decoded and rewritten at a larger width, the map after a
successful update is the map before it with the entries assigned in order, and
no slot is lost. -/
theorem update_spec {codec : Codec} (hcodec : codec.Lawful) {list next : StatusList}
    {m : Nat → Nat} (hrep : Represents codec list m) {entries : List StatusEntry}
    (h : StatusList.update codec list entries = .ok next) :
    (∀ entry ∈ entries, 0 ≤ entry.index.toInt ∧ Covers codec next entry.slot) ∧
      (∀ i, Covers codec list i → Covers codec next i) ∧
      Represents codec next (assign m entries) := by
  obtain ⟨bytes, hdecode, hpacked⟩ := hrep
  have hpos := hpacked.width_pos
  obtain ⟨_, hacc⟩ := update_bits hpos h
  by_cases hne : entries = []
  · subst hne
    cases h
    exact ⟨by simp, fun _ hcovers => hcovers, bytes, hdecode, hpacked⟩
  have hinside : ∀ i, Covers codec list i → Inside bytes list.bits.toNat i := by
    rintro i ⟨bytes', hdecode', hin⟩
    rw [hdecode] at hdecode'
    cases hdecode'
    exact hin
  rw [update_eq codec list hne hacc, hdecode, ok_bind] at h
  by_cases hlt : list.bits.toNat < maxWidth entries
  · rw [if_pos hlt] at h
    obtain ⟨statuses, hstatuses, hold, hcover, hmap⟩ := hpacked.reindex
    rw [hstatuses, ok_bind] at h
    have hfits : ∀ entry ∈ StatusList.reindex statuses ++ entries,
        Fits (maxWidth entries) entry := by
      intro entry he
      rcases List.mem_append.mp he with he | he
      · obtain ⟨_, _, hentry⟩ := hold entry he
        exact ⟨hentry.accepted, Nat.lt_of_lt_of_le hentry.fits
          (Nat.pow_le_pow_right (by decide) (Nat.le_of_lt hlt))⟩
      · exact fits_of_maxWidth_le hacc (Nat.le_refl _) entry he
    obtain ⟨hidx, hnext⟩ := createWithBits_spec hcodec (maxWidth_pos entries)
      (maxWidth_le_thirtyTwo entries) (by simp [hne]) hfits h
    rw [assign_append, hmap] at hnext
    refine ⟨fun entry he => hidx entry (List.mem_append_right _ he), ?_, hnext⟩
    intro i hcovers
    obtain ⟨entry, he, rfl⟩ := hcover i (hinside i hcovers)
    exact (hidx entry (List.mem_append_left _ he)).2
  · rw [if_neg hlt] at h
    obtain ⟨requiredLen, hlen, h⟩ := bind_eq_ok h
    obtain ⟨array, harray, h⟩ := bind_eq_ok h
    obtain ⟨lst, hlst, h⟩ := bind_eq_ok h
    cases h
    have hidx := index_nonneg_of_applyUpdates harray
    obtain ⟨maxIndex, hmax, hsize, hslots, _⟩ := calculateArraySize_of_nonneg hpos hne hidx
    have hlenEq : requiredLen = bytesFor maxIndex list.bits.toNat := by
      rw [hsize] at hlen
      cases hlen
      rfl
    subst hlenEq
    have hgrow := StatusList.le_length_growTo bytes (bytesFor maxIndex list.bits.toNat)
    obtain ⟨b, hb, hlength, hnext⟩ := (hpacked.growTo (bytesFor_whole hpos)
      (bytesFor_le hpos hmax)).applyUpdates hidx
      (fits_of_maxWidth_le hacc (Nat.not_lt.mp hlt))
      (fun entry he => inside_of_bytesFor hpos hgrow.1 (hslots entry he))
    rw [harray] at hb
    cases hb
    have hdecodeNext := decode_encodeCompressed hcodec hlst
    refine ⟨?_, ?_, array, hdecodeNext, hnext⟩
    · intro entry he
      exact ⟨hidx entry he, array, hdecodeNext,
        inside_of_bytesFor hpos (hlength ▸ hgrow.1) (hslots entry he)⟩
    · intro i hcovers
      have hin := hinside i hcovers
      refine ⟨array, hdecodeNext, ?_⟩
      unfold Inside at *
      rw [hlength]
      exact Nat.le_trans hin (Nat.mul_le_mul_left 8 hgrow.2)

end StatusListServer
