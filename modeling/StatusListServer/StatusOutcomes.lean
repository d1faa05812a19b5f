import StatusListServer.StatusRuns

/-!
# What a request is answered

Which answer `create` and `update` give is decided by the entries of the request
alone, as long as the stored list was written by the server: a status value that
is not accepted, then a negative index, then success.  The two remaining branches
of the code, an index past the end of the array and a stored array that cannot be
decoded, are never taken on such a list.
-/

namespace StatusListServer

open BitStream CheckedEval

/-- Compression does not fail. -/
structure Codec.Total (codec : Codec) : Prop where
  writeAll : ∀ bytes, codec.zlibWriteAll bytes = .ok ()
  finish : ∀ bytes, ∃ packed, codec.zlibFinish bytes = .ok packed

/-- A total codec compresses whatever it is given. -/
theorem Codec.Total.encode {codec : Codec} (htotal : codec.Total) (bytes : List Byte) :
    ∃ lst, encodeCompressed codec bytes = .ok lst := by
  obtain ⟨packed, hpacked⟩ := htotal.finish bytes
  exact ⟨codec.base64Encode packed, by simp [encodeCompressed, htotal.writeAll, hpacked]⟩

/-- The answer to a request with a status that is not accepted. -/
def refusedValue {α : Type} : Eval StatusListError α :=
  fail (.invalidStatusList "ApplicationSpecific value must be >= 256")

/-- A refused status has no value. -/
theorem statusValue_of_refused {status : Status} (h : ¬status.Accepted) :
    statusValue status = refusedValue := by
  cases status with
  | applicationSpecific value =>
      have hsmall : ¬256 ≤ value.toNat := by
        intro hle
        apply h
        intro v hv
        cases hv
        exact hle
      simp [statusValue, hsmall, refusedValue]
  | valid => exact absurd (fun v hv => by cases hv) h
  | invalid => exact absurd (fun v hv => by cases hv) h
  | suspended => exact absurd (fun v hv => by cases hv) h

/-- A status that is not accepted stops `determine_bits`. -/
theorem determineBits_of_refused {entries : List StatusEntry} {original : Option Nat}
    (h : ∃ entry ∈ entries, ¬entry.status.Accepted) :
    determineBits entries original = refusedValue := by
  have hvalues : entries.mapM (fun entry => statusValue entry.status) = refusedValue := by
    induction entries with
    | nil => simp at h
    | cons entry rest ih =>
        rw [List.mapM_cons]
        by_cases hentry : entry.status.Accepted
        · obtain ⟨value, hvalue, _⟩ := statusValue_of_accepted hentry
          have hrest : ∃ entry ∈ rest, ¬entry.status.Accepted := by
            obtain ⟨e, he, hne⟩ := h
            rcases List.mem_cons.mp he with rfl | he
            · exact absurd hentry hne
            · exact ⟨e, he, hne⟩
          rw [hvalue, ok_bind, ih hrest]
          rfl
        · rw [statusValue_of_refused hentry]
          rfl
  rw [determineBits, hvalues]
  rfl

/-- An update with a refused status is refused as a whole. -/
theorem update_of_refused (codec : Codec) (list : StatusList) {entries : List StatusEntry}
    (h : ∃ entry ∈ entries, ¬entry.status.Accepted) :
    StatusList.update codec list entries = refusedValue := by
  have hne : entries ≠ [] := by
    obtain ⟨entry, he, _⟩ := h
    exact List.ne_nil_of_mem he
  rw [StatusList.update, if_neg (by simpa using hne)]
  simp only [determineBits_of_refused h]
  rfl

/-- `calculate_array_size` refuses entries that are all negative, and else makes
room for every entry. -/
theorem calculateArraySize_cases {entries : List StatusEntry} {bits : Nat} (hpos : 0 < bits)
    (hne : entries ≠ []) :
    (calculateArraySize entries bits = fail .invalidIndex ∧
        ∀ entry ∈ entries, entry.index.toInt < 0) ∨
      ∃ maxIndex, maxIndex < 2 ^ 31 ∧
        calculateArraySize entries bits = .ok (bytesFor maxIndex bits) ∧
        ∀ entry ∈ entries, entry.slot ≤ maxIndex := by
  obtain ⟨top, htop⟩ := Option.isSome_iff_exists.mp
    (List.isSome_max?_of_ne_nil (l := entries.map (fun update => update.index.toInt))
      (by simpa using hne))
  obtain ⟨hmem, hmax⟩ := List.max?_eq_some_iff.mp htop
  obtain ⟨largest, hlargest, rfl⟩ := List.mem_map.mp hmem
  have hle : ∀ entry ∈ entries, entry.index.toInt ≤ largest.index.toInt :=
    fun entry he => hmax _ (List.mem_map.mpr ⟨entry, he, rfl⟩)
  rw [calculateArraySize, if_neg (by simpa using hne), htop]
  by_cases hneg : largest.index.toInt < 0
  · left
    simp only [hneg, if_true]
    exact ⟨trivial, fun entry he => Int.lt_of_le_of_lt (hle entry he) hneg⟩
  · right
    have hlt := largest.index.toInt_lt
    refine ⟨largest.slot, ?_, ?_, ?_⟩
    · unfold StatusEntry.slot
      omega
    · simp only [hneg, if_false]
      rw [sub_of_le (by omega)]
      rfl
    · intro entry he
      have := hle entry he
      unfold StatusEntry.slot
      omega

/-- `apply_updates` on an array with room for every entry stops at the first
negative index and nowhere else. -/
theorem applyUpdates_cases {bits : Nat} (hpos : 0 < bits) (hle : bits ≤ 32) :
    ∀ {entries : List StatusEntry} {a : List Byte},
      (∀ entry ∈ entries, entry.status.Accepted) →
      (∀ entry ∈ entries, Inside a bits entry.slot) →
      (applyUpdates a entries bits = fail .invalidIndex ∧
          ∃ entry ∈ entries, entry.index.toInt < 0) ∨
        ∃ b, applyUpdates a entries bits = .ok b ∧ b.length = a.length ∧
          ∀ entry ∈ entries, 0 ≤ entry.index.toInt := by
  intro entries
  induction entries with
  | nil => exact fun _ _ => .inr ⟨_, rfl, rfl, by simp⟩
  | cons entry rest ih =>
      intro a hacc hin
      rw [applyUpdates, List.foldlM_cons]
      by_cases hneg : entry.index.toInt < 0
      · left
        rw [applyUpdate, if_pos hneg]
        exact ⟨rfl, entry, List.mem_cons_self, hneg⟩
      · obtain ⟨b, hb, hwrites⟩ := applyUpdate_spec hpos hle (Int.not_lt.mp hneg)
          (hacc entry List.mem_cons_self) (hin entry List.mem_cons_self)
        have hrest := ih (a := b) (fun e he => hacc e (List.mem_cons_of_mem _ he))
          (fun e he => by
            have := hin e (List.mem_cons_of_mem _ he)
            unfold Inside at *
            rw [hwrites.length]
            exact this)
        rw [hb, ok_bind]
        rcases hrest with ⟨hfail, e, he, hneg'⟩ | ⟨c, hc, hlen, hall⟩
        · exact .inl ⟨hfail, e, List.mem_cons_of_mem _ he, hneg'⟩
        · right
          refine ⟨c, hc, hlen.trans hwrites.length, ?_⟩
          intro e he
          rcases List.mem_cons.mp he with rfl | he
          · exact Int.not_lt.mp hneg
          · exact hall e he

/-- The end of every request: size, write, compress. -/
def writeEntries (codec : Codec) (bits : Nat) (start : Nat → List Byte) (stored : BitVec 8)
    (entries : List StatusEntry) : Eval StatusListError StatusList := do
  let len ← calculateArraySize entries bits
  let statusArray ← applyUpdates (start len) entries bits
  let lst ← encodeCompressed codec statusArray
  return ⟨stored, lst⟩

/-- An array of zeros is long enough. -/
theorem length_zeros (len : Nat) : len ≤ (List.replicate len 0#8).length := by
  simp

/-- Entries with accepted statuses are written, up to compression, unless an index
is negative. -/
theorem writeEntries_cases (codec : Codec) {bits : Nat} (hpos : 0 < bits) (hle : bits ≤ 32)
    {entries : List StatusEntry} (hne : entries ≠ [])
    (hacc : ∀ entry ∈ entries, entry.status.Accepted) {start : Nat → List Byte}
    (hstart : ∀ len, len ≤ (start len).length) (stored : BitVec 8) :
    (writeEntries codec bits start stored entries = fail .invalidIndex ∧
        ∃ entry ∈ entries, entry.index.toInt < 0) ∨
      (∃ array, writeEntries codec bits start stored entries =
        encodeCompressed codec array >>= fun lst => .ok ⟨stored, lst⟩) ∧
        ∀ entry ∈ entries, 0 ≤ entry.index.toInt := by
  unfold writeEntries
  rcases calculateArraySize_cases hpos hne with ⟨hsize, hneg⟩ | ⟨maxIndex, _, hsize, hslots⟩
  · left
    obtain ⟨entry, he⟩ := List.exists_mem_of_ne_nil entries hne
    rw [hsize]
    exact ⟨rfl, entry, he, hneg entry he⟩
  · have hroom : ∀ entry ∈ entries, Inside (start (bytesFor maxIndex bits)) bits entry.slot :=
      fun entry he => inside_of_bytesFor hpos (hstart _) (hslots entry he)
    rw [hsize, ok_bind]
    rcases applyUpdates_cases hpos hle hacc hroom with ⟨hwrite, hneg⟩ | ⟨array, hwrite, _, hnonneg⟩
    · rw [hwrite]
      exact .inl ⟨rfl, hneg⟩
    · rw [hwrite]
      exact .inr ⟨⟨array, rfl⟩, hnonneg⟩

/-- And completely, if compression does not fail. -/
theorem Codec.Total.writeEntries_cases {codec : Codec} (htotal : codec.Total) {bits : Nat}
    (hpos : 0 < bits) (hle : bits ≤ 32) {entries : List StatusEntry} (hne : entries ≠ [])
    (hacc : ∀ entry ∈ entries, entry.status.Accepted) {start : Nat → List Byte}
    (hstart : ∀ len, len ≤ (start len).length) (stored : BitVec 8) :
    (writeEntries codec bits start stored entries = fail .invalidIndex ∧
        ∃ entry ∈ entries, entry.index.toInt < 0) ∨
      (∃ list, writeEntries codec bits start stored entries = .ok list) ∧
        ∀ entry ∈ entries, 0 ≤ entry.index.toInt := by
  rcases StatusListServer.writeEntries_cases codec hpos hle hne hacc hstart stored with
    hneg | ⟨⟨array, hwritten⟩, hnonneg⟩
  · exact .inl hneg
  · obtain ⟨lst, hlst⟩ := htotal.encode array
    exact .inr ⟨⟨⟨stored, lst⟩, by rw [hwritten, hlst, ok_bind]⟩, hnonneg⟩

/-- The answer is decided by the entries: a value that is not accepted, then a
negative index, then success.  There is no other answer. -/
structure ExactOutcome (entries : List StatusEntry) (r : Eval StatusListError StatusList) :
    Prop where
  refused : r = refusedValue ↔
    ∃ entry ∈ entries, ∃ value, entry.status = .applicationSpecific value ∧ value.toNat < 256
  negative : r = fail .invalidIndex ↔
    (∀ entry ∈ entries, entry.status.Accepted) ∧ ∃ entry ∈ entries, entry.index.toInt < 0
  accepted : (∃ list, r = .ok list) ↔
    (∀ entry ∈ entries, entry.status.Accepted) ∧ ∀ entry ∈ entries, 0 ≤ entry.index.toInt
  covered : r = refusedValue ∨ r = fail .invalidIndex ∨ ∃ list, r = .ok list

/-- The refused statuses are the application-specific ones below 256. -/
theorem not_accepted_iff {status : Status} :
    ¬status.Accepted ↔ ∃ value, status = .applicationSpecific value ∧ value.toNat < 256 := by
  unfold Status.Accepted
  grind

/-- A refused status makes the outcome exact. -/
theorem ExactOutcome.of_refused {entries : List StatusEntry}
    (h : ∃ entry ∈ entries, ¬entry.status.Accepted) : ExactOutcome entries refusedValue where
  refused := by
    simp only [true_iff]
    obtain ⟨entry, he, hne⟩ := h
    exact ⟨entry, he, not_accepted_iff.mp hne⟩
  negative := by
    obtain ⟨entry, he, hne⟩ := h
    constructor
    · intro heq
      cases heq
    · exact fun hall => absurd (hall.1 entry he) hne
  accepted := by
    obtain ⟨entry, he, hne⟩ := h
    constructor
    · intro hok
      obtain ⟨list, hlist⟩ := hok
      cases hlist
    · exact fun hall => absurd (hall.1 entry he) hne
  covered := .inl rfl

/-- With accepted statuses only a negative index is an error. -/
theorem ExactOutcome.of_accepted {entries : List StatusEntry} {r : Eval StatusListError StatusList}
    (hacc : ∀ entry ∈ entries, entry.status.Accepted)
    (h : (r = fail .invalidIndex ∧ ∃ entry ∈ entries, entry.index.toInt < 0) ∨
      (∃ list, r = .ok list) ∧ ∀ entry ∈ entries, 0 ≤ entry.index.toInt) :
    ExactOutcome entries r := by
  have hnone : ¬∃ entry ∈ entries, ∃ value,
      entry.status = .applicationSpecific value ∧ value.toNat < 256 := by
    intro hex
    obtain ⟨entry, he, hsmall⟩ := hex
    exact not_accepted_iff.mpr hsmall (hacc entry he)
  rcases h with ⟨rfl, hneg⟩ | ⟨⟨list, rfl⟩, hnonneg⟩
  · obtain ⟨entry, he, hlt⟩ := hneg
    refine ⟨⟨nofun, fun hex => absurd hex hnone⟩, ⟨fun _ => ⟨hacc, entry, he, hlt⟩, fun _ => rfl⟩,
      ⟨nofun, fun hall => ?_⟩, .inr (.inl rfl)⟩
    have := hall.2 entry he
    omega
  · refine ⟨⟨nofun, fun hex => absurd hex hnone⟩, ⟨nofun, fun hall => ?_⟩,
      ⟨fun _ => ⟨hacc, hnonneg⟩, fun _ => ⟨list, rfl⟩⟩, .inr (.inr ⟨list, rfl⟩)⟩
    obtain ⟨entry, he, hlt⟩ := hall.2
    have := hnonneg entry he
    omega

/-- The outcome of a creation is exact. -/
theorem create_outcome {codec : Codec} (htotal : codec.Total) (entries : List StatusEntry) :
    ExactOutcome entries (StatusList.create codec entries) := by
  by_cases hne : entries = []
  · subst hne
    exact .of_accepted (by simp) (.inr ⟨⟨_, rfl⟩, by simp⟩)
  rw [create_eq codec hne]
  by_cases hacc : ∀ entry ∈ entries, entry.status.Accepted
  · rw [determineBits_eq hne hacc, Option.getD_none, Nat.max_self, ok_bind]
    apply ExactOutcome.of_accepted hacc
    exact htotal.writeEntries_cases (maxWidth_pos entries) (maxWidth_le_thirtyTwo entries) hne hacc
      length_zeros _
  · push Not at hacc
    rw [determineBits_of_refused hacc]
    exact .of_refused hacc

/-- A list the server has written can be updated. -/
theorem update_outcome {codec : Codec} (htotal : codec.Total) {list : StatusList} {m : Nat → Nat}
    (hrep : Represents codec list m) (entries : List StatusEntry) :
    ExactOutcome entries (StatusList.update codec list entries) := by
  by_cases hne : entries = []
  · subst hne
    exact .of_accepted (by simp) (.inr ⟨⟨_, rfl⟩, by simp⟩)
  by_cases hacc : ∀ entry ∈ entries, entry.status.Accepted
  · obtain ⟨bytes, hdecode, hpacked⟩ := hrep
    rw [update_eq codec list hne hacc, hdecode, ok_bind]
    apply ExactOutcome.of_accepted hacc
    by_cases hlt : list.bits.toNat < maxWidth entries
    · rw [if_pos hlt]
      obtain ⟨statuses, hstatuses, hold, _, _⟩ := hpacked.reindex
      have hall : ∀ entry ∈ StatusList.reindex statuses ++ entries, entry.status.Accepted := by
        intro entry he
        rcases List.mem_append.mp he with he | he
        · exact (hold entry he).2.2.accepted
        · exact hacc entry he
      rw [hstatuses, ok_bind]
      rcases htotal.writeEntries_cases (maxWidth_pos entries) (maxWidth_le_thirtyTwo entries)
        (by simp [hne]) hall length_zeros _ with
        ⟨hr, entry, he, hneg⟩ | ⟨hr, hnonneg⟩
      · left
        refine ⟨hr, entry, ?_, hneg⟩
        rcases List.mem_append.mp he with he | he
        · exact absurd (hold entry he).1 (Int.not_le.mpr hneg)
        · exact he
      · exact .inr ⟨hr, fun entry he => hnonneg entry (List.mem_append_right _ he)⟩
    · rw [if_neg hlt]
      exact htotal.writeEntries_cases hpacked.width_pos hpacked.width_le hne hacc
        (fun len => (StatusList.le_length_growTo bytes len).1) _
  · push Not at hacc
    rw [update_of_refused codec list hacc]
    exact .of_refused hacc

/-- **Exact answers.**  On every entry list `create`, and `update` on every list
that a run of `create` and `update` calls has reached, refuse a status value that
is not accepted, then a negative index, and succeed on everything else. -/
theorem exact_outcomes {codec : Codec} (hcodec : codec.Lawful) (htotal : codec.Total) :
    (∀ entries, ExactOutcome entries (StatusList.create codec entries)) ∧
      ∀ first rest list, StatusList.run codec first rest = .ok list →
        ∀ entries, ExactOutcome entries (StatusList.update codec list entries) := by
  refine ⟨create_outcome htotal, ?_⟩
  intro first rest list hrun entries
  obtain ⟨_, hrep⟩ := run_spec hcodec hrun
  exact update_outcome htotal hrep entries

/-- The sample codec compresses everything. -/
theorem sampleCodec_total : sampleCodec.Total where
  writeAll := fun _ => rfl
  finish := fun _ => ⟨_, rfl⟩

/-- A refused status and a negative index. -/
theorem exact_outcomes_sample :
    StatusList.create sampleCodec [⟨-1, .valid⟩, ⟨0, .applicationSpecific 255⟩] = refusedValue ∧
      StatusList.update sampleCodec ⟨2, "eNrjYAAAABIACQ"⟩ [⟨3, .valid⟩, ⟨-1, .invalid⟩] =
        fail .invalidIndex := by
  obtain ⟨hcreate, hupdate⟩ := exact_outcomes sampleCodec_lawful sampleCodec_total
  constructor
  · exact (hcreate _).refused.mpr ⟨⟨0, .applicationSpecific 255⟩, by simp, 255, rfl, by decide⟩
  · apply (hupdate _ _ _ sampleCodec_run _).negative.mpr
    exact ⟨by simp [Status.Accepted], ⟨-1, .invalid⟩, by simp, by decide⟩

end StatusListServer
