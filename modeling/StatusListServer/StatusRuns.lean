import StatusListServer.StatusMap

/-!
# Runs of creations and updates

A run is one `create` and any number of `update` calls.  Its final list stores
the assignment sequence of all the entries it was given, so each slot reads the
last status written to it, and its width is the least one that holds every
entry of the run.
-/

namespace StatusListServer

open BitStream CheckedEval

/-- A run: `create` on the first entry list, then one `update` per further
list. -/
def StatusList.run (codec : Codec) (first : List StatusEntry)
    (rest : List (List StatusEntry)) : Eval StatusListError StatusList :=
  StatusList.create codec first >>= fun list => rest.foldlM (StatusList.update codec) list

/-- A run satisfies what `create` establishes and every `update` extends. -/
theorem run_induction {codec : Codec} {P : StatusList → List StatusEntry → Prop}
    (hcreate : ∀ {entries list}, StatusList.create codec entries = .ok list →
      P list entries)
    (hupdate : ∀ {list next past entries}, P list past →
      StatusList.update codec list entries = .ok next → P next (past ++ entries))
    {first : List StatusEntry} {rest : List (List StatusEntry)} {list : StatusList}
    (hrun : StatusList.run codec first rest = .ok list) :
    P list (first ++ rest.flatten) := by
  obtain ⟨created, hcreated, h⟩ := bind_eq_ok hrun
  have hstart := hcreate hcreated
  clear hrun hcreated
  induction rest generalizing created first with
  | nil =>
      cases h
      simpa using hstart
  | cons entries rest ih =>
      rw [List.foldlM_cons] at h
      obtain ⟨next, hnext, h⟩ := bind_eq_ok h
      simpa using ih next h (hupdate hstart hnext)

/-- The width of a run is the least width for all of its entries. -/
theorem run_bits {codec : Codec} {first : List StatusEntry}
    {rest : List (List StatusEntry)} {list : StatusList}
    (h : StatusList.run codec first rest = .ok list) :
    list.bits.toNat = maxWidth (first ++ rest.flatten) ∧
      ∀ entry ∈ first ++ rest.flatten, entry.status.Accepted := by
  apply run_induction (P := fun list past => list.bits.toNat = maxWidth past ∧
    ∀ entry ∈ past, entry.status.Accepted) (fun hcreate => create_bits hcreate) _ h
  rintro list next past entries ⟨hwidth, hacc⟩ hupdate
  obtain ⟨hnext, hacc'⟩ := update_bits (hwidth ▸ maxWidth_pos past) hupdate
  refine ⟨by rw [hnext, hwidth, maxWidth_append], ?_⟩
  intro entry he
  exact (List.mem_append.mp he).elim (hacc entry) (hacc' entry)

/-- **A run refines one assignment sequence.** -/
theorem run_spec {codec : Codec} (hcodec : codec.Lawful) {first : List StatusEntry}
    {rest : List (List StatusEntry)} {list : StatusList}
    (h : StatusList.run codec first rest = .ok list) :
    (∀ entry ∈ first ++ rest.flatten, 0 ≤ entry.index.toInt ∧
        Covers codec list entry.slot) ∧
      Represents codec list (assign (fun _ => 0) (first ++ rest.flatten)) := by
  apply run_induction (P := fun list past =>
    (∀ entry ∈ past, 0 ≤ entry.index.toInt ∧ Covers codec list entry.slot) ∧
      Represents codec list (assign (fun _ => 0) past))
    (fun hcreate => create_spec hcodec hcreate) _ h
  rintro list next past entries ⟨hpast, hrep⟩ hupdate
  obtain ⟨hnew, hkeep, hnext⟩ := update_spec hcodec hrep hupdate
  refine ⟨?_, by rwa [assign_append]⟩
  intro entry he
  rcases List.mem_append.mp he with he | he
  · exact ⟨(hpast entry he).1, hkeep _ (hpast entry he).2⟩
  · exact hnew entry he

/-- The last entry for an index. -/
def lastEntry? (entries : List StatusEntry) (index : Int32) : Option StatusEntry :=
  entries.reverse.find? (fun entry => entry.index == index)

/-- The last entry splits the list: nothing after it addresses its index. -/
theorem lastEntry?_eq_some {entries : List StatusEntry} {index : Int32}
    {entry : StatusEntry} (h : lastEntry? entries index = some entry) :
    entry.index = index ∧ ∃ before after, entries = before ++ entry :: after ∧
      ∀ e ∈ after, e.index ≠ index := by
  obtain ⟨hindex, as, bs, hsplit, hnone⟩ := List.find?_eq_some_iff_append.mp h
  refine ⟨by simpa using hindex, bs.reverse, as.reverse, ?_, ?_⟩
  · rw [← List.reverse_reverse entries, hsplit]
    simp
  · intro e he
    simpa using hnone e (List.mem_reverse.mp he)

/-- Entries with distinct nonnegative indices address distinct slots. -/
theorem index_eq_of_slot_eq {e₁ e₂ : StatusEntry} (h₁ : 0 ≤ e₁.index.toInt)
    (h₂ : 0 ≤ e₂.index.toInt) (hslot : e₁.slot = e₂.slot) : e₁.index = e₂.index := by
  apply Int32.toInt.inj
  unfold StatusEntry.slot at hslot
  omega

/-- **The codec is a map from index to status.**  After any run of `create` and
`update` calls that all succeed, the array has a slot for every index that some
entry named, that slot reads the status of the last such entry, and every other
slot reads zero. -/
theorem run_reads_last_entry {codec : Codec} (hcodec : codec.Lawful)
    {first : List StatusEntry} {rest : List (List StatusEntry)} {list : StatusList}
    (h : StatusList.run codec first rest = .ok list) :
    ∃ bytes, decodeCompressed codec list.lst = .ok bytes ∧
      (∀ index entry, lastEntry? (first ++ rest.flatten) index = some entry →
        0 ≤ index.toInt ∧ Inside bytes list.bits.toNat index.toInt.toNat ∧
        fieldAt bytes list.bits.toNat index.toInt.toNat = entry.status.code) ∧
      ∀ i : Nat, (∀ entry ∈ first ++ rest.flatten, entry.index.toInt ≠ i) →
        fieldAt bytes list.bits.toNat i = 0 := by
  obtain ⟨hentries, bytes, hdecode, hpacked⟩ := run_spec hcodec h
  refine ⟨bytes, hdecode, ?_, ?_⟩
  · intro index entry hlast
    obtain ⟨rfl, before, after, hsplit, hafter⟩ := lastEntry?_eq_some hlast
    have hmem : entry ∈ first ++ rest.flatten := by
      rw [hsplit]
      simp
    obtain ⟨hnonneg, bytes', hdecode', hin⟩ := hentries entry hmem
    rw [hdecode] at hdecode'
    cases hdecode'
    refine ⟨hnonneg, hin, ?_⟩
    rw [hpacked.slot, hsplit]
    apply assign_of_last
    intro e he hslot
    have hmem' : e ∈ first ++ rest.flatten := by
      rw [hsplit]
      simp [he]
    exact hafter e he (index_eq_of_slot_eq (hentries e hmem').1 hnonneg hslot)
  · intro i hnone
    rw [hpacked.slot]
    apply assign_of_not_mem
    intro entry he hslot
    apply hnone entry he
    have := (hentries entry he).1
    unfold StatusEntry.slot at hslot
    omega

/-- Encode through a table, and with `other` where the table has no entry. -/
def tableEncode {α β : Type} [DecidableEq α] (table : List (α × β)) (other : α → β)
    (a : α) : β :=
  match table.find? (fun v => decide (v.1 = a)) with
  | some v => v.2
  | none => other a

/-- Decode by a table, and otherwise as given. -/
def tableDecode {α β : Type} [DecidableEq β] (table : List (α × β))
    (other : β → Except String α) (b : β) : Except String α :=
  match table.find? (fun v => decide (v.2 = b)) with
  | some v => .ok v.1
  | none => other b

/-- A table without repeated codes, none of which `other` produces, can be
decoded. -/
theorem tableDecode_tableEncode {α β : Type} [DecidableEq α] [DecidableEq β]
    {table : List (α × β)} {other : α → β} {back : β → Except String α}
    (hinj : ∀ v ∈ table, ∀ w ∈ table, v.2 = w.2 → v.1 = w.1)
    (hfresh : ∀ a, ∀ v ∈ table, v.2 ≠ other a) (hback : ∀ a, back (other a) = .ok a)
    (a : α) : tableDecode table back (tableEncode table other a) = .ok a := by
  unfold tableEncode
  split
  · rename_i v hv
    have hmem := List.mem_of_find?_eq_some hv
    have hkey : v.1 = a := by simpa using List.find?_some hv
    unfold tableDecode
    split
    · rename_i w hw
      have hcode : w.2 = v.2 := by simpa using List.find?_some hw
      rw [hinj w (List.mem_of_find?_eq_some hw) v hmem hcode, hkey]
    · rename_i hnone
      exact absurd (decide_eq_true rfl) (List.find?_eq_none.mp hnone v hmem)
  · unfold tableDecode
    have hnone : table.find? (fun v => decide (v.2 = other a)) = none := by
      rw [List.find?_eq_none]
      intro v hv
      simpa using hfresh a v hv
    rw [hnone]
    exact hback a

/-- Arrays with their zlib streams (best compression). -/
def sampleStreams : List (List Byte × List Byte) :=
  [([0xB9, 0xA3], [0x78, 0xDA, 0xDB, 0xB9, 0x18, 0x00, 0x02, 0x17, 0x01, 0x5D]),
    ([0x02], [0x78, 0xDA, 0x63, 0x02, 0x00, 0x00, 0x03, 0x00, 0x03]),
    ([0x08, 0x00], [0x78, 0xDA, 0xE3, 0x60, 0x00, 0x00, 0x00, 0x12, 0x00, 0x09]),
    ([0x00, 0x01], [0x78, 0xDA, 0x63, 0x60, 0x04, 0x00, 0x00, 0x03, 0x00, 0x02])]

/-- The same streams with their base64url texts. -/
def sampleTexts : List (List Byte × String) :=
  [([0x78, 0xDA, 0xDB, 0xB9, 0x18, 0x00, 0x02, 0x17, 0x01, 0x5D], "eNrbuRgAAhcBXQ"),
    ([0x78, 0xDA, 0x63, 0x02, 0x00, 0x00, 0x03, 0x00, 0x03], "eNpjAgAAAwAD"),
    ([0x78, 0xDA, 0xE3, 0x60, 0x00, 0x00, 0x00, 0x12, 0x00, 0x09], "eNrjYAAAABIACQ"),
    ([0x78, 0xDA, 0x63, 0x60, 0x04, 0x00, 0x00, 0x03, 0x00, 0x02], "eNpjYAQAAAMAAg")]

/-- A lawful codec that agrees with the real libraries on the samples and tags
every other input: a zlib stream never starts with a zero byte and base64url
text never with a full stop. -/
def sampleCodec : Codec where
  base64Encode := tableEncode sampleTexts
    (fun bytes => String.ofList ('.' :: bytes.map (fun b => Char.ofNat b.toNat)))
  base64Decode := tableDecode sampleTexts (fun text =>
    match text.toList with
    | [] => .ok []
    | '.' :: rest => .ok (rest.map (fun c => BitVec.ofNat 8 c.toNat))
    | _ => .error "invalid symbol")
  zlibWriteAll := fun _ => .ok ()
  zlibFinish := fun bytes => .ok (tableEncode sampleStreams (fun a => 0x00 :: a) bytes)
  zlibReadToEnd := tableDecode sampleStreams (fun packed =>
    match packed with
    | [] => .ok []
    | 0x00 :: rest => .ok rest
    | _ => .error "corrupt deflate stream")

/-- A byte is read back from its character. -/
theorem charOfByte_roundtrip (b : Byte) : BitVec.ofNat 8 (Char.ofNat b.toNat).toNat = b := by
  have hlt : b.toNat < 256 := b.isLt
  have hvalid : b.toNat.isValidChar := Or.inl (by omega)
  have hcode : (Char.ofNatAux b.toNat hvalid).toNat = b.toNat := rfl
  rw [Char.ofNat, dif_pos hvalid, hcode, BitVec.ofNat_toNat, BitVec.setWidth_eq]

/-- The sample codec is lawful. -/
theorem sampleCodec_lawful : sampleCodec.Lawful where
  base64_roundtrip := by
    intro bytes
    simp only [sampleCodec]
    apply tableDecode_tableEncode
    · decide
    · intro bytes v hv
      simp only [sampleTexts, List.mem_cons, List.not_mem_nil, or_false] at hv
      rcases hv with rfl | rfl | rfl | rfl
      all_goals simp [← String.toList_inj]
    · intro bytes
      simp [Function.comp_def, charOfByte_roundtrip]
  zlib_roundtrip := by
    intro bytes packed h
    cases h
    simp only [sampleCodec]
    apply tableDecode_tableEncode
    · decide
    · intro a v hv
      simp only [sampleStreams, List.mem_cons, List.not_mem_nil, or_false] at hv
      rcases hv with rfl | rfl | rfl | rfl
      all_goals simp
    · intro a
      rfl
  base64_empty := by decide
  zlib_empty := by decide

/-- A run that widens: index 1 is invalid, then suspended. -/
theorem sampleCodec_run :
    StatusList.run sampleCodec [⟨0, .valid⟩, ⟨1, .invalid⟩] [[], [⟨1, .suspended⟩]] =
      .ok ⟨2, "eNrjYAAAABIACQ"⟩ := by
  decide +kernel

/-- The theorem at a publication and two updates, one of them empty. -/
theorem run_reads_last_entry_sample :
    StatusList.run sampleCodec [⟨0, .valid⟩, ⟨1, .invalid⟩] [[], [⟨1, .suspended⟩]] =
        .ok ⟨2, "eNrjYAAAABIACQ"⟩ ∧
      ∃ bytes, decodeCompressed sampleCodec "eNrjYAAAABIACQ" = .ok bytes ∧
        Inside bytes 2 1 ∧ fieldAt bytes 2 1 = 2 := by
  refine ⟨sampleCodec_run, ?_⟩
  obtain ⟨bytes, hdecode, hnamed, _⟩ := run_reads_last_entry sampleCodec_lawful sampleCodec_run
  obtain ⟨_, hin, hvalue⟩ := hnamed 1 ⟨1, .suspended⟩ (by decide)
  exact ⟨bytes, hdecode, hin, hvalue⟩

/-- **The width conforms exactly without application-specific statuses.**  A run
ends at one of the widths 1, 2, 4 and 8 if and only if none of its entries is
application-specific: each of those needs nine bits or more. -/
theorem run_bits_conform_iff {codec : Codec} {first : List StatusEntry}
    {rest : List (List StatusEntry)} {list : StatusList}
    (h : StatusList.run codec first rest = .ok list) :
    (list.bits = 1 ∨ list.bits = 2 ∨ list.bits = 4 ∨ list.bits = 8) ↔
      ∀ entry ∈ first ++ rest.flatten, ∀ value,
        entry.status ≠ .applicationSpecific value := by
  obtain ⟨hwidth, hacc⟩ := run_bits h
  constructor
  · intro hbits entry he value hstatus
    have hnine : 9 ≤ widthOf entry.status.code := by
      apply nine_le_widthOf
      rw [hstatus]
      exact hacc entry he value hstatus
    have hle := Nat.le_trans hnine (widthOf_le_maxWidth he)
    rw [← hwidth] at hle
    rcases hbits with hb | hb | hb | hb <;> simp [hb] at hle
  · intro hnone
    have hle : maxWidth (first ++ rest.flatten) ≤ 2 := by
      apply maxWidth_le (by decide)
      intro entry he
      apply widthOf_le_of_lt (by decide)
      cases hs : entry.status with
      | applicationSpecific value => exact absurd hs (hnone entry he value)
      | _ => decide
    have hpos := maxWidth_pos (first ++ rest.flatten)
    rw [← hwidth] at hle hpos
    have hcases : list.bits.toNat = 1 ∨ list.bits.toNat = 2 := by omega
    rcases hcases with h1 | h2
    · exact Or.inl (BitVec.eq_of_toNat_eq h1)
    · exact Or.inr (Or.inl (BitVec.eq_of_toNat_eq h2))

/-- The theorem at the run that widens from one to two bits. -/
theorem run_bits_conform_iff_sample :
    (2#8 = 1 ∨ 2#8 = 2 ∨ 2#8 = 4 ∨ 2#8 = 8) ↔
      ∀ entry ∈ ([⟨0, .valid⟩, ⟨1, .invalid⟩, ⟨1, .suspended⟩] : List StatusEntry),
        ∀ value, entry.status ≠ .applicationSpecific value :=
  run_bits_conform_iff sampleCodec_run

/-- One application-specific entry is published at nine bits. -/
theorem create_publishes_nine_bits :
    ¬ ∀ list, StatusList.run sampleCodec [⟨0, .applicationSpecific 256⟩] [] = .ok list →
      list.bits = 1 ∨ list.bits = 2 ∨ list.bits = 4 ∨ list.bits = 8 := by
  intro hconform
  have hrun : StatusList.run sampleCodec [⟨0, .applicationSpecific 256⟩] [] =
      .ok ⟨9, "eNpjYAQAAAMAAg"⟩ := by decide +kernel
  exact absurd (hconform _ hrun) (by decide)

end StatusListServer
