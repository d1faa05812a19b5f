import Mathlib.Data.List.Sort
import StatusListServer.Deployment

/-!
# The adapters, operation by operation

What the two adapters answer to the same operation on tables with the same
rows.  They scan in different orders, sort by different means, sweep in one pass
or in batches, and the SQL adapter refuses writes the in-memory adapter does not
look at.  On stores as the service keeps them (`Orderly`) none of this shows.
-/

namespace StatusListServer

open KeyedTable Interaction

/-- A set with one more element. -/
theorem mem_btreeInsert {x y : String} {set : List String} :
    y ∈ btreeInsert x set ↔ y = x ∨ y ∈ set := by
  induction set with
  | nil => simp [btreeInsert]
  | cons z rest ih =>
      unfold btreeInsert
      split
      · simp
      · split
        · rename_i hxz
          subst hxz
          simp
        · simp only [List.mem_cons, ih]
          tauto

/-- A `BTreeSet` stays ascending. -/
theorem pairwise_btreeInsert {x : String} {set : List String}
    (h : set.Pairwise (· < ·)) : (btreeInsert x set).Pairwise (· < ·) := by
  induction set with
  | nil => simp [btreeInsert]
  | cons z rest ih =>
      obtain ⟨hz, hrest⟩ := List.pairwise_cons.mp h
      unfold btreeInsert
      split
      · rename_i hxz
        refine List.pairwise_cons.mpr ⟨?_, h⟩
        intro y hy
        rcases List.mem_cons.mp hy with rfl | hy
        · exact hxz
        · exact lt_trans hxz (hz y hy)
      · split
        · exact h
        · rename_i hxz hne
          refine List.pairwise_cons.mpr ⟨?_, ih hrest⟩
          intro y hy
          rcases mem_btreeInsert.mp hy with rfl | hy
          · exact lt_of_le_of_ne (not_lt.mp hxz) (Ne.symm hne)
          · exact hz y hy

/-- The elements of a collected `BTreeSet`, in ascending order. -/
theorem btreeCollect_spec (xs : List String) :
    (btreeCollect xs).Pairwise (· < ·) ∧ ∀ y, y ∈ btreeCollect xs ↔ y ∈ xs := by
  induction xs using List.reverseRecOn with
  | nil => simp [btreeCollect]
  | append_singleton xs x ih =>
      have hlast : btreeCollect (xs ++ [x]) = btreeInsert x (btreeCollect xs) := by
        simp [btreeCollect, List.foldl_append]
      rw [hlast]
      refine ⟨pairwise_btreeInsert ih.1, ?_⟩
      intro y
      rw [mem_btreeInsert, ih.2 y, List.mem_append, List.mem_singleton]
      tauto

/-- `GROUP BY sub ORDER BY sub` lists the same URIs in the same order as a
`BTreeSet`. -/
theorem uris_agree {db₁ db₂ : Database} (h : db₁.rows.Same db₂.rows) (order₁ order₂ : ScanOrder) :
    Memory.listUris order₁ db₁ = Sql.findAllStatusListUris order₂ db₂ := by
  obtain ⟨hsorted, hmem⟩ :=
    btreeCollect_spec ((order₁.rows.visit db₁.rows.rows).map StatusListRecord.sub)
  have hsql : (Sql.findAllStatusListUris order₂ db₂).Pairwise (· < ·) := by
    have hle : (Sql.findAllStatusListUris order₂ db₂).Pairwise (· ≤ ·) :=
      List.pairwise_mergeSort' (· ≤ ·) _
    have hnodup : (Sql.findAllStatusListUris order₂ db₂).Nodup :=
      (List.mergeSort_perm _ _).nodup_iff.mpr (List.nodup_dedup _)
    exact (hle.and hnodup).imp (fun ⟨hab, hne⟩ => lt_of_le_of_ne hab hne)
  refine List.Pairwise.eq_of_mem_iff hsorted hsql ?_
  intro uri
  rw [Memory.listUris, hmem uri, Sql.findAllStatusListUris, List.mem_mergeSort, List.mem_dedup,
    List.mem_map, List.mem_map]
  have hvisit : ∀ r, r ∈ order₁.rows.visit db₁.rows.rows ↔ r ∈ order₂.rows.visit db₂.rows.rows := by
    intro r
    rw [order₁.rows.mem, order₂.rows.mem]
    exact h r
  simp only [hvisit]

/-- With one snapshot per list and `iat`, historical resolution has one answer. -/
theorem latestValid_unique {history₁ history₂ : Table StatusListSnapshot.snapshotId}
    (hsame : history₁.Same history₂)
    (hsingle : ∀ s ∈ history₁, ∀ s' ∈ history₁, s.listId = s'.listId → s.iat = s'.iat → s = s')
    {listId : String} {time : Int} {found₁ found₂ : Option StatusListSnapshot}
    (h₁ : LatestValid history₁ listId time found₁)
    (h₂ : LatestValid history₂ listId time found₂) : found₁ = found₂ := by
  cases found₁ with
  | none =>
      cases found₂ with
      | none => rfl
      | some s =>
          obtain ⟨hs, hvalid, _⟩ := h₂
          rw [h₁ s ((hsame s).mpr hs)] at hvalid
          cases hvalid
  | some s₁ =>
      obtain ⟨hs₁, hvalid₁, hmax₁⟩ := h₁
      cases found₂ with
      | none =>
          rw [h₂ s₁ ((hsame s₁).mp hs₁)] at hvalid₁
          cases hvalid₁
      | some s₂ =>
          obtain ⟨hs₂, hvalid₂, hmax₂⟩ := h₂
          have hs₂' := (hsame s₂).mpr hs₂
          have hle₁ := hmax₁ s₂ hs₂' hvalid₂
          have hle₂ := hmax₂ s₁ ((hsame s₁).mp hs₁) hvalid₁
          have hlist : s₁.listId = s₂.listId := by
            simp only [StatusListSnapshot.validAt, Bool.and_eq_true, decide_eq_true_eq]
              at hvalid₁ hvalid₂
            rw [hvalid₁.1.1, hvalid₂.1.1]
          rw [hsingle s₁ hs₁ s₂ hs₂' hlist (by omega)]

/-- The rows of a batch, in storage order. -/
theorem Sql.filter_mem_expiredBatch (order : ScanOrder) (cutoff : Int)
    (history : Table StatusListSnapshot.snapshotId) :
    (history.rows.filter (fun s => decide (s ∈ Sql.expiredBatch order history cutoff))).Perm
      (Sql.expiredBatch order history cutoff) := by
  have hnodup : (Sql.expiredBatch order history cutoff).Nodup :=
    (((order.history.perm _).nodup_iff.mpr history.nodup_rows).filter _).sublist
      (List.take_sublist _ _)
  refine (List.perm_ext_iff_of_nodup (history.nodup_rows.filter _) hnodup).mpr ?_
  intro s
  rw [List.mem_filter, decide_eq_true_eq]
  exact ⟨fun h => h.2, fun h => ⟨(Sql.mem_of_mem_expiredBatch h).1, h⟩⟩

/-- What a batch deletes and what it leaves are all the expired snapshots. -/
theorem Sql.countP_deleteBatch (order : ScanOrder) (cutoff : Int)
    (history : Table StatusListSnapshot.snapshotId) :
    (Sql.expiredBatch order history cutoff).length +
        (Sql.deleteBatch order history cutoff).rows.countP (fun s => decide (s.exp < cutoff)) =
      history.rows.countP (fun s => decide (s.exp < cutoff)) := by
  have hall : (history.rows.filter
      (fun s => decide (s ∈ Sql.expiredBatch order history cutoff))).countP
        (fun s => decide (s.exp < cutoff)) = (Sql.expiredBatch order history cutoff).length := by
    rw [(Sql.filter_mem_expiredBatch order cutoff history).countP_eq, List.countP_eq_length]
    intro s hs
    exact decide_eq_true (Sql.mem_of_mem_expiredBatch hs).2
  rw [← hall, List.countP_eq_countP_filter_add history.rows _
    (fun s => decide (s ∈ Sql.expiredBatch order history cutoff))]
  congr 2
  simp only [Sql.deleteBatch, Table.filter, decide_not]

/-- The batches together delete every expired snapshot once. -/
theorem Sql.deleteBatches_count (order : ScanOrder) (cutoff : Int) (batch total : Nat)
    (history : Table StatusListSnapshot.snapshotId) :
    (Sql.deleteBatches .none order cutoff batch total history).1 =
      .ok (total + history.rows.countP (fun s => decide (s.exp < cutoff))) := by
  fun_induction Sql.deleteBatches .none order cutoff batch total history with
  | case1 batch total history e he => cases he
  | case2 batch total history hnone count hlast =>
      have hempty : (Sql.deleteBatch order history cutoff).rows.countP
          (fun s => decide (s.exp < cutoff)) = 0 := by
        refine List.countP_eq_zero.mpr ?_
        intro s hs
        have hle := Sql.le_exp_of_mem_deleteBatch hlast hs
        simp only [decide_eq_true_eq]
        omega
      rw [← Sql.countP_deleteBatch order cutoff history, hempty, Nat.add_zero]
  | case3 batch total history hnone count hfull ih =>
      rw [ih, ← Sql.countP_deleteBatch order cutoff history, Nat.add_assoc]

/-- The tables of two adapters hold the same rows. -/
structure Agree (db₁ db₂ : Database) : Prop where
  rows : db₁.rows.Same db₂.rows
  history : db₁.history.Same db₂.history
  credentials : db₁.credentials = db₂.credentials

/-- The same write on both sides keeps them in agreement. -/
theorem Agree.written {db₁ db₂ db₁' db₂' : Database} (h : Agree db₁ db₂)
    {record : StatusListRecord} {snapshot : Option StatusListSnapshot}
    (h₁ : RowWritten db₁ record snapshot db₁') (h₂ : RowWritten db₂ record snapshot db₂') :
    Agree db₁' db₂' where
  rows := h₁.rows.trans ((h.rows.upsert record).trans h₂.rows.symm)
  history := by
    refine h₁.history.trans (Table.Same.trans ?_ h₂.history.symm)
    cases snapshot with
    | none => exact h.history
    | some s => exact h.history.upsert s
  credentials := by rw [h₁.credentials, h₂.credentials, h.credentials]

/-- What the service maintains in a store: the issuers of rows are registered,
no snapshot is newer than the row of its list, and no two snapshots of a list
share an `iat`. -/
structure Orderly (db : Database) : Prop where
  registered : ∀ row ∈ db.rows, Sql.issuerRegistered db row = true
  covered : ∀ s ∈ db.history, ∃ row, db.rows.find? s.listId = some row ∧
    s.iat ≤ row.updatedAt
  single : ∀ s ∈ db.history, ∀ s' ∈ db.history, s.listId = s'.listId → s.iat = s'.iat → s = s'

/-- A row that is newer than the stored one keeps the store orderly. -/
theorem Orderly.written {db db' : Database} (h : Orderly db) {record : StatusListRecord}
    {snapshot : Option StatusListSnapshot} (hwritten : RowWritten db record snapshot db')
    (hregistered : Sql.issuerRegistered db record = true)
    (hsnapshot : ∀ s ∈ snapshot, s.listId = record.listId ∧ s.iat = record.updatedAt)
    (hlater : ∀ row, db.rows.find? record.listId = some row → row.updatedAt < record.updatedAt) :
    Orderly db' := by
  have hhistory : ∀ s ∈ db'.history, s ∈ snapshot ∨ s ∈ db.history := by
    intro s hs
    have hs := (hwritten.history s).mp hs
    cases snapshot with
    | none => exact Or.inr hs
    | some new =>
        rcases Table.mem_upsert.mp hs with rfl | ⟨hs, _⟩
        · exact Or.inl rfl
        · exact Or.inr hs
  have holder : ∀ s ∈ db.history, s.listId = record.listId → s.iat < record.updatedAt := by
    intro s hs hlist
    obtain ⟨row, hrow, hle⟩ := h.covered s hs
    rw [hlist] at hrow
    have hlt := hlater row hrow
    omega
  refine ⟨?_, ?_, ?_⟩
  · intro row hrow
    have hkeep : Sql.issuerRegistered db' row = Sql.issuerRegistered db row := by
      simp only [Sql.issuerRegistered, hwritten.credentials]
    rw [hkeep]
    rcases Table.mem_upsert.mp ((hwritten.rows row).mp hrow) with rfl | ⟨hrow, _⟩
    · exact hregistered
    · exact h.registered row hrow
  · intro s hs
    rcases hhistory s hs with hnew | hs
    · obtain ⟨hlist, hiat⟩ := hsnapshot s hnew
      exact ⟨record, by rw [hlist]; exact hwritten.find?_self, by omega⟩
    · by_cases hlist : s.listId = record.listId
      · exact ⟨record, by rw [hlist]; exact hwritten.find?_self, Int.le_of_lt (holder s hs hlist)⟩
      · rw [hwritten.find?_of_ne hlist]
        exact h.covered s hs
  · intro s hs s' hs' hlist hiat
    rcases hhistory s hs with hnew | hs <;> rcases hhistory s' hs' with hnew' | hs'
    · exact Option.mem_unique hnew hnew'
    · obtain ⟨hl, hi⟩ := hsnapshot s hnew
      have := holder s' hs' (hlist.symm.trans hl)
      omega
    · obtain ⟨hl, hi⟩ := hsnapshot s' hnew'
      have := holder s hs (hlist.trans hl)
      omega
    · exact h.single s hs s' hs' hlist hiat

/-- Sweeping keeps a store orderly. -/
theorem Orderly.swept {db db' : Database} (h : Orderly db) {cutoff : Int}
    {answer : Except StatusListError Nat} (hsweeps : Sweeps db cutoff answer db') :
    Orderly db' where
  registered := by
    intro row hrow
    rw [hsweeps.rows] at hrow
    simpa only [Sql.issuerRegistered, hsweeps.credentials] using h.registered row hrow
  covered := by
    intro s hs
    rw [hsweeps.rows]
    exact h.covered s (hsweeps.subset s hs)
  single := fun s hs s' hs' => h.single s (hsweeps.subset s hs) s' (hsweeps.subset s' hs')

/-- Without failures both adapters sweep alike. -/
theorem sweeps_agree {db₁ db₂ : Database} (h : Agree db₁ db₂) (order : ScanOrder) (cutoff : Int) :
    (Memory.deleteOlderThan db₁ cutoff).1 =
        (Sql.converted (Sql.deleteOlderThan .none order db₂ cutoff)).1 ∧
      Agree (Memory.deleteOlderThan db₁ cutoff).2
        (Sql.converted (Sql.deleteOlderThan .none order db₂ cutoff)).2 := by
  have hcount := Sql.deleteBatches_count order cutoff 0 0 db₂.history
  obtain ⟨hsubset, hremoved, hcomplete⟩ := Sql.deleteBatches_spec .none order cutoff 0 0 db₂.history
  refine ⟨?_, h.rows, ?_, h.credentials⟩
  · simp only [Memory.deleteOlderThan, Sql.converted, Sql.deleteOlderThan, hcount, Nat.zero_add,
      Except.mapError, List.length_map, ← List.countP_eq_length_filter,
      h.history.perm.countP_eq]
  · intro s
    rw [Memory.mem_deleteOlderThan, h.history s]
    constructor
    · rintro ⟨hs, hexp⟩
      rcases hremoved s hs with hkept | hexpired
      · exact hkept
      · omega
    · intro hs
      exact ⟨hsubset s hs, hcomplete _ hcount s hs⟩

section Writes

variable {db₁ db₂ : Database} {record : StatusListRecord} {snapshot : StatusListSnapshot}

/-- Without failures an insertion is refused only for an existing row. -/
theorem insert_agrees (h : Agree db₁ db₂)
    (hregistered : Sql.issuerRegistered db₁ record = true) :
    (Memory.insert db₁ record).1 = (Sql.converted (Sql.insertOne .none db₂ record)).1 := by
  have hregistered₂ : Sql.issuerRegistered db₂ record = true := by
    simpa only [Sql.issuerRegistered, h.credentials] using hregistered
  simp only [Memory.insert, Sql.insertOne, SqlFaults.none, Sql.insertRow, h.rows.find?]
  cases db₂.rows.find? record.listId with
  | some row => rfl
  | none => simp [hregistered₂, Sql.commit, Sql.converted, Except.mapError]

/-- The same with a snapshot under a fresh id. -/
theorem insertWithSnapshot_agrees (h : Agree db₁ db₂)
    (hregistered : Sql.issuerRegistered db₁ record = true)
    (hlist : snapshot.listId = record.listId)
    (hfresh : db₁.history.find? snapshot.snapshotId = none) :
    (Memory.insertWithSnapshot true db₁ record snapshot).1 =
      (Sql.converted (Sql.insertOneWithSnapshot .none db₂ record snapshot)).1 := by
  have hregistered₂ : Sql.issuerRegistered db₂ record = true := by
    simpa only [Sql.issuerRegistered, h.credentials] using hregistered
  rw [h.history.find?] at hfresh
  simp only [Memory.insertWithSnapshot, Memory.requireSnapshot, Sql.insertOneWithSnapshot,
    SqlFaults.none, Sql.insertRow, h.rows.find?, hlist, ne_eq, not_true_eq_false, if_false, if_true]
  cases db₂.rows.find? record.listId with
  | some row => rfl
  | none =>
      simp [hregistered₂, Sql.commit, Sql.converted, Except.mapError, Sql.insertHistory, hfresh]

/-- A row under the guard is found. -/
theorem Memory.guardMatches_of_guard {expected : Int} (h : Guard db₁ record expected) :
    Memory.guardMatches db₁ record expected = true := by
  obtain ⟨current, hcurrent, hstamp⟩ := h
  simp [Memory.guardMatches, hcurrent, hstamp]

/-- A guarded update of the current row affects it. -/
theorem Sql.updateRow_lands (hregistered : Sql.issuerRegistered db₂ record = true)
    {expected : Int} (hguard : Guard db₂ record expected) :
    ∃ n db', Sql.updateRow none db₂ record.listId record expected = .ok (n + 1, db') ∧
      db'.history = db₂.history := by
  obtain ⟨current, hcurrent, hstamp⟩ := hguard
  obtain ⟨hmem, hkey⟩ := Table.find?_eq_some.mp hcurrent
  have hpos : 0 < db₂.rows.rows.countP (Sql.addresses record.listId expected) :=
    List.countP_pos_iff.mpr ⟨current, hmem, by simp [Sql.addresses, hkey, hstamp]⟩
  obtain ⟨n, hn⟩ := Nat.exists_eq_succ_of_ne_zero (Nat.pos_iff_ne_zero.mp hpos)
  have hlands : Sql.updateRow none db₂ record.listId record expected =
      .ok (n + 1, { db₂ with
        rows := db₂.rows.updateWhere (Sql.addresses record.listId expected)
          (fun row => { record with listId := row.listId }) (fun _ => rfl) }) := by
    simp [Sql.updateRow, hregistered, hn]
  exact ⟨n, _, hlands, rfl⟩

/-- Without failures a newer version of the current row lands. -/
theorem Sql.updateOne_lands (hregistered : Sql.issuerRegistered db₂ record = true)
    {expected : Int} (hlater : expected < record.updatedAt) (hguard : Guard db₂ record expected) :
    (Sql.converted (Sql.updateOne .none db₂ record.listId record expected)).1 = .ok true := by
  obtain ⟨n, db', hrow, _⟩ := Sql.updateRow_lands hregistered hguard
  simp [Sql.updateOne, SqlFaults.none, hrow, Sql.commit, Sql.converted, Except.mapError,
    Int.not_le.mpr hlater]

/-- The same with a snapshot under a fresh id. -/
theorem Sql.updateOneWithSnapshot_lands (hregistered : Sql.issuerRegistered db₂ record = true)
    {expected : Int} (hlater : expected < record.updatedAt) (hguard : Guard db₂ record expected)
    (hlist : snapshot.listId = record.listId)
    (hfresh : db₂.history.find? snapshot.snapshotId = none) :
    (Sql.converted (Sql.updateOneWithSnapshot .none db₂ record.listId record expected
      snapshot)).1 = .ok true := by
  obtain ⟨n, db', hrow, hhistory⟩ := Sql.updateRow_lands hregistered hguard
  simp [Sql.updateOneWithSnapshot, SqlFaults.none, hrow, Sql.insertHistory, hhistory, hfresh,
    Sql.commit, Sql.converted, Except.mapError, hlist, Int.not_le.mpr hlater]

end Writes

end StatusListServer
