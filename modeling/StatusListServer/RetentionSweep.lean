import Mathlib.Data.Set.Operations
import StatusListServer.AdapterOutcomes

/-!
# The retention sweep

`delete_older_than` of the SQL adapter deletes in batches of 500 until a batch comes
out short.  The statement has three forms, one for each database: PostgreSQL and
SQLite choose the identifiers of a batch in a subquery, MySQL limits the deletion
itself.  Which rows a batch takes is up to the database.

Whatever it chooses, the loop ends, and what it leaves is what the single pass of the
in-memory adapter leaves.  A snapshot that is deleted is past the end of its window at
every time that the sweep does not look back to, so no resolution changes.
-/

namespace StatusListServer

open KeyedTable

/-- The kinds of database. -/
inductive DatabaseBackend
  | postgres
  | mySql
  | sqlite
deriving DecidableEq, Repr

namespace Sql

/-- One execution of the statement of a backend: the rows affected and the table
after it. -/
def executeDelete (backend : DatabaseBackend) (order : ScanOrder)
    (history : Table StatusListSnapshot.snapshotId) (cutoff : Int) :
    Nat × Table StatusListSnapshot.snapshotId :=
  match backend with
  | .mySql => ((expiredBatch order history cutoff).length, deleteBatch order history cutoff)
  | .postgres | .sqlite =>
      let ids := (expiredBatch order history cutoff).map StatusListSnapshot.snapshotId
      (history.rows.countP (fun s => decide (s.snapshotId ∈ ids)),
        history.filter (fun s => decide (s.snapshotId ∉ ids)))

/-- The loop, for as many executions as there is fuel.  The connection is looked up
anew for every execution. -/
def sweepLoop (connection : Nat → DatabaseBackend × ScanOrder) (cutoff : Int) :
    (fuel execution totalDeleted : Nat) → Table StatusListSnapshot.snapshotId →
      Option (Nat × Table StatusListSnapshot.snapshotId)
  | 0, _, _, _ => none
  | fuel + 1, execution, totalDeleted, history =>
      let (backend, order) := connection execution
      let (count, next) := executeDelete backend order history cutoff
      if count < batchSize then some (totalDeleted + count, next)
      else sweepLoop connection cutoff fuel (execution + 1) (totalDeleted + count) next

/-- The snapshots that have not expired. -/
def unexpired (cutoff : Int) (history : Table StatusListSnapshot.snapshotId) :
    Table StatusListSnapshot.snapshotId := history.filter (fun s => decide (cutoff ≤ s.exp))

/-- How many have. -/
def expiredCount (cutoff : Int) (history : Table StatusListSnapshot.snapshotId) : Nat :=
  history.rows.countP (fun s => decide (s.exp < cutoff))

section Execution

variable {cutoff : Int} {history : Table StatusListSnapshot.snapshotId} {order : ScanOrder}

/-- An identifier names a row of the batch or a row outside it. -/
theorem mem_ids_iff {s : StatusListSnapshot} (hs : s ∈ history) :
    s.snapshotId ∈ (expiredBatch order history cutoff).map StatusListSnapshot.snapshotId ↔
      s ∈ expiredBatch order history cutoff := by
  rw [List.mem_map]
  constructor
  · intro h
    obtain ⟨r, hr, hid⟩ := h
    rwa [← Table.eq_of_key_eq (mem_of_mem_expiredBatch hr).1 hs hid]
  · intro h
    exact ⟨s, h, rfl⟩

/-- The three forms of the statement do the same. -/
theorem executeDelete_eq (backend : DatabaseBackend) (order : ScanOrder)
    (history : Table StatusListSnapshot.snapshotId) (cutoff : Int) :
    executeDelete backend order history cutoff =
      ((expiredBatch order history cutoff).length, deleteBatch order history cutoff) := by
  have hcount : history.rows.countP (fun s => decide (s.snapshotId ∈
      (expiredBatch order history cutoff).map StatusListSnapshot.snapshotId)) =
      (expiredBatch order history cutoff).length := by
    rw [List.countP_eq_length_filter, ← (filter_mem_expiredBatch order cutoff history).length_eq]
    congr 1
    apply List.filter_congr
    intro s hs
    rw [decide_eq_decide]
    exact mem_ids_iff hs
  have htable : history.filter (fun s => decide (s.snapshotId ∉
      (expiredBatch order history cutoff).map StatusListSnapshot.snapshotId)) =
      deleteBatch order history cutoff := by
    rw [deleteBatch, Table.filter, Table.filter, Table.mk.injEq]
    apply List.filter_congr
    intro s hs
    rw [decide_eq_decide]
    exact not_congr (mem_ids_iff hs)
  cases backend with
  | mySql => rfl
  | postgres => simp only [executeDelete, hcount, htable]
  | sqlite => simp only [executeDelete, hcount, htable]

/-- A batch is full, or takes all that is left. -/
theorem length_expiredBatch : (expiredBatch order history cutoff).length =
    min batchSize (expiredCount cutoff history) := by
  rw [expiredBatch, List.length_take, expiredCount, ← List.countP_eq_length_filter,
    (order.history.perm history.rows).countP_eq]

/-- A batch takes its rows from the expired ones. -/
theorem expiredCount_deleteBatch :
    expiredCount cutoff (deleteBatch order history cutoff) =
      expiredCount cutoff history - (expiredBatch order history cutoff).length := by
  have htotal := countP_deleteBatch order cutoff history
  rw [expiredCount, expiredCount]
  omega

/-- A batch takes no snapshot that has not expired. -/
theorem unexpired_deleteBatch :
    unexpired cutoff (deleteBatch order history cutoff) = unexpired cutoff history := by
  rw [unexpired, unexpired, deleteBatch, Table.filter, Table.filter, Table.filter, Table.mk.injEq,
    List.filter_filter]
  apply List.filter_congr
  intro s hs
  by_cases hexp : cutoff ≤ s.exp
  · have hout : s ∉ expiredBatch order history cutoff := by
      intro hmem
      have hlt := (mem_of_mem_expiredBatch hmem).2
      omega
    simp [hexp, hout]
  · simp [hexp]

/-- A table without expired snapshots. -/
theorem unexpired_eq_self (h : expiredCount cutoff history = 0) :
    unexpired cutoff history = history := by
  obtain ⟨rows, hnodup⟩ := history
  rw [unexpired, Table.filter, Table.mk.injEq, List.filter_eq_self]
  intro s hs
  have hexp := List.countP_eq_zero.mp h s hs
  simp only [decide_eq_true_eq] at hexp ⊢
  omega

end Execution

/-- **The loop ends and deletes what has expired.**  It takes one execution for each
full batch and one more. -/
theorem sweepLoop_eq (connection : Nat → DatabaseBackend × ScanOrder) (cutoff : Int) :
    ∀ (fuel execution total : Nat) (history : Table StatusListSnapshot.snapshotId),
      sweepLoop connection cutoff fuel execution total history =
        if expiredCount cutoff history / batchSize < fuel then
          some (total + expiredCount cutoff history, unexpired cutoff history)
        else none := by
  intro fuel
  induction fuel with
  | zero =>
      intro execution total history
      rw [if_neg (Nat.not_lt_zero _)]
      rfl
  | succ fuel ih =>
      intro execution total history
      have hlength : (expiredBatch (connection execution).2 history cutoff).length =
          min batchSize (expiredCount cutoff history) := length_expiredBatch
      have hrest : expiredCount cutoff (deleteBatch (connection execution).2 history cutoff) =
          expiredCount cutoff history -
            (expiredBatch (connection execution).2 history cutoff).length :=
        expiredCount_deleteBatch
      rw [sweepLoop]
      simp only [executeDelete_eq]
      by_cases hshort : (expiredBatch (connection execution).2 history cutoff).length < batchSize
      · have hall : (expiredBatch (connection execution).2 history cutoff).length =
            expiredCount cutoff history := by omega
        have hquotient : expiredCount cutoff history / batchSize = 0 :=
          Nat.div_eq_of_lt (by omega)
        have hnone : expiredCount cutoff (deleteBatch (connection execution).2 history cutoff) =
            0 := by omega
        rw [if_pos hshort, if_pos (by omega), hall, ← unexpired_deleteBatch,
          unexpired_eq_self hnone]
      · have hbatch : batchSize = 500 := rfl
        have hfull : (expiredBatch (connection execution).2 history cutoff).length = batchSize := by
          omega
        rw [hfull] at hrest
        have hquotient : expiredCount cutoff history / batchSize =
            (expiredCount cutoff history - batchSize) / batchSize + 1 := by
          rw [hbatch]
          omega
        rw [if_neg hshort, ih, hrest, hfull, unexpired_deleteBatch, hquotient]
        have htotal : total + batchSize + (expiredCount cutoff history - batchSize) =
            total + expiredCount cutoff history := by omega
        rw [htotal]
        by_cases hfuel : (expiredCount cutoff history - batchSize) / batchSize < fuel
        · rw [if_pos hfuel, if_pos (Nat.succ_lt_succ hfuel)]
        · rw [if_neg hfuel, if_neg (fun h => hfuel (Nat.lt_of_succ_lt_succ h))]

/-- The loop without failing statements, as the handler runs it. -/
theorem deleteOlderThan_eq (order : ScanOrder) (db : Database) (cutoff : Int) :
    deleteOlderThan .none order db cutoff =
      (.ok (expiredCount cutoff db.history),
        { db with history := unexpired cutoff db.history }) := by
  have hloop : ∀ (batch total : Nat) (history : Table StatusListSnapshot.snapshotId),
      deleteBatches .none order cutoff batch total history =
        (.ok (total + expiredCount cutoff history), unexpired cutoff history) := by
    intro batch total history
    fun_induction deleteBatches .none order cutoff batch total history with
    | case1 batch total history e he => cases he
    | case2 batch total history hnone count hlast =>
        have hlength : count = min batchSize (expiredCount cutoff history) := length_expiredBatch
        have hall : count = expiredCount cutoff history := by omega
        have hempty : expiredCount cutoff (deleteBatch order history cutoff) = 0 := by
          rw [expiredCount_deleteBatch]
          omega
        have hkept : unexpired cutoff (deleteBatch order history cutoff) =
            unexpired cutoff history := unexpired_deleteBatch
        rw [hall, ← hkept, unexpired_eq_self hempty]
    | case3 batch total history hnone count hfull ih =>
        have htotal := countP_deleteBatch order cutoff history
        have hsum : total + count + expiredCount cutoff (deleteBatch order history cutoff) =
            total + expiredCount cutoff history := by
          rw [Nat.add_assoc]
          exact congrArg (total + ·) htotal
        rw [ih, unexpired_deleteBatch, hsum]
  simp only [deleteOlderThan, hloop, Nat.zero_add]

end Sql

/-! ## The single pass of the in-memory adapter -/

/-- Removing keys one by one, as a table. -/
theorem foldl_remove_eq (ids : List String) (t : Table StatusListSnapshot.snapshotId) :
    ids.foldl (fun values id => values.remove id) t =
      t.filter (fun s => decide (s.snapshotId ∉ ids)) := by
  induction ids generalizing t with
  | nil => simp [Table.filter]
  | cons id ids ih =>
      rw [List.foldl_cons, ih, Table.remove, Table.filter, Table.filter, Table.filter,
        Table.mk.injEq, List.filter_filter]
      apply List.filter_congr
      intro s _
      simp [Bool.and_comm, not_or]

/-- The pass over memory removes the expired rows and counts them. -/
theorem Memory.deleteOlderThan_eq (db : Database) (cutoff : Int) :
    Memory.deleteOlderThan db cutoff =
      (.ok (Sql.expiredCount cutoff db.history),
        { db with history := Sql.unexpired cutoff db.history }) := by
  have htable : (((db.history.rows.filter (fun r => decide (r.exp < cutoff))).map
      StatusListSnapshot.snapshotId).foldl (fun values id => values.remove id) db.history) =
      Sql.unexpired cutoff db.history := by
    rw [foldl_remove_eq, Sql.unexpired, Table.filter, Table.filter, Table.mk.injEq]
    apply List.filter_congr
    intro s hs
    rw [decide_eq_decide, List.mem_map]
    constructor
    · intro hkept
      by_contra hlt
      exact hkept ⟨s, List.mem_filter.mpr ⟨hs, by simpa using hlt⟩, rfl⟩
    · intro hle h
      obtain ⟨r, hr, hid⟩ := h
      obtain ⟨hmem, hexp⟩ := List.mem_filter.mp hr
      rw [Table.eq_of_key_eq hmem hs hid, decide_eq_true_eq] at hexp
      omega
  simp only [Memory.deleteOlderThan, htable, List.length_map, Sql.expiredCount,
    List.countP_eq_length_filter]

/-! ## Resolution after a sweep -/

section Resolution

variable {cutoff time : Int} {listId : String}

/-- A snapshot that is valid at a time the sweep does not look back to is kept. -/
theorem le_exp_of_validAt (htime : cutoff - 1 ≤ time) {s : StatusListSnapshot}
    (hvalid : s.validAt listId time = true) : cutoff ≤ s.exp := by
  simp only [StatusListSnapshot.validAt, Bool.and_eq_true, decide_eq_true_eq] at hvalid
  omega

/-- The rows that are swept were not valid any more. -/
theorem filter_validAt_filter (htime : cutoff - 1 ≤ time) (rows : List StatusListSnapshot) :
    (rows.filter (fun s => decide (cutoff ≤ s.exp))).filter
        (StatusListSnapshot.validAt listId time) =
      rows.filter (StatusListSnapshot.validAt listId time) := by
  rw [List.filter_filter]
  apply List.filter_congr
  intro s _
  by_cases hvalid : s.validAt listId time = true
  · simp [hvalid, le_exp_of_validAt htime hvalid]
  · simp [hvalid]

/-- The scan of a swept table that meets the remaining rows in the order in which a
scan of the whole table did. -/
def VisitOrder.swept (order : VisitOrder StatusListSnapshot) (cutoff : Int)
    (rows : List StatusListSnapshot) : VisitOrder StatusListSnapshot where
  visit rest := if rest = rows.filter (fun s => decide (cutoff ≤ s.exp)) then
      (order.visit rows).filter (fun s => decide (cutoff ≤ s.exp)) else rest
  perm := by
    intro rest
    split
    · rename_i hrest
      rw [hrest]
      exact (order.perm rows).filter _
    · exact .refl _

/-- The scan of a table that meets the rows a sweep leaves first. -/
def VisitOrder.unswept (order : VisitOrder StatusListSnapshot) (cutoff : Int) :
    VisitOrder StatusListSnapshot where
  visit rows := order.visit (rows.filter (fun s => decide (cutoff ≤ s.exp))) ++
    rows.filter (fun s => !decide (cutoff ≤ s.exp))
  perm := by
    intro rows
    exact ((order.perm _).append_right _).trans (List.filter_append_perm _ rows)

/-- What a scan of the whole table finds valid, some scan of the swept one does, and
the other way round. -/
theorem valid_scans_eq (htime : cutoff - 1 ≤ time) (rows : List StatusListSnapshot) :
    (∀ order : ScanOrder, ∃ order' : ScanOrder,
      (order'.history.visit (rows.filter (fun s => decide (cutoff ≤ s.exp)))).filter
          (StatusListSnapshot.validAt listId time) =
        (order.history.visit rows).filter (StatusListSnapshot.validAt listId time)) ∧
    ∀ order : ScanOrder, ∃ order' : ScanOrder,
      (order'.history.visit rows).filter (StatusListSnapshot.validAt listId time) =
        (order.history.visit (rows.filter (fun s => decide (cutoff ≤ s.exp)))).filter
          (StatusListSnapshot.validAt listId time) := by
  constructor
  · intro order
    refine ⟨⟨order.rows, order.history.swept cutoff rows⟩, ?_⟩
    simp only [VisitOrder.swept, if_true]
    exact filter_validAt_filter htime _
  · intro order
    refine ⟨⟨order.rows, order.history.unswept cutoff⟩, ?_⟩
    have hexpired : (rows.filter (fun s => !decide (cutoff ≤ s.exp))).filter
        (StatusListSnapshot.validAt listId time) = [] := by
      rw [List.filter_eq_nil_iff]
      intro s hs hvalid
      have hout := (List.mem_filter.mp hs).2
      simp [le_exp_of_validAt htime hvalid] at hout
    simp only [VisitOrder.unswept, List.filter_append, hexpired, List.append_nil]

/-- Any resolution that depends on the valid snapshots of a scan has the same answers
before and after a sweep. -/
theorem range_resolution_eq (htime : cutoff - 1 ≤ time) (db : Database)
    (resolve : List StatusListSnapshot → Option StatusListSnapshot) :
    (Set.range fun order : ScanOrder => resolve ((order.history.visit
        (Sql.unexpired cutoff db.history).rows).filter (StatusListSnapshot.validAt listId time))) =
      Set.range fun order : ScanOrder => resolve ((order.history.visit db.history.rows).filter
        (StatusListSnapshot.validAt listId time)) := by
  obtain ⟨hforward, hback⟩ := @valid_scans_eq cutoff time listId htime db.history.rows
  ext answer
  constructor
  · intro h
    obtain ⟨order, rfl⟩ := h
    obtain ⟨order', hsame⟩ := hback order
    exact ⟨order', congrArg resolve hsame⟩
  · intro h
    obtain ⟨order, rfl⟩ := h
    obtain ⟨order', hsame⟩ := hforward order
    exact ⟨order', congrArg resolve hsame⟩

end Resolution

/-- **The sweep removes what has expired, and nothing else.**  For every table, every
cutoff, every form of the statement and every choice of rows in each execution: the
batch loop ends after one execution for each full batch and one more, with the number
of the expired snapshots, and leaves the others.  The single pass of the in-memory
adapter answers the same and leaves the same table.  At every time from one before the
cutoff on, the resolution of every list has the same answers before and after, one
answer if no two snapshots of the list share an `iat`. -/
theorem sweep_removes_exactly_expired (db : Database) (cutoff : Int) :
    (∀ connection fuel, Sql.sweepLoop connection cutoff fuel 0 0 db.history =
      if Sql.expiredCount cutoff db.history / 500 < fuel then
        some (Sql.expiredCount cutoff db.history, Sql.unexpired cutoff db.history) else none) ∧
    (∀ s, s ∈ Sql.unexpired cutoff db.history ↔ s ∈ db.history ∧ ¬ s.exp < cutoff) ∧
    Memory.deleteOlderThan db cutoff = (.ok (Sql.expiredCount cutoff db.history),
      { db with history := Sql.unexpired cutoff db.history }) ∧
    (∀ order, Sql.deleteOlderThan .none order db cutoff =
      (.ok (Sql.expiredCount cutoff db.history),
        { db with history := Sql.unexpired cutoff db.history })) ∧
    ∀ listId time, cutoff - 1 ≤ time →
      (Set.range fun order => Sql.findValidAt order
          { db with history := Sql.unexpired cutoff db.history } listId time) =
        (Set.range fun order => Sql.findValidAt order db listId time) ∧
      (Set.range fun order => Memory.findValidAt order
          { db with history := Sql.unexpired cutoff db.history } listId time) =
        (Set.range fun order => Memory.findValidAt order db listId time) ∧
      ((∀ s ∈ db.history, ∀ s' ∈ db.history, s.listId = s'.listId → s.iat = s'.iat → s = s') →
        ∀ order order', Sql.findValidAt order
            { db with history := Sql.unexpired cutoff db.history } listId time =
          Sql.findValidAt order' db listId time) := by
  refine ⟨?_, ?_, Memory.deleteOlderThan_eq db cutoff,
    fun order => Sql.deleteOlderThan_eq order db cutoff, ?_⟩
  · intro connection fuel
    rw [Sql.sweepLoop_eq, Nat.zero_add]
    rfl
  · intro s
    rw [Sql.unexpired, Table.mem_filter, decide_eq_true_eq, Int.not_lt]
  · intro listId time htime
    have hsql : (Set.range fun order => Sql.findValidAt order
          { db with history := Sql.unexpired cutoff db.history } listId time) =
        Set.range fun order => Sql.findValidAt order db listId time :=
      range_resolution_eq htime db fun valid =>
        (valid.mergeSort (fun a b => decide (b.iat ≤ a.iat))).head?
    refine ⟨hsql, range_resolution_eq htime db (maxByKey StatusListSnapshot.iat), ?_⟩
    intro hsingle order order'
    obtain ⟨order'', hsame⟩ := hsql ▸ Set.mem_range_self (f := fun order =>
      Sql.findValidAt order { db with history := Sql.unexpired cutoff db.history } listId time)
      order
    rw [← hsame]
    exact latestValid_unique (Table.Same.refl _) hsingle
      (Sql.findValidAt_spec order'' db listId time) (Sql.findValidAt_spec order' db listId time)

section Samples

/-- Two snapshots of a list, one of which expires at 20. -/
def sweptSample : Database where
  rows := .empty
  history := (Table.empty.upsert ⟨"old", "list", ⟨"issuer"⟩, ⟨1, ""⟩, "sub", 5, 20⟩).upsert
    ⟨"new", "list", ⟨"issuer"⟩, ⟨1, ""⟩, "sub", 10, 30⟩
  credentials := .empty

/-- With the cutoff 21 one statement deletes one snapshot, and nothing changes for
resolutions at 20. -/
theorem sweep_removes_exactly_expired_sample :
    (∀ connection, Sql.sweepLoop connection 21 1 0 0 sweptSample.history =
      some (1, Sql.unexpired 21 sweptSample.history)) ∧
    ∀ order order', Sql.findValidAt order
        { sweptSample with history := Sql.unexpired 21 sweptSample.history } "list" 20 =
      Sql.findValidAt order' sweptSample "list" 20 := by
  obtain ⟨hloop, _, _, _, hresolved⟩ := sweep_removes_exactly_expired sweptSample 21
  have hcount : Sql.expiredCount 21 sweptSample.history = 1 := by decide
  have hsingle : ∀ s ∈ sweptSample.history.rows, ∀ s' ∈ sweptSample.history.rows,
      s.listId = s'.listId → s.iat = s'.iat → s = s' := by decide
  refine ⟨?_, (hresolved "list" 20 (by decide)).2.2 hsingle⟩
  intro connection
  rw [hloop, hcount]
  rfl

end Samples

end StatusListServer
