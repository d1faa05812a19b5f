import Mathlib.Data.List.Dedup
import Mathlib.Data.String.Basic
import StatusListServer.StorePort

/-!
# The SQL adapter

`outbound/sql/store.rs` with the error conversions of `outbound/sql/mod.rs`.
Each write is a transaction of several statements.  Which of them fail is the
parameter `SqlFaults`; a transaction that does not commit leaves the database
as it was, also when its rollback reports an error, and a commit that reports
an error did not commit.  The row lock taken by the first statement is held
until the transaction ends, so a transaction is one step.
-/

namespace StatusListServer

open KeyedTable

/-- The driver's own error code, where the driver has one. -/
inductive DriverCode
  | postgres (sqlstate : String)
  | mysql (number : Nat)
  | other
deriving DecidableEq, Repr

/-- A database error: its text, its driver code, and whether it is a violation
of a unique constraint. -/
structure DbErr where
  text : String
  driver : DriverCode
  uniqueViolation : Bool
deriving DecidableEq, Repr

/-- The errors of the repositories. -/
inductive RepositoryError
  | insertError (message : String)
  | findError (message : String)
  | updateError (message : String)
  | deleteError (message : String)
  | duplicateEntry
  | contention (code : String)
deriving DecidableEq, Repr

/-- The text of an error. -/
def RepositoryError.display : RepositoryError → String
  | .insertError message => "Insert error: " ++ message
  | .findError message => "Find error: " ++ message
  | .updateError message => "Update error: " ++ message
  | .deleteError message => "Delete error: " ++ message
  | .duplicateEntry => "Duplicate entry"
  | .contention code => "Write contention (" ++ code ++
      "): the transaction lost a lock race and may be retried"

/-- The error of a status list repository. -/
def RepositoryError.toStatusListError : RepositoryError → StatusListError
  | .duplicateEntry => .alreadyExists
  | .contention code => .contention code
  | other => .backend other.display

/-- The error of the credential repository. -/
def RepositoryError.toCredentialError : RepositoryError → CredentialError
  | .duplicateEntry => .alreadyExists
  | .contention code => .contention code
  | other => .backend other.display

/-- `classify_postgres`: serialisation failures and deadlocks. -/
def classifyPostgres (sqlstate : String) : Option String :=
  if sqlstate = "40001" then some "40001"
  else if sqlstate = "40P01" then some "40P01"
  else none

/-- `classify_mysql`: lock timeouts and deadlocks. -/
def classifyMysql (number : Nat) : Option String :=
  if number = 1205 then some "1205"
  else if number = 1213 then some "1213"
  else none

/-- `contention_code`. -/
def contentionCode (e : DbErr) : Option String :=
  match e.driver with
  | .postgres sqlstate => classifyPostgres sqlstate
  | .mysql number => classifyMysql number
  | .other => none

/-- Contention if the driver says so, and `fallback` on the text otherwise. -/
def contentionOr (fallback : String → RepositoryError) (e : DbErr) : RepositoryError :=
  match contentionCode e with
  | some code => .contention code
  | none => fallback e.text

/-- `map_insert_err`: a unique violation is a duplicate. -/
def mapInsertErr (e : DbErr) : RepositoryError :=
  if e.uniqueViolation then .duplicateEntry else contentionOr .insertError e

/-- `map_update_err`. -/
def mapUpdateErr (e : DbErr) : RepositoryError := contentionOr .updateError e

/-- `map_snapshot_insert_err`. -/
def mapSnapshotInsertErr (e : DbErr) : RepositoryError := contentionOr .insertError e

/-- `map_delete_err`. -/
def mapDeleteErr (e : DbErr) : RepositoryError := contentionOr .deleteError e

/-- `find_err`. -/
def findErr (e : DbErr) : RepositoryError := .findError e.text

/-- Which steps of an operation fail.  `batch n` is the sweep's `n`-th
statement. -/
structure SqlFaults where
  beginTxn : Option DbErr
  write : Option DbErr
  snapshot : Option DbErr
  rollback : Option DbErr
  commit : Option DbErr
  query : Option DbErr
  batch : Nat → Option DbErr

/-- Every step succeeds. -/
def SqlFaults.none : SqlFaults := ⟨.none, .none, .none, .none, .none, .none, fun _ => .none⟩

namespace Sql

/-- The violation of a unique key. -/
def duplicateKey : DbErr := ⟨"UNIQUE constraint failed", .other, true⟩

/-- The violation of a foreign key. -/
def foreignKey : DbErr := ⟨"FOREIGN KEY constraint failed", .other, false⟩

/-- The foreign key from `status_lists.issuer` to `credentials.issuer`. -/
def issuerRegistered (db : Database) (record : StatusListRecord) : Bool :=
  (db.credentials.find? record.issuer.name).isSome

/-- `INSERT INTO status_lists`. -/
def insertRow (fault : Option DbErr) (db : Database) (record : StatusListRecord) :
    Except DbErr Database :=
  match fault with
  | some e => .error e
  | none =>
      match db.rows.find? record.listId with
      | some _ => .error duplicateKey
      | none =>
          if issuerRegistered db record then
            .ok { db with rows := db.rows.upsert record }
          else
            .error foreignKey

/-- `INSERT INTO status_list_history`. -/
def insertHistory (fault : Option DbErr) (db : Database) (snapshot : StatusListSnapshot) :
    Except DbErr Database :=
  match fault with
  | some e => .error e
  | none =>
      match db.history.find? snapshot.snapshotId with
      | some _ => .error duplicateKey
      | none => .ok { db with history := db.history.upsert snapshot }

/-- `INSERT INTO credentials`. -/
def insertCredentialRow (fault : Option DbErr) (db : Database) (credential : Credential) :
    Except DbErr Database :=
  match fault with
  | some e => .error e
  | none =>
      match db.credentials.find? credential.issuer.name with
      | some _ => .error duplicateKey
      | none => .ok { db with credentials := db.credentials.upsert credential }

/-- The rows an optimistic update addresses. -/
def addresses (listId : String) (expectedUpdatedAt : Int) (row : StatusListRecord) : Bool :=
  decide (row.listId = listId) && decide (row.updatedAt = expectedUpdatedAt)

/-- `UPDATE status_lists SET .. WHERE list_id = ? AND updated_at = ?`, with the
number of rows affected. -/
def updateRow (fault : Option DbErr) (db : Database) (listId : String)
    (entity : StatusListRecord) (expectedUpdatedAt : Int) : Except DbErr (Nat × Database) :=
  match fault with
  | some e => .error e
  | none =>
      let rowsAffected := db.rows.rows.countP (addresses listId expectedUpdatedAt)
      if 0 < rowsAffected && !issuerRegistered db entity then
        .error foreignKey
      else
        .ok (rowsAffected, { db with
          rows := db.rows.updateWhere (addresses listId expectedUpdatedAt)
            (fun row => { entity with listId := row.listId }) (fun _ => rfl) })

/-- Roll back, and report `e` unless the rollback fails too. -/
def rollBack (faults : SqlFaults) (e : RepositoryError) (stuck : String → RepositoryError) :
    RepositoryError :=
  match faults.rollback with
  | some rollbackErr => stuck rollbackErr.text
  | none => e

/-- Commit the state the transaction reached. -/
def commit {α : Type} (faults : SqlFaults) (mapErr : DbErr → RepositoryError) (value : α)
    (before after : Database) : Except RepositoryError α × Database :=
  match faults.commit with
  | some e => (.error (mapErr e), before)
  | none => (.ok value, after)

/-- `insert_one`. -/
def insertOne (faults : SqlFaults) (db : Database) (entity : StatusListRecord) :
    Except RepositoryError Unit × Database :=
  match faults.beginTxn with
  | some e => (.error (mapInsertErr e), db)
  | none =>
      match insertRow faults.write db entity with
      | .error insertErr =>
          (.error (rollBack faults (mapInsertErr insertErr) (fun rollbackErr =>
            .insertError ("status list insert failed (" ++ insertErr.text ++
              "); rolling the transaction back also failed: " ++ rollbackErr))), db)
      | .ok db' => commit faults mapInsertErr () db db'

/-- `insert_one_with_snapshot`: the row and its snapshot in one transaction. -/
def insertOneWithSnapshot (faults : SqlFaults) (db : Database) (entity : StatusListRecord)
    (snapshot : StatusListSnapshot) : Except RepositoryError Unit × Database :=
  if snapshot.listId ≠ entity.listId then
    (.error (.insertError ("snapshot list_id (" ++ snapshot.listId ++
      ") does not match entity list_id (" ++ entity.listId ++ ")")), db)
  else
    match faults.beginTxn with
    | some e => (.error (mapInsertErr e), db)
    | none =>
        match insertRow faults.write db entity with
        | .error insertErr =>
            (.error (rollBack faults (mapInsertErr insertErr) (fun rollbackErr =>
              .insertError ("status list insert failed (" ++ insertErr.text ++
                "); rolling the transaction back also failed: " ++ rollbackErr))), db)
        | .ok mid =>
            match insertHistory faults.snapshot mid snapshot with
            | .error insertErr =>
                (.error (rollBack faults (mapSnapshotInsertErr insertErr) (fun rollbackErr =>
                  .insertError ("history snapshot insert failed (" ++ insertErr.text ++
                    "); rolling back the status list insert also failed: " ++
                    rollbackErr))), db)
            | .ok db' => commit faults mapInsertErr () db db'

/-- The error of a stamp that does not advance. -/
def staleStamp (entity : StatusListRecord) (expectedUpdatedAt : Int) : RepositoryError :=
  .updateError ("guarded update requires a strictly newer updated_at (new=" ++
    toString entity.updatedAt ++ ", expected-guard=" ++ toString expectedUpdatedAt ++
    "); a non-advancing stamp would silently reintroduce the same-second lost update")

/-- The error of a failed guarded update. -/
def updateFailed (faults : SqlFaults) (updateErr : DbErr) : RepositoryError :=
  rollBack faults (mapUpdateErr updateErr) (fun rollbackErr =>
    .updateError ("guarded update failed (" ++ updateErr.text ++
      "); rolling the transaction back also failed: " ++ rollbackErr))

/-- `update_one`, under the guard of the expected stamp. -/
def updateOne (faults : SqlFaults) (db : Database) (listId : String)
    (entity : StatusListRecord) (expectedUpdatedAt : Int) :
    Except RepositoryError Bool × Database :=
  if entity.updatedAt ≤ expectedUpdatedAt then
    (.error (staleStamp entity expectedUpdatedAt), db)
  else
    match faults.beginTxn with
    | some e => (.error (mapUpdateErr e), db)
    | none =>
        match updateRow faults.write db listId entity expectedUpdatedAt with
        | .error updateErr => (.error (updateFailed faults updateErr), db)
        | .ok (rowsAffected, db') =>
            commit faults mapUpdateErr (decide (0 < rowsAffected)) db db'

/-- On a guard miss the empty transaction is rolled back; a failure of that
rollback is only logged. -/
def updateOneWithSnapshot (faults : SqlFaults) (db : Database) (listId : String)
    (entity : StatusListRecord) (expectedUpdatedAt : Int) (snapshot : StatusListSnapshot) :
    Except RepositoryError Bool × Database :=
  if snapshot.listId ≠ listId ∨ entity.listId ≠ listId then
    (.error (.updateError ("snapshot list_id (" ++ snapshot.listId ++
      ") or entity list_id (" ++ entity.listId ++ ") does not match list_id (" ++
      listId ++ ")")), db)
  else if entity.updatedAt ≤ expectedUpdatedAt then
    (.error (staleStamp entity expectedUpdatedAt), db)
  else
    match faults.beginTxn with
    | some e => (.error (mapUpdateErr e), db)
    | none =>
        match updateRow faults.write db listId entity expectedUpdatedAt with
        | .error updateErr => (.error (updateFailed faults updateErr), db)
        | .ok (0, _) => (.ok false, db)
        | .ok (_ + 1, mid) =>
            match insertHistory faults.snapshot mid snapshot with
            | .error insertErr =>
                (.error (rollBack faults (mapSnapshotInsertErr insertErr) (fun rollbackErr =>
                  .insertError ("history snapshot insert failed (" ++ insertErr.text ++
                    "); rolling back the row update also failed: " ++ rollbackErr))), db)
            | .ok db' => commit faults mapUpdateErr true db db'

/-- Run a query that does not write. -/
def query {α : Type} (faults : SqlFaults) (value : α) : Except RepositoryError α :=
  match faults.query with
  | some e => .error (findErr e)
  | none => .ok value

/-- `SELECT sub .. GROUP BY sub ORDER BY sub ASC` with binary collation. -/
def findAllStatusListUris (order : ScanOrder) (db : Database) : List String :=
  (((order.rows.visit db.rows.rows).map StatusListRecord.sub).dedup).mergeSort
    (fun a b => decide (a ≤ b))

/-- `SELECT .. ORDER BY iat DESC LIMIT 1`; ties are broken by the scan order. -/
def findValidAt (order : ScanOrder) (db : Database) (listId : String) (time : Int) :
    Option StatusListSnapshot :=
  (((order.history.visit db.history.rows).filter
    (StatusListSnapshot.validAt listId time)).mergeSort
      (fun a b => decide (b.iat ≤ a.iat))).head?

/-- `BATCH_SIZE`. -/
def batchSize : Nat := 500

/-- The rows one sweep statement deletes: at most `batchSize` of the expired
ones, whichever the scan meets first. -/
def expiredBatch (order : ScanOrder) (history : Table StatusListSnapshot.snapshotId)
    (cutoff : Int) : List StatusListSnapshot :=
  ((order.history.visit history.rows).filter (fun s => decide (s.exp < cutoff))).take batchSize

/-- A batch has expired snapshots only. -/
theorem mem_of_mem_expiredBatch {order : ScanOrder}
    {history : Table StatusListSnapshot.snapshotId} {cutoff : Int} {s : StatusListSnapshot}
    (h : s ∈ expiredBatch order history cutoff) : s ∈ history ∧ s.exp < cutoff := by
  obtain ⟨hvisit, hexp⟩ := List.mem_filter.mp (List.mem_of_mem_take h)
  exact ⟨order.history.mem.mp hvisit, by simpa using hexp⟩

/-- `DELETE FROM status_list_history` for one batch. -/
def deleteBatch (order : ScanOrder) (history : Table StatusListSnapshot.snapshotId)
    (cutoff : Int) : Table StatusListSnapshot.snapshotId :=
  history.filter (fun s => decide (s ∉ expiredBatch order history cutoff))

/-- A batch that deletes something makes the table smaller. -/
theorem length_deleteBatch_lt {order : ScanOrder}
    {history : Table StatusListSnapshot.snapshotId} {cutoff : Int}
    (h : 0 < (expiredBatch order history cutoff).length) :
    (deleteBatch order history cutoff).rows.length < history.rows.length := by
  obtain ⟨s, hs⟩ := List.exists_mem_of_length_pos h
  have hmem := (mem_of_mem_expiredBatch hs).1
  apply List.length_filter_lt_length_iff_exists.mpr
  exact ⟨s, hmem, by simpa using hs⟩

/-- The batch loop of the sweep. -/
def deleteBatches (faults : SqlFaults) (order : ScanOrder) (cutoff : Int)
    (batch totalDeleted : Nat) (history : Table StatusListSnapshot.snapshotId) :
    Except RepositoryError Nat × Table StatusListSnapshot.snapshotId :=
  match faults.batch batch with
  | some e => (.error (mapDeleteErr e), history)
  | none =>
      let count := (expiredBatch order history cutoff).length
      if count < batchSize then
        (.ok (totalDeleted + count), deleteBatch order history cutoff)
      else
        deleteBatches faults order cutoff (batch + 1) (totalDeleted + count)
          (deleteBatch order history cutoff)
termination_by history.rows.length
decreasing_by
  apply length_deleteBatch_lt
  unfold batchSize at *
  omega

/-- One execution of the loop's statement, with the number of rows affected. -/
def executeBatch (fault : Option DbErr) (order : ScanOrder) (db : Database) (cutoff : Int) :
    Except RepositoryError Nat × Database :=
  match fault with
  | some e => (.error (mapDeleteErr e), db)
  | none => (.ok (expiredBatch order db.history cutoff).length,
      { db with history := deleteBatch order db.history cutoff })

/-- The whole sweep, when nothing else uses the table meanwhile. -/
def deleteOlderThan (faults : SqlFaults) (order : ScanOrder) (db : Database) (cutoff : Int) :
    Except RepositoryError Nat × Database :=
  let swept := deleteBatches faults order cutoff 0 0 db.history
  (swept.1, { db with history := swept.2 })

/-- `SqlCredentialRepo::insert`: the key document is parsed, and stored as it
serialises again. -/
def insertCredential (reserialise : PublicJwk → Except String PublicJwk) (faults : SqlFaults)
    (db : Database) (credential : Credential) : Except CredentialError Unit × Database :=
  match reserialise credential.publicKey with
  | .error e => (.error (.invalidPublicJwk ("parse failed: " ++ e)), db)
  | .ok publicKey =>
      match faults.beginTxn with
      | some e => (.error (mapInsertErr e).toCredentialError, db)
      | none =>
          match insertCredentialRow faults.write db ⟨credential.issuer, publicKey⟩ with
          | .error insertErr =>
              (.error (rollBack faults (mapInsertErr insertErr) (fun rollbackErr =>
                .insertError ("credential insert failed (" ++ insertErr.text ++
                  "); rolling the transaction back also failed: " ++
                  rollbackErr))).toCredentialError, db)
          | .ok db' =>
              let committed := commit faults mapInsertErr () db db'
              (committed.1.mapError RepositoryError.toCredentialError, committed.2)

/-- Convert the error of a repository. -/
def converted {α : Type} (x : Except RepositoryError α × Database) :
    Except StatusListError α × Database :=
  (x.1.mapError RepositoryError.toStatusListError, x.2)

/-- The adapter as one handler. -/
def handle (reserialise : PublicJwk → Except String PublicJwk) (faults : SqlFaults)
    (order : ScanOrder) : (op : StoreOp) → Database → op.Answer × Database
  | .find listId, db => converted (query faults (db.rows.find? listId), db)
  | .insert record, db => converted (insertOne faults db record)
  | .update record expected, db =>
      converted (updateOne faults db record.listId record expected)
  | .updateWithSnapshot record expected snapshot, db =>
      converted (updateOneWithSnapshot faults db record.listId record expected snapshot)
  | .insertWithSnapshot record snapshot, db =>
      converted (insertOneWithSnapshot faults db record snapshot)
  | .listUris, db => converted (query faults (findAllStatusListUris order db), db)
  | .findValidAt listId time, db =>
      converted (query faults (findValidAt order db listId time), db)
  | .deleteOlderThan cutoff, db => converted (deleteOlderThan faults order db cutoff)
  | .findCredential issuer, db =>
      ((query faults (db.credentials.find? issuer)).mapError
        RepositoryError.toCredentialError, db)
  | .insertCredential credential, db => insertCredential reserialise faults db credential

/-- A committed transaction reached the state before the commit. -/
theorem commit_cases {α : Type} (faults : SqlFaults) (mapErr : DbErr → RepositoryError)
    (value : α) (before after : Database) :
    (∃ e, commit faults mapErr value before after = (.error e, before)) ∨
      commit faults mapErr value before after = (.ok value, after) := by
  unfold commit
  split
  · exact Or.inl ⟨_, rfl⟩
  · exact Or.inr rfl

/-- An inserted row was not there, and is there now. -/
theorem insertRow_ok {fault : Option DbErr} {db db' : Database} {record : StatusListRecord}
    (h : insertRow fault db record = .ok db') :
    db.rows.find? record.listId = none ∧ db' = { db with rows := db.rows.upsert record } := by
  unfold insertRow at h
  split at h
  · cases h
  · split at h
    · cases h
    · rename_i habsent
      split at h
      · cases h
        exact ⟨habsent, rfl⟩
      · cases h

/-- An inserted snapshot is there. -/
theorem insertHistory_ok {fault : Option DbErr} {db db' : Database}
    {snapshot : StatusListSnapshot} (h : insertHistory fault db snapshot = .ok db') :
    db' = { db with history := db.history.upsert snapshot } := by
  unfold insertHistory at h
  split at h
  · cases h
  · split at h
    · cases h
    · cases h
      rfl

/-- An inserted credential was not there, and is there now. -/
theorem insertCredentialRow_ok {fault : Option DbErr} {db db' : Database}
    {credential : Credential} (h : insertCredentialRow fault db credential = .ok db') :
    db.credentials.find? credential.issuer.name = none ∧
      db' = { db with credentials := db.credentials.upsert credential } := by
  unfold insertCredentialRow at h
  split at h
  · cases h
  · split at h
    · cases h
    · rename_i habsent
      cases h
      exact ⟨habsent, rfl⟩

/-- The guarded `UPDATE` affects no row and changes nothing, or it affects the
row whose stamp matches and replaces it. -/
theorem updateRow_ok {fault : Option DbErr} {db db' : Database} {entity : StatusListRecord}
    {expected : Int} {n : Nat}
    (h : updateRow fault db entity.listId entity expected = .ok (n, db')) :
    (n = 0 ∧ db' = db) ∨
      (0 < n ∧ Guard db entity expected ∧ RowWritten db entity none db') := by
  unfold updateRow at h
  split at h
  · cases h
  simp only [] at h
  split at h
  · cases h
  cases h
  by_cases hhit : ∃ row ∈ db.rows, addresses entity.listId expected row = true
  · obtain ⟨row, hrow, haddr⟩ := hhit
    have hfields : row.listId = entity.listId ∧ row.updatedAt = expected := by
      simpa [addresses] using haddr
    refine Or.inr ⟨List.countP_pos_iff.mpr ⟨row, hrow, haddr⟩, ?_, ?_⟩
    · exact ⟨row, Table.find?_eq_some.mpr ⟨hrow, hfields.1⟩, hfields.2⟩
    · refine ⟨?_, Table.Same.refl _, rfl⟩
      have honly : ∀ r ∈ db.rows, addresses entity.listId expected r = true →
          r.listId = row.listId := by
        intro r _ hr
        simp only [addresses, Bool.and_eq_true, decide_eq_true_eq] at hr
        rw [hr.1, hfields.1]
      have hsame : (db.rows.updateWhere (addresses entity.listId expected)
          (fun r => { entity with listId := r.listId }) (fun _ => rfl)).Same
          (db.rows.upsert { entity with listId := row.listId }) :=
        Table.updateWhere_same_upsert hrow haddr honly
      simpa only [hfields.1] using hsame
  · have hnone : ∀ row ∈ db.rows, addresses entity.listId expected row = false := by
      intro row hrow
      by_contra haddr
      exact hhit ⟨row, hrow, by simpa using haddr⟩
    refine Or.inl ⟨List.countP_eq_zero.mpr (fun row hrow => by simp [hnone row hrow]), ?_⟩
    rw [Table.updateWhere_of_forall_not hnone]

/-- A batch that is not full took every expired row. -/
theorem le_exp_of_mem_deleteBatch {order : ScanOrder}
    {history : Table StatusListSnapshot.snapshotId} {cutoff : Int}
    (h : (expiredBatch order history cutoff).length < batchSize) {s : StatusListSnapshot}
    (hs : s ∈ deleteBatch order history cutoff) : cutoff ≤ s.exp := by
  obtain ⟨hmem, hout⟩ := Table.mem_filter.mp hs
  by_contra hexp
  have hall : expiredBatch order history cutoff =
      (order.history.visit history.rows).filter (fun s => decide (s.exp < cutoff)) := by
    apply List.take_of_length_le
    simp only [expiredBatch, List.length_take] at h
    omega
  have hin : s ∈ expiredBatch order history cutoff := by
    rw [hall]
    exact List.mem_filter.mpr ⟨order.history.mem.mpr hmem, by simpa using hexp⟩
  simp [hin] at hout

/-- A batch deletes expired snapshots. -/
theorem mem_deleteBatch_or_lt {order : ScanOrder}
    {history : Table StatusListSnapshot.snapshotId} {cutoff : Int} {s : StatusListSnapshot}
    (hs : s ∈ history) : s ∈ deleteBatch order history cutoff ∨ s.exp < cutoff := by
  by_cases hbatch : s ∈ expiredBatch order history cutoff
  · exact .inr (mem_of_mem_expiredBatch hbatch).2
  · exact .inl (Table.mem_filter.mpr ⟨hs, by simpa using hbatch⟩)

/-- The batch loop removes only expired snapshots, and all of them when it
succeeds. -/
theorem deleteBatches_spec (faults : SqlFaults) (order : ScanOrder) (cutoff : Int)
    (batch total : Nat) (history : Table StatusListSnapshot.snapshotId) :
    (∀ s ∈ (deleteBatches faults order cutoff batch total history).2, s ∈ history) ∧
      (∀ s ∈ history, s ∈ (deleteBatches faults order cutoff batch total history).2 ∨
        s.exp < cutoff) ∧
      ∀ n, (deleteBatches faults order cutoff batch total history).1 = .ok n →
        ∀ s ∈ (deleteBatches faults order cutoff batch total history).2, cutoff ≤ s.exp := by
  fun_induction deleteBatches faults order cutoff batch total history with
  | case1 batch total history e he =>
      exact ⟨fun _ hs => hs, fun _ hs => Or.inl hs, fun _ hn => by cases hn⟩
  | case2 batch total history hnone count hlast =>
      exact ⟨fun s hs => (Table.mem_filter.mp hs).1, fun _ => mem_deleteBatch_or_lt,
        fun _ _ s hs => le_exp_of_mem_deleteBatch hlast hs⟩
  | case3 batch total history hnone count hfull ih =>
      obtain ⟨hsub, hrem, hcomplete⟩ := ih
      refine ⟨fun s hs => (Table.mem_filter.mp (hsub s hs)).1, ?_, hcomplete⟩
      intro s hs
      rcases mem_deleteBatch_or_lt hs with hs | hexp
      · exact hrem s hs
      · exact Or.inr hexp

/-- The head of a list sorted by descending `iat` has the greatest `iat`. -/
theorem findValidAt_spec (order : ScanOrder) (db : Database) (listId : String) (time : Int) :
    LatestValid db.history listId time (findValidAt order db listId time) := by
  have hmem : ∀ s, s ∈ ((order.history.visit db.history.rows).filter
      (StatusListSnapshot.validAt listId time)).mergeSort
        (fun a b => decide (b.iat ≤ a.iat)) ↔
      s ∈ db.history ∧ s.validAt listId time = true := by
    intro s
    rw [List.mem_mergeSort, List.mem_filter, order.history.mem, Table.mem_rows]
  have hsorted : (((order.history.visit db.history.rows).filter
      (StatusListSnapshot.validAt listId time)).mergeSort
        (fun a b => decide (b.iat ≤ a.iat))).Pairwise (fun a b => decide (b.iat ≤ a.iat)) := by
    apply List.pairwise_mergeSort
    · intro a b c hab hbc
      simp only [decide_eq_true_eq] at *
      omega
    · intro a b
      simp only [Bool.or_eq_true, decide_eq_true_eq]
      omega
  unfold findValidAt
  cases hhead : ((order.history.visit db.history.rows).filter
      (StatusListSnapshot.validAt listId time)).mergeSort
        (fun a b => decide (b.iat ≤ a.iat)) with
  | nil =>
      intro s hs
      by_contra hvalid
      have hin := (hmem s).mpr ⟨hs, by simpa using hvalid⟩
      rw [hhead] at hin
      cases hin
  | cons first rest =>
      rw [hhead] at hsorted hmem
      obtain ⟨hfirst, hvalid⟩ := (hmem first).mp List.mem_cons_self
      refine ⟨hfirst, hvalid, ?_⟩
      intro other ho hv
      rcases List.mem_cons.mp ((hmem other).mpr ⟨ho, hv⟩) with rfl | hrest
      · exact Int.le_refl _
      · simpa using (List.pairwise_cons.mp hsorted).1 other hrest

/-- A result is passed on. -/
theorem converted_ok {α : Type} (a : α) (db : Database) :
    converted ((.ok a : Except RepositoryError α), db) = (.ok a, db) := rfl

/-- A query answers truthfully or fails. -/
theorem reads_query {α : Type} (faults : SqlFaults) (db : Database) (value : α)
    {truth : α → Prop} (h : truth value) :
    Reads db (converted (query faults value, db)).1 truth
      (converted (query faults value, db)).2 := by
  refine ⟨rfl, ?_⟩
  intro a ha
  unfold query at ha
  split at ha
  · cases ha
  · cases ha
    exact h

/-- `insert_one` inserts as the port asks. -/
theorem insertOne_spec (faults : SqlFaults) (db : Database) (record : StatusListRecord) :
    Inserts db record none (converted (insertOne faults db record)).1
      (converted (insertOne faults db record)).2 := by
  unfold insertOne
  split
  · exact .fails _
  · split
    · exact .fails _
    · rename_i db' hrow
      obtain ⟨habsent, rfl⟩ := insertRow_ok hrow
      rcases commit_cases faults mapInsertErr () db
        { db with rows := db.rows.upsert record } with ⟨e, he⟩ | he
      · rw [he]
        exact .fails _
      · rw [he]
        exact .lands habsent ⟨Table.Same.refl _, Table.Same.refl _, rfl⟩

/-- `insert_one_with_snapshot` inserts as the port asks. -/
theorem insertOneWithSnapshot_spec (faults : SqlFaults) (db : Database)
    (record : StatusListRecord) (snapshot : StatusListSnapshot) :
    Inserts db record (some snapshot)
      (converted (insertOneWithSnapshot faults db record snapshot)).1
      (converted (insertOneWithSnapshot faults db record snapshot)).2 := by
  unfold insertOneWithSnapshot
  split
  · exact .fails _
  split
  · exact .fails _
  split
  · exact .fails _
  rename_i mid hrow
  split
  · exact .fails _
  rename_i db' hhistory
  obtain ⟨habsent, rfl⟩ := insertRow_ok hrow
  obtain rfl := insertHistory_ok hhistory
  rcases commit_cases faults mapInsertErr () db _ with ⟨e, he⟩ | he
  · rw [he]
    exact .fails _
  · rw [he]
    exact .lands habsent ⟨Table.Same.refl _, Table.Same.refl _, rfl⟩

/-- `update_one` updates as the port asks. -/
theorem updateOne_spec (faults : SqlFaults) (db : Database) (record : StatusListRecord)
    (expected : Int) :
    Updates db record expected none
      (converted (updateOne faults db record.listId record expected)).1
      (converted (updateOne faults db record.listId record expected)).2 := by
  unfold updateOne
  split
  · exact .fails _
  split
  · exact .fails _
  split
  · exact .fails _
  rename_i n db' hrow
  rcases commit_cases faults mapUpdateErr (decide (0 < n)) db db' with ⟨e, he⟩ | he
  · rw [he]
    exact .fails _
  rw [he]
  rcases updateRow_ok hrow with ⟨rfl, rfl⟩ | ⟨hpos, hguard, hwritten⟩
  · exact .misses
  · rw [decide_eq_true hpos]
    exact .lands hguard hwritten

/-- `update_one_with_snapshot` updates as the port asks. -/
theorem updateOneWithSnapshot_spec (faults : SqlFaults) (db : Database)
    (record : StatusListRecord) (expected : Int) (snapshot : StatusListSnapshot) :
    Updates db record expected (some snapshot)
      (converted (updateOneWithSnapshot faults db record.listId record expected snapshot)).1
      (converted (updateOneWithSnapshot faults db record.listId record expected
        snapshot)).2 := by
  unfold updateOneWithSnapshot
  split
  · exact .fails _
  split
  · exact .fails _
  split
  · exact .fails _
  split
  · exact .fails _
  · exact .misses
  rename_i n mid hrow
  split
  · exact .fails _
  rename_i db' hhistory
  obtain rfl := insertHistory_ok hhistory
  rcases commit_cases faults mapUpdateErr true db _ with ⟨e, he⟩ | he
  · rw [he]
    exact .fails _
  rw [he, converted_ok]
  rcases updateRow_ok hrow with ⟨hzero, _⟩ | ⟨_, hguard, hwritten⟩
  · cases hzero
  · refine .lands hguard ⟨hwritten.rows, ?_, hwritten.credentials⟩
    intro s
    have hkeep : ∀ x, x ∈ mid.history ↔ x ∈ db.history := hwritten.history
    simp only [Option.elim_some, Table.mem_upsert, hkeep]

/-- Credentials are registered as the port asks. -/
theorem insertCredential_spec (reserialise : PublicJwk → Except String PublicJwk)
    (faults : SqlFaults) (db : Database) (credential : Credential) :
    Registers db credential (insertCredential reserialise faults db credential).1
      (insertCredential reserialise faults db credential).2 := by
  unfold insertCredential
  split
  · exact .fails _
  split
  · exact .fails _
  split
  · exact .fails _
  rename_i publicKey _ _ _ _ db' hrow
  obtain ⟨habsent, rfl⟩ := insertCredentialRow_ok hrow
  have hissuer : (⟨credential.issuer, publicKey⟩ : Credential).issuer = credential.issuer := rfl
  simp only []
  rcases commit_cases faults mapInsertErr () db _ with ⟨e, he⟩ | he
  · rw [he]
    exact .fails _
  · rw [he]
    exact .lands hissuer habsent rfl rfl (Table.Same.refl _)

/-- One statement of a sweep deletes expired snapshots, or fails and deletes nothing. -/
theorem executeBatch_deletes (fault : Option DbErr) (order : ScanOrder) (db : Database)
    (cutoff : Int) : Deletes db cutoff (executeBatch fault order db cutoff).2 := by
  cases fault with
  | some e => exact ⟨rfl, rfl, fun _ hs => hs, fun _ hs => .inl hs⟩
  | none =>
      exact ⟨rfl, rfl, fun _ hs => (Table.mem_filter.mp hs).1, fun _ => mem_deleteBatch_or_lt⟩

/-- **The SQL adapter keeps the contract**, whichever of its statements fail. -/
theorem handle_spec (reserialise : PublicJwk → Except String PublicJwk) (faults : SqlFaults)
    (order : ScanOrder) (op : StoreOp) (db : Database) :
    StoreSpec op db (handle reserialise faults order op db).1
      (handle reserialise faults order op db).2 := by
  cases op with
  | find listId => exact reads_query faults db _ rfl
  | listUris => exact reads_query faults db _ trivial
  | findValidAt listId time => exact reads_query faults db _ (findValidAt_spec order db _ _)
  | insert record => exact insertOne_spec faults db record
  | insertWithSnapshot record snapshot =>
      exact insertOneWithSnapshot_spec faults db record snapshot
  | update record expected => exact updateOne_spec faults db record expected
  | updateWithSnapshot record expected snapshot =>
      exact updateOneWithSnapshot_spec faults db record expected snapshot
  | insertCredential credential =>
      exact insertCredential_spec reserialise faults db credential
  | findCredential issuer =>
      refine ⟨rfl, ?_⟩
      intro x hx
      simp only [handle, query] at hx
      split at hx
      · cases hx
      · cases hx
        rfl
  | deleteOlderThan cutoff =>
      obtain ⟨hsub, hrem, hcomplete⟩ := deleteBatches_spec faults order cutoff 0 0 db.history
      refine ⟨⟨rfl, rfl, hsub, hrem⟩, ?_⟩
      intro n hn
      simp only [handle, converted, deleteOlderThan] at hn
      cases hswept : (deleteBatches faults order cutoff 0 0 db.history).1 with
      | error e =>
          rw [hswept] at hn
          cases hn
      | ok m => exact hcomplete m hswept

end Sql

end StatusListServer
