import StatusListServer.KeyedTable
import StatusListServer.Service

/-!
# What a repository promises

`Database` is the state behind the repository ports, and `StoreSpec` the
contract of each operation: what it may answer and how the tables may change.
The contract is weaker than either adapter.  It allows an operation to fail for
any reason as long as nothing changes then, and says nothing about the text of
an error.  Everything about runs of the service is proved from it.
-/

namespace StatusListServer

open KeyedTable

/-- The tables behind the repositories. -/
structure Database where
  rows : Table StatusListRecord.listId
  history : Table StatusListSnapshot.snapshotId
  credentials : Table (fun credential : Credential => credential.issuer.name)

/-- No lists, no snapshots, no issuers. -/
def Database.empty : Database := ⟨.empty, .empty, .empty⟩

/-- The order in which a table hands out its rows: any permutation, chosen anew
at every scan. -/
structure VisitOrder (ρ : Type) where
  visit : List ρ → List ρ
  perm : ∀ rows, (visit rows).Perm rows

theorem VisitOrder.mem {ρ : Type} (order : VisitOrder ρ) {rows : List ρ} {r : ρ} :
    r ∈ order.visit rows ↔ r ∈ rows := (order.perm rows).mem_iff

/-- The orders in which one operation scans the tables. -/
structure ScanOrder where
  rows : VisitOrder StatusListRecord
  history : VisitOrder StatusListSnapshot

/-- The snapshot belongs to the list and its window contains the time. -/
def StatusListSnapshot.validAt (listId : String) (time : Int)
    (snapshot : StatusListSnapshot) : Bool :=
  decide (snapshot.listId = listId) && decide (snapshot.iat ≤ time) &&
    decide (time < snapshot.exp)

/-- The answer of historical resolution: a valid snapshot with the greatest
`iat`, or nothing when no snapshot is valid. -/
def LatestValid (history : Table StatusListSnapshot.snapshotId) (listId : String)
    (time : Int) : Option StatusListSnapshot → Prop
  | none => ∀ snapshot ∈ history, snapshot.validAt listId time = false
  | some snapshot => snapshot ∈ history ∧ snapshot.validAt listId time = true ∧
      ∀ other ∈ history, other.validAt listId time = true → other.iat ≤ snapshot.iat

/-- The guard of an update: the stored row carries the expected stamp. -/
def Guard (db : Database) (record : StatusListRecord) (expectedUpdatedAt : Int) : Prop :=
  ∃ current, db.rows.find? record.listId = some current ∧
    current.updatedAt = expectedUpdatedAt

/-- The row of a list is written, and possibly a snapshot with it. -/
structure RowWritten (db : Database) (record : StatusListRecord)
    (snapshot : Option StatusListSnapshot) (db' : Database) : Prop where
  rows : db'.rows.Same (db.rows.upsert record)
  history : db'.history.Same (snapshot.elim db.history db.history.upsert)
  credentials : db'.credentials = db.credentials

/-- An operation that changes nothing and answers truthfully when it answers. -/
structure Reads {α : Type} (db : Database) (answer : Except StatusListError α)
    (truth : α → Prop) (db' : Database) : Prop where
  unchanged : db' = db
  truth : ∀ a, answer = .ok a → truth a

/-- An insertion either fails and changes nothing or adds a new row. -/
inductive Inserts (db : Database) (record : StatusListRecord)
    (snapshot : Option StatusListSnapshot) : Except StatusListError Unit → Database → Prop
  | fails (e : StatusListError) : Inserts db record snapshot (.error e) db
  | lands {db' : Database} (habsent : db.rows.find? record.listId = none)
      (hwritten : RowWritten db record snapshot db') :
      Inserts db record snapshot (.ok ()) db'

/-- A guarded update fails or misses and changes nothing, or lands on the row
its guard was computed from. -/
inductive Updates (db : Database) (record : StatusListRecord) (expectedUpdatedAt : Int)
    (snapshot : Option StatusListSnapshot) : Except StatusListError Bool → Database → Prop
  | fails (e : StatusListError) : Updates db record expectedUpdatedAt snapshot (.error e) db
  | misses : Updates db record expectedUpdatedAt snapshot (.ok false) db
  | lands {db' : Database} (hguard : Guard db record expectedUpdatedAt)
      (hwritten : RowWritten db record snapshot db') :
      Updates db record expectedUpdatedAt snapshot (.ok true) db'

/-- Only snapshots that expired before the cutoff are removed. -/
structure Deletes (db : Database) (cutoff : Int) (db' : Database) : Prop where
  rows : db'.rows = db.rows
  credentials : db'.credentials = db.credentials
  subset : ∀ snapshot ∈ db'.history, snapshot ∈ db.history
  removed : ∀ snapshot ∈ db.history, snapshot ∈ db'.history ∨ snapshot.exp < cutoff

/-- A sweep removes only snapshots that expired before the cutoff, and all of
them when it reports success. -/
structure Sweeps (db : Database) (cutoff : Int) (answer : Except StatusListError Nat)
    (db' : Database) : Prop extends Deletes db cutoff db' where
  complete : ∀ n, answer = .ok n → ∀ snapshot ∈ db'.history, cutoff ≤ snapshot.exp

/-- A registration fails and changes nothing, or adds the key of a new issuer. -/
inductive Registers (db : Database) (credential : Credential) :
    Except CredentialError Unit → Database → Prop
  | fails (e : CredentialError) : Registers db credential (.error e) db
  | lands {stored : Credential} {db' : Database} (hissuer : stored.issuer = credential.issuer)
      (habsent : db.credentials.find? credential.issuer.name = none)
      (hrows : db'.rows = db.rows) (hhistory : db'.history = db.history)
      (hcredentials : db'.credentials.Same (db.credentials.upsert stored)) :
      Registers db credential (.ok ()) db'

/-- The contract of the repository ports. -/
def StoreSpec : (op : StoreOp) → Database → op.Answer → Database → Prop
  | .find listId, db, answer, db' => Reads db answer (fun x => x = db.rows.find? listId) db'
  | .insert record, db, answer, db' => Inserts db record none answer db'
  | .update record expected, db, answer, db' => Updates db record expected none answer db'
  | .updateWithSnapshot record expected snapshot, db, answer, db' =>
      Updates db record expected (some snapshot) answer db'
  | .insertWithSnapshot record snapshot, db, answer, db' =>
      Inserts db record (some snapshot) answer db'
  | .listUris, db, answer, db' => Reads db answer (fun _ => True) db'
  | .findValidAt listId time, db, answer, db' =>
      Reads db answer (LatestValid db.history listId time) db'
  | .deleteOlderThan cutoff, db, answer, db' => Sweeps db cutoff answer db'
  | .findCredential issuer, db, answer, db' =>
      db' = db ∧ ∀ x, answer = .ok x → x = db.credentials.find? issuer
  | .insertCredential credential, db, answer, db' => Registers db credential answer db'

namespace RowWritten

variable {db db' : Database} {record : StatusListRecord}
  {snapshot : Option StatusListSnapshot}

/-- The written row is the stored row. -/
theorem find?_self (h : RowWritten db record snapshot db') :
    db'.rows.find? record.listId = some record := by
  rw [h.rows.find?, KeyedTable.Table.find?_upsert_self]

/-- No other row changes. -/
theorem find?_of_ne (h : RowWritten db record snapshot db') {listId : String}
    (hne : listId ≠ record.listId) : db'.rows.find? listId = db.rows.find? listId := by
  rw [h.rows.find?, KeyedTable.Table.find?_upsert_of_ne hne]

end RowWritten

end StatusListServer
