import Mathlib.Data.List.Induction
import Mathlib.Data.String.Basic
import StatusListServer.StorePort

/-!
# The in-memory adapter

`outbound/memory.rs`: hash maps behind locks.  Every method holds the write
lock of the row map from its check to its insertion, so each is one step.  The
iteration order of a hash map is unspecified; the scans take it as a parameter.
-/

namespace StatusListServer

open KeyedTable

/-- `BTreeSet::insert`, on the ascending list of the set's elements. -/
def btreeInsert (x : String) : List String → List String
  | [] => [x]
  | y :: rest =>
      if x < y then x :: y :: rest
      else if x = y then y :: rest
      else y :: btreeInsert x rest

/-- Collect into a `BTreeSet` and list its elements in order. -/
def btreeCollect (xs : List String) : List String :=
  xs.foldl (fun set x => btreeInsert x set) []

/-- `Iterator::max_by_key`: the last of the elements with the greatest key. -/
def maxByKey {α : Type} (key : α → Int) (xs : List α) : Option α :=
  xs.foldl (fun best x =>
    match best with
    | none => some x
    | some b => if key b ≤ key x then some x else some b) none

namespace Memory

/-- A write that is to leave a snapshot needs the history; else it changes nothing. -/
def requireSnapshot {α : Type} (withSnapshot : Bool) (db : Database)
    (body : Except StatusListError α × Database) : Except StatusListError α × Database :=
  if withSnapshot then body
  else (.error (.backend ("MemoryStatusLists was built without shared snapshot storage; " ++
    "construct it with `.with_snapshot(..)`")), db)

/-- `insert`: an existing list is not replaced. -/
def insert (db : Database) (record : StatusListRecord) :
    Except StatusListError Unit × Database :=
  match db.rows.find? record.listId with
  | some _ => (.error .alreadyExists, db)
  | none => (.ok (), { db with rows := db.rows.upsert record })

/-- The guard both update methods check before they write. -/
def guardMatches (db : Database) (record : StatusListRecord) (expectedUpdatedAt : Int) :
    Bool :=
  match db.rows.find? record.listId with
  | some current => decide (current.updatedAt = expectedUpdatedAt)
  | none => false

/-- `update`: under the guard of the expected stamp. -/
def update (db : Database) (record : StatusListRecord) (expectedUpdatedAt : Int) :
    Except StatusListError Bool × Database :=
  if guardMatches db record expectedUpdatedAt then
    (.ok true, { db with rows := db.rows.upsert record })
  else
    (.ok false, db)

/-- `update_with_snapshot`: the row and its snapshot. -/
def updateWithSnapshot (withSnapshot : Bool) (db : Database) (record : StatusListRecord)
    (expectedUpdatedAt : Int) (snapshot : StatusListSnapshot) :
    Except StatusListError Bool × Database :=
  requireSnapshot withSnapshot db <|
    if guardMatches db record expectedUpdatedAt then
      (.ok true, { db with
        history := db.history.upsert snapshot
        rows := db.rows.upsert record })
    else
      (.ok false, db)

/-- `insert_with_snapshot`: the row and its snapshot. -/
def insertWithSnapshot (withSnapshot : Bool) (db : Database) (record : StatusListRecord)
    (snapshot : StatusListSnapshot) : Except StatusListError Unit × Database :=
  requireSnapshot withSnapshot db <|
    match db.rows.find? record.listId with
    | some _ => (.error .alreadyExists, db)
    | none => (.ok (), { db with
        history := db.history.upsert snapshot
        rows := db.rows.upsert record })

/-- `list_uris`, in order of the keys. -/
def listUris (order : ScanOrder) (db : Database) : List String :=
  btreeCollect ((order.rows.visit db.rows.rows).map StatusListRecord.sub)

/-- `find_valid_at`: the latest snapshot that is valid. -/
def findValidAt (order : ScanOrder) (db : Database) (listId : String) (time : Int) :
    Option StatusListSnapshot :=
  maxByKey StatusListSnapshot.iat
    ((order.history.visit db.history.rows).filter (StatusListSnapshot.validAt listId time))

/-- `delete_older_than`, with the number of snapshots that are gone. -/
def deleteOlderThan (db : Database) (cutoff : Int) :
    Except StatusListError Nat × Database :=
  let toRemove := (db.history.rows.filter (fun r => decide (r.exp < cutoff))).map
    StatusListSnapshot.snapshotId
  (.ok toRemove.length,
    { db with history := toRemove.foldl (fun values id => values.remove id) db.history })

/-- `insert`: an issuer is not replaced. -/
def insertCredential (db : Database) (credential : Credential) :
    Except CredentialError Unit × Database :=
  match db.credentials.find? credential.issuer.name with
  | some _ => (.error .alreadyExists, db)
  | none => (.ok (), { db with credentials := db.credentials.upsert credential })

/-- The adapter as one handler.  `withSnapshot` says whether the row map was
built over a snapshot map. -/
def handle (withSnapshot : Bool) (order : ScanOrder) :
    (op : StoreOp) → Database → op.Answer × Database
  | .find listId, db => (.ok (db.rows.find? listId), db)
  | .insert record, db => insert db record
  | .update record expected, db => update db record expected
  | .updateWithSnapshot record expected snapshot, db =>
      updateWithSnapshot withSnapshot db record expected snapshot
  | .insertWithSnapshot record snapshot, db =>
      insertWithSnapshot withSnapshot db record snapshot
  | .listUris, db => (.ok (listUris order db), db)
  | .findValidAt listId time, db => (.ok (findValidAt order db listId time), db)
  | .deleteOlderThan cutoff, db => deleteOlderThan db cutoff
  | .findCredential issuer, db => (.ok (db.credentials.find? issuer), db)
  | .insertCredential credential, db => insertCredential db credential

end Memory

/-- `max_by_key` returns a maximal element. -/
theorem maxByKey_spec {α : Type} (key : α → Int) (xs : List α) :
    match maxByKey key xs with
    | none => xs = []
    | some m => m ∈ xs ∧ ∀ x ∈ xs, key x ≤ key m := by
  induction xs using List.reverseRecOn with
  | nil => rfl
  | append_singleton xs x ih =>
      unfold maxByKey at ih ⊢
      rw [List.foldl_append]
      simp only [List.foldl_cons, List.foldl_nil]
      cases hbest : xs.foldl (fun best x =>
          match best with
          | none => some x
          | some b => if key b ≤ key x then some x else some b) none with
      | none =>
          rw [hbest] at ih
          subst ih
          simp
      | some b =>
          rw [hbest] at ih
          obtain ⟨hmem, hmax⟩ := ih
          by_cases hle : key b ≤ key x
          · simp only [hle, if_true]
            refine ⟨by simp, ?_⟩
            intro y hy
            rcases List.mem_append.mp hy with hy | hy
            · exact Int.le_trans (hmax y hy) hle
            · rw [List.mem_singleton.mp hy]
          · simp only [hle, if_false]
            refine ⟨by simp [hmem], ?_⟩
            intro y hy
            rcases List.mem_append.mp hy with hy | hy
            · exact hmax y hy
            · rw [List.mem_singleton.mp hy]
              omega

/-- Removing keys one by one removes the rows with those keys. -/
theorem mem_foldl_remove {ids : List String} :
    ∀ {t : Table StatusListSnapshot.snapshotId} {s : StatusListSnapshot},
      s ∈ ids.foldl (fun values id => values.remove id) t ↔ s ∈ t ∧ s.snapshotId ∉ ids := by
  induction ids with
  | nil => simp
  | cons id rest ih =>
      intro t s
      rw [List.foldl_cons, ih, Table.remove, Table.mem_filter]
      simp [and_assoc]

/-- The sweep keeps exactly the snapshots that have not expired. -/
theorem Memory.mem_deleteOlderThan {db : Database} {cutoff : Int} {s : StatusListSnapshot} :
    s ∈ (Memory.deleteOlderThan db cutoff).2.history ↔ s ∈ db.history ∧ cutoff ≤ s.exp := by
  simp only [Memory.deleteOlderThan, mem_foldl_remove, List.mem_map, List.mem_filter,
    decide_eq_true_eq, not_exists, not_and]
  constructor
  · rintro ⟨hmem, hkeep⟩
    refine ⟨hmem, ?_⟩
    by_contra hlt
    exact hkeep s ⟨hmem, by omega⟩ rfl
  · rintro ⟨hmem, hle⟩
    refine ⟨hmem, ?_⟩
    rintro r ⟨hr, hexp⟩ hid
    have heq : r = s := Table.eq_of_key_eq hr hmem hid
    subst heq
    omega

/-- The computed guard is the guard of the port. -/
theorem Memory.guard_of_guardMatches {db : Database} {record : StatusListRecord}
    {expected : Int} (h : Memory.guardMatches db record expected = true) :
    Guard db record expected := by
  unfold Memory.guardMatches at h
  split at h
  · rename_i current hcurrent
    exact ⟨current, hcurrent, by simpa using h⟩
  · cases h

/-- **The in-memory adapter keeps the contract.** -/
theorem Memory.handle_spec (withSnapshot : Bool) (order : ScanOrder) (op : StoreOp)
    (db : Database) :
    StoreSpec op db (Memory.handle withSnapshot order op db).1
      (Memory.handle withSnapshot order op db).2 := by
  cases op with
  | find listId => exact ⟨rfl, fun x hx => by cases hx; rfl⟩
  | listUris => exact ⟨rfl, fun _ _ => trivial⟩
  | findCredential issuer => exact ⟨rfl, fun x hx => by cases hx; rfl⟩
  | insert record =>
      simp only [handle, Memory.insert]
      split
      · exact .fails _
      · rename_i habsent
        exact .lands habsent ⟨Table.Same.refl _, Table.Same.refl _, rfl⟩
  | insertWithSnapshot record snapshot =>
      simp only [handle, Memory.insertWithSnapshot, requireSnapshot]
      split
      · split
        · exact .fails _
        · rename_i habsent
          exact .lands habsent ⟨Table.Same.refl _, Table.Same.refl _, rfl⟩
      · exact .fails _
  | update record expected =>
      simp only [handle, Memory.update]
      split
      · rename_i hguard
        exact .lands (guard_of_guardMatches hguard) ⟨Table.Same.refl _, Table.Same.refl _, rfl⟩
      · exact .misses
  | updateWithSnapshot record expected snapshot =>
      simp only [handle, Memory.updateWithSnapshot, requireSnapshot]
      split
      · split
        · rename_i hguard
          exact .lands (guard_of_guardMatches hguard)
            ⟨Table.Same.refl _, Table.Same.refl _, rfl⟩
        · exact .misses
      · exact .fails _
  | findValidAt listId time =>
      refine ⟨rfl, ?_⟩
      intro found hfound
      cases hfound
      have hspec := maxByKey_spec StatusListSnapshot.iat
        ((order.history.visit db.history.rows).filter
          (StatusListSnapshot.validAt listId time))
      have hmem : ∀ s, s ∈ (order.history.visit db.history.rows).filter
          (StatusListSnapshot.validAt listId time) ↔
          s ∈ db.history ∧ s.validAt listId time = true := by
        intro s
        rw [List.mem_filter, order.history.mem, Table.mem_rows]
      simp only [Memory.findValidAt]
      split at hspec
      · rename_i hnone
        rw [hnone]
        intro s hs
        by_contra hvalid
        have hin := (hmem s).mpr ⟨hs, by simpa using hvalid⟩
        rw [hspec] at hin
        cases hin
      · rename_i m hsome
        rw [hsome]
        obtain ⟨hin, hmax⟩ := hspec
        exact ⟨((hmem m).mp hin).1, ((hmem m).mp hin).2,
          fun other ho hv => hmax other ((hmem other).mpr ⟨ho, hv⟩)⟩
  | deleteOlderThan cutoff =>
      refine ⟨⟨rfl, rfl, ?_, ?_⟩, ?_⟩
      · exact fun s hs => (Memory.mem_deleteOlderThan.mp hs).1
      · intro s hs
        by_cases hexp : s.exp < cutoff
        · exact Or.inr hexp
        · exact Or.inl (Memory.mem_deleteOlderThan.mpr ⟨hs, by omega⟩)
      · exact fun _ _ s hs => (Memory.mem_deleteOlderThan.mp hs).2
  | insertCredential credential =>
      simp only [handle, Memory.insertCredential]
      split
      · exact .fails _
      · rename_i habsent
        exact .lands rfl habsent rfl rfl (Table.Same.refl _)

end StatusListServer
