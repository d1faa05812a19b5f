import StatusListServer.CallDiscipline
import StatusListServer.MemoryStore
import StatusListServer.SqlStore

/-!
# A deployment: many calls, many processes, one database

Any number of threads in any number of processes work on tasks; the processes
share the database and each has its own record cache and its own clock.  A run
is any interleaving of the port operations of the threads.  A sweep of the SQL
adapter is not one operation but a loop of statements, between which other
threads use the database.  Clock readings are arbitrary, snapshot ids are fresh,
and every statement of the SQL adapter may fail.

`Deployment.effect` says once what a single step can do to the database; the
invariants of the following files are derived from it.
-/

namespace StatusListServer

open KeyedTable CheckedEval Interaction

/-- The record cache of one process. -/
abbrev RecordCache := Table StatusListRecord.listId

/-- `MemoryStatusListCache`. -/
def MemoryCache.handle : (op : CacheOp) → RecordCache → op.Answer × RecordCache
  | .get listId, values => (.ok (values.find? listId), values)
  | .put record, values => (.ok (), values.upsert record)
  | .invalidate listId, values => (.ok (), values.remove listId)

/-- What a cache may answer and do. -/
abbrev CacheModel := (op : CacheOp) → RecordCache → op.Answer → RecordCache → Prop

/-- A cache whose operations all succeed and whose entries do not expire. -/
def MemoryCache.model : CacheModel := fun op values answer values' =>
  MemoryCache.handle op values = (answer, values')

/-- The adapter behind the repository ports. -/
inductive Backend
  | memory (withSnapshot : Bool)
  | sql (reserialise : PublicJwk → Except String PublicJwk)

/-- What the adapter may answer and do: for some order of the rows, and with SQL
for some failing statements. -/
def Backend.Answers (backend : Backend) (op : StoreOp) (db : Database) (answer : op.Answer)
    (db' : Database) : Prop :=
  match backend with
  | .memory withSnapshot => ∃ order, Memory.handle withSnapshot order op db = (answer, db')
  | .sql reserialise =>
      ∃ faults order, Sql.handle reserialise faults order op db = (answer, db')

/-- Both adapters keep the contract of the ports. -/
theorem Backend.Answers.spec {backend : Backend} {op : StoreOp} {db db' : Database}
    {answer : op.Answer} (h : backend.Answers op db answer db') :
    StoreSpec op db answer db' := by
  cases backend with
  | memory withSnapshot =>
      obtain ⟨order, horder⟩ := h
      have hspec := Memory.handle_spec withSnapshot order op db
      rw [horder] at hspec
      exact hspec
  | sql reserialise =>
      obtain ⟨faults, order, horder⟩ := h
      have hspec := Sql.handle_spec reserialise faults order op db
      rw [horder] at hspec
      exact hspec

/-- What one statement of a sweep may answer and do. -/
def Backend.AnswersBatch (backend : Backend) (cutoff : Int) (db : Database)
    (answer : Except StatusListError Nat) (db' : Database) : Prop :=
  match backend with
  | .memory _ => False
  | .sql _ => ∃ fault order, Sql.converted (Sql.executeBatch fault order db cutoff) = (answer, db')

theorem Backend.AnswersBatch.deletes {backend : Backend} {cutoff : Int} {db db' : Database}
    {answer : Except StatusListError Nat} (h : backend.AnswersBatch cutoff db answer db') :
    Deletes db cutoff db' := by
  cases backend with
  | memory withSnapshot => exact h.elim
  | sql reserialise =>
      obtain ⟨fault, order, hexecuted⟩ := h
      have hdeletes := Sql.executeBatch_deletes fault order db cutoff
      rwa [show (Sql.executeBatch fault order db cutoff).2 = db' from
        congrArg Prod.snd hexecuted] at hdeletes

/-! ## What an adapter makes of a program -/

/-- The batch loop of a sweep that has deleted some rows, of a process that is
stopped after a number of further batches. -/
def sweepBatches (cutoff : Int)
    (k : Except StatusListError Nat → PortProg (Except Failure Value)) :
    (batches totalDeleted : Nat) → PortProg (Except Failure Value)
  | 0, _ => .ret (.error .stopped)
  | batches + 1, totalDeleted => .call (.sweepBatch cutoff) fun answer =>
      match answer with
      | .error e => k (.error e)
      | .ok count =>
          if count < Sql.batchSize then k (.ok (totalDeleted + count))
          else sweepBatches cutoff k batches (totalDeleted + count)

/-- How an adapter carries out an operation. -/
def Backend.perform (backend : Backend) (batches : Nat) :
    (op : Port) → (op.Answer → PortProg (Except Failure Value)) → PortProg (Except Failure Value)
  | .store (.deleteOlderThan cutoff), k =>
      match backend with
      | .memory _ => .call (.store (.deleteOlderThan cutoff)) k
      | .sql _ => sweepBatches cutoff k batches 0
  | op, k => .call op k

/-- A program over the ports as an adapter runs it. -/
def Backend.run (backend : Backend) (batches : Nat) :
    PortProg (Except Failure Value) → PortProg (Except Failure Value)
  | .ret result => .ret result
  | .call op k => backend.perform batches op (fun answer => backend.run batches (k answer))

section Obeys

variable {app : AppState} {s : CallState} {backend : Backend} {batches : Nat}

/-- The batch loop of a sweep keeps to the discipline if what follows it does. -/
theorem obeys_sweepBatches {cutoff : Int}
    {k : Except StatusListError Nat → PortProg (Except Failure Value)}
    (hk : ∀ answer, (k answer).Obeys (callDiscipline app) (CallState.Ended app)
      (.start (.cleanup cutoff))) (batches totalDeleted : Nat) :
    (sweepBatches cutoff k batches totalDeleted).Obeys (callDiscipline app)
      (CallState.Ended app) (.start (.cleanup cutoff)) := by
  induction batches generalizing totalDeleted with
  | zero => exact rfl
  | succ batches ih =>
      refine ⟨rfl, ?_⟩
      intro answer
      cases answer with
      | error e => exact hk _
      | ok count =>
          dsimp only
          split
          · exact hk _
          · exact ih _

/-- An adapter carries an operation out within the discipline. -/
theorem Backend.obeys_perform {op : Port} {k : op.Answer → PortProg (Except Failure Value)}
    (hmay : s.may app op) (hk : ∀ answer, (k answer).Obeys (callDiscipline app)
      (CallState.Ended app) (s.next op answer)) :
    (backend.perform batches op k).Obeys (callDiscipline app) (CallState.Ended app) s := by
  unfold Backend.perform
  split
  · rename_i cutoff k
    cases backend with
    | memory withSnapshot => exact ⟨hmay, hk⟩
    | sql reserialise =>
        obtain rfl : s = .start (.cleanup cutoff) := hmay
        exact obeys_sweepBatches hk batches 0
  · exact ⟨hmay, hk⟩

/-- **What an adapter makes of a program keeps to the discipline that the program obeys.** -/
theorem Backend.obeys_run {p : PortProg (Except Failure Value)}
    (h : p.Obeys (callDiscipline app) (CallState.Ended app) s) :
    (backend.run batches p).Obeys (callDiscipline app) (CallState.Ended app) s := by
  induction p generalizing s with
  | ret result => exact h
  | call op k ih =>
      unfold Backend.run
      exact Backend.obeys_perform h.1 (fun answer => ih answer (h.2 answer))

@[simp] theorem CallState.next_task (s : CallState) (op : Port) (answer : op.Answer) :
    (s.next op answer).task = s.task := by
  rcases op with op | _ | op | _ | _ | _
  · cases op <;> rfl
  · rfl
  · cases op <;> rfl
  all_goals rfl

/-- An adapter carries out every other operation as it is. -/
theorem Backend.perform_eq {op : Port} (hop : ∀ cutoff, op ≠ .store (.deleteOlderThan cutoff))
    (k : op.Answer → PortProg (Except Failure Value)) :
    backend.perform batches op k = .call op k := by
  unfold Backend.perform
  split
  · exact absurd rfl (hop _)
  · rfl

/-- A call that is not a clean-up asks nothing that an adapter splits. -/
theorem Backend.run_eq {p : PortProg (Except Failure Value)}
    {post : CallState → Except Failure Value → Prop} (h : p.Obeys (callDiscipline app) post s)
    (htask : ∀ cutoff, s.task ≠ .cleanup cutoff) : backend.run batches p = p := by
  induction p generalizing s with
  | ret result => rfl
  | call op k ih =>
      unfold Backend.run
      have hop : ∀ cutoff, op ≠ .store (.deleteOlderThan cutoff) := by
        rintro cutoff rfl
        have hmay : s = .start (.cleanup cutoff) := h.1
        exact htask cutoff (congrArg CallState.task hmay)
      rw [Backend.perform_eq hop]
      congr 1
      funext answer
      refine ih answer (h.2 answer) ?_
      intro cutoff
      rw [show ((callDiscipline app).next s op answer).task = s.task from s.next_task op answer]
      exact htask cutoff

end Obeys

/-- The shared state: the database, the cache of every process, and the snapshot
ids handed out so far. -/
structure World where
  db : Database
  caches : Nat → RecordCache
  issued : List String

/-- The code and adapters every process runs, the process of each thread, and
how many batches of its sweep a thread lives to execute. -/
structure Deployment where
  app : AppState
  backend : Backend
  cache : CacheModel
  replica : Nat → Nat
  batches : Nat → Nat

namespace Deployment

/-- One port operation of a thread. -/
def env (d : Deployment) : Env Nat Port Port.Answer World
  | _, .store op, w, answer, w' =>
      ∃ db', d.backend.Answers op w.db answer db' ∧ w' = { w with db := db' }
  | _, .sweepBatch cutoff, w, answer, w' =>
      ∃ db', d.backend.AnswersBatch cutoff w.db answer db' ∧ w' = { w with db := db' }
  | i, .cache op, w, answer, w' =>
      ∃ values, d.cache op (w.caches (d.replica i)) answer values ∧
        w' = { w with caches := Function.update w.caches (d.replica i) values }
  | _, .currentUnixTimestamp, w, _, w' => w' = w
  | _, .systemTime, w, _, w' => w' = w
  | _, .newUuid, w, snapshotId, w' =>
      snapshotId ∉ w.issued ∧ w' = { w with issued := snapshotId :: w.issued }

/-- The threads before their first step. -/
def start (d : Deployment) (tasks : Nat → Task) (w : World) :
    Pool Nat Port Port.Answer (Except Failure Value) World :=
  ⟨w, fun i => d.backend.run (d.batches i) ((tasks i).serve d.app)⟩

/-- Undisturbed, the batch loop deletes and answers as the adapter's own loop. -/
theorem run_sweepBatches {d : Deployment} {reserialise : PublicJwk → Except String PublicJwk}
    (hsql : d.backend = .sql reserialise) (faults : SqlFaults) (order : ScanOrder) (cutoff : Int)
    (k : Except StatusListError Nat → PortProg (Except Failure Value)) (batch total : Nat)
    (history : Table StatusListSnapshot.snapshotId) :
    ∃ batches, ∀ (c : Pool Nat Port Port.Answer (Except Failure Value) World) (i : Nat),
      c.threads i = sweepBatches cutoff k batches total → c.world.db.history = history →
      let swept := Sql.deleteBatches faults order cutoff batch total history
      ∃ t, Run d.env c t
        ⟨{ c.world with db := { c.world.db with history := swept.2 } },
          Function.update c.threads i
            (k (swept.1.mapError RepositoryError.toStatusListError))⟩ := by
  have hbatch : ∀ (fault : Option DbErr) (i : Nat) (w : World), d.env i (.sweepBatch cutoff) w
      (Sql.converted (Sql.executeBatch fault order w.db cutoff)).1
      { w with db := (Sql.converted (Sql.executeBatch fault order w.db cutoff)).2 } :=
    fun fault i w => ⟨_, by rw [hsql]; exact ⟨fault, order, rfl⟩, rfl⟩
  fun_induction Sql.deleteBatches faults order cutoff batch total history with
  | case1 batch total history e he =>
      refine ⟨1, ?_⟩
      rintro c i hthread rfl
      exact ⟨_, .snoc .nil (.call hthread (hbatch (some e) i c.world))⟩
  | case2 batch total history hnone count hlast =>
      refine ⟨1, ?_⟩
      rintro c i hthread rfl
      have hshort : (Sql.expiredBatch order c.world.db.history cutoff).length <
        Sql.batchSize := hlast
      have hstep := Step.call hthread (hbatch none i c.world)
      simp only [Sql.converted, Sql.executeBatch, Except.mapError, if_pos hshort] at hstep
      exact ⟨_, .snoc .nil hstep⟩
  | case3 batch total history hnone count hfull ih =>
      obtain ⟨batches, ih⟩ := ih
      refine ⟨batches + 1, ?_⟩
      rintro c i hthread rfl
      have hmore : ¬ (Sql.expiredBatch order c.world.db.history cutoff).length <
        Sql.batchSize := hfull
      have hstep := Step.call hthread (hbatch none i c.world)
      simp only [Sql.converted, Sql.executeBatch, Except.mapError, if_neg hmore] at hstep
      obtain ⟨t, hrun⟩ := ih ⟨{ c.world with db := { c.world.db with
        history := Sql.deleteBatch order c.world.db.history cutoff } },
        Function.update c.threads i _⟩ i (Function.update_self _ _ _) rfl
      rw [Function.update_idem] at hrun
      exact ⟨_, hrun.cons hstep⟩

/-- **Undisturbed, a sweep does what the adapter's handler does.** -/
theorem run_deleteOlderThan {d : Deployment} {reserialise : PublicJwk → Except String PublicJwk}
    (hsql : d.backend = .sql reserialise) (faults : SqlFaults) (order : ScanOrder) (cutoff : Int)
    (k : Except StatusListError Nat → PortProg (Except Failure Value)) (db : Database) :
    ∃ batches, ∀ (c : Pool Nat Port Port.Answer (Except Failure Value) World) (i : Nat),
      c.threads i = d.backend.perform batches (.store (.deleteOlderThan cutoff)) k →
      c.world.db = db →
      let swept := Sql.handle reserialise faults order (.deleteOlderThan cutoff) db
      ∃ t, Run d.env c t
        ⟨{ c.world with db := swept.2 }, Function.update c.threads i (k swept.1)⟩ := by
  obtain ⟨batches, hloop⟩ := run_sweepBatches hsql faults order cutoff k 0 0 db.history
  refine ⟨batches, ?_⟩
  rintro c i hthread rfl
  rw [hsql] at hthread
  exact hloop c i hthread rfl

end Deployment

/-- An operation of a run, with its answer. -/
abbrev PortEvent := Event Nat Port Port.Answer

/-- The calls of a run, seen from the discipline. -/
abbrev Calls (app : AppState) := Ledger Nat (callDiscipline app) World

/-- The snapshot written with a row: none when snapshots are disabled, and the
snapshot of that row under the call's own id when they are enabled. -/
def CallState.Covered (app : AppState) (s : CallState) (record : StatusListRecord)
    (tokenExpSecs : BitVec 64) : Option StatusListSnapshot → Prop
  | none => app.service.snapshotsEnabled = false
  | some snapshot => app.service.snapshotsEnabled = true ∧
      s.Snapshots record tokenExpSecs snapshot

/-- Everything one operation of a call can do to the database, with the row it
landed. -/
inductive Effect (app : AppState) (s : CallState) (db : Database) :
    Option StatusListRecord → Database → Prop
  | quiet : Effect app s db none db
  | published {args : PublishArgs} {record : StatusListRecord}
      {snapshot : Option StatusListSnapshot} {db' : Database}
      (hpublishing : s.Publishing app args record)
      (habsent : db.rows.find? record.listId = none)
      (hwritten : RowWritten db record snapshot db')
      (hcovered : s.Covered app record args.tokenExpSecs snapshot) :
      Effect app s db (some record) db'
  | updated {args : UpdateArgs} {read record : StatusListRecord}
      {snapshot : Option StatusListSnapshot} {db' : Database}
      (hupdating : s.Updating app args read record)
      (hguard : Guard db record read.updatedAt)
      (hwritten : RowWritten db record snapshot db')
      (hcovered : s.Covered app record args.tokenExpSecs snapshot) :
      Effect app s db (some record) db'
  | swept {cutoff : Int} {db' : Database} (htask : s.task = .cleanup cutoff)
      (hdeletes : Deletes db cutoff db') :
      Effect app s db none db'
  | registered {credential stored : Credential} {db' : Database}
      (htask : s.task = .postCredential credential.issuer.name credential.publicKey.bytes)
      (hissuer : stored.issuer = credential.issuer)
      (habsent : db.credentials.find? credential.issuer.name = none)
      (hrows : db'.rows = db.rows) (hhistory : db'.history = db.history)
      (hcredentials : db'.credentials.Same (db.credentials.upsert stored)) :
      Effect app s db none db'

/-- An allowed operation that keeps the contract has one of the effects. -/
theorem StoreSpec.effect {app : AppState} {s : CallState} {op : StoreOp}
    {db db' : Database} {answer : op.Answer} (hmay : s.may app (.store op))
    (h : StoreSpec op db answer db') :
    Effect app s db (landedRow (.store op) answer) db' := by
  cases op with
  | find listId =>
      obtain rfl := h.unchanged
      exact .quiet
  | listUris =>
      obtain rfl := h.unchanged
      exact .quiet
  | findValidAt listId time =>
      obtain rfl := h.unchanged
      exact .quiet
  | findCredential issuer =>
      obtain rfl := h.1
      exact .quiet
  | deleteOlderThan cutoff => exact .swept (congrArg CallState.task hmay) h.toDeletes
  | insertCredential credential =>
      cases h with
      | fails e => exact .quiet
      | lands hissuer habsent hrows hhistory hcredentials =>
          exact .registered hmay hissuer habsent hrows hhistory hcredentials
  | insert record =>
      obtain ⟨hdisabled, args, hpublishing⟩ := hmay
      cases h with
      | fails e => exact .quiet
      | lands habsent hwritten => exact .published hpublishing habsent hwritten hdisabled
  | insertWithSnapshot record snapshot =>
      obtain ⟨henabled, args, hpublishing, hsnapshot⟩ := hmay
      cases h with
      | fails e => exact .quiet
      | lands habsent hwritten =>
          exact .published hpublishing habsent hwritten ⟨henabled, hsnapshot⟩
  | update record expected =>
      obtain ⟨hdisabled, args, read, hupdating, rfl⟩ := hmay
      cases h with
      | fails e => exact .quiet
      | misses => exact .quiet
      | lands hguard hwritten => exact .updated hupdating hguard hwritten hdisabled
  | updateWithSnapshot record expected snapshot =>
      obtain ⟨henabled, args, read, hupdating, rfl, hsnapshot⟩ := hmay
      cases h with
      | fails e => exact .quiet
      | misses => exact .quiet
      | lands hguard hwritten =>
          exact .updated hupdating hguard hwritten ⟨henabled, hsnapshot⟩

section Steps

variable {d : Deployment} {l l' : Calls d.app} {e : PortEvent}

/-- **What a step can do to the database.** -/
theorem Deployment.effect (h : LedgerStep d.env l e l') :
    Effect d.app (l.locals e.tid) l.world.db (landedRow e.op e.res) l'.world.db := by
  cases h with
  | @act i op r w hmay henv =>
      cases op with
      | store op =>
          obtain ⟨db', hanswers, rfl⟩ := henv
          exact hanswers.spec.effect hmay
      | sweepBatch cutoff =>
          obtain ⟨db', hanswers, rfl⟩ := henv
          exact .swept (congrArg CallState.task hmay) hanswers.deletes
      | cache op =>
          obtain ⟨values, _, rfl⟩ := henv
          cases op <;> exact .quiet
      | currentUnixTimestamp =>
          obtain rfl := henv
          exact .quiet
      | systemTime =>
          obtain rfl := henv
          exact .quiet
      | newUuid =>
          obtain ⟨_, rfl⟩ := henv
          exact .quiet

/-- Only the acting call learns something. -/
theorem Deployment.locals_eq (h : LedgerStep d.env l e l') :
    l'.locals = Function.update l.locals e.tid ((l.locals e.tid).next e.op e.res) := by
  cases h with
  | act _ _ => rfl

/-- A call has landed a row once one of its operations has. -/
theorem CallState.next_landed (s : CallState) (op : Port) (answer : op.Answer) :
    (s.next op answer).landed = (landedRow op answer).or s.landed := by
  rcases op with op | _ | op | _ | _ | _
  · cases op <;> rfl
  · rfl
  · cases op <;> rfl
  all_goals rfl

/-- Tasks never change. -/
theorem Deployment.task_eq (h : LedgerStep d.env l e l') (i : Nat) :
    (l'.locals i).task = (l.locals i).task := by
  rw [Deployment.locals_eq h]
  by_cases hi : i = e.tid
  · subst hi
    simp
  · simp [hi]

/-- A call that has landed a row has written it in this step or before. -/
theorem Deployment.landed_eq (h : LedgerStep d.env l e l') (i : Nat) :
    (l'.locals i).landed =
      if i = e.tid then (landedRow e.op e.res).or (l.locals i).landed
      else (l.locals i).landed := by
  rw [Deployment.locals_eq h]
  by_cases hi : i = e.tid
  · subst hi
    simp [CallState.next_landed]
  · simp [hi]

/-- The list a task reads: the one it updates or the one it was asked for. -/
def Task.Reads (app : AppState) (task : Task) (listId : String) : Prop :=
  (∃ args, task.updateArgs app = some args ∧ args.listId = listId) ∨ task = .get listId

/-- A row a call has found was found before, or is read from the database by
this step. -/
theorem Deployment.found_cases (h : LedgerStep d.env l e l') {i : Nat}
    {record : StatusListRecord} (hfound : (l'.locals i).found = some record) :
    (l.locals i).found = some record ∨
      (i = e.tid ∧ l'.world = l.world ∧ (l.locals i).task.Reads d.app record.listId ∧
        l.world.db.rows.find? record.listId = some record) := by
  by_cases hi : i = e.tid
  · subst hi
    rw [Deployment.locals_eq h, Function.update_self] at hfound
    cases h with
    | @act i op r w hmay henv =>
        rcases op with op | _ | op | _ | _ | _
        · cases op with
          | find listId =>
              obtain ⟨db', hanswers, rfl⟩ := henv
              have hspec : Reads _ _ _ _ := hanswers.spec
              obtain rfl := hspec.unchanged
              rcases r with err | _ | row
              · cases hfound
              · cases hfound
              · cases hfound
                have hrow := hspec.truth _ rfl
                obtain rfl := Table.key_of_find? hrow.symm
                exact Or.inr ⟨rfl, rfl, hmay.2.2.imp id (fun hget => hget.1), hrow.symm⟩
          | _ => exact Or.inl hfound
        · exact Or.inl hfound
        · cases op <;> exact Or.inl hfound
        all_goals exact Or.inl hfound
  · rw [Deployment.locals_eq h, Function.update_of_ne hi] at hfound
    exact Or.inl hfound

/-- A record a call took from the cache was taken before, or is taken from the
cache of its process by this step. -/
theorem Deployment.cached_cases (hcache : d.cache = MemoryCache.model)
    (h : LedgerStep d.env l e l') {i : Nat} {record : StatusListRecord}
    (hcached : (l'.locals i).cached = some record) :
    (l.locals i).cached = some record ∨
      ∃ listId, (l.locals i).task = .get listId ∧
        (l.world.caches (d.replica i)).find? listId = some record := by
  by_cases hi : i = e.tid
  · subst hi
    rw [Deployment.locals_eq h, Function.update_self] at hcached
    cases h with
    | @act i op r w hmay henv =>
        rcases op with op | _ | op | _ | _ | _
        · cases op <;> exact Or.inl hcached
        · exact Or.inl hcached
        · cases op with
          | get listId =>
              obtain ⟨values, hanswers, rfl⟩ := henv
              rw [hcache] at hanswers
              cases hanswers
              have hstart : l.locals i = .start (.get listId) := hmay
              exact Or.inr ⟨listId, by rw [hstart]; rfl, hcached⟩
          | _ => exact Or.inl hcached
        all_goals exact Or.inl hcached
  · rw [Deployment.locals_eq h, Function.update_of_ne hi] at hcached
    exact Or.inl hcached

/-- A snapshot id a call holds was drawn before, or is drawn fresh by this step. -/
theorem Deployment.snapshotId_cases (h : LedgerStep d.env l e l') {i : Nat} {id : String}
    (hid : (l'.locals i).snapshotId = some id) :
    (l.locals i).snapshotId = some id ∨
      (i = e.tid ∧ id ∉ l.world.issued ∧ l'.world = { l.world with
        issued := id :: l.world.issued } ∧ landedRow e.op e.res = none) := by
  by_cases hi : i = e.tid
  · subst hi
    rw [Deployment.locals_eq h, Function.update_self] at hid
    cases h with
    | @act i op r w hmay henv =>
        rcases op with op | _ | op | _ | _ | _
        · cases op <;> exact Or.inl hid
        · exact Or.inl hid
        · cases op <;> exact Or.inl hid
        · exact Or.inl hid
        · exact Or.inl hid
        · obtain ⟨hfresh, rfl⟩ := henv
          cases hid
          exact Or.inr ⟨rfl, hfresh, rfl, rfl⟩
  · rw [Deployment.locals_eq h, Function.update_of_ne hi] at hid
    exact Or.inl hid

/-- Ids that were handed out stay handed out. -/
theorem Deployment.issued_mono (h : LedgerStep d.env l e l') {id : String}
    (hid : id ∈ l.world.issued) : id ∈ l'.world.issued := by
  cases h with
  | @act i op r w hmay henv =>
      rcases op with op | _ | op | _ | _ | _
      · obtain ⟨db', _, rfl⟩ := henv
        exact hid
      · obtain ⟨db', _, rfl⟩ := henv
        exact hid
      · obtain ⟨values, _, rfl⟩ := henv
        exact hid
      · obtain rfl := henv
        exact hid
      · obtain rfl := henv
        exact hid
      · obtain ⟨_, rfl⟩ := henv
        exact List.mem_cons_of_mem _ hid

/-- Stamps of stored rows never go back. -/
theorem Deployment.stamp_mono (h : LedgerStep d.env l e l') {listId : String}
    {row : StatusListRecord} (hrow : l.world.db.rows.find? listId = some row) :
    ∃ next, l'.world.db.rows.find? listId = some next ∧ row.updatedAt ≤ next.updatedAt := by
  have heffect := Deployment.effect h
  generalize landedRow e.op e.res = landed at heffect
  generalize l'.world.db = db' at heffect ⊢
  cases heffect with
  | quiet => exact ⟨row, hrow, Int.le_refl _⟩
  | swept _ hsweeps => exact ⟨row, by rw [hsweeps.rows]; exact hrow, Int.le_refl _⟩
  | registered _ _ _ hrows => exact ⟨row, by rw [hrows]; exact hrow, Int.le_refl _⟩
  | @published args record snapshot _ _ habsent hwritten =>
      have hne : listId ≠ record.listId := by
        rintro rfl
        rw [hrow] at habsent
        cases habsent
      exact ⟨row, by rw [hwritten.find?_of_ne hne]; exact hrow, Int.le_refl _⟩
  | @updated args read record snapshot _ hupdating hguard hwritten =>
      by_cases hid : listId = record.listId
      · subst hid
        obtain ⟨current, hcurrent, hstamp⟩ := hguard
        rw [hrow] at hcurrent
        cases hcurrent
        have hlater := hupdating.later
        exact ⟨record, hwritten.find?_self, by omega⟩
      · exact ⟨row, by rw [hwritten.find?_of_ne hid]; exact hrow, Int.le_refl _⟩

/-- A call lands a row at most once. -/
theorem Deployment.fresh_of_landed (h : LedgerStep d.env l e l') {record : StatusListRecord}
    (hlanded : landedRow e.op e.res = some record) : (l.locals e.tid).landed = none := by
  have heffect := Deployment.effect h
  rw [hlanded] at heffect
  cases heffect with
  | published hpublishing => exact hpublishing.fresh
  | updated hupdating => exact hupdating.fresh

end Steps

/-- The local states of a pool whose threads obey the call discipline. -/
def Tracks (app : AppState) (c : Pool Nat Port Port.Answer (Except Failure Value) World)
    (locals : Nat → CallState) : Prop :=
  ∀ i, (c.threads i).Obeys (callDiscipline app) (CallState.Ended app) (locals i)

theorem Tracks.start (d : Deployment) (tasks : Nat → Task) (w : World) :
    Tracks d.app (d.start tasks w) (fun i => CallState.start (tasks i)) :=
  fun i => Backend.obeys_run (serve_obeys d.app (tasks i))

/-- A thread that does not clean up starts with the program of its task. -/
theorem Deployment.start_thread {d : Deployment} {tasks : Nat → Task} {w : World} {i : Nat}
    {task : Task} (htask : tasks i = task) (hother : ∀ cutoff, task ≠ .cleanup cutoff) :
    (d.start tasks w).threads i = task.serve d.app := by
  subst htask
  exact Backend.run_eq (serve_obeys d.app (tasks i)) hother

/-- A thread that has ended satisfies its postcondition. -/
theorem Tracks.ended {app : AppState}
    {c : Pool Nat Port Port.Answer (Except Failure Value) World} {locals : Nat → CallState}
    (h : Tracks app c locals) {i : Nat} {result : Except Failure Value}
    (hret : c.threads i = .ret result) : (locals i).Ended app result := by
  have hi := h i
  rw [hret] at hi
  exact hi

/-- The answers a schedule chooses: a clock reading and a snapshot id. -/
structure Script where
  clock : Int
  snapshotId : String

/-- Threads take turns at one clock reading, each with an id of its own. -/
def turns (clock : Int) (order : List Nat) : List (Nat × Script) :=
  order.map (fun i => (i, ⟨clock, "snapshot-" ++ toString i⟩))

/-- Rows are handed out in storage order. -/
def ScanOrder.storage : ScanOrder := ⟨⟨id, fun _ => .refl _⟩, ⟨id, fun _ => .refl _⟩⟩

/-- Answer an operation without failures, as the script says. -/
def Deployment.scripted (d : Deployment) (input : Script) (i : Nat) :
    (op : Port) → World → Option (op.Answer × World)
  | .store op, w =>
      match d.backend with
      | .memory withSnapshot =>
          let out := Memory.handle withSnapshot .storage op w.db
          some (out.1, { w with db := out.2 })
      | .sql reserialise =>
          let out := Sql.handle reserialise .none .storage op w.db
          some (out.1, { w with db := out.2 })
  | .sweepBatch cutoff, w =>
      match d.backend with
      | .memory _ => none
      | .sql _ =>
          let out := Sql.converted (Sql.executeBatch none .storage w.db cutoff)
          some (out.1, { w with db := out.2 })
  | .cache op, w =>
      let out := MemoryCache.handle op (w.caches (d.replica i))
      some (out.1, { w with caches := Function.update w.caches (d.replica i) out.2 })
  | .currentUnixTimestamp, w => some (input.clock, w)
  | .systemTime, w => some (.ok input.clock.toNat, w)
  | .newUuid, w =>
      if input.snapshotId ∈ w.issued then none
      else some (input.snapshotId, { w with issued := input.snapshotId :: w.issued })

theorem Deployment.scripted_sound {d : Deployment} (hcache : d.cache = MemoryCache.model)
    {input : Script} {i : Nat} {op : Port} {w : World} {r : op.Answer} {w' : World}
    (h : d.scripted input i op w = some (r, w')) : d.env i op w r w' := by
  cases op with
  | store op =>
      simp only [Deployment.scripted] at h
      split at h
      · rename_i withSnapshot hbackend
        cases h
        exact ⟨_, by rw [hbackend]; exact ⟨.storage, rfl⟩, rfl⟩
      · rename_i reserialise hbackend
        cases h
        exact ⟨_, by rw [hbackend]; exact ⟨.none, .storage, rfl⟩, rfl⟩
  | sweepBatch cutoff =>
      simp only [Deployment.scripted] at h
      split at h
      · cases h
      · rename_i reserialise hbackend
        cases h
        exact ⟨_, by rw [hbackend]; exact ⟨none, .storage, rfl⟩, rfl⟩
  | cache op =>
      cases h
      exact ⟨_, by rw [hcache]; exact rfl, rfl⟩
  | currentUnixTimestamp =>
      cases h
      exact rfl
  | systemTime =>
      cases h
      exact rfl
  | newUuid =>
      simp only [Deployment.scripted] at h
      split at h
      · cases h
      · rename_i hfresh
        cases h
        exact ⟨hfresh, rfl⟩

/-- The run in which the threads of a pool take turns as a schedule says. -/
def Deployment.resume (d : Deployment)
    (c : Pool Nat Port Port.Answer (Except Failure Value) World)
    (schedule : List (Nat × Script)) :
    List PortEvent × Pool Nat Port Port.Answer (Except Failure Value) World :=
  Pool.drive d.scripted schedule c

theorem Deployment.resume_run {d : Deployment} (hcache : d.cache = MemoryCache.model)
    (c : Pool Nat Port Port.Answer (Except Failure Value) World)
    (schedule : List (Nat × Script)) :
    Run d.env c (d.resume c schedule).1 (d.resume c schedule).2 := by
  have hsound : ∀ input i op w r w', d.scripted input i op w = some (r, w') →
      d.env i op w r w' := fun _ _ _ _ _ _ h => Deployment.scripted_sound hcache h
  exact Run.drive hsound schedule c

/-- A resumed run of threads that have not started. -/
def Deployment.play (d : Deployment) (tasks : Nat → Task) (w : World)
    (schedule : List (Nat × Script)) :
    List PortEvent × Pool Nat Port Port.Answer (Except Failure Value) World :=
  d.resume (d.start tasks w) schedule

theorem Deployment.play_run {d : Deployment} (hcache : d.cache = MemoryCache.model)
    (tasks : Nat → Task) (w : World) (schedule : List (Nat × Script)) :
    Run d.env (d.start tasks w) (d.play tasks w schedule).1 (d.play tasks w schedule).2 :=
  d.resume_run hcache _ schedule

end StatusListServer
