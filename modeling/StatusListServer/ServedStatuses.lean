import StatusListServer.ConditionalGet
import StatusListServer.RunHistory
import StatusListServer.VersionedRows

/-!
# What a relying party reads

A token is made from a record that went through `create` and `update` calls of many
clients, through a database, and possibly through a cache or the snapshot table.
This file follows the record all the way: whatever the interleaving, the record
behind a token is the published list with a prefix of the landed updates applied in
commit order, and so every index of the list in the token reads the status that the
last of those calls gave it.
-/

namespace StatusListServer

open KeyedTable CheckedEval Interaction BitStream

/-! ## Caches that make nothing up -/

/-- A cache that hands out only what was put into it.  Its entries may disappear at
any time and its operations may fail. -/
structure CacheModel.Faithful (cache : CacheModel) : Prop where
  get : ∀ {listId values values' record}, cache (.get listId) values (.ok (some record)) values' →
    values.find? listId = some record
  kept : ∀ {op values values' record} {answer : op.Answer}, cache op values answer values' →
    record ∈ values' → record ∈ values ∨ op = .put record

/-- `MokaStatusListCache`: entries expire after the configured time, at once when it is
zero, and are evicted beyond the capacity, before or after an operation. -/
def MokaCache.model (ttlSecs : Nat) : CacheModel := fun op values answer values' =>
  ∃ unexpired retained : StatusListRecord → Bool, (ttlSecs = 0 → ∀ r, unexpired r = false) ∧
    (MemoryCache.handle op (values.filter unexpired)).1 = answer ∧
      (MemoryCache.handle op (values.filter unexpired)).2.filter retained = values'

/-- A record in the cache was there or was put. -/
theorem MemoryCache.mem_handle {op : CacheOp} {values : RecordCache} {record : StatusListRecord}
    (h : record ∈ (MemoryCache.handle op values).2) : record ∈ values ∨ op = .put record := by
  cases op with
  | get listId => exact .inl h
  | put record' =>
      rcases Table.mem_upsert.mp h with rfl | ⟨hmem, _⟩
      · exact .inr rfl
      · exact .inl hmem
  | invalidate listId =>
      rw [MemoryCache.handle, Table.remove, Table.mem_filter] at h
      exact .inl h.1

/-- The plain map invents no records. -/
theorem MemoryCache.faithful : CacheModel.Faithful MemoryCache.model where
  get := by
    intro listId values values' record h
    have hanswer := congrArg Prod.fst h
    simpa [MemoryCache.handle] using hanswer
  kept := by
    intro op values values' record answer h hmem
    obtain rfl : (MemoryCache.handle op values).2 = values' := congrArg Prod.snd h
    exact MemoryCache.mem_handle hmem

/-- Nor does the cache with a time to live. -/
theorem MokaCache.faithful (ttlSecs : Nat) : CacheModel.Faithful (MokaCache.model ttlSecs) where
  get := by
    rintro listId values values' record ⟨unexpired, retained, _, hanswer, _⟩
    have hfind : (values.filter unexpired).find? listId = some record := by
      simpa [MemoryCache.handle] using hanswer
    obtain ⟨hmem, hkey⟩ := Table.find?_eq_some.mp hfind
    exact Table.find?_eq_some.mpr ⟨(Table.mem_filter.mp hmem).1, hkey⟩
  kept := by
    rintro op values values' record answer ⟨unexpired, retained, _, _, rfl⟩ hmem
    rcases MemoryCache.mem_handle (Table.mem_filter.mp hmem).1 with hold | hput
    · exact .inl (Table.mem_filter.mp hold).1
    · exact .inr hput

/-- A cache whose entries live for zero seconds has none. -/
theorem MokaCache.misses {listId : String} {values values' : RecordCache}
    {record : StatusListRecord} :
    ¬ MokaCache.model 0 (.get listId) values (.ok (some record)) values' := by
  rintro ⟨unexpired, retained, hexpired, hanswer, _⟩
  have hfind : (values.filter unexpired).find? listId = some record := by
    simpa [MemoryCache.handle] using hanswer
  have hlive := (Table.mem_filter.mp (Table.find?_eq_some.mp hfind).1).2
  rw [hexpired rfl record] at hlive
  cases hlive

section CacheSteps

variable {d : Deployment} {l l' : Calls d.app} {e : PortEvent}

/-- A cache entry was there before, or is the row the acting call has found. -/
theorem Deployment.entry_cases (hcache : d.cache.Faithful) (h : LedgerStep d.env l e l') {k : Nat}
    {record : StatusListRecord} (hentry : record ∈ l'.world.caches k) :
    record ∈ l.world.caches k ∨ (l.locals e.tid).found = some record := by
  cases h with
  | @act i op r w hmay henv =>
      cases op with
      | cache op =>
          obtain ⟨values, hanswers, rfl⟩ := henv
          by_cases hk : k = d.replica i
          · subst hk
            simp only [Function.update_self] at hentry
            rcases hcache.kept hanswers hentry with hold | rfl
            · exact .inl hold
            · exact .inr hmay.1
          · simp only [Function.update_of_ne hk] at hentry
            exact .inl hentry
      | store op =>
          obtain ⟨db', _, rfl⟩ := henv
          exact .inl hentry
      | sweepBatch cutoff =>
          obtain ⟨db', _, rfl⟩ := henv
          exact .inl hentry
      | currentUnixTimestamp =>
          obtain rfl := henv
          exact .inl hentry
      | systemTime =>
          obtain rfl := henv
          exact .inl hentry
      | newUuid =>
          obtain ⟨_, rfl⟩ := henv
          exact .inl hentry

/-- A record a call took from a cache was taken before, or the cache of its process
answers with it now. -/
theorem Deployment.taken_cases (h : LedgerStep d.env l e l') {i : Nat}
    {record : StatusListRecord} (hcached : (l'.locals i).cached = some record) :
    (l.locals i).cached = some record ∨ ∃ listId values, (l.locals i).task = .get listId ∧
      d.cache (.get listId) (l.world.caches (d.replica i)) (.ok (some record)) values := by
  by_cases hi : i = e.tid
  · subst hi
    rw [Deployment.locals_eq h, Function.update_self] at hcached
    cases h with
    | @act i op r w hmay henv =>
        rcases op with op | _ | op | _ | _ | _
        · cases op <;> exact .inl hcached
        · exact .inl hcached
        · cases op with
          | get listId =>
              obtain ⟨values, hanswers, rfl⟩ := henv
              have hstart : l.locals i = .start (.get listId) := hmay
              rcases r with err | _ | found
              · cases hcached
              · cases hcached
              · cases hcached
                exact .inr ⟨listId, values, by rw [hstart]; rfl, hanswers⟩
          | _ => exact .inl hcached
        all_goals exact .inl hcached
  · rw [Deployment.locals_eq h, Function.update_of_ne hi] at hcached
    exact .inl hcached

end CacheSteps

/-! ## Where a record comes from -/

/-- The entries a call was asked to write, as a publication or as an update. -/
def Task.posted (app : AppState) (task : Task) : List StatusEntry :=
  match task.publishArgs app with
  | some args => args.statuses
  | none => task.entries app

/-- The version of a list after some calls: the first one published it and each of the
others updated it. -/
inductive Composed (d : Deployment) (tasks : Nat → Task) : List Nat → StatusListRecord → Prop
  | published {i : Nat} {args : PublishArgs} {record : StatusListRecord}
      (htask : (tasks i).publishArgs d.app = some args) (hlistId : record.listId = args.listId)
      (hsub : record.sub = args.sub)
      (hcreated : StatusList.create d.app.service.codec args.statuses = .ok record.statusList) :
      Composed d tasks [i] record
  | updated {calls : List Nat} {read record : StatusListRecord} {i : Nat} {args : UpdateArgs}
      (hread : Composed d tasks calls read) (htask : (tasks i).updateArgs d.app = some args)
      (htarget : args.listId = read.listId) (hlistId : record.listId = read.listId)
      (hsub : record.sub = read.sub)
      (hupdated : StatusList.update d.app.service.codec read.statusList args.statuses =
        .ok record.statusList) :
      Composed d tasks (calls ++ [i]) record

/-- What a publication posts. -/
theorem Task.posted_of_publish {app : AppState} {task : Task} {args : PublishArgs}
    (h : task.publishArgs app = some args) : task.posted app = args.statuses := by
  rw [Task.posted, h]

/-- What an update posts. -/
theorem Task.posted_of_update {app : AppState} {task : Task} {args : UpdateArgs}
    (h : task.updateArgs app = some args) : task.posted app = args.statuses := by
  have hnone : task.publishArgs app = none := by
    cases task <;> simp [Task.updateArgs, Task.publishArgs] at h ⊢
  rw [Task.posted, hnone]
  simp [Task.entries, h]

/-- The URI of a version is the one its list was published under. -/
theorem Composed.published_as {d : Deployment} {tasks : Nat → Task} {calls : List Nat}
    {record : StatusListRecord} (h : Composed d tasks calls record) :
    ∃ i args, calls.head? = some i ∧ (tasks i).publishArgs d.app = some args ∧
      record.listId = args.listId ∧ record.sub = args.sub := by
  induction h with
  | @published i args record htask hlistId hsub _ => exact ⟨i, args, rfl, htask, hlistId, hsub⟩
  | updated _ _ _ hlistId hsub _ ih =>
      obtain ⟨i, args, hhead, htask, hlist, hsub'⟩ := ih
      exact ⟨i, args, by rw [List.head?_append, hhead]; rfl, htask, hlistId.trans hlist,
        hsub.trans hsub'⟩

/-- **A version stores the entries of its calls.**  Each `create` and `update` refines
its assignments, so their composition stores all of them in commit order. -/
theorem Composed.represents {d : Deployment} (hcodec : d.app.service.codec.Lawful)
    {tasks : Nat → Task} {calls : List Nat} {record : StatusListRecord}
    (h : Composed d tasks calls record) :
    (∀ entry ∈ calls.flatMap (fun i => (tasks i).posted d.app), 0 ≤ entry.index.toInt ∧
        Covers d.app.service.codec record.statusList entry.slot) ∧
      Represents d.app.service.codec record.statusList
        (assign (fun _ => 0) (calls.flatMap (fun i => (tasks i).posted d.app))) := by
  induction h with
  | published htask _ _ hcreated =>
      simpa [Task.posted_of_publish htask] using create_spec hcodec hcreated
  | @updated calls read record i args _ htask _ _ _ hupdated ih =>
      obtain ⟨hpast, hrep⟩ := ih
      obtain ⟨hnew, hkeep, hnext⟩ := update_spec hcodec hrep hupdated
      simp only [List.flatMap_append, List.flatMap_cons, List.flatMap_nil, List.append_nil,
        Task.posted_of_update htask]
      refine ⟨?_, by rwa [assign_append]⟩
      intro entry he
      rcases List.mem_append.mp he with he | he
      · exact ⟨(hpast entry he).1, hkeep _ (hpast entry he).2⟩
      · exact hnew entry he

/-- A record is a version of its list after some of the calls that have landed. -/
def IsVersion (d : Deployment) (tasks : Nat → Task) (t : List PortEvent)
    (record : StatusListRecord) : Prop :=
  ∃ calls, calls <+: landedCalls record.listId t ∧ Composed d tasks calls record

/-- A version stays one. -/
theorem IsVersion.append {d : Deployment} {tasks : Nat → Task} {t : List PortEvent}
    {record : StatusListRecord} (h : IsVersion d tasks t record) (e : PortEvent) :
    IsVersion d tasks (t ++ [e]) record := by
  obtain ⟨calls, hcalls, hcomposed⟩ := h
  refine ⟨calls, hcalls.trans ?_, hcomposed⟩
  rw [landedCalls_append]
  exact List.prefix_append _ _

/-- The record that a snapshot is served as. -/
def StatusListSnapshot.restored (s : StatusListSnapshot) : StatusListRecord where
  listId := s.listId
  issuer := s.issuer
  statusList := s.statusList
  sub := s.sub
  updatedAt := s.iat

/-- Every record anywhere in the deployment is a version of its list, and the stored
one is the version after all calls that have landed. -/
structure Provenance (d : Deployment) (tasks : Nat → Task) (t : List PortEvent)
    (l : Calls d.app) : Prop where
  onTarget : OnTarget d.app tasks l
  idle : ∀ i, (∀ e ∈ t, e.tid ≠ i) → l.locals i = .start (tasks i)
  row : ∀ listId row, l.world.db.rows.find? listId = some row →
    Composed d tasks (landedCalls listId t) row
  absent : ∀ listId, l.world.db.rows.find? listId = none → landedCalls listId t = []
  found : ∀ i read, (l.locals i).found = some read → IsVersion d tasks t read ∧
    ∃ row, l.world.db.rows.find? read.listId = some row ∧
      (read = row ∨ read.updatedAt < row.updatedAt)
  entry : ∀ k record, record ∈ l.world.caches k → IsVersion d tasks t record
  cached : ∀ i record, (l.locals i).cached = some record →
    IsVersion d tasks t record ∧ tasks i = .get record.listId
  history : ∀ s ∈ l.world.db.history, IsVersion d tasks t s.restored
  answered : ∀ i listId time s, ⟨i, .store (.findValidAt listId time), .ok (some s)⟩ ∈ t →
    s.listId = listId ∧ IsVersion d tasks t s.restored

/-- Without rows and entries there is nothing to account for. -/
theorem Provenance.start (d : Deployment) (tasks : Nat → Task) {w : World}
    (hrows : ∀ r, r ∉ w.db.rows) (hhistory : ∀ s, s ∉ w.db.history)
    (hcaches : ∀ k record, record ∉ w.caches k) :
    Provenance d tasks [] ⟨w, fun i => CallState.start (tasks i)⟩ where
  onTarget := .start d tasks w
  idle := fun _ _ => rfl
  row := fun _ row h => absurd (Table.find?_eq_some.mp h).1 (hrows row)
  absent := fun _ _ => rfl
  found := nofun
  entry := fun k record h => absurd h (hcaches k record)
  cached := nofun
  history := fun s h => absurd h (hhistory s)
  answered := nofun

section Step

variable {d : Deployment} {tasks : Nat → Task} {t : List PortEvent} {l l' : Calls d.app}
  {e : PortEvent}

/-- What a step does to the row of a list: nothing, or it stores the version after one
more call. -/
inductive ListStep (d : Deployment) (tasks : Nat → Task) (t : List PortEvent) (l : Calls d.app)
    (e : PortEvent) (l' : Calls d.app) (listId : String) : Prop
  | kept (hquiet : landsOn listId e = false)
      (hrow : l'.world.db.rows.find? listId = l.world.db.rows.find? listId)
  | landed {next : StatusListRecord} (hlands : landsOn listId e = true)
      (hrow : l'.world.db.rows.find? listId = some next)
      (hcomposed : Composed d tasks (landedCalls listId t ++ [e.tid]) next)
      (hlater : ∀ row, l.world.db.rows.find? listId = some row → row.updatedAt < next.updatedAt)

/-- A record that an update is about to write is the version after one more call. -/
theorem Provenance.composed_of_updating (h : Provenance d tasks t l) {i : Nat} {args : UpdateArgs}
    {read record : StatusListRecord}
    (hupdating : (l.locals i).Updating d.app args read record)
    (hguard : Guard l.world.db record read.updatedAt) :
    l.world.db.rows.find? record.listId = some read ∧
      Composed d tasks (landedCalls record.listId t ++ [i]) record := by
  obtain ⟨current, hcurrent, hstamp⟩ := hguard
  obtain ⟨_, row, hrow, hle⟩ := h.found _ _ hupdating.found
  have hsame : current = row := by
    rw [hupdating.listId, hrow] at hcurrent
    exact (Option.some.inj hcurrent).symm
  have hread : read = row := by
    rcases hle with hread | hlt
    · exact hread
    · rw [hsame] at hstamp
      omega
  subst hsame
  subst hread
  refine ⟨hcurrent, ?_⟩
  have htask := hupdating.task
  rw [h.onTarget.task] at htask
  have htarget : args.listId = read.listId := by
    rcases h.onTarget.found _ _ hupdating.found with ⟨args', hargs', hid⟩ | hget
    · rw [htask] at hargs'
      cases hargs'
      exact hid
    · rw [hget] at htask
      cases htask
  exact .updated (h.row _ read hcurrent) htask htarget hupdating.listId hupdating.sub
    hupdating.updated

/-- What one step does to a list. -/
theorem Provenance.listStep (h : Provenance d tasks t l) (hstep : LedgerStep d.env l e l')
    (listId : String) : ListStep d tasks t l e l' listId := by
  cases hlands : landsOn listId e with
  | false => exact .kept hlands (Deployment.row_kept hstep hlands)
  | true =>
      obtain ⟨record, hlanded, rfl⟩ : ∃ record, landedRow e.op e.res = some record ∧
          record.listId = listId := by
        have hrow := hlands
        unfold landsOn at hrow
        split at hrow
        · rename_i record hlanded
          exact ⟨record, hlanded, by simpa using hrow⟩
        · cases hrow
      have heffect := Deployment.effect hstep
      rw [hlanded] at heffect
      cases heffect with
      | @published args _ snapshot _ hpublishing habsent hwritten =>
          have htask := hpublishing.task
          rw [h.onTarget.task] at htask
          refine .landed hlands hwritten.find?_self ?_ ?_
          · rw [h.absent _ habsent]
            exact .published htask hpublishing.listId hpublishing.sub hpublishing.created
          · intro row hrow
            rw [hrow] at habsent
            cases habsent
      | @updated args read _ snapshot _ hupdating hguard hwritten =>
          obtain ⟨hread, hcomposed⟩ := h.composed_of_updating hupdating hguard
          refine .landed hlands hwritten.find?_self hcomposed ?_
          intro row hrow
          rw [hread] at hrow
          cases hrow
          exact hupdating.later

/-- The row a call has found is the stored one or older, also after one more step. -/
theorem Provenance.found_step (h : Provenance d tasks t l) (hstep : LedgerStep d.env l e l')
    {i : Nat} {read : StatusListRecord} (hfound : (l'.locals i).found = some read) :
    IsVersion d tasks t read ∧ ∃ row, l'.world.db.rows.find? read.listId = some row ∧
      (read = row ∨ read.updatedAt < row.updatedAt) := by
  rcases Deployment.found_cases hstep hfound with hold | ⟨_, hworld, _, hrow⟩
  · obtain ⟨hversion, row, hrow, hle⟩ := h.found i read hold
    refine ⟨hversion, ?_⟩
    cases h.listStep hstep read.listId with
    | kept _ hkept => exact ⟨row, hkept.trans hrow, hle⟩
    | @landed next _ hnext _ hlater =>
        refine ⟨next, hnext, .inr ?_⟩
        have hlt := hlater row hrow
        rcases hle with rfl | hle
        · exact hlt
        · omega
  · rw [hworld]
    exact ⟨⟨_, List.prefix_rfl, h.row _ read hrow⟩, read, hrow, .inl rfl⟩

/-- A snapshot in the history was there before, or is one of the row that this step
writes. -/
theorem Deployment.history_cases (hstep : LedgerStep d.env l e l') {s : StatusListSnapshot}
    (hs : s ∈ l'.world.db.history) :
    s ∈ l.world.db.history ∨ landsOn s.listId e = true ∧
      l'.world.db.rows.find? s.listId = some s.restored := by
  have heffect := Deployment.effect hstep
  -- The snapshot a call writes with its row restores to that row.
  have hcovers : ∀ {record exp snapshot}, landedRow e.op e.res = some record →
      RowWritten l.world.db record snapshot l'.world.db →
      (l.locals e.tid).Covered d.app record exp snapshot → s ∈ l.world.db.history ∨
        landsOn s.listId e = true ∧ l'.world.db.rows.find? s.listId = some s.restored := by
    intro record exp snapshot hlanded hwritten hcovered
    have hmem := (hwritten.history s).mp hs
    cases snapshot with
    | none => exact .inl hmem
    | some written =>
        obtain ⟨_, id, _, rfl⟩ := hcovered
        rcases Table.mem_upsert.mp hmem with rfl | ⟨hold, _⟩
        · exact .inr ⟨by simp [landsOn, hlanded, snapshotOf], hwritten.find?_self⟩
        · exact .inl hold
  generalize hlanded : landedRow e.op e.res = landed at heffect
  generalize hdb : l'.world.db = db' at heffect hs hcovers
  cases heffect with
  | quiet => exact .inl hs
  | swept _ hsweeps => exact .inl (hsweeps.subset s hs)
  | registered _ _ _ _ hhistory => exact .inl (hhistory ▸ hs)
  | published _ _ hwritten hcovered => exact hcovers hlanded hwritten hcovered
  | updated _ _ hwritten hcovered => exact hcovers hlanded hwritten hcovered

/-- **One step keeps the provenance of every record.** -/
theorem Provenance.step (hcache : d.cache.Faithful) (h : Provenance d tasks t l)
    (hstep : LedgerStep d.env l e l') : Provenance d tasks (t ++ [e]) l' where
  onTarget := h.onTarget.step hstep
  idle := by
    intro i hquiet
    have hi : i ≠ e.tid := fun hi => hquiet e (by simp) hi.symm
    rw [Deployment.locals_eq hstep, Function.update_of_ne hi]
    exact h.idle i (fun e' he' => hquiet e' (List.mem_append_left _ he'))
  row := by
    intro listId row hrow
    rw [landedCalls_append]
    cases h.listStep hstep listId with
    | kept hquiet hkept =>
        rw [hkept] at hrow
        simpa [hquiet] using h.row listId row hrow
    | landed hlands hnext hcomposed _ =>
        rw [hnext] at hrow
        cases hrow
        rw [if_pos hlands]
        exact hcomposed
  absent := by
    intro listId hnone
    rw [landedCalls_append]
    cases h.listStep hstep listId with
    | kept hquiet hkept =>
        rw [hkept] at hnone
        simpa [hquiet] using h.absent listId hnone
    | landed _ hnext =>
        rw [hnext] at hnone
        cases hnone
  found := by
    intro i read hfound
    obtain ⟨hversion, hrow⟩ := h.found_step hstep hfound
    exact ⟨hversion.append e, hrow⟩
  entry := by
    intro k record hentry
    rcases Deployment.entry_cases hcache hstep hentry with hold | hfound
    · exact (h.entry k record hold).append e
    · exact (h.found _ record hfound).1.append e
  cached := by
    intro i record hcached
    rcases Deployment.taken_cases hstep hcached with hold | ⟨listId, values, htask, hanswer⟩
    · exact ⟨(h.cached i record hold).1.append e, (h.cached i record hold).2⟩
    · obtain ⟨hentry, rfl⟩ := Table.find?_eq_some.mp (hcache.get hanswer)
      rw [h.onTarget.task] at htask
      exact ⟨(h.entry _ record hentry).append e, htask⟩
  history := by
    intro s hs
    rcases Deployment.history_cases hstep hs with hold | ⟨hlands, hrow⟩
    · exact (h.history s hold).append e
    · cases h.listStep hstep s.listId with
      | kept hquiet =>
          rw [hquiet] at hlands
          cases hlands
      | landed _ hnext hcomposed =>
          rw [hnext] at hrow
          cases hrow
          have hall : landedCalls s.listId (t ++ [e]) = landedCalls s.listId t ++ [e.tid] := by
            rw [landedCalls_append, if_pos hlands]
          rw [← hall] at hcomposed
          exact ⟨landedCalls s.listId (t ++ [e]), List.prefix_rfl, hcomposed⟩
  answered := by
    intro i listId time s hmem
    rcases List.mem_append.mp hmem with hmem | hmem
    · obtain ⟨hlist, hversion⟩ := h.answered i listId time s hmem
      exact ⟨hlist, hversion.append e⟩
    · obtain rfl := List.mem_singleton.mp hmem
      cases hstep with
      | act hmay henv =>
          obtain ⟨db', hanswers, rfl⟩ := henv
          have hspec : Reads _ _ _ _ := hanswers.spec
          obtain ⟨hs, hvalid, _⟩ := hspec.truth _ rfl
          simp only [StatusListSnapshot.validAt, Bool.and_eq_true, decide_eq_true_eq] at hvalid
          exact ⟨hvalid.1.1, (h.history s hs).append _⟩

end Step

/-- Every run that starts without lists, snapshots and cache entries knows where its
records come from. -/
theorem Provenance.run {d : Deployment} (hcache : d.cache.Faithful) (tasks : Nat → Task) {w : World}
    (hrows : ∀ r, r ∉ w.db.rows) (hhistory : ∀ s, s ∉ w.db.history)
    (hcaches : ∀ k record, record ∉ w.caches k) {t : List PortEvent}
    {c : Pool Nat Port Port.Answer (Except Failure Value) World}
    (hrun : Run d.env (d.start tasks w) t c) :
    ∃ locals, Provenance d tasks t ⟨c.world, locals⟩ ∧ Tracks d.app c locals :=
  Run.ledger (Tracks.start d tasks w) (Provenance.start d tasks hrows hhistory hcaches)
    (fun _ _ _ _ h hstep => h.step hcache hstep) hrun

/-! ## From the record to the token -/

/-- The claims of a token for a URI say that the list has a width and, inflated, these
bytes. -/
structure StatusListToken.States (codec : Codec) (claims : StatusListToken) (sub : String)
    (bits : BitVec 8) (bytes : List Byte) : Prop where
  sub : claims.sub = sub
  bits : claims.statusList.bits = bits
  lst : decodeCompressed codec claims.statusList.lst = .ok bytes

/-- The body of an answer is a signed token for a URI, compressed or not, over a list of
a width that inflates to these bytes. -/
inductive Attests (lib : TokenLibrary) (codec : Codec) (sub : String) (bits : BitVec 8)
    (bytes : List Byte) : TokenFormat → Option String → List Byte → Prop
  | jwt {chain : List String} {claims : StatusListToken} {signer : lib.EncodingKey} {jwt : String}
      (hclaims : claims.States codec sub bits bytes)
      (hsigned : lib.encodeJwt "statuslist+jwt" chain claims signer = .ok jwt) :
      Attests lib codec sub bits bytes .jwt none (utf8 jwt)
  | gzip {jwt : List Byte} {body : List Byte}
      (htoken : Attests lib codec sub bits bytes .jwt none jwt) (hgzip : lib.gzip jwt = .ok body) :
      Attests lib codec sub bits bytes .jwt (some "gzip") body
  | cwt {record : StatusListRecord} {lstBytes payload body : List Byte} {uri : Option String}
      {iat exp : Int} {ttl : BitVec 64} {x5chain : CborValue} {keypair : lib.Keypair}
      (hsub : record.sub = sub) (hbits : record.statusList.bits = bits)
      (hlst : codec.zlibReadToEnd lstBytes = .ok bytes)
      (hpayload : lib.cborToVec (cwtClaims record lstBytes uri iat exp ttl) = .ok payload)
      (hsigned : lib.coseSign1 x5chain "application/statuslist+cwt" payload keypair = .ok body) :
      Attests lib codec sub bits bytes .cwt none body

section Tokens

variable {lib : TokenLibrary} {codec : Codec} {record : StatusListRecord} {bytes : List Byte}

/-- A JWT attests to the record it is made from. -/
theorem issueJwt_attests (hbytes : decodeCompressed codec record.statusList.lst = .ok bytes)
    {keypair : lib.Keypair} {chain : List String} {uri : Option String} {iat exp : Int}
    {ttl : BitVec 64} {jwt : String}
    (h : issueJwt lib record keypair chain uri iat exp ttl = .ok jwt) :
    Attests lib codec record.sub record.statusList.bits bytes .jwt none (utf8 jwt) := by
  obtain ⟨pemBytes, _, h⟩ := bind_eq_ok h
  obtain ⟨signer, _, h⟩ := bind_eq_ok h
  exact .jwt ⟨rfl, rfl, hbytes⟩ (mapError_eq_ok h)

/-- So does a CWT. -/
theorem issueCwt_attests (hbase64 : lib.decodeBase64Url = codec.base64Decode)
    (hbytes : decodeCompressed codec record.statusList.lst = .ok bytes) {keypair : lib.Keypair}
    {chain : List String} {uri : Option String} {iat exp : Int} {ttl : BitVec 64}
    {body : List Byte} (h : issueCwt lib record keypair chain uri iat exp ttl = .ok body) :
    Attests lib codec record.sub record.statusList.bits bytes .cwt none body := by
  obtain ⟨lstBytes, hlst, h⟩ := bind_eq_ok h
  obtain ⟨payload, hpayload, h⟩ := bind_eq_ok h
  obtain ⟨x5chain, _, h⟩ := bind_eq_ok h
  have hdecoded := mapError_eq_ok hlst
  rw [hbase64] at hdecoded
  refine .cwt rfl rfl ?_ (mapError_eq_ok hpayload) (mapError_eq_ok h)
  -- The token carries the stream that the service would inflate.
  rw [decodeCompressed, hdecoded] at hbytes
  simp only at hbytes
  split at hbytes
  · cases hbytes
  · rename_i inflated hinflated
    cases hbytes
    exact hinflated

/-- Every token states the list of the record it is built from. -/
theorem buildStatusListToken_attests (hbase64 : lib.decodeBase64Url = codec.base64Decode)
    (hbytes : decodeCompressed codec record.statusList.lst = .ok bytes) {settings : TokenSettings}
    {format : TokenFormat} {window : Option (Int × Int)} {clientAcceptsGzip : Bool}
    {material : Except String SigningMaterial} {now : Int} {body : List Byte}
    {encoding : Option String}
    (h : buildStatusListToken lib settings format record window clientAcceptsGzip material now =
      .ok (body, encoding)) :
    Attests lib codec record.sub record.statusList.bits bytes format encoding body := by
  obtain ⟨signingMaterial, _, h⟩ := bind_eq_ok h
  split at h
  · cases h
  · obtain ⟨keypair, _, h⟩ := bind_eq_ok h
    cases format with
    | cwt =>
        obtain ⟨tokenBytes, htoken, h⟩ := bind_eq_ok h
        simp only [reduceCtorEq, decide_false, Bool.and_false, Bool.false_eq_true, if_false] at h
        cases h
        exact issueCwt_attests hbase64 hbytes htoken
    | jwt =>
        obtain ⟨tokenBytes, htoken, h⟩ := bind_eq_ok h
        obtain ⟨jwt, hjwt, rfl⟩ := map_eq_ok htoken
        have hattests := issueJwt_attests hbytes hjwt
        simp only at h
        split at h
        · obtain ⟨compressed, hcompressed, h⟩ := bind_eq_ok h
          cases h
          exact .gzip hattests (mapError_eq_ok hcompressed)
        · cases h
          exact hattests

end Tokens

section Served

variable {dates : HttpDates} {sha256 : String → List Byte} {lib : TokenLibrary}
  {settings : TokenSettings} {request : GetRequest} {answers : GetAnswers}

/-- A token is built from the record the service returned, or from the one restored from
the snapshot it returned. -/
theorem token_built {format : TokenFormat} {etag lastModified cacheControl : String}
    {encoding : Option String} {body : List Byte}
    (h : getStatusList dates sha256 lib settings request answers =
      .ok (.token format etag lastModified cacheControl encoding body)) :
    ∃ record window, buildStatusListToken lib settings format record window
        request.clientAcceptsGzip answers.material answers.issuedAt = .ok (body, encoding) ∧
      match request.time with
      | none => answers.record = .ok record
      | some _ => ∃ s, answers.snapshot = .ok s ∧ record = s.restored := by
  obtain ⟨acceptType, _, h⟩ := bind_eq_ok h
  cases htime : request.time with
  | some time =>
      simp only [htime, handleHistoricalRequest] at h
      split at h
      · cases h
      · obtain ⟨snapshot, hsnapshot, h⟩ := bind_eq_ok h
        obtain ⟨⟨tokenBytes, built⟩, hbuilt, h⟩ := bind_eq_ok h
        cases h
        exact ⟨_, _, mapError_eq_ok hbuilt, snapshot, mapError_eq_ok hsnapshot, rfl⟩
  | none =>
      simp only [htime] at h
      obtain ⟨record, hrecord, h⟩ := bind_eq_ok h
      split at h
      · cases h
      · obtain ⟨⟨tokenBytes, built⟩, hbuilt, h⟩ := bind_eq_ok h
        cases h
        exact ⟨record, none, mapError_eq_ok hbuilt, mapError_eq_ok hrecord⟩

/-- The service's part of a request for a list is call `i` of a run. -/
def Serves (tasks : Nat → Task) (c : Pool Nat Port Port.Answer (Except Failure Value) World)
    (i : Nat) (listId : String) (request : GetRequest) (answers : GetAnswers) : Prop :=
  match request.time with
  | none => tasks i = .get listId ∧
      ∀ record, answers.record = .ok record → c.threads i = .ret (.ok (.record record))
  | some time => tasks i = .snapshotAt listId time ∧
      ∀ s, answers.snapshot = .ok s → c.threads i = .ret (.ok (.snapshot s))

variable {d : Deployment} {tasks : Nat → Task} {w : World} {t : List PortEvent}
  {c : Pool Nat Port Port.Answer (Except Failure Value) World}

/-- What `get_snapshot_at` makes of the answer of the repository. -/
def resolved : Except StatusListError (Option StatusListSnapshot) → Except Failure Value
  | .error e => .error (.statusList (.error e))
  | .ok none => .error (.statusList (.error .historicalNotFound))
  | .ok (some s) => .ok (.snapshot s)

/-- A snapshot that a call returned is one the repository answered it with. -/
theorem snapshotAt_answered (hrun : Run d.env (d.start tasks w) t c) {i : Nat} {listId : String}
    {time : Int} {s : StatusListSnapshot} (htask : tasks i = .snapshotAt listId time)
    (hret : c.threads i = .ret (.ok (.snapshot s))) :
    ⟨i, .store (.findValidAt listId time), .ok (some s)⟩ ∈ t := by
  have hstart : (d.start tasks w).threads i = (Task.snapshotAt listId time).serve d.app :=
    Deployment.start_thread htask (fun _ => nofun)
  cases henabled : d.app.service.snapshotsEnabled with
  | false =>
      have hserve : (Task.snapshotAt listId time).serve d.app =
          .ret (.error (.statusList (.error .notFound))) := by
        simp only [Task.serve, Service.getSnapshotAt, henabled]
        rfl
      rw [hrun.ended (hstart.trans hserve)] at hret
      cases hret
  | true =>
      have hserve : (Task.snapshotAt listId time).serve d.app =
          .call (.store (.findValidAt listId time)) (fun r => .ret (resolved r)) := by
        simp only [Task.serve, Service.getSnapshotAt, henabled]
        refine congrArg (Prog.call _) (funext fun r => ?_)
        rcases r with e | _ | s <;> rfl
      rcases hrun.asked_once (hstart.trans hserve) with hidle | ⟨r, hmem, hended⟩
      · rw [hidle, hstart, hserve] at hret
        cases hret
      · rw [hended] at hret
        rcases r with e | _ | s' <;> cases hret
        exact hmem

/-- What the service hands to the token builder is a version of the requested list. -/
theorem Serves.isVersion (hcache : d.cache.Faithful) (hrows : ∀ r, r ∉ w.db.rows)
    (hhistory : ∀ s, s ∉ w.db.history) (hcaches : ∀ k record, record ∉ w.caches k)
    (hrun : Run d.env (d.start tasks w) t c) {i : Nat} {listId : String}
    (hserves : Serves tasks c i listId request answers) {record : StatusListRecord}
    (hrecord : match request.time with
      | none => answers.record = .ok record
      | some _ => ∃ s, answers.snapshot = .ok s ∧ record = s.restored) :
    record.listId = listId ∧ IsVersion d tasks t record := by
  obtain ⟨locals, h, htracks⟩ := Provenance.run hcache tasks hrows hhistory hcaches hrun
  unfold Serves at hserves
  cases htime : request.time with
  | some time =>
      simp only [htime] at hserves hrecord
      obtain ⟨s, hs, rfl⟩ := hrecord
      have hmem := snapshotAt_answered hrun hserves.1 (hserves.2 s hs)
      exact h.answered i listId time s hmem
  | none =>
      simp only [htime] at hserves hrecord
      have hended := htracks.ended (hserves.2 record hrecord)
      have hreturned := hended.2.2 listId (by rw [h.onTarget.task, hserves.1])
      rcases hreturned with hcached | ⟨_, hfound⟩
      · obtain ⟨hversion, htask⟩ := h.cached i record hcached
        rw [hserves.1] at htask
        exact ⟨(Task.get.inj htask).symm, hversion⟩
      · refine ⟨?_, (h.found i record hfound).1⟩
        rcases h.onTarget.found i record hfound with ⟨args, hargs, _⟩ | hget
        · rw [hserves.1] at hargs
          cases hargs
        · rw [hserves.1] at hget
          exact (Task.get.inj hget).symm

/-- **A relying party reads what the landed calls wrote.**  In every run of any tasks, on
any number of replicas whose caches expire, evict and fail as they like, a token served for a
list, current or historical, JWT or CWT, compressed or not, carries the URI the list was
published under and a list in which every index reads the last status that a prefix of the
landed calls, in commit order, gave it, and zero where none did. -/
theorem served_token_reads_landed_calls (hcache : d.cache.Faithful)
    (hcodec : d.app.service.codec.Lawful) (hrows : ∀ r, r ∉ w.db.rows)
    (hhistory : ∀ s, s ∉ w.db.history) (hcaches : ∀ k record, record ∉ w.caches k)
    (hrun : Run d.env (d.start tasks w) t c)
    (hbase64 : lib.decodeBase64Url = d.app.service.codec.base64Decode) {i : Nat} {listId : String}
    (hserves : Serves tasks c i listId request answers) {format : TokenFormat}
    {etag lastModified cacheControl : String} {encoding : Option String} {body : List Byte}
    (h : getStatusList dates sha256 lib settings request answers =
      .ok (.token format etag lastModified cacheControl encoding body)) :
    ∃ calls publisher args bits bytes, calls <+: landedCalls listId t ∧
      calls.head? = some publisher ∧ (tasks publisher).publishArgs d.app = some args ∧
      args.listId = listId ∧
      Attests lib d.app.service.codec args.sub bits bytes format encoding body ∧
      (∀ entry ∈ calls.flatMap (fun j => (tasks j).posted d.app),
        0 ≤ entry.index.toInt ∧ Inside bytes bits.toNat entry.slot) ∧
      ∀ slot, fieldAt bytes bits.toNat slot =
        assign (fun _ => 0) (calls.flatMap (fun j => (tasks j).posted d.app)) slot := by
  obtain ⟨record, window, hbuilt, hrecord⟩ := token_built h
  obtain ⟨rfl, calls, hcalls, hcomposed⟩ :=
    hserves.isVersion hcache hrows hhistory hcaches hrun hrecord
  obtain ⟨hentries, bytes, hbytes, hpacked⟩ := hcomposed.represents hcodec
  obtain ⟨publisher, args, hhead, htask, hlist, hsub⟩ := hcomposed.published_as
  have hattests := buildStatusListToken_attests hbase64 hbytes hbuilt
  rw [hsub] at hattests
  refine ⟨calls, publisher, args, record.statusList.bits, bytes, hcalls, hhead, htask, hlist.symm,
    hattests, ?_, hpacked.slot⟩
  intro entry he
  obtain ⟨hnonneg, bytes', hbytes', hinside⟩ := hentries entry he
  rw [hbytes] at hbytes'
  cases hbytes'
  exact ⟨hnonneg, hinside⟩

end Served

/-- Call 0 publishes a list, call 1 suspends its index 1, every other call reads it. -/
def publishUpdateGet : Nat → Task
  | 0 => .publish sampleIssuer "list" "https://status.example.com/list"
      [⟨0, .valid⟩, ⟨1, .invalid⟩] sampleLimits
  | 1 => .update sampleIssuer "list" [⟨1, .suspended⟩] sampleLimits
  | _ => .get "list"

/-- The record that the calls leave behind. -/
def updatedRecord : StatusListRecord where
  listId := "list"
  issuer := sampleIssuer
  statusList := ⟨2, "eNrjYAAAABIACQ"⟩
  sub := "https://status.example.com/list"
  updatedAt := 1794964101

/-- The token of the updated record, issued a minute after the calls. -/
def updatedToken : String :=
    "eyJ0eXAiOiJzdGF0dXNsaXN0K2p3dCIsImFsZyI6IkVTMjU2IiwieDVjIjpbIk1JSC9NSUdtQWdFQk1Bb0dDQ3" ++
    "FHU000OUJBTUNNQXd4Q2pBSUJnTlZCQU1NQVhnd0hoY05Nall4TVRFNE1ERXdOalUzV2hjTk1qY3hNVEU0TURF" ++
    "d05qVTNXakFNTVFvd0NBWURWUVFEREFGNE1Ga3dFd1lIS29aSXpqMENBUVlJS29aSXpqMERBUWNEUWdBRTNTcG" ++
    "YyT2JCVzYweGp4WjBSNC9DWWVYVWEyM2FWVUhWcDh0TUlhZ3NLOUIvMjIwakVtN3dmeEFiZElIY2ptTWxkUGxn" ++
    "Rk5PNGVSVWtLeXlXdy8yYTh6QUtCZ2dxaGtqT1BRUURBZ05JQURCRkFpRUFwUlZuRnY4blF4ZWFzZXVEdXdYME" ++
    "hDN2VzdDRaSVNKckljNktSbDQrQzJ3Q0lENnh4QTlheFlCSzRSTU50c1ZGUmtLSXQ1RTN4MzJ4NmR3cWJwU0kx" ++
    "cWNWIl19.eyJleHAiOjE3OTQ5NjUwNjAsImlhdCI6MTc5NDk2NDE2MCwic3RhdHVzX2xpc3QiOnsiYml0cyI6M" ++
    "iwibHN0IjoiZU5yallBQUFBQklBQ1EifSwic3ViIjoiaHR0cHM6Ly9zdGF0dXMuZXhhbXBsZS5jb20vbGlzdCI" ++
    "sInR0bCI6MzAwfQ.T0FD9lkqY1-OBznUWDpc4IVo0-mBAG5INiAHO5hS0P9Vs6l1-h-lPx-JG5WHyV6vxQLf9T" ++
    "Km2i435Ht1mIVgcQ"

/-- The sample libraries with the base64url decoder of the sample codec. -/
def servedTokens : TokenLibrary :=
  { signingTokens updatedToken with decodeBase64Url := sampleCodec.base64Decode }

/-- The digest of the updated record. -/
def updatedSha256 (_content : String) : List Byte :=
  beBytes 32 0xc4423cd601c58e42304770a17eb4dc221cb5ed3dd77a2c09031bf3387bf7597c

/-- The date of the updated record. -/
def updatedDates : HttpDates where
  fromUnixTimestamp timestamp := some timestamp
  formatImfFixdate _ := some "Wed, 18 Nov 2026 01:08:21 GMT"
  parseImfFixdate _ := none
  parseRfc2822 text := if text = "Wed, 18 Nov 2026 01:08:21 GMT" then some 1794964101 else none

/-- The theorem at the token of a list that was published with two entries, of which an update
suspended one. -/
theorem served_token_reads_landed_calls_sample :
    let played := (sampleDeployment true).play publishUpdateGet emptyWorld
      (turns 1794964100 [0, 0, 0, 1, 1, 1, 1, 1, 2, 2, 2])
    landedCalls "list" played.1 = [0, 1] ∧ ∃ calls publisher args bits bytes,
      calls <+: [0, 1] ∧ calls.head? = some publisher ∧
      (publishUpdateGet publisher).publishArgs (sampleApp true) = some args ∧
      args.listId = "list" ∧
      Attests servedTokens sampleCodec args.sub bits bytes .jwt none (utf8 updatedToken) ∧
      (∀ entry ∈ calls.flatMap (fun j => (publishUpdateGet j).posted (sampleApp true)),
        0 ≤ entry.index.toInt ∧ Inside bytes bits.toNat entry.slot) ∧
      ∀ slot, fieldAt bytes bits.toNat slot = assign (fun _ => 0)
        (calls.flatMap (fun j => (publishUpdateGet j).posted (sampleApp true))) slot := by
  intro played
  have hlanded : landedCalls "list" played.1 = [0, 1] := by decide +kernel
  have hrecord : (played.2.threads 2).result? = some (.ok (.record updatedRecord)) := by
    decide +kernel
  have hserves : Serves publishUpdateGet played.2 2 "list" plainRequest
      (answersWith updatedRecord 1794964160) := by
    refine ⟨rfl, ?_⟩
    intro record hanswer
    cases hanswer
    exact Prog.eq_ret_of_result? hrecord
  refine ⟨hlanded, ?_⟩
  rw [← hlanded]
  exact served_token_reads_landed_calls MemoryCache.faithful sampleCodec_lawful
    Table.not_mem_empty Table.not_mem_empty (fun _ => Table.not_mem_empty)
    ((sampleDeployment true).play_run rfl publishUpdateGet emptyWorld _) rfl hserves
    (signed_answered updatedDates updatedSha256 updatedToken sampleCodec.base64Decode
      updatedRecord 1794964160)

/-! ## Without a cache -/

/-- The calls behind the row a reader has found include all that had landed before. -/
def FoundAfter (d : Deployment) (tasks : Nat → Task) (earlier later : List Nat)
    (s : CallState) : Prop :=
  ∀ record, s.found = some record →
    ∃ calls, earlier <+: calls ∧ calls <+: later ∧ Composed d tasks calls record

/-- One step keeps what a reader has found. -/
theorem FoundAfter.step {d : Deployment} {tasks : Nat → Task} {t₁ t₂ : List PortEvent}
    {l l' : Calls d.app} {e : PortEvent} {i : Nat} {listId : String}
    (h : Provenance d tasks (t₁ ++ t₂) l) (hget : tasks i = .get listId)
    (hfound : FoundAfter d tasks (landedCalls listId t₁) (landedCalls listId (t₁ ++ t₂))
      (l.locals i)) (hstep : LedgerStep d.env l e l') :
    FoundAfter d tasks (landedCalls listId t₁) (landedCalls listId (t₁ ++ t₂ ++ [e]))
      (l'.locals i) := by
  intro record hrecord
  have hgrows : landedCalls listId (t₁ ++ t₂) <+: landedCalls listId (t₁ ++ t₂ ++ [e]) := by
    rw [landedCalls_append]
    exact List.prefix_append _ _
  rcases Deployment.found_cases hstep hrecord with hold | ⟨_, _, hreads, hrow⟩
  · obtain ⟨calls, hearlier, hlater, hcomposed⟩ := hfound record hold
    exact ⟨calls, hearlier, hlater.trans hgrows, hcomposed⟩
  · obtain rfl : listId = record.listId := by
      rw [h.onTarget.task, hget] at hreads
      rcases hreads with ⟨args, hargs, _⟩ | hlist
      · cases hargs
      · exact Task.get.inj hlist
    refine ⟨landedCalls record.listId (t₁ ++ t₂), ?_, hgrows, h.row _ record hrow⟩
    simp only [landedCalls, List.filter_append, List.map_append]
    exact List.prefix_append _ _

/-- **Without a cache every read is current.**  When the entries of the record cache live
for zero seconds, then in every run on any number of replicas, with any clocks and any
failures, the record that `get_status_list` returns has the entries of all calls whose
write had landed before the reader's first step, those of some calls that landed while
it was running, and no others. -/
theorem uncached_read_is_current (d : Deployment) (hcache : d.cache = MokaCache.model 0)
    (tasks : Nat → Task) {w : World} (hrows : ∀ r, r ∉ w.db.rows)
    (hhistory : ∀ s, s ∉ w.db.history) (hcaches : ∀ k record, record ∉ w.caches k)
    {t₁ t₂ : List PortEvent} {c₁ c₂ : Pool Nat Port Port.Answer (Except Failure Value) World}
    (hrun₁ : Run d.env (d.start tasks w) t₁ c₁) (hrun₂ : Run d.env c₁ t₂ c₂) {i : Nat}
    {listId : String} (hget : tasks i = .get listId) (hstarts : ∀ e ∈ t₁, e.tid ≠ i)
    {record : StatusListRecord} (hret : c₂.threads i = .ret (.ok (.record record))) :
    ∃ calls, landedCalls listId t₁ <+: calls ∧ calls <+: landedCalls listId (t₁ ++ t₂) ∧
      Composed d tasks calls record := by
  have hfaithful : d.cache.Faithful := hcache ▸ MokaCache.faithful 0
  obtain ⟨locals₁, h₁, htracks₁⟩ := Provenance.run hfaithful tasks hrows hhistory hcaches hrun₁
  have hstart : locals₁ i = .start (tasks i) := h₁.idle i hstarts
  obtain ⟨locals₂, ⟨h₂, hcached, hfound⟩, htracks₂⟩ := Run.ledger htracks₁
    (I := fun t₂ l => Provenance d tasks (t₁ ++ t₂) l ∧ (l.locals i).cached = none ∧
      FoundAfter d tasks (landedCalls listId t₁) (landedCalls listId (t₁ ++ t₂)) (l.locals i))
    ⟨by simpa using h₁, congrArg CallState.cached hstart, by simp [FoundAfter, hstart,
      CallState.start]⟩
    (by
      rintro t₂ l e l' ⟨h, hcached, hfound⟩ hstep
      rw [← List.append_assoc]
      refine ⟨h.step hfaithful hstep, ?_, FoundAfter.step h hget hfound hstep⟩
      cases htaken : (l'.locals i).cached with
      | none => rfl
      | some record =>
          rcases Deployment.taken_cases hstep htaken with hold | ⟨listId', values, _, hanswer⟩
          · rw [hcached] at hold
            cases hold
          · rw [hcache] at hanswer
            exact absurd hanswer MokaCache.misses) hrun₂
  have hended := Tracks.ended htracks₂ hret
  have hreturned := hended.2.2 listId (by rw [h₂.onTarget.task, hget])
  rcases hreturned with hhit | ⟨_, hread⟩
  · rw [hcached] at hhit
    cases hhit
  · exact hfound record hread

/-- The sample deployment with a cache whose entries live for zero seconds. -/
def uncachedDeployment : Deployment := { sampleDeployment true with cache := MokaCache.model 0 }

/-- Answer as the script says, with a cache that keeps nothing. -/
def uncachedScript (input : Script) (i : Nat) : (op : Port) → World → Option (op.Answer × World)
  | .cache op, w =>
      let out := MemoryCache.handle op ((w.caches 0).filter (fun _ => false))
      some (out.1, { w with caches := Function.update w.caches 0 (out.2.filter (fun _ => true)) })
  | .store op, w => (sampleDeployment true).scripted input i (.store op) w
  | .sweepBatch cutoff, w => (sampleDeployment true).scripted input i (.sweepBatch cutoff) w
  | .currentUnixTimestamp, w => (sampleDeployment true).scripted input i .currentUnixTimestamp w
  | .systemTime, w => (sampleDeployment true).scripted input i .systemTime w
  | .newUuid, w => (sampleDeployment true).scripted input i .newUuid w

/-- The sample answers are possible. -/
theorem uncachedScript_sound (input : Script) (i : Nat) (op : Port) (w : World) (r : op.Answer)
    (w' : World) (h : uncachedScript input i op w = some (r, w')) :
    uncachedDeployment.env i op w r w' := by
  -- Only the cache differs from the sample deployment.
  have hsame : (sampleDeployment true).scripted input i op w = some (r, w') →
      (sampleDeployment true).env i op w r w' := Deployment.scripted_sound rfl
  cases op with
  | cache op =>
      cases h
      exact ⟨_, ⟨fun _ => false, fun _ => true, fun _ _ => rfl, rfl, rfl⟩, rfl⟩
  | store op => exact hsame h
  | sweepBatch cutoff => exact hsame h
  | currentUnixTimestamp => exact hsame h
  | systemTime => exact hsame h
  | newUuid => exact hsame h

/-- The theorem at a reader that starts after a publication and an update. -/
theorem uncached_read_is_current_sample :
    let before := Pool.drive uncachedScript (turns 100 [0, 0, 0, 1, 1, 1, 1, 1])
      (uncachedDeployment.start publishUpdateGet emptyWorld)
    let after := Pool.drive uncachedScript (turns 100 [2, 2, 2]) before.2
    landedCalls "list" before.1 = [0, 1] ∧ ∃ record,
      (after.2.threads 2).result? = some (.ok (.record record)) ∧
      ∃ calls, [0, 1] <+: calls ∧ calls <+: landedCalls "list" (before.1 ++ after.1) ∧
        Composed uncachedDeployment publishUpdateGet calls record := by
  intro before after
  have hlanded : landedCalls "list" before.1 = [0, 1] := by decide +kernel
  have hstarts : ∀ e ∈ before.1, e.tid ≠ 2 := by
    have htids : ∀ tid ∈ before.1.map Event.tid, tid ≠ 2 := by decide +kernel
    exact fun e he => htids e.tid (List.mem_map_of_mem he)
  have hret : (after.2.threads 2).result? = some (.ok (.record
      ⟨"list", sampleIssuer, ⟨2, "eNrjYAAAABIACQ"⟩, "https://status.example.com/list", 101⟩)) := by
    decide +kernel
  refine ⟨hlanded, _, hret, ?_⟩
  rw [← hlanded]
  exact uncached_read_is_current uncachedDeployment rfl publishUpdateGet Table.not_mem_empty
    Table.not_mem_empty (fun _ => Table.not_mem_empty)
    (Run.drive uncachedScript_sound _ _) (Run.drive uncachedScript_sound _ _) rfl hstarts
    (Prog.eq_ret_of_result? hret)

end StatusListServer
