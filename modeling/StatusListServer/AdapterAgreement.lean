import StatusListServer.AdapterOutcomes
import StatusListServer.VersionedRows

/-!
# The adapters are interchangeable

The same calls of the service over the in-memory adapter and over the SQL
adapter.  `InStep` relates the two sides while a call is under way: the tables
agree, and what the call has read is still current, so that its guarded write
lands on both sides.  Every operation a call may make is answered alike, hence
every call returns the same, and so does every session.
-/

namespace StatusListServer

open KeyedTable Interaction

/-- A call of the service, with its clock reading, its snapshot id and the order
in which each adapter happens to scan its tables. -/
structure ServiceCall where
  task : Task
  script : Script
  memoryOrder : ScanOrder
  sqlOrder : ScanOrder

/-- The operations of the service; the issuer of a publication is registered. -/
def Task.OnService (credentials : Table (fun c : Credential => c.issuer.name)) : Task → Prop
  | .publish issuer _ _ _ _ => (credentials.find? issuer.name).isSome
  | .update _ _ _ _ => True
  | .get _ => True
  | .listUris => True
  | .snapshotAt _ _ => True
  | .cleanup _ => True
  | _ => False

section Session

variable {κ α σ : Type}

/-- The ports of one call over a store and a cache.  The service asks for whole
sweeps, never for a batch. -/
def servePorts (store : (op : StoreOp) → Database → op.Answer × Database)
    (cache : (op : CacheOp) → κ → op.Answer × κ) (script : Script) :
    (op : Port) → Database × κ → op.Answer × (Database × κ)
  | .store op, (db, values) => ((store op db).1, ((store op db).2, values))
  | .sweepBatch _, w => (.ok 0, w)
  | .cache op, (db, values) => ((cache op values).1, (db, (cache op values).2))
  | .currentUnixTimestamp, w => (script.clock, w)
  | .systemTime, w => (.ok script.clock.toNat, w)
  | .newUuid, w => (script.snapshotId, w)

/-- The service over the in-memory adapter, built with snapshot storage exactly
when snapshots are enabled. -/
def ServiceCall.onMemory (app : AppState) (cache : (op : CacheOp) → κ → op.Answer × κ)
    (call : ServiceCall) : Database × κ → Except Failure Value × (Database × κ) :=
  (call.task.serve app).exec (servePorts
    (Memory.handle app.service.snapshotsEnabled call.memoryOrder) cache call.script)

/-- The service over the SQL adapter without database failures. -/
def ServiceCall.onSql (app : AppState) (reserialise : PublicJwk → Except String PublicJwk)
    (cache : (op : CacheOp) → κ → op.Answer × κ) (call : ServiceCall) :
    Database × κ → Except Failure Value × (Database × κ) :=
  (call.task.serve app).exec (servePorts
    (Sql.handle reserialise .none call.sqlOrder) cache call.script)

/-- Serve calls one after the other. -/
def session (serve : ServiceCall → σ → α × σ) : List ServiceCall → σ → List α × σ
  | [], w => ([], w)
  | call :: rest, w =>
      let served := serve call w
      let later := session serve rest served.2
      (served.1 :: later.1, later.2)

/-- The two sides of a call in progress: the tables agree, the store is orderly
apart from the row the call may write next, and what the call holds is current. -/
structure InStep (credentials : Table (fun c : Credential => c.issuer.name)) (task : Task)
    (script : Script) (used : List String) (s : CallState) (w₁ w₂ : Database × κ) : Prop where
  task : s.task = task
  cache : w₁.2 = w₂.2
  agree : Agree w₁.1 w₂.1
  credentials : w₁.1.credentials = credentials
  orderly : Orderly w₁.1
  issued : ∀ x ∈ w₁.1.history,
    x.snapshotId ∈ used ∨ s.landed.isSome ∧ x.snapshotId = script.snapshotId
  found : s.landed = none → ∀ read, s.found = some read → w₁.1.rows.find? read.listId = some read
  drawn : ∀ id, s.snapshotId = some id → id = script.snapshotId

variable {credentials : Table (fun c : Credential => c.issuer.name)} {task : Task}
  {script : Script} {used : List String} {s : CallState} {w₁ w₂ : Database × κ}

/-- A call that lands a newer row on both sides stays in step. -/
theorem InStep.landed (h : InStep credentials task script used s w₁ w₂)
    {record : StatusListRecord} {snapshot : Option StatusListSnapshot} {db₁ db₂ : Database}
    (h₁ : RowWritten w₁.1 record snapshot db₁) (h₂ : RowWritten w₂.1 record snapshot db₂)
    (hregistered : Sql.issuerRegistered w₁.1 record = true)
    (hsnapshot : ∀ x ∈ snapshot, x.listId = record.listId ∧ x.iat = record.updatedAt ∧
      x.snapshotId = script.snapshotId)
    (hlater : ∀ row, w₁.1.rows.find? record.listId = some row →
      row.updatedAt < record.updatedAt) :
    InStep credentials task script used { s with landed := some record }
      (db₁, w₁.2) (db₂, w₂.2) where
  task := h.task
  cache := h.cache
  agree := h.agree.written h₁ h₂
  credentials := h₁.credentials.trans h.credentials
  orderly := h.orderly.written h₁ hregistered
    (fun x hx => ⟨(hsnapshot x hx).1, (hsnapshot x hx).2.1⟩) hlater
  issued := by
    intro x hx
    have hx := (h₁.history x).mp hx
    cases snapshot with
    | none => exact (h.issued x hx).imp id (fun hid => ⟨rfl, hid.2⟩)
    | some new =>
        rcases Table.mem_upsert.mp hx with rfl | ⟨hx, _⟩
        · exact Or.inr ⟨rfl, (hsnapshot _ rfl).2.2⟩
        · exact (h.issued x hx).imp id (fun hid => ⟨rfl, hid.2⟩)
  found := nofun
  drawn := h.drawn

/-- The snapshot id of a call that has not written is unused. -/
theorem InStep.unused (h : InStep credentials task script used s w₁ w₂)
    (hscript : script.snapshotId ∉ used) (hlanded : s.landed = none) :
    w₁.1.history.find? script.snapshotId = none := by
  rw [Table.find?_eq_none]
  rintro x hx hid
  rcases h.issued x hx with hused | ⟨hsome, _⟩
  · exact hscript (hid ▸ hused)
  · rw [hlanded] at hsome
    cases hsome

variable {app : AppState} {reserialise : PublicJwk → Except String PublicJwk}
  {cache : (op : CacheOp) → κ → op.Answer × κ} {order₁ order₂ : ScanOrder}

/-- What a call that is about to publish has ensured. -/
theorem InStep.publishing (h : InStep credentials task script used s w₁ w₂)
    (hservice : task.OnService credentials) {args : PublishArgs} {record : StatusListRecord}
    (hpublishing : s.Publishing app args record) : Sql.issuerRegistered w₁.1 record = true := by
  have hacts := hpublishing.actsFor
  rw [CallState.ActsFor, h.task] at hacts
  cases task with
  | publish issuer listId sub statuses limits =>
      subst hacts
      rw [Sql.issuerRegistered, h.credentials]
      exact hservice
  | update issuer listId statuses limits =>
      have hargs := hpublishing.task
      rw [h.task] at hargs
      cases hargs
  | _ => first | exact hacts.elim | exact hservice.elim

/-- What a call that is about to update has ensured. -/
theorem InStep.updating (h : InStep credentials task script used s w₁ w₂) {args : UpdateArgs}
    {read record : StatusListRecord} (hupdating : s.Updating app args read record) :
    Sql.issuerRegistered w₁.1 record = true ∧ Guard w₁.1 record read.updatedAt ∧
      ∀ row, w₁.1.rows.find? record.listId = some row → row.updatedAt < record.updatedAt := by
  have hcurrent := h.found hupdating.fresh read hupdating.found
  rw [← hupdating.listId] at hcurrent
  refine ⟨?_, ⟨read, hcurrent, rfl⟩, ?_⟩
  · rw [Sql.issuerRegistered, hupdating.issuer]
    exact h.orderly.registered read (Table.find?_eq_some.mp hcurrent).1
  · intro row hrow
    rw [hcurrent] at hrow
    cases hrow
    exact hupdating.later

theorem Agree.guard {db₁ db₂ : Database} (h : Agree db₁ db₂) {record : StatusListRecord}
    {expected : Int} (hguard : Guard db₁ record expected) : Guard db₂ record expected := by
  obtain ⟨current, hcurrent, hstamp⟩ := hguard
  exact ⟨current, by rw [← h.rows.find?]; exact hcurrent, hstamp⟩

theorem Agree.registered {db₁ db₂ : Database} (h : Agree db₁ db₂) {record : StatusListRecord}
    (hregistered : Sql.issuerRegistered db₁ record = true) :
    Sql.issuerRegistered db₂ record = true := by
  simpa only [Sql.issuerRegistered, h.credentials] using hregistered

/-- What a call learns without writing keeps it in step. -/
theorem InStep.told (h : InStep credentials task script used s w₁ w₂) {s' : CallState}
    (htask : s'.task = s.task) (hlanded : s'.landed = s.landed) (hfound : s'.found = s.found)
    (hid : s'.snapshotId = s.snapshotId) {values₁ values₂ : κ} (hcache : values₁ = values₂) :
    InStep credentials task script used s' (w₁.1, values₁) (w₂.1, values₂) where
  task := htask.trans h.task
  cache := hcache
  agree := h.agree
  credentials := h.credentials
  orderly := h.orderly
  issued := by
    rw [hlanded]
    exact h.issued
  found := by
    rw [hlanded, hfound]
    exact h.found
  drawn := by
    rw [hid]
    exact h.drawn

/-- An insertion that is answered alike keeps the call in step. -/
theorem InStep.inserts (h : InStep credentials task script used s w₁ w₂)
    {record : StatusListRecord} {snapshot : Option StatusListSnapshot}
    {answer₁ answer₂ : Except StatusListError Unit} {db₁ db₂ : Database}
    (h₁ : Inserts w₁.1 record snapshot answer₁ db₁)
    (h₂ : Inserts w₂.1 record snapshot answer₂ db₂) (hanswer : answer₁ = answer₂)
    (hregistered : Sql.issuerRegistered w₁.1 record = true)
    (hsnapshot : ∀ x ∈ snapshot, x.listId = record.listId ∧ x.iat = record.updatedAt ∧
      x.snapshotId = script.snapshotId) {s' : CallState}
    (hok : answer₁ = .ok () → s' = { s with landed := some record })
    (herror : ∀ e, answer₁ = .error e → s' = s) :
    InStep credentials task script used s' (db₁, w₁.2) (db₂, w₂.2) := by
  cases h₁ with
  | fails e =>
      cases h₂ with
      | fails e' =>
          obtain rfl := herror e rfl
          exact h
      | lands _ _ => cases hanswer
  | lands habsent hwritten =>
      cases h₂ with
      | fails e' => cases hanswer
      | lands _ hwritten₂ =>
          obtain rfl := hok rfl
          refine h.landed hwritten hwritten₂ hregistered hsnapshot ?_
          intro row hrow
          rw [habsent] at hrow
          cases hrow

/-- An update that lands on both sides keeps the call in step. -/
theorem InStep.updates (h : InStep credentials task script used s w₁ w₂)
    {record : StatusListRecord} {expected : Int} {snapshot : Option StatusListSnapshot}
    {answer₁ answer₂ : Except StatusListError Bool} {db₁ db₂ : Database}
    (h₁ : Updates w₁.1 record expected snapshot answer₁ db₁)
    (h₂ : Updates w₂.1 record expected snapshot answer₂ db₂) (hanswer₁ : answer₁ = .ok true)
    (hanswer₂ : answer₂ = .ok true) (hregistered : Sql.issuerRegistered w₁.1 record = true)
    (hsnapshot : ∀ x ∈ snapshot, x.listId = record.listId ∧ x.iat = record.updatedAt ∧
      x.snapshotId = script.snapshotId)
    (hlater : ∀ row, w₁.1.rows.find? record.listId = some row →
      row.updatedAt < record.updatedAt) :
    InStep credentials task script used { s with landed := some record }
      (db₁, w₁.2) (db₂, w₂.2) := by
  cases h₁ with
  | fails e => cases hanswer₁
  | misses => cases hanswer₁
  | lands _ hwritten =>
      cases h₂ with
      | fails e => cases hanswer₂
      | misses => cases hanswer₂
      | lands _ hwritten₂ => exact h.landed hwritten hwritten₂ hregistered hsnapshot hlater

variable (app reserialise cache order₁ order₂) in
/-- **Every operation of a call is answered alike.** -/
theorem InStep.step (hscript : script.snapshotId ∉ used) (hservice : task.OnService credentials)
    (h : InStep credentials task script used s w₁ w₂) {op : Port} (hmay : s.may app op) :
    (servePorts (Memory.handle app.service.snapshotsEnabled order₁) cache script op w₁).1 =
        (servePorts (Sql.handle reserialise .none order₂) cache script op w₂).1 ∧
      InStep credentials task script used
        (s.next op
          (servePorts (Memory.handle app.service.snapshotsEnabled order₁) cache script op w₁).1)
        (servePorts (Memory.handle app.service.snapshotsEnabled order₁) cache script op w₁).2
        (servePorts (Sql.handle reserialise .none order₂) cache script op w₂).2 := by
  obtain ⟨db₁, values⟩ := w₁
  obtain ⟨db₂, values₂⟩ := w₂
  obtain rfl : values = values₂ := h.cache
  rcases op with op | _ | op | _ | _ | _
  · have hspec₁ := Memory.handle_spec app.service.snapshotsEnabled order₁ op db₁
    have hspec₂ := Sql.handle_spec reserialise .none order₂ op db₂
    cases op with
    | find listId =>
        refine ⟨congrArg Except.ok (h.agree.rows.find? listId), h.task, rfl, h.agree,
          h.credentials, h.orderly, h.issued, ?_, h.drawn⟩
        intro _ read hread
        have hrow : db₁.rows.find? listId = some read := hread
        obtain rfl := Table.key_of_find? hrow
        exact hrow
    | insert record =>
        obtain ⟨_, args, hpublishing⟩ := hmay
        have hregistered := h.publishing hservice hpublishing
        have hanswer := insert_agrees h.agree hregistered
        refine ⟨hanswer, h.inserts hspec₁ hspec₂ hanswer hregistered nofun ?_ ?_⟩
        · intro hok
          simp only [servePorts, hok]
          rfl
        · intro e herror
          simp only [servePorts, herror]
          rfl
    | insertWithSnapshot record snapshot =>
        obtain ⟨henabled, args, hpublishing, id, hid, rfl⟩ := hmay
        obtain rfl := h.drawn id hid
        have hregistered := h.publishing hservice hpublishing
        have hanswer : (Memory.insertWithSnapshot true db₁ record
            (snapshotOf script.snapshotId record args.tokenExpSecs)).1 = _ :=
          insertWithSnapshot_agrees h.agree hregistered rfl (h.unused hscript hpublishing.fresh)
        rw [henabled] at hspec₁ ⊢
        refine ⟨hanswer, h.inserts hspec₁ hspec₂ hanswer hregistered ?_ ?_ ?_⟩
        · rintro x ⟨⟩
          exact ⟨rfl, rfl, rfl⟩
        · intro hok
          simp only [servePorts, hok]
          rfl
        · intro e herror
          simp only [servePorts, herror]
          rfl
    | update record expected =>
        obtain ⟨_, args, read, hupdating, rfl⟩ := hmay
        obtain ⟨hregistered, hguard, hlater⟩ := h.updating hupdating
        have hanswer₁ : (Memory.handle app.service.snapshotsEnabled order₁
            (.update record read.updatedAt) db₁).1 = .ok true := by
          simp [Memory.handle, Memory.update, Memory.guardMatches_of_guard hguard]
        have hanswer₂ : (Sql.handle reserialise .none order₂
            (.update record read.updatedAt) db₂).1 = .ok true :=
          Sql.updateOne_lands (h.agree.registered hregistered) hupdating.later
            (h.agree.guard hguard)
        have hstep := h.updates hspec₁ hspec₂ hanswer₁ hanswer₂ hregistered nofun hlater
        simp only [servePorts, hanswer₁, hanswer₂]
        exact ⟨trivial, hstep⟩
    | updateWithSnapshot record expected snapshot =>
        obtain ⟨henabled, args, read, hupdating, rfl, id, hid, rfl⟩ := hmay
        obtain rfl := h.drawn id hid
        obtain ⟨hregistered, hguard, hlater⟩ := h.updating hupdating
        have hunused := h.unused hscript hupdating.fresh
        rw [henabled] at hspec₁ ⊢
        have hanswer₁ : (Memory.handle true order₁ (.updateWithSnapshot record read.updatedAt
            (snapshotOf script.snapshotId record args.tokenExpSecs)) db₁).1 = .ok true := by
          simp [Memory.handle, Memory.updateWithSnapshot, Memory.requireSnapshot,
            Memory.guardMatches_of_guard hguard]
        have hanswer₂ : (Sql.handle reserialise .none order₂ (.updateWithSnapshot record
            read.updatedAt (snapshotOf script.snapshotId record args.tokenExpSecs)) db₂).1 =
            .ok true :=
          Sql.updateOneWithSnapshot_lands (h.agree.registered hregistered) hupdating.later
            (h.agree.guard hguard) rfl (by rw [← h.agree.history.find?]; exact hunused)
        have hstep := h.updates hspec₁ hspec₂ hanswer₁ hanswer₂ hregistered (by
          rintro x ⟨⟩
          exact ⟨rfl, rfl, rfl⟩) hlater
        simp only [servePorts, hanswer₁, hanswer₂]
        exact ⟨trivial, hstep⟩
    | listUris =>
        exact ⟨congrArg Except.ok (uris_agree h.agree.rows _ _), by apply h.told <;> rfl⟩
    | findValidAt listId time =>
        refine ⟨congrArg Except.ok ?_, by apply h.told <;> rfl⟩
        exact latestValid_unique h.agree.history h.orderly.single (hspec₁.truth _ rfl)
          (hspec₂.truth _ rfl)
    | deleteOlderThan cutoff =>
        obtain ⟨hanswer, hagree⟩ := sweeps_agree h.agree order₂ cutoff
        refine ⟨hanswer, h.task, rfl, hagree, h.credentials, h.orderly.swept hspec₁, ?_, ?_,
          h.drawn⟩
        · exact fun x hx => h.issued x (hspec₁.subset x hx)
        · exact h.found
    | findCredential issuer =>
        exact ⟨congrArg (fun t => Except.ok (Table.find? t issuer)) h.agree.credentials,
          by apply h.told <;> rfl⟩
    | insertCredential credential =>
        have htask : s.task = _ := hmay
        rw [h.task] at htask
        subst htask
        exact hservice.elim
  · exact ⟨rfl, by apply h.told <;> rfl⟩
  · cases op <;> exact ⟨rfl, by apply h.told <;> rfl⟩
  · exact ⟨rfl, by apply h.told <;> rfl⟩
  · exact ⟨rfl, by apply h.told <;> rfl⟩
  · refine ⟨rfl, h.task, rfl, h.agree, h.credentials, h.orderly, h.issued, h.found, ?_⟩
    intro id hid
    exact (Option.some.inj hid).symm

/-- The two sides between calls, with the snapshot ids used so far. -/
structure AtRest (credentials : Table (fun c : Credential => c.issuer.name))
    (used : List String) (w₁ w₂ : Database × κ) : Prop where
  cache : w₁.2 = w₂.2
  agree : Agree w₁.1 w₂.1
  credentials : w₁.1.credentials = credentials
  orderly : Orderly w₁.1
  issued : ∀ x ∈ w₁.1.history, x.snapshotId ∈ used

variable (app reserialise cache)

/-- One call returns the same on both sides and leaves them at rest. -/
theorem AtRest.call (h : AtRest credentials used w₁ w₂) (call : ServiceCall)
    (hservice : call.task.OnService credentials) (hfresh : call.script.snapshotId ∉ used) :
    (call.onMemory app cache w₁).1 = (call.onSql app reserialise cache w₂).1 ∧
      AtRest credentials (call.script.snapshotId :: used) (call.onMemory app cache w₁).2
        (call.onSql app reserialise cache w₂).2 := by
  have hstart : InStep credentials call.task call.script used (.start call.task) w₁ w₂ :=
    ⟨rfl, h.cache, h.agree, h.credentials, h.orderly, fun x hx => Or.inl (h.issued x hx),
      fun _ read hread => by simp [CallState.start] at hread,
      fun id hid => by simp [CallState.start] at hid⟩
  have hstep : ∀ (s : CallState) (op : Port) (w₁ w₂ : Database × κ),
      InStep credentials call.task call.script used s w₁ w₂ → s.may app op → _ :=
    fun _ _ _ _ h hmay => InStep.step app reserialise cache call.memoryOrder call.sqlOrder
      hfresh hservice h hmay
  obtain ⟨hresult, s', hend⟩ := (serve_obeys app call.task).exec_related hstep hstart
  refine ⟨hresult, hend.cache, hend.agree, hend.credentials, hend.orderly, ?_⟩
  intro x hx
  rcases hend.issued x hx with hused | ⟨_, hid⟩
  · exact List.mem_cons_of_mem _ hused
  · rw [hid]
    exact List.mem_cons_self

/-- Sessions of calls return the same on both sides. -/
theorem AtRest.session {calls : List ServiceCall}
    (hservice : ∀ call ∈ calls, call.task.OnService credentials)
    (hids : (calls.map (fun call => call.script.snapshotId)).Nodup) :
    ∀ {used : List String} {w₁ w₂ : Database × κ}, AtRest credentials used w₁ w₂ →
      (∀ call ∈ calls, call.script.snapshotId ∉ used) →
      (session (ServiceCall.onMemory app cache) calls w₁).1 =
          (session (ServiceCall.onSql app reserialise cache) calls w₂).1 ∧
        ∃ used', AtRest credentials used' (session (ServiceCall.onMemory app cache) calls w₁).2
          (session (ServiceCall.onSql app reserialise cache) calls w₂).2 := by
  induction calls with
  | nil => exact fun h _ => ⟨rfl, _, h⟩
  | cons call rest ih =>
      intro used w₁ w₂ h hfresh
      rw [List.map_cons, List.nodup_cons] at hids
      obtain ⟨hresult, hnext⟩ := h.call app reserialise cache call
        (hservice call List.mem_cons_self) (hfresh call List.mem_cons_self)
      have hlater : ∀ later ∈ rest, later.script.snapshotId ∉ call.script.snapshotId :: used := by
        intro later hmem hused
        rcases List.mem_cons.mp hused with hsame | hused
        · exact hids.1 (List.mem_map.mpr ⟨later, hmem, hsame⟩)
        · exact hfresh later (List.mem_cons_of_mem _ hmem) hused
      obtain ⟨hresults, hend⟩ := ih (fun later hmem => hservice later (List.mem_cons_of_mem _ hmem))
        hids.2 hnext hlater
      refine ⟨?_, hend⟩
      unfold StatusListServer.session
      simp only [hresult, hresults]

end Session

/-- **The adapters are interchangeable behind the service.**  For every sequence
of service calls with any arguments, any clock readings, distinct snapshot ids
and any scan orders, with snapshots on or off on both sides, started from stores
without lists and snapshots in which the issuers are registered, and over the
same cache: every call returns the same over the in-memory adapter as over the
SQL adapter without failures, and the tables end with the same rows. -/
theorem adapters_interchangeable (app : AppState)
    (reserialise : PublicJwk → Except String PublicJwk) {κ : Type}
    (cache : (op : CacheOp) → κ → op.Answer × κ) (values : κ)
    (credentials : Table (fun c : Credential => c.issuer.name)) (calls : List ServiceCall)
    (hservice : ∀ call ∈ calls, call.task.OnService credentials)
    (hids : (calls.map (fun call => call.script.snapshotId)).Nodup) :
    let start : Database × κ := (⟨.empty, .empty, credentials⟩, values)
    let onMemory := session (ServiceCall.onMemory app cache) calls start
    let onSql := session (ServiceCall.onSql app reserialise cache) calls start
    onMemory.1 = onSql.1 ∧ Agree onMemory.2.1 onSql.2.1 ∧ onMemory.2.2 = onSql.2.2 := by
  intro start onMemory onSql
  have hrest : AtRest credentials [] start start :=
    ⟨rfl, ⟨Table.Same.refl _, Table.Same.refl _, rfl⟩, rfl,
      ⟨fun row hrow => absurd hrow (Table.not_mem_empty row),
        fun s hs => absurd hs (Table.not_mem_empty s),
        fun s hs => absurd hs (Table.not_mem_empty s)⟩,
      fun s hs => absurd hs (Table.not_mem_empty s)⟩
  obtain ⟨hresults, used, hend⟩ :=
    AtRest.session app reserialise cache hservice hids hrest (fun _ _ => List.not_mem_nil)
  exact ⟨hresults, hend.agree, hend.cache⟩

/-- A list is published, updated in the same second, listed and swept. -/
def sampleCalls : List ServiceCall :=
  [⟨.publish sampleIssuer "list" "https://status.example.com/list" [⟨0, .valid⟩] sampleLimits,
      ⟨100, "snapshot-0"⟩, .storage, .storage⟩,
    ⟨.update sampleIssuer "list" [⟨0, .invalid⟩] sampleLimits, ⟨100, "snapshot-1"⟩,
      .storage, .storage⟩,
    ⟨.listUris, ⟨100, "snapshot-2"⟩, .storage, .storage⟩,
    ⟨.cleanup 3701, ⟨100, "snapshot-3"⟩, .storage, .storage⟩]

/-- The theorem at the sample calls. -/
theorem adapters_interchangeable_sample :
    let start : Database × RecordCache := (⟨.empty, .empty, emptyWorld.db.credentials⟩, .empty)
    let onMemory := session (ServiceCall.onMemory (sampleApp true) MemoryCache.handle)
      sampleCalls start
    let onSql := session (ServiceCall.onSql (sampleApp true) .ok MemoryCache.handle)
      sampleCalls start
    onMemory.1.drop 2 =
        [.ok (.uris ["https://status.example.com/list"]), .ok (.deleted 1)] ∧
      onMemory.1 = onSql.1 := by
  intro start onMemory onSql
  have hservice : ∀ call ∈ sampleCalls, call.task.OnService emptyWorld.db.credentials := by
    simp only [sampleCalls, List.forall_mem_cons, Task.OnService]
    exact ⟨by decide +kernel, trivial, trivial, trivial, List.forall_mem_nil _⟩
  have hagree := adapters_interchangeable (sampleApp true) .ok MemoryCache.handle
    (.empty : RecordCache) emptyWorld.db.credentials sampleCalls hservice
    (by decide +kernel)
  exact ⟨by decide +kernel, hagree.1⟩

end StatusListServer
