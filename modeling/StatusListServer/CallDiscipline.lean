import StatusListServer.Management

/-!
# What one call does, seen from its port operations

A call reads at most one row, takes at most one stamp and one snapshot id, and
writes at most once.  `CallState` records what a call has seen, and
`callDiscipline` which operation it may call then: in particular that a guarded
update writes the row it read with the requested entries applied, under the
stamp it read, for the issuer it acts for.  `serve_obeys` checks this against
the programs of every task.
-/

namespace StatusListServer

open BitStream CheckedEval Interaction

/-- What a call has seen and done so far. -/
structure CallState where
  task : Task
  credential : Option Credential
  found : Option StatusListRecord
  cached : Option StatusListRecord
  clock : Option Int
  snapshotId : Option String
  landed : Option StatusListRecord
  invalidated : Bool

/-- A call that has done nothing. -/
def CallState.start (task : Task) : CallState :=
  ⟨task, none, none, none, none, none, none, false⟩

/-- The list, entries and token lifetime of an update. -/
structure UpdateArgs where
  listId : String
  statuses : List StatusEntry
  tokenExpSecs : BitVec 64

/-- The list, URI, entries and token lifetime of a publication. -/
structure PublishArgs where
  listId : String
  sub : String
  statuses : List StatusEntry
  tokenExpSecs : BitVec 64

def Task.updateArgs (app : AppState) : Task → Option UpdateArgs
  | .update _ listId statuses limits => some ⟨listId, statuses, limits.tokenExpSecs⟩
  | .patchStatuses _ listId statuses => some ⟨listId, statuses, app.limits.tokenExpSecs⟩
  | _ => none

def Task.publishArgs (app : AppState) : Task → Option PublishArgs
  | .publish _ listId sub statuses limits =>
      some ⟨listId, sub, statuses, limits.tokenExpSecs⟩
  | .putStatuses _ listId statuses =>
      some ⟨listId, subOf app listId, statuses, app.limits.tokenExpSecs⟩
  | _ => none

/-- The request carried a bearer token that the middleware accepted for `issuer`
under the key of `credential`. -/
def Authenticated (app : AppState) (authorization : Option String) (credential : Credential)
    (issuer : Issuer) : Prop :=
  ∃ token alg claims, authorization.bind (stripLeading "Bearer ") = some token ∧
    decodeClaims app.jwt app.managementAuth token alg credential = .ok claims ∧
    issuer = ⟨claims.iss⟩

/-- The issuer a call acts for: given by trusted code, or authenticated with the
credential the call looked up. -/
def CallState.ActsFor (app : AppState) (s : CallState) (issuer : Issuer) : Prop :=
  match s.task with
  | .publish caller _ _ _ _ => caller = issuer
  | .update caller _ _ _ => caller = issuer
  | .putStatuses authorization _ _ =>
      ∃ credential, s.credential = some credential ∧
        Authenticated app authorization credential issuer
  | .patchStatuses authorization _ _ =>
      ∃ credential, s.credential = some credential ∧
        Authenticated app authorization credential issuer
  | _ => False

/-- The call is about to publish `record`. -/
structure CallState.Publishing (app : AppState) (s : CallState) (args : PublishArgs)
    (record : StatusListRecord) : Prop where
  task : s.task.publishArgs app = some args
  fresh : s.landed = none
  actsFor : s.ActsFor app record.issuer
  listId : record.listId = args.listId
  sub : record.sub = args.sub
  created : StatusList.create app.service.codec args.statuses = .ok record.statusList
  stamp : s.clock = some record.updatedAt

/-- The call is about to replace the row it read by `record`. -/
structure CallState.Updating (app : AppState) (s : CallState) (args : UpdateArgs)
    (read record : StatusListRecord) : Prop where
  task : s.task.updateArgs app = some args
  fresh : s.landed = none
  found : s.found = some read
  actsFor : s.ActsFor app read.issuer
  listId : record.listId = read.listId
  issuer : record.issuer = read.issuer
  sub : record.sub = read.sub
  updated : StatusList.update app.service.codec read.statusList args.statuses =
    .ok record.statusList
  stamp : ∃ now, s.clock = some now ∧ record.updatedAt = nextUpdatedAt read.updatedAt now

/-- An update advances the stamp it read, whatever the clock says. -/
theorem CallState.Updating.later {app : AppState} {s : CallState} {args : UpdateArgs}
    {read record : StatusListRecord} (h : s.Updating app args read record) :
    read.updatedAt < record.updatedAt := by
  obtain ⟨now, _, hstamp⟩ := h.stamp
  unfold nextUpdatedAt at hstamp
  omega

/-- The snapshot a call writes with its row. -/
def CallState.Snapshots (s : CallState) (record : StatusListRecord)
    (tokenExpSecs : BitVec 64) (snapshot : StatusListSnapshot) : Prop :=
  ∃ snapshotId, s.snapshotId = some snapshotId ∧
    snapshot = snapshotOf snapshotId record tokenExpSecs

/-- The operations a call may call, given what it has seen. -/
def CallState.may (app : AppState) (s : CallState) : Port → Prop
  | .store (.find listId) => s.landed = none ∧ s.found = none ∧
      ((∃ args, s.task.updateArgs app = some args ∧ args.listId = listId) ∨
        (s.task = .get listId ∧ s.cached = none))
  | .store (.insert record) => app.service.snapshotsEnabled = false ∧
      ∃ args, s.Publishing app args record
  | .store (.insertWithSnapshot record snapshot) => app.service.snapshotsEnabled = true ∧
      ∃ args, s.Publishing app args record ∧ s.Snapshots record args.tokenExpSecs snapshot
  | .store (.update record expected) => app.service.snapshotsEnabled = false ∧
      ∃ args read, s.Updating app args read record ∧ expected = read.updatedAt
  | .store (.updateWithSnapshot record expected snapshot) =>
      app.service.snapshotsEnabled = true ∧
        ∃ args read, s.Updating app args read record ∧ expected = read.updatedAt ∧
          s.Snapshots record args.tokenExpSecs snapshot
  | .store .listUris => s.task = .listUris
  | .store (.findValidAt listId time) => s.task = .snapshotAt listId time
  | .store (.deleteOlderThan cutoff) => s = .start (.cleanup cutoff)
  | .store (.findCredential _) => s.landed = none
  | .store (.insertCredential credential) =>
      s.task = .postCredential credential.issuer.name credential.publicKey.bytes
  | .sweepBatch cutoff => s = .start (.cleanup cutoff)
  | .cache (.get listId) => s = .start (.get listId)
  | .cache (.put record) => s.found = some record ∧ ∃ listId, s.task = .get listId
  | .cache (.invalidate listId) => s.invalidated = false ∧
      ∃ record args, s.task.updateArgs app = some args ∧ s.landed = some record ∧
        listId = record.listId
  | .currentUnixTimestamp => s.landed = none
  | .systemTime => s.landed = none
  | .newUuid => s.landed = none ∧ s.snapshotId = none

/-- The row a landed operation wrote. -/
def landedRow : (op : Port) → op.Answer → Option StatusListRecord
  | .store (.insert record), .ok () => some record
  | .store (.insertWithSnapshot record _), .ok () => some record
  | .store (.update record _), .ok true => some record
  | .store (.updateWithSnapshot record _ _), .ok true => some record
  | _, _ => none

/-- What a call knows after an operation. -/
def CallState.next (s : CallState) : (op : Port) → op.Answer → CallState
  | .store (.find _), answer => { s with found := answer.toOption.join }
  | .store (.findCredential _), answer => { s with credential := answer.toOption.join }
  | .cache (.get _), answer => { s with cached := answer.toOption.join }
  | .cache (.invalidate _), _ => { s with invalidated := true }
  | .currentUnixTimestamp, now => { s with clock := some now }
  | .newUuid, snapshotId => { s with snapshotId := some snapshotId }
  | op, answer => { s with landed := (landedRow op answer).or s.landed }

/-- The discipline every task of a server obeys. -/
@[reducible] def callDiscipline (app : AppState) : Discipline Port Port.Answer where
  State := CallState
  may := CallState.may app
  next := CallState.next

/-- How a call can end: with an error and nothing written, with the row it
wrote, or with the record it read. -/
def CallState.Ended (app : AppState) (s : CallState) : Except Failure Value → Prop
  | .error _ => s.landed = none
  | .ok (.record record) =>
      ((s.task.updateArgs app).isSome → s.landed = some record ∧ s.invalidated = true) ∧
      ((s.task.publishArgs app).isSome → s.landed = some record) ∧
      ∀ listId, s.task = .get listId → s.cached = some record ∨
        (s.cached = none ∧ s.found = some record)
  | .ok _ => (s.task.updateArgs app).isSome → s.landed.isSome ∧ s.invalidated = true

section Rules

variable {D : Discipline Port Port.Answer} {α β : Type}

/-- Call a port, then go on with its answer. -/
theorem obeys_ask_bind {op : Port} {f : op.Answer → ServiceM α}
    {post : D.State → Except (Fault StatusListError) α → Prop} {s : D.State}
    (hmay : D.may s op) (hrest : ∀ r, Prog.Obeys D post (D.next s op r) (f r).run) :
    Prog.Obeys D post s (ServiceM.ask op >>= f).run := ⟨hmay, hrest⟩

/-- Compute without calling a port, then go on or stop. -/
theorem obeys_ofEval_bind {x : Eval StatusListError α} {f : α → ServiceM β}
    {post : D.State → Except (Fault StatusListError) β → Prop} {s : D.State}
    (herr : ∀ e, x = .error e → post s (.error e))
    (hok : ∀ a, x = .ok a → Prog.Obeys D post s (f a).run) :
    Prog.Obeys D post s (ServiceM.ofEval x >>= f).run := by
  cases x with
  | error e => exact herr e rfl
  | ok a => exact hok a rfl

/-- Use the answer of a port. -/
theorem obeys_ofAnswer_bind {x : Except StatusListError α} {f : α → ServiceM β}
    {post : D.State → Except (Fault StatusListError) β → Prop} {s : D.State}
    (herr : ∀ e, x = .error e → post s (.error (.error e)))
    (hok : ∀ a, x = .ok a → Prog.Obeys D post s (f a).run) :
    Prog.Obeys D post s (ServiceM.ofAnswer x >>= f).run := by
  cases x with
  | error e => exact herr e rfl
  | ok a => exact hok a rfl

/-- Stop unless there is a value. -/
theorem obeys_okOr_bind {x : Option α} {e : StatusListError} {f : α → ServiceM β}
    {post : D.State → Except (Fault StatusListError) β → Prop} {s : D.State}
    (hnone : x = none → post s (.error (.error e)))
    (hsome : ∀ a, x = some a → Prog.Obeys D post s (f a).run) :
    Prog.Obeys D post s (ServiceM.okOr x e >>= f).run := by
  cases x with
  | none => exact hnone rfl
  | some a => exact hsome a rfl

/-- Draw a snapshot id, then go on with the snapshot. -/
theorem obeys_buildSnapshot_bind {record : StatusListRecord} {tokenExpSecs : BitVec 64}
    {f : StatusListSnapshot → ServiceM α}
    {post : D.State → Except (Fault StatusListError) α → Prop} {s : D.State}
    (hmay : D.may s .newUuid) (hrest : ∀ snapshotId, Prog.Obeys D post
      (D.next s .newUuid snapshotId) (f (snapshotOf snapshotId record tokenExpSecs)).run) :
    Prog.Obeys D post s (buildSnapshot record tokenExpSecs >>= f).run := ⟨hmay, hrest⟩

/-- Run a service function inside a handler. -/
theorem obeys_ofService_bind {x : ServiceM α} {f : α → Handler β}
    {post : D.State → Except (Fault StatusListError) α → Prop}
    {post' : D.State → Except Failure β → Prop} {s : D.State} (hx : Prog.Obeys D post s x.run)
    (herr : ∀ t e, post t (.error e) → post' t (.error (.statusList e)))
    (hok : ∀ t a, post t (.ok a) → Prog.Obeys D post' t (f a).run) :
    Prog.Obeys D post' s (Handler.ofService x >>= f).run :=
  Prog.obeys_mapError_bind hx hok herr

/-- Run the middleware inside a handler. -/
theorem obeys_ofAuth_bind {x : AuthM α} {f : α → Handler β}
    {post : D.State → Except AuthenticationError α → Prop}
    {post' : D.State → Except Failure β → Prop} {s : D.State} (hx : Prog.Obeys D post s x.run)
    (herr : ∀ t e, post t (.error e) → post' t (.error (.authentication e)))
    (hok : ∀ t a, post t (.ok a) → Prog.Obeys D post' t (f a).run) :
    Prog.Obeys D post' s (Handler.ofAuth x >>= f).run :=
  Prog.obeys_mapError_bind hx hok herr

/-- Check without calling a port, then go on or stop. -/
theorem obeys_check_bind {ε : Type} {x : Except ε α} {f : α → ExceptT ε PortProg β}
    {post : D.State → Except ε β → Prop} {s : D.State}
    (herr : ∀ e, x = .error e → post s (.error e))
    (hok : ∀ a, x = .ok a → Prog.Obeys D post s (f a).run) :
    Prog.Obeys D post s (ExceptT.mk (pure x) >>= f).run := by
  cases x with
  | error e => exact herr e rfl
  | ok a => exact hok a rfl

/-- Call a port from a middleware or a handler. -/
theorem obeys_lift_bind {ε : Type} {op : Port} {f : op.Answer → ExceptT ε PortProg α}
    {post : D.State → Except ε α → Prop} {s : D.State} (hmay : D.may s op)
    (hrest : ∀ r, Prog.Obeys D post (D.next s op r) (f r).run) :
    Prog.Obeys D post s (ExceptT.lift (Prog.ask op) >>= f).run := ⟨hmay, hrest⟩

end Rules

/-- `publish_status_list` obeys the discipline. -/
theorem publishStatusList_obeys (app : AppState) {s : CallState} {listId sub : String}
    {issuer : Issuer} {statuses : List StatusEntry} {limits : Limits}
    (htask : s.task.publishArgs app = some ⟨listId, sub, statuses, limits.tokenExpSecs⟩)
    (hacts : s.ActsFor app issuer) (hlanded : s.landed = none) (hid : s.snapshotId = none) :
    Prog.Obeys (callDiscipline app) (fun t result => t.task = s.task ∧
        match result with
        | .error _ => t.landed = none
        | .ok record => t.landed = some record) s
      (app.service.publishStatusList listId issuer sub statuses limits).run := by
  unfold Service.publishStatusList
  refine obeys_ofEval_bind (fun _ _ => ⟨rfl, hlanded⟩) ?_
  intro _ _
  refine obeys_ofEval_bind (fun _ _ => ⟨rfl, hlanded⟩) ?_
  intro statusList hcreate
  refine obeys_ask_bind hlanded ?_
  intro updatedAt
  refine obeys_ofEval_bind (fun _ _ => ⟨rfl, hlanded⟩) ?_
  intro _ _
  dsimp only
  split
  · rename_i henabled
    refine obeys_buildSnapshot_bind ⟨hlanded, hid⟩ ?_
    intro snapshotId
    refine obeys_ask_bind ⟨henabled, _, ⟨htask, hlanded, hacts, rfl, rfl, hcreate, rfl⟩,
      snapshotId, rfl, rfl⟩ ?_
    intro answer
    apply obeys_ofAnswer_bind
    · rintro e rfl
      exact ⟨rfl, hlanded⟩
    · rintro ⟨⟩ rfl
      exact ⟨rfl, rfl⟩
  · rename_i hdisabled
    refine obeys_ask_bind ⟨by simpa using hdisabled, _,
      ⟨htask, hlanded, hacts, rfl, rfl, hcreate, rfl⟩⟩ ?_
    intro answer
    apply obeys_ofAnswer_bind
    · rintro e rfl
      exact ⟨rfl, hlanded⟩
    · rintro ⟨⟩ rfl
      exact ⟨rfl, rfl⟩

/-- `update_statuses` obeys the discipline. -/
theorem updateStatuses_obeys (app : AppState) {s : CallState} {listId : String}
    {issuer : Issuer} {statuses : List StatusEntry} {limits : Limits}
    (htask : s.task.updateArgs app = some ⟨listId, statuses, limits.tokenExpSecs⟩)
    (hacts : s.ActsFor app issuer) (hlanded : s.landed = none) (hfound : s.found = none)
    (hid : s.snapshotId = none) (hinvalidated : s.invalidated = false) :
    Prog.Obeys (callDiscipline app) (fun t result => t.task = s.task ∧
        match result with
        | .error _ => t.landed = none
        | .ok record => t.landed = some record ∧ t.invalidated = true) s
      (app.service.updateStatuses issuer listId statuses limits).run := by
  unfold Service.updateStatuses
  refine obeys_ofEval_bind (fun _ _ => ⟨rfl, hlanded⟩) ?_
  intro _ _
  refine obeys_ask_bind ⟨hlanded, hfound, Or.inl ⟨_, htask, rfl⟩⟩ ?_
  intro answer
  refine obeys_ofAnswer_bind (fun _ _ => ⟨rfl, hlanded⟩) ?_
  rintro found rfl
  refine obeys_okOr_bind (fun _ => ⟨rfl, hlanded⟩) ?_
  rintro existing rfl
  dsimp only
  split
  · exact ⟨rfl, hlanded⟩
  rename_i hissuer
  have hissuer : existing.issuer = issuer := by simpa using hissuer
  subst hissuer
  refine obeys_ofEval_bind (fun _ _ => ⟨rfl, hlanded⟩) ?_
  intro statusList hupdate
  refine obeys_ofEval_bind (fun _ _ => ⟨rfl, hlanded⟩) ?_
  intro _ _
  refine obeys_ask_bind hlanded ?_
  intro now
  split
  · rename_i henabled
    refine obeys_buildSnapshot_bind ⟨hlanded, hid⟩ ?_
    intro snapshotId
    refine obeys_ask_bind ⟨henabled, _, existing, ⟨htask, hlanded, rfl, hacts, rfl, rfl, rfl,
      hupdate, now, rfl, rfl⟩, rfl, snapshotId, rfl, rfl⟩ ?_
    intro answer
    apply obeys_ofAnswer_bind
    · rintro e rfl
      exact ⟨rfl, hlanded⟩
    · rintro landed rfl
      cases landed with
      | false => exact ⟨rfl, hlanded⟩
      | true => exact ⟨⟨hinvalidated, _, _, htask, rfl, rfl⟩, fun _ => ⟨rfl, rfl, rfl⟩⟩
  · rename_i hdisabled
    refine obeys_ask_bind ⟨by simpa using hdisabled, _, existing, ⟨htask, hlanded, rfl, hacts,
      rfl, rfl, rfl, hupdate, now, rfl, rfl⟩, rfl⟩ ?_
    intro answer
    apply obeys_ofAnswer_bind
    · rintro e rfl
      exact ⟨rfl, hlanded⟩
    · rintro landed rfl
      cases landed with
      | false => exact ⟨rfl, hlanded⟩
      | true => exact ⟨⟨hinvalidated, _, _, htask, rfl, rfl⟩, fun _ => ⟨rfl, rfl, rfl⟩⟩

/-- `get_status_list` obeys the discipline. -/
theorem getStatusList_obeys (app : AppState) (listId : String) :
    Prog.Obeys (callDiscipline app) (fun t result => t.task = .get listId ∧
        t.landed = none ∧
        ∀ record, result = .ok record → t.cached = some record ∨
          (t.cached = none ∧ t.found = some record)) (.start (.get listId))
      (app.service.getStatusList listId).run := by
  unfold Service.getStatusList
  refine obeys_ask_bind rfl ?_
  intro answer
  split
  · exact ⟨rfl, rfl, fun record h => by cases h; exact Or.inl rfl⟩
  rename_i hmiss
  have hcached : answer.toOption.join = none := by
    rcases answer with e | _ | record
    · rfl
    · rfl
    · exact absurd rfl (hmiss record)
  refine obeys_ask_bind ⟨rfl, rfl, Or.inr ⟨rfl, hcached⟩⟩ ?_
  intro answer
  refine obeys_ofAnswer_bind (fun _ _ => ⟨rfl, rfl, nofun⟩) ?_
  rintro found rfl
  refine obeys_okOr_bind (fun _ => ⟨rfl, rfl, nofun⟩) ?_
  rintro record rfl
  refine obeys_ask_bind ⟨rfl, listId, rfl⟩ ?_
  intro _
  exact ⟨rfl, rfl, fun record h => by cases h; exact Or.inr ⟨hcached, rfl⟩⟩

theorem listUris_obeys (app : AppState) :
    Prog.Obeys (callDiscipline app) (fun t _ => t.task = .listUris ∧ t.landed = none)
      (.start .listUris) app.service.listUris.run := by
  refine obeys_ask_bind rfl ?_
  rintro (e | uris)
  · exact ⟨rfl, rfl⟩
  · exact ⟨rfl, rfl⟩

theorem getSnapshotAt_obeys (app : AppState) (listId : String) (time : Int) :
    Prog.Obeys (callDiscipline app)
      (fun t _ => t.task = .snapshotAt listId time ∧ t.landed = none)
      (.start (.snapshotAt listId time)) (app.service.getSnapshotAt listId time).run := by
  unfold Service.getSnapshotAt
  dsimp only
  split
  · exact ⟨rfl, rfl⟩
  refine obeys_ask_bind rfl ?_
  rintro (e | _ | snapshot)
  · exact ⟨rfl, rfl⟩
  · exact ⟨rfl, rfl⟩
  · exact ⟨rfl, rfl⟩

theorem cleanupSnapshots_obeys (app : AppState) (cutoff : Int) :
    Prog.Obeys (callDiscipline app) (fun t _ => t.task = .cleanup cutoff ∧ t.landed = none)
      (.start (.cleanup cutoff)) (app.service.cleanupSnapshots cutoff).run := by
  unfold Service.cleanupSnapshots
  split
  · exact ⟨rfl, rfl⟩
  refine obeys_ask_bind rfl ?_
  rintro (e | count)
  · exact ⟨rfl, rfl⟩
  · exact ⟨rfl, rfl⟩

/-- The middleware obeys the discipline, and its principal is authenticated with
the credential it looked up. -/
theorem auth_obeys (app : AppState) (authorization : Option String) {s : CallState}
    (hlanded : s.landed = none) :
    Prog.Obeys (callDiscipline app) (fun t result => t.task = s.task ∧ t.landed = none ∧
        t.found = s.found ∧ t.snapshotId = s.snapshotId ∧ t.invalidated = s.invalidated ∧
        ∀ principal, result = .ok principal → ∃ credential, t.credential = some credential ∧
          Authenticated app authorization credential principal) s
      (auth app.jwt app.managementAuth authorization).run := by
  unfold auth
  refine obeys_check_bind (fun _ _ => ⟨rfl, hlanded, rfl, rfl, rfl, nofun⟩) ?_
  intro token htoken
  refine obeys_check_bind (fun _ _ => ⟨rfl, hlanded, rfl, rfl, rfl, nofun⟩) ?_
  intro alg _
  refine obeys_check_bind (fun _ _ => ⟨rfl, hlanded, rfl, rfl, rfl, nofun⟩) ?_
  intro issuer _
  refine obeys_lift_bind hlanded ?_
  intro answer
  refine obeys_check_bind (fun _ _ => ⟨rfl, hlanded, rfl, rfl, rfl, nofun⟩) ?_
  intro credential hcredential
  have hanswer : answer = .ok (some credential) := by
    rcases answer with e | _ | c
    · cases hcredential
    · cases hcredential
    · cases hcredential
      rfl
  subst hanswer
  refine obeys_check_bind (fun _ _ => ⟨rfl, hlanded, rfl, rfl, rfl, nofun⟩) ?_
  intro claims hclaims
  refine obeys_lift_bind hlanded ?_
  intro clock
  refine obeys_check_bind (fun _ _ => ⟨rfl, hlanded, rfl, rfl, rfl, nofun⟩) ?_
  intro now _
  refine obeys_check_bind (fun _ _ => ⟨rfl, hlanded, rfl, rfl, rfl, nofun⟩) ?_
  intro _ _
  refine ⟨rfl, hlanded, rfl, rfl, rfl, ?_⟩
  intro principal hprincipal
  cases hprincipal
  have hbearer : authorization.bind (stripLeading "Bearer ") = some token := by
    split at htoken
    · rename_i token' hsome
      cases htoken
      exact hsome
    · cases htoken
  exact ⟨credential, rfl, token, alg, claims, hbearer, hclaims, rfl⟩

/-- **Every task obeys the discipline.** -/
theorem serve_obeys (app : AppState) (task : Task) :
    (task.serve app).Obeys (callDiscipline app) (CallState.Ended app) (.start task) := by
  cases task with
  | publish issuer listId sub statuses limits =>
      refine obeys_ofService_bind (publishStatusList_obeys app rfl rfl rfl rfl)
        (fun t e h => h.2) ?_
      rintro t record ⟨htask, hlanded⟩
      exact ⟨by simp [htask, CallState.start, Task.updateArgs], fun _ => hlanded,
        fun id hget => by simp [htask, CallState.start] at hget⟩
  | update issuer listId statuses limits =>
      refine obeys_ofService_bind (updateStatuses_obeys app rfl rfl rfl rfl rfl rfl)
        (fun t e h => h.2) ?_
      rintro t record ⟨htask, hlanded⟩
      exact ⟨fun _ => hlanded, by simp [htask, CallState.start, Task.publishArgs],
        fun id hget => by simp [htask, CallState.start] at hget⟩
  | get listId =>
      refine obeys_ofService_bind (getStatusList_obeys app listId) (fun t e h => h.2.1) ?_
      rintro t record ⟨htask, hlanded, hread⟩
      exact ⟨by simp [htask, Task.updateArgs], by simp [htask, Task.publishArgs],
        fun _ _ => hread record rfl⟩
  | listUris =>
      refine obeys_ofService_bind (listUris_obeys app) (fun t e h => h.2) ?_
      rintro t uris ⟨htask, _⟩
      exact fun h => by simp [htask, Task.updateArgs] at h
  | snapshotAt listId time =>
      refine obeys_ofService_bind (getSnapshotAt_obeys app listId time) (fun t e h => h.2) ?_
      rintro t snapshot ⟨htask, _⟩
      exact fun h => by simp [htask, Task.updateArgs] at h
  | cleanup cutoff =>
      refine obeys_ofService_bind (cleanupSnapshots_obeys app cutoff) (fun t e h => h.2) ?_
      rintro t count ⟨htask, _⟩
      exact fun h => by simp [htask, Task.updateArgs] at h
  | putStatuses authorization listId statuses =>
      refine obeys_ofAuth_bind (auth_obeys app authorization rfl) (fun t e h => h.2.1) ?_
      rintro t principal ⟨htask, hlanded, hfound, hid, hinvalidated, hprincipal⟩
      refine obeys_check_bind (fun e h => hlanded) ?_
      intro _ _
      have hacts : t.ActsFor app principal := by
        simp only [CallState.ActsFor, htask]
        exact hprincipal principal rfl
      refine obeys_ofService_bind (publishStatusList_obeys app (by rw [htask]; rfl) hacts
        hlanded hid) (fun t e h => h.2) ?_
      rintro u record ⟨hu, hrecord⟩
      exact fun h => by simp [hu, htask, CallState.start, Task.updateArgs] at h
  | patchStatuses authorization listId statuses =>
      refine obeys_ofAuth_bind (auth_obeys app authorization rfl) (fun t e h => h.2.1) ?_
      rintro t principal ⟨htask, hlanded, hfound, hid, hinvalidated, hprincipal⟩
      refine obeys_check_bind (fun e h => hlanded) ?_
      intro _ _
      have hacts : t.ActsFor app principal := by
        simp only [CallState.ActsFor, htask]
        exact hprincipal principal rfl
      refine obeys_ofService_bind (updateStatuses_obeys app (by rw [htask]; rfl) hacts
        hlanded hfound hid hinvalidated) (fun t e h => h.2) ?_
      rintro u record ⟨hu, hrecord⟩
      exact fun _ => ⟨by rw [hrecord.1]; rfl, hrecord.2⟩
  | postCredential issuer publicKey =>
      refine obeys_check_bind (fun e h => rfl) ?_
      intro _ _
      refine obeys_lift_bind rfl ?_
      intro answer
      refine obeys_check_bind (fun e h => rfl) ?_
      intro _ _
      exact nofun

end StatusListServer
