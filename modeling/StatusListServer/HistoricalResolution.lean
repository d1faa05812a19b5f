import StatusListServer.SnapshotHistory

/-!
# Historical resolution and overlapping windows

`find_valid_at` filters the snapshots of a list by their windows and takes the
greatest `iat` of what is left.  When a newer version has a shorter window than
an older one, the older one is left alone after the newer window has closed,
and is returned for a time at which it was already replaced.  This file states
exactly which steps cause that, and shows that runs without such steps always
resolve to the version in effect.
-/

namespace StatusListServer

open KeyedTable CheckedEval Interaction

/-- Whatever `get_snapshot_at` returns, for any list and any time, is the
version of the list that was in effect: the committed version with the greatest
`updated_at` up to that time.  The call asks the repository once. -/
def ResolvesNewest (d : Deployment) (t : List PortEvent) (w : World) : Prop :=
  ∀ listId time e c' s, Step d.env (d.start (fun _ => .snapshotAt listId time) w) e c' →
    c'.threads e.tid = .ret (.ok (.snapshot s)) →
    ∃ v ∈ versions t, v.listId = listId ∧ v.updatedAt ≤ time ∧
      (∀ v' ∈ versions t, v'.listId = listId → v'.updatedAt ≤ time →
        v'.updatedAt ≤ v.updatedAt) ∧
      s.statusList = v.statusList ∧ s.iat = v.updatedAt

/-- No stored snapshot of the list outlives the window of the new one. -/
def NoneOutlives (db : Database) (snapshot : StatusListSnapshot) : Prop :=
  ∀ s ∈ db.history, s.listId = snapshot.listId → s.exp ≤ max snapshot.exp snapshot.iat

/-- No snapshot is deleted while an older one of its list stays whose window
reaches beyond the deleted one's `iat`. -/
def DeletesOldestFirst (db db' : Database) : Prop :=
  ∀ s' ∈ db.history, s' ∉ db'.history → ∀ s ∈ db'.history, s.listId = s'.listId →
    s.iat < s'.iat → s.exp ≤ s'.iat

/-- The condition on one operation: what lands is not outlived, and what a sweep
deletes before it is done, it deletes oldest first.  Between two batches of a
sweep, as after a sweep that failed, the other calls see what the batches so far
have left. -/
def KeepsWindows : (op : Port) → World → op.Answer → World → Prop
  | .store (.insertWithSnapshot _ snapshot), w, .ok (), _ => NoneOutlives w.db snapshot
  | .store (.updateWithSnapshot _ _ snapshot), w, .ok true, _ => NoneOutlives w.db snapshot
  | .store (.deleteOlderThan _), w, .error _, w' => DeletesOldestFirst w.db w'.db
  | .sweepBatch _, w, _, w' => DeletesOldestFirst w.db w'.db
  | _, _, _, _ => True

/-- Runs all of whose steps meet the condition. -/
def Deployment.windowEnv (d : Deployment) : Env Nat Port Port.Answer World :=
  fun i op w r w' => d.env i op w r w' ∧ KeepsWindows op w r w'

section Query

variable {d : Deployment} {w : World} {listId : String} {time : Int}

/-- `get_snapshot_at` asks the repository once and returns the snapshot it is
given. -/
theorem serve_snapshotAt {app : AppState} (henabled : app.service.snapshotsEnabled = true)
    (listId : String) (time : Int) :
    ∃ k, (Task.snapshotAt listId time).serve app = .call (.store (.findValidAt listId time)) k ∧
      ∀ r s, k r = .ret (.ok (.snapshot s)) ↔ r = .ok (some s) := by
  simp only [Task.serve, Service.getSnapshotAt, henabled]
  refine ⟨_, rfl, ?_⟩
  intro r s
  rcases r with err | _ | s'
  · exact ⟨nofun, nofun⟩
  · exact ⟨nofun, nofun⟩
  · constructor
    · intro h
      cases h
      rfl
    · intro h
      cases h
      rfl

/-- A thread that asks for a snapshot starts with the program of its task. -/
theorem Deployment.snapshotAt_thread (i : Nat) :
    (d.start (fun _ => .snapshotAt listId time) w).threads i =
      (Task.snapshotAt listId time).serve d.app := Deployment.start_thread rfl (fun _ => nofun)

/-- What `get_snapshot_at` returns is a valid snapshot with the greatest `iat`. -/
theorem Deployment.snapshotAt_latest (henabled : d.app.service.snapshotsEnabled = true)
    {e : PortEvent} {c' : Pool Nat Port Port.Answer (Except Failure Value) World}
    {s : StatusListSnapshot}
    (hstep : Step d.env (d.start (fun _ => .snapshotAt listId time) w) e c')
    (hret : c'.threads e.tid = .ret (.ok (.snapshot s))) :
    LatestValid w.db.history listId time (some s) := by
  obtain ⟨k, hserve, hk⟩ := serve_snapshotAt henabled listId time
  cases hstep with
  | @call i op k' r w' hthread henv =>
      rw [Deployment.snapshotAt_thread, hserve] at hthread
      cases hthread
      simp only [Function.update_self, hk] at hret
      obtain ⟨db', hanswers, rfl⟩ := henv
      have hspec : Reads _ _ _ _ := hanswers.spec
      exact hspec.truth _ hret

/-- Both adapters can answer every historical query. -/
theorem Backend.answers_findValidAt (backend : Backend) (listId : String) (time : Int)
    (db : Database) :
    ∃ found db', backend.Answers (.findValidAt listId time) db (.ok found) db' := by
  cases backend with
  | memory withSnapshot => exact ⟨_, _, .storage, rfl⟩
  | sql reserialise => exact ⟨_, _, .none, .storage, rfl⟩

/-- When some snapshot is valid, `get_snapshot_at` can return one. -/
theorem Deployment.snapshotAt_returns (henabled : d.app.service.snapshotsEnabled = true)
    {s : StatusListSnapshot} (hs : s ∈ w.db.history) (hvalid : s.validAt listId time = true) :
    ∃ e c' s', Step d.env (d.start (fun _ => .snapshotAt listId time) w) e c' ∧
      c'.threads e.tid = .ret (.ok (.snapshot s')) := by
  obtain ⟨k, hserve, hk⟩ := serve_snapshotAt henabled listId time
  obtain ⟨found, db', hanswers⟩ := d.backend.answers_findValidAt listId time w.db
  have hspec : Reads _ _ _ _ := hanswers.spec
  have htruth := hspec.truth _ rfl
  cases found with
  | none =>
      have hinvalid := htruth s hs
      rw [hvalid] at hinvalid
      cases hinvalid
  | some s' =>
      have hthread : (d.start (fun _ => .snapshotAt listId time) w).threads 0 =
          .call (.store (.findValidAt listId time)) k := by
        rw [Deployment.snapshotAt_thread, hserve]
      refine ⟨_, _, s', .call hthread ⟨db', hanswers, rfl⟩, ?_⟩
      simp only [Function.update_self, hk]

end Query

/-- Every snapshot that is older than a version is closed when the version
begins, or outlived by the snapshot of that version. -/
def Shadowed (t : List PortEvent) (db : Database) : Prop :=
  ∀ v ∈ versions t, ∀ s ∈ db.history, s.listId = v.listId → s.iat < v.updatedAt →
    s.exp ≤ v.updatedAt ∨ ∃ s' ∈ db.history, Records s' v ∧ s.exp ≤ s'.exp

/-- The window of a valid snapshot contains the time. -/
theorem StatusListSnapshot.validAt_iff {listId : String} {time : Int}
    {s : StatusListSnapshot} :
    s.validAt listId time = true ↔ s.listId = listId ∧ s.iat ≤ time ∧ time < s.exp := by
  simp [StatusListSnapshot.validAt, and_assoc]

/-- Shadowed histories resolve to the version in effect. -/
theorem Shadowed.resolvesNewest {d : Deployment} {tasks : Nat → Task} {t : List PortEvent}
    {l : Calls d.app} (henabled : d.app.service.snapshotsEnabled = true)
    (h : Chronicle d tasks t l) (hshadowed : Shadowed t l.world.db) :
    ResolvesNewest d t l.world := by
  intro listId time e c' s hstep hret
  obtain ⟨hs, hvalid, hmax⟩ := Deployment.snapshotAt_latest henabled hstep hret
  obtain ⟨hlist, hiat, hexp⟩ := StatusListSnapshot.validAt_iff.mp hvalid
  obtain ⟨v, hv, hrec⟩ := h.recorded s hs
  refine ⟨v, hv, hrec.listId.symm.trans hlist, hrec.iat ▸ hiat, ?_, hrec.statusList, hrec.iat⟩
  intro v' hv' hlist' htime
  by_contra hlt
  rw [← hrec.iat, Int.not_le] at hlt
  rcases hshadowed v' hv' s hs (hlist.trans hlist'.symm) hlt with hclosed | ⟨s', hs', hrec', hle⟩
  · omega
  · have hnewer := hmax s' hs' (StatusListSnapshot.validAt_iff.mpr
      ⟨hrec'.listId.trans hlist', by rw [hrec'.iat]; exact htime, by omega⟩)
    rw [hrec'.iat] at hnewer
    omega

/-- A history that resolves to the versions in effect has, at any time at which
some snapshot is valid, the snapshot of that version. -/
theorem ResolvesNewest.holds {d : Deployment} {t : List PortEvent} {w : World}
    (henabled : d.app.service.snapshotsEnabled = true) (hresolves : ResolvesNewest d t w)
    {s : StatusListSnapshot} (hs : s ∈ w.db.history) {time : Int} (hiat : s.iat ≤ time)
    (hexp : time < s.exp) {v : StatusListRecord} (hv : v ∈ versions t)
    (hlist : v.listId = s.listId) (htime : v.updatedAt ≤ time)
    (hnewest : ∀ v' ∈ versions t, v'.listId = s.listId → v'.updatedAt ≤ time →
      v'.updatedAt ≤ v.updatedAt) :
    ∃ s' ∈ w.db.history, s'.listId = s.listId ∧ s'.iat = v.updatedAt ∧ time < s'.exp := by
  obtain ⟨e, c', s', hstep, hret⟩ := Deployment.snapshotAt_returns henabled hs
    (StatusListSnapshot.validAt_iff.mpr ⟨rfl, hiat, hexp⟩)
  obtain ⟨v', hv', hlist', htime', hnewest', _, hstamp⟩ :=
    hresolves s.listId time e c' s' hstep hret
  obtain ⟨hs', hvalid', _⟩ := Deployment.snapshotAt_latest henabled hstep hret
  obtain ⟨hlist'', _, hexp'⟩ := StatusListSnapshot.validAt_iff.mp hvalid'
  refine ⟨s', hs', hlist'', ?_, hexp'⟩
  rw [hstamp]
  exact Int.le_antisymm (hnewest v' hv' hlist' htime') (hnewest' v hv hlist htime)

section Step

variable {d : Deployment} {tasks : Nat → Task} {t : List PortEvent} {l l' : Calls d.app}
  {e : PortEvent}

/-- What a step does to the history, with the condition on it. -/
inductive WindowStep (l : Calls d.app) (e : PortEvent) (l' : Calls d.app) : Prop
  | landed {record : StatusListRecord} {id : String} {exp : BitVec 64}
      (hlanded : landedRow e.op e.res = some record)
      (hid : (l.locals e.tid).snapshotId = some id)
      (hwritten : RowWritten l.world.db record (some (snapshotOf id record exp)) l'.world.db)
      (hkeeps : KeepsWindows e.op l.world e.res l'.world ↔
        NoneOutlives l.world.db (snapshotOf id record exp))
  | swept {cutoff : Int} (hlanded : landedRow e.op e.res = none)
      (hdeletes : Deletes l.world.db cutoff l'.world.db)
      (hcomplete : ∀ s ∈ l'.world.db.history, cutoff ≤ s.exp)
      (hkeeps : KeepsWindows e.op l.world e.res l'.world)
  | batch {cutoff : Int} (hlanded : landedRow e.op e.res = none)
      (hdeletes : Deletes l.world.db cutoff l'.world.db)
      (hkeeps : KeepsWindows e.op l.world e.res l'.world ↔
        DeletesOldestFirst l.world.db l'.world.db)
  | kept (hlanded : landedRow e.op e.res = none)
      (hhistory : l'.world.db.history = l.world.db.history)
      (hkeeps : KeepsWindows e.op l.world e.res l'.world)

/-- Every step lands a version with its snapshot, deletes expired snapshots, all
of them or a batch, or leaves the history alone. -/
theorem Deployment.windowStep (henabled : d.app.service.snapshotsEnabled = true)
    (hstep : LedgerStep d.env l e l') : WindowStep l e l' := by
  cases hstep with
  | @act i op r w hmay henv =>
      rcases op with op | cutoff | op | _ | _ | _
      · obtain ⟨db', hanswers, rfl⟩ := henv
        have hspec := hanswers.spec
        cases op with
        | insertWithSnapshot record snapshot =>
            obtain ⟨_, args, _, id, hid, rfl⟩ := hmay
            cases hspec with
            | fails e => exact .kept rfl rfl trivial
            | lands _ hwritten => exact .landed rfl hid hwritten Iff.rfl
        | updateWithSnapshot record expected snapshot =>
            obtain ⟨_, args, read, _, _, id, hid, rfl⟩ := hmay
            cases hspec with
            | fails e => exact .kept rfl rfl trivial
            | misses => exact .kept rfl rfl trivial
            | lands _ hwritten => exact .landed rfl hid hwritten Iff.rfl
        | deleteOlderThan cutoff =>
            cases r with
            | error err => exact .batch rfl hspec.toDeletes Iff.rfl
            | ok n => exact .swept rfl hspec.toDeletes (hspec.complete n rfl) trivial
        | insert record =>
            have hdisabled := hmay.1
            rw [henabled] at hdisabled
            cases hdisabled
        | update record expected =>
            have hdisabled := hmay.1
            rw [henabled] at hdisabled
            cases hdisabled
        | insertCredential credential =>
            cases hspec with
            | fails e => exact .kept rfl rfl trivial
            | lands _ _ _ hhistory => exact .kept rfl hhistory trivial
        | find listId => exact .kept rfl (by rw [hspec.unchanged]) trivial
        | listUris => exact .kept rfl (by rw [hspec.unchanged]) trivial
        | findValidAt listId time => exact .kept rfl (by rw [hspec.unchanged]) trivial
        | findCredential issuer => exact .kept rfl (by rw [hspec.1]) trivial
      · obtain ⟨db', hanswers, rfl⟩ := henv
        exact .batch rfl hanswers.deletes Iff.rfl
      · obtain ⟨values, _, rfl⟩ := henv
        cases op <;> exact .kept rfl rfl trivial
      · obtain rfl := henv
        exact .kept rfl rfl trivial
      · obtain rfl := henv
        exact .kept rfl rfl trivial
      · obtain ⟨_, rfl⟩ := henv
        exact .kept rfl rfl trivial

/-- **A step that meets the condition keeps the history shadowed.** -/
theorem Shadowed.step (henabled : d.app.service.snapshotsEnabled = true)
    (h : Chronicle d tasks t l) (hshadowed : Shadowed t l.world.db)
    (hstep : LedgerStep d.env l e l') (hkeeps : KeepsWindows e.op l.world e.res l'.world) :
    Shadowed (t ++ [e]) l'.world.db := by
  intro v hv s hs hlist hiat
  rw [versions_append] at hv
  cases Deployment.windowStep henabled hstep with
  | @landed record id exp hlanded hid hwritten hiff =>
      have hmem := h.mem_history hid (Deployment.fresh_of_landed hstep hlanded) hwritten
      rw [hlanded, Option.toList_some, List.mem_append, List.mem_singleton] at hv
      rcases (hmem s).mp hs with rfl | hs
      · -- The new snapshot is not older than any version.
        rcases hv with hv | rfl
        · have hnewer := h.newest hstep hlanded v hv hlist.symm
          simp only [snapshotOf] at hiat
          omega
        · exact absurd hiat (Int.lt_irrefl _)
      · rcases hv with hv | rfl
        · rcases hshadowed v hv s hs hlist hiat with hclosed | ⟨s', hs', hrec, hle⟩
          · exact Or.inl hclosed
          · exact Or.inr ⟨s', (hmem s').mpr (Or.inr hs'), hrec, hle⟩
        · rcases le_max_iff.mp (hiff.mp hkeeps s hs hlist) with hle | hle
          · exact Or.inr ⟨_, (hmem _).mpr (Or.inl rfl), records_snapshotOf id v exp, hle⟩
          · exact Or.inl hle
  | @swept cutoff hlanded hdeletes hcomplete =>
      rw [hlanded, Option.toList_none, List.append_nil] at hv
      rcases hshadowed v hv s (hdeletes.subset s hs) hlist hiat with
        hclosed | ⟨s', hs', hrec, hle⟩
      · exact Or.inl hclosed
      -- What outlives a snapshot that stays has not expired either.
      rcases hdeletes.removed s' hs' with hstays | hexpired
      · exact Or.inr ⟨s', hstays, hrec, hle⟩
      · have hkept := hcomplete s hs
        omega
  | @batch cutoff hlanded hdeletes hiff =>
      rw [hlanded, Option.toList_none, List.append_nil] at hv
      rcases hshadowed v hv s (hdeletes.subset s hs) hlist hiat with
        hclosed | ⟨s', hs', hrec, hle⟩
      · exact Or.inl hclosed
      by_cases hstays : s' ∈ l'.world.db.history
      · exact Or.inr ⟨s', hstays, hrec, hle⟩
      · refine Or.inl ?_
        rw [← hrec.iat]
        exact hiff.mp hkeeps s' hs' hstays s hs (hlist.trans hrec.listId.symm)
          (by rw [hrec.iat]; exact hiat)
  | kept hlanded hhistory _ =>
      rw [hlanded, Option.toList_none, List.append_nil] at hv
      rw [hhistory] at hs ⊢
      exact hshadowed v hv s hs hlist hiat

/-- A step that breaks the condition leaves a time that resolves to a version
that was already replaced. -/
theorem ResolvesNewest.keepsWindows (henabled : d.app.service.snapshotsEnabled = true)
    (h : Chronicle d tasks t l) (hstep : LedgerStep d.env l e l')
    (hresolves : ResolvesNewest d (t ++ [e]) l'.world) :
    KeepsWindows e.op l.world e.res l'.world := by
  have h' := h.step henabled hstep
  cases Deployment.windowStep henabled hstep with
  | @landed record id exp hlanded hid hwritten hiff =>
      have hmem := h.mem_history hid (Deployment.fresh_of_landed hstep hlanded) hwritten
      have hversions : ∀ v, v ∈ versions (t ++ [e]) ↔ v ∈ versions t ∨ v = record := by
        intro v
        rw [versions_append, hlanded, Option.toList_some, List.mem_append, List.mem_singleton]
      refine hiff.mpr ?_
      intro s hs hlist
      by_contra hlt
      rw [Int.not_le] at hlt
      obtain ⟨v, hv, hrec⟩ := h.recorded s hs
      have hiat := h.newest hstep hlanded v hv (hrec.listId.symm.trans hlist)
      rw [← hrec.iat] at hiat
      have hstamp : record.updatedAt ≤ max (snapshotOf id record exp).exp record.updatedAt :=
        Int.le_max_right _ _
      obtain ⟨s', hs', hlist', hiat', hexp'⟩ := hresolves.holds henabled
        ((hmem s).mpr (Or.inr hs)) (Int.le_trans (Int.le_of_lt hiat) hstamp) hlt
        ((hversions record).mpr (Or.inr rfl)) hlist.symm hstamp (by
          intro v' hv' hlist' _
          rcases (hversions v').mp hv' with hv' | rfl
          · exact Int.le_of_lt (h.newest hstep hlanded v' hv' (hlist'.trans hlist))
          · exact Int.le_refl _)
      have hsame := h'.single s' hs' _ ((hmem _).mpr (Or.inl rfl)) (hlist'.trans hlist) hiat'
      rw [hsame] at hexp'
      have := Int.le_max_left (snapshotOf id record exp).exp record.updatedAt
      omega
  | swept _ _ _ hkeeps => exact hkeeps
  | @batch cutoff hlanded hdeletes hiff =>
      refine hiff.mpr ?_
      intro s' hs' hgone s hs hlist hiat
      by_contra hlt
      rw [Int.not_le] at hlt
      have hversions : versions (t ++ [e]) = versions t := by
        rw [versions_append, hlanded, Option.toList_none, List.append_nil]
      obtain ⟨v, hv, hrec⟩ := h.recorded s' hs'
      obtain ⟨s'', hs'', hlist'', hiat'', _⟩ := hresolves.holds henabled hs
        (Int.le_of_lt hiat) hlt (hversions ▸ hv) (hrec.listId.symm.trans hlist.symm)
        (Int.le_of_eq hrec.iat.symm) (by
          intro v' _ _ htime
          rw [← hrec.iat]
          exact htime)
      have hsame := h.single s'' (hdeletes.subset s'' hs'') s' hs' (hlist''.trans hlist)
        (hiat''.trans hrec.iat.symm)
      exact hgone (hsame ▸ hs'')
  | kept _ _ hkeeps => exact hkeeps

end Step

/-- Runs that meet the condition keep the history shadowed. -/
theorem Shadowed.run {d : Deployment} (henabled : d.app.service.snapshotsEnabled = true)
    (tasks : Nat → Task) {w : World} (hrows : ∀ r, r ∉ w.db.rows)
    (hhistory : ∀ s, s ∉ w.db.history) {t : List PortEvent}
    {c : Pool Nat Port Port.Answer (Except Failure Value) World}
    (hrun : Run d.windowEnv (d.start tasks w) t c) :
    ∃ locals, (Chronicle d tasks t ⟨c.world, locals⟩ ∧ Shadowed t c.world.db) ∧
      Tracks d.app c locals := by
  refine Run.ledger (Tracks.start d tasks w)
    (I := fun t l => Chronicle d tasks t l ∧ Shadowed t l.world.db)
    ⟨Chronicle.start d tasks hrows hhistory, nofun⟩ ?_ hrun
  rintro t l e l' ⟨h, hshadowed⟩ hstep
  cases hstep with
  | act hmay henv =>
      have hstep := LedgerStep.act hmay henv.1
      exact ⟨h.step henabled hstep, hshadowed.step henabled h hstep henv.2⟩

/-- **Historical resolution and the windows of snapshots.**  With snapshots
enabled, in every run from an empty store whose publications and updates are
never outlived by a stored snapshot of their list, and whose sweeps delete
oldest first in each of their batches, `get_snapshot_at` never returns a
superseded version, not even between two batches.
The condition is exact: after such a run, a step that breaks it leaves a time
for which a superseded version is returned. -/
theorem resolves_newest_while_windows_keep (d : Deployment)
    (henabled : d.app.service.snapshotsEnabled = true) (tasks : Nat → Task) {w : World}
    (hrows : ∀ r, r ∉ w.db.rows) (hhistory : ∀ s, s ∉ w.db.history) {t : List PortEvent}
    {c : Pool Nat Port Port.Answer (Except Failure Value) World}
    (hrun : Run d.windowEnv (d.start tasks w) t c) :
    ResolvesNewest d t c.world ∧ ∀ e c', Step d.env c e c' →
      (ResolvesNewest d (t ++ [e]) c'.world ↔ KeepsWindows e.op c.world e.res c'.world) := by
  obtain ⟨locals, ⟨h, hshadowed⟩, htracks⟩ := Shadowed.run henabled tasks hrows hhistory hrun
  refine ⟨hshadowed.resolvesNewest henabled h, ?_⟩
  intro e c' hstep
  obtain ⟨locals', hledger, _⟩ := hstep.ledger htracks
  constructor
  · exact fun hresolves => ResolvesNewest.keepsWindows henabled h hledger hresolves
  · intro hkeeps
    exact (hshadowed.step henabled h hledger hkeeps).resolvesNewest henabled
      (h.step henabled hledger)

instance (db : Database) (snapshot : StatusListSnapshot) : Decidable (NoneOutlives db snapshot) :=
  inferInstanceAs (Decidable (∀ s ∈ db.history.rows, s.listId = snapshot.listId →
    s.exp ≤ max snapshot.exp snapshot.iat))

instance (db db' : Database) : Decidable (DeletesOldestFirst db db') :=
  inferInstanceAs (Decidable (∀ s' ∈ db.history.rows, s' ∉ db'.history.rows →
    ∀ s ∈ db'.history.rows, s.listId = s'.listId → s.iat < s'.iat → s.exp ≤ s'.iat))

instance : (op : Port) → (w : World) → (r : op.Answer) → (w' : World) →
    Decidable (KeepsWindows op w r w')
  | .store (.insertWithSnapshot _ snapshot), w, .ok (), _ =>
      inferInstanceAs (Decidable (NoneOutlives w.db snapshot))
  | .store (.insertWithSnapshot _ _), _, .error _, _ => .isTrue trivial
  | .store (.updateWithSnapshot _ _ snapshot), w, .ok true, _ =>
      inferInstanceAs (Decidable (NoneOutlives w.db snapshot))
  | .store (.updateWithSnapshot _ _ _), _, .ok false, _ => .isTrue trivial
  | .store (.updateWithSnapshot _ _ _), _, .error _, _ => .isTrue trivial
  | .store (.deleteOlderThan _), w, .error _, w' =>
      inferInstanceAs (Decidable (DeletesOldestFirst w.db w'.db))
  | .store (.deleteOlderThan _), _, .ok _, _ => .isTrue trivial
  | .sweepBatch _, w, _, w' => inferInstanceAs (Decidable (DeletesOldestFirst w.db w'.db))
  | .store (.find _), _, _, _ => .isTrue trivial
  | .store (.insert _), _, _, _ => .isTrue trivial
  | .store (.update _ _), _, _, _ => .isTrue trivial
  | .store .listUris, _, _, _ => .isTrue trivial
  | .store (.findValidAt _ _), _, _, _ => .isTrue trivial
  | .store (.findCredential _), _, _, _ => .isTrue trivial
  | .store (.insertCredential _), _, _, _ => .isTrue trivial
  | .cache _, _, _, _ => .isTrue trivial
  | .currentUnixTimestamp, _, _, _ => .isTrue trivial
  | .systemTime, _, _, _ => .isTrue trivial
  | .newUuid, _, _, _ => .isTrue trivial

/-- A played run that passes over the operations that break the condition. -/
def Deployment.playWindows (d : Deployment) (tasks : Nat → Task) (w : World)
    (schedule : List (Nat × Script)) :
    List PortEvent × Pool Nat Port Port.Answer (Except Failure Value) World :=
  Pool.drive (fun input i op w => (d.scripted input i op w).filter
    (fun out => decide (KeepsWindows op w out.1 out.2))) schedule (d.start tasks w)

theorem Deployment.playWindows_run {d : Deployment} (hcache : d.cache = MemoryCache.model)
    (tasks : Nat → Task) (w : World) (schedule : List (Nat × Script)) :
    Run d.windowEnv (d.start tasks w) (d.playWindows tasks w schedule).1
      (d.playWindows tasks w schedule).2 := by
  refine Run.drive ?_ schedule _
  intro input i op w r w' h
  obtain ⟨hscripted, hkeeps⟩ := Option.filter_eq_some_iff.mp h
  exact ⟨Deployment.scripted_sound hcache hscripted, by simpa using hkeeps⟩

/-- Call 0 publishes a list, call 1 revokes its index 0, call 2 deletes what
expired before 3701. -/
def publishUpdateSweep : Nat → Task
  | 0 => .publish sampleIssuer "list" "https://status.example.com/list" [⟨0, .valid⟩] sampleLimits
  | 1 => .update sampleIssuer "list" [⟨0, .invalid⟩] sampleLimits
  | _ => .cleanup 3701

/-- The theorem over the SQL adapter, at a publication, an update with the same
lifetime and a sweep that deletes the snapshot of the first version: at every
time the newest version is returned. -/
theorem resolves_newest_while_windows_keep_sample :
    let d := { sampleDeployment true with backend := .sql .ok }
    let played := d.playWindows publishUpdateSweep emptyWorld
      (turns 100 [0, 0, 0, 1, 1, 1, 1, 1, 2])
    (versions played.1).map StatusListRecord.updatedAt = [100, 101] ∧
      (played.2.threads 2).result? = some (.ok (.deleted 1)) ∧
      ResolvesNewest d played.1 played.2.world := by
  intro d played
  refine ⟨by decide +kernel, by decide +kernel, ?_⟩
  exact (resolves_newest_while_windows_keep d rfl publishUpdateSweep Table.not_mem_empty
    Table.not_mem_empty (Deployment.playWindows_run rfl publishUpdateSweep emptyWorld _)).1

/-- Call 0 publishes a list whose tokens live for an hour; call 1 revokes its
index 0 with tokens that live for ten seconds. -/
def shrinkingLifetime : Nat → Task
  | 0 => .publish sampleIssuer "list" "https://status.example.com/list" [⟨0, .valid⟩] sampleLimits
  | _ => .update sampleIssuer "list" [⟨0, .invalid⟩] { sampleLimits with tokenExpSecs := 10 }

/-- Call 0 at clock 100, then call 1 at clock 200. -/
def shrinkingSchedule : List (Nat × Script) :=
  turns 100 [0, 0, 0] ++ turns 200 [1, 1, 1, 1, 1]

/-- After the revocation at 200 the status at 300 is still answered with the
version of 100. -/
theorem superseded_version_returned :
    let d := sampleDeployment true
    let played := d.play shrinkingLifetime emptyWorld shrinkingSchedule
    Run d.env (d.start shrinkingLifetime emptyWorld) played.1 played.2 ∧
      (versions played.1).map StatusListRecord.updatedAt = [100, 200] ∧
      ¬ ResolvesNewest d played.1 played.2.world := by
  intro d played
  refine ⟨d.play_run rfl shrinkingLifetime emptyWorld shrinkingSchedule, by decide +kernel, ?_⟩
  intro hresolves
  obtain ⟨s, hs, hlist, hiat, hexp⟩ : ∃ s ∈ played.2.world.db.history.rows,
      s.listId = "list" ∧ s.iat ≤ 300 ∧ 300 < s.exp := by decide +kernel
  obtain ⟨v, hv, hlistv, hstamp⟩ : ∃ v ∈ versions played.1,
      v.listId = "list" ∧ v.updatedAt = 200 := by decide +kernel
  have hnewest : ∀ v ∈ versions played.1, v.updatedAt ≤ 200 := by decide +kernel
  have hclosed : ∀ s ∈ played.2.world.db.history.rows, s.iat = 200 → s.exp ≤ 300 := by
    decide +kernel
  obtain ⟨s', hs', _, hiat', hexp'⟩ := hresolves.holds rfl hs hiat hexp hv
    (hlistv.trans hlist.symm) (by omega) (fun v' hv' _ _ => hstamp ▸ hnewest v' hv')
  have := hclosed s' hs' (hiat'.trans hstamp)
  omega

end StatusListServer
