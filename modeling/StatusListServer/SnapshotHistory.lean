import StatusListServer.VersionedRows

/-!
# Rows and snapshots stay in step

With snapshots enabled every row that is ever written is written together with
one snapshot of it.  `Chronicle` is the invariant of all runs, sweeps included:
snapshots record committed versions, no two of one list share an `iat`, and
the stored row is the newest version.  Without sweeps no snapshot is missing.
-/

namespace StatusListServer

open KeyedTable CheckedEval Interaction

/-- The versions committed so far, in commit order. -/
def versions (t : List PortEvent) : List StatusListRecord :=
  t.filterMap (fun e => landedRow e.op e.res)

theorem versions_append (t : List PortEvent) (e : PortEvent) :
    versions (t ++ [e]) = versions t ++ (landedRow e.op e.res).toList := by
  unfold versions
  rw [List.filterMap_append]
  cases h : landedRow e.op e.res with
  | none => simp [h]
  | some record => simp [h]

/-- The snapshot is a snapshot of the version. -/
structure Records (s : StatusListSnapshot) (version : StatusListRecord) : Prop where
  listId : s.listId = version.listId
  issuer : s.issuer = version.issuer
  sub : s.sub = version.sub
  statusList : s.statusList = version.statusList
  iat : s.iat = version.updatedAt

theorem records_snapshotOf (id : String) (record : StatusListRecord) (exp : BitVec 64) :
    Records (snapshotOf id record exp) record := ⟨rfl, rfl, rfl, rfl, rfl⟩

/-- The invariant of all runs that start without lists and snapshots. -/
structure Chronicle (d : Deployment) (tasks : Nat → Task) (t : List PortEvent)
    (l : Calls d.app) : Prop where
  task : ∀ i, (l.locals i).task = tasks i
  found : ∀ i read, (l.locals i).found = some read → read ∈ versions t
  row : ∀ listId row, l.world.db.rows.find? listId = some row → row ∈ versions t
  latest : ∀ v ∈ versions t, ∃ row, l.world.db.rows.find? v.listId = some row ∧
    (v = row ∨ v.updatedAt < row.updatedAt)
  distinct : ∀ v ∈ versions t, ∀ v' ∈ versions t, v.listId = v'.listId →
    v.updatedAt = v'.updatedAt → v = v'
  recorded : ∀ s ∈ l.world.db.history, ∃ v ∈ versions t, Records s v
  single : ∀ s ∈ l.world.db.history, ∀ s' ∈ l.world.db.history, s.listId = s'.listId →
    s.iat = s'.iat → s = s'
  issued : ∀ s ∈ l.world.db.history, s.snapshotId ∈ l.world.issued
  held : ∀ i id, (l.locals i).snapshotId = some id → id ∈ l.world.issued
  apart : ∀ i j id, (l.locals i).snapshotId = some id → (l.locals j).snapshotId = some id →
    i = j
  unused : ∀ i id, (l.locals i).snapshotId = some id → (l.locals i).landed = none →
    ∀ s ∈ l.world.db.history, s.snapshotId ≠ id

theorem Chronicle.start (d : Deployment) (tasks : Nat → Task) {w : World}
    (hrows : ∀ r, r ∉ w.db.rows) (hhistory : ∀ s, s ∉ w.db.history) :
    Chronicle d tasks [] ⟨w, fun i => CallState.start (tasks i)⟩ where
  task := fun _ => rfl
  found := nofun
  row := fun _ row h => absurd (Table.find?_eq_some.mp h).1 (hrows row)
  latest := nofun
  distinct := nofun
  recorded := fun s hs => absurd hs (hhistory s)
  single := fun s hs => absurd hs (hhistory s)
  issued := fun s hs => absurd hs (hhistory s)
  held := nofun
  apart := nofun
  unused := fun _ _ _ _ s hs => absurd hs (hhistory s)

section Step

variable {d : Deployment} {tasks : Nat → Task} {t : List PortEvent} {l l' : Calls d.app}
  {e : PortEvent}

/-- A version that lands is newer than every earlier version of its list. -/
theorem Chronicle.newest (h : Chronicle d tasks t l) (hstep : LedgerStep d.env l e l')
    {record : StatusListRecord} (hlanded : landedRow e.op e.res = some record) :
    ∀ v ∈ versions t, v.listId = record.listId → v.updatedAt < record.updatedAt := by
  intro v hv hid
  obtain ⟨row, hrow, hle⟩ := h.latest v hv
  rw [hid] at hrow
  have heffect := Deployment.effect hstep
  rw [hlanded] at heffect
  cases heffect with
  | published _ habsent =>
      rw [hrow] at habsent
      cases habsent
  | updated hupdating hguard =>
      obtain ⟨current, hcurrent, hstamp⟩ := hguard
      rw [hrow] at hcurrent
      cases hcurrent
      have hlater := hupdating.later
      rcases hle with rfl | hle
      · omega
      · omega

/-- With snapshots enabled a version lands together with a snapshot of it under
the id its call holds. -/
theorem Deployment.landed_snapshot (henabled : d.app.service.snapshotsEnabled = true)
    (hstep : LedgerStep d.env l e l') {record : StatusListRecord}
    (hlanded : landedRow e.op e.res = some record) :
    ∃ id exp, (l.locals e.tid).snapshotId = some id ∧
      RowWritten l.world.db record (some (snapshotOf id record exp)) l'.world.db := by
  have heffect := Deployment.effect hstep
  rw [hlanded] at heffect
  have hcovered : ∀ {exp snapshot}, RowWritten l.world.db record snapshot l'.world.db →
      (l.locals e.tid).Covered d.app record exp snapshot →
      ∃ id exp, (l.locals e.tid).snapshotId = some id ∧
        RowWritten l.world.db record (some (snapshotOf id record exp)) l'.world.db := by
    intro exp snapshot hwritten hcov
    cases snapshot with
    | none =>
        rw [CallState.Covered, henabled] at hcov
        cases hcov
    | some s =>
        obtain ⟨_, id, hid, rfl⟩ := hcov
        exact ⟨id, exp, hid, hwritten⟩
  cases heffect with
  | published _ _ hwritten hcov => exact hcovered hwritten hcov
  | updated _ _ hwritten hcov => exact hcovered hwritten hcov

/-- The history after a version has landed. -/
theorem Chronicle.mem_history (h : Chronicle d tasks t l) {record : StatusListRecord}
    {id : String} {exp : BitVec 64} {i : Nat} (hid : (l.locals i).snapshotId = some id)
    (hfresh : (l.locals i).landed = none)
    (hwritten : RowWritten l.world.db record (some (snapshotOf id record exp)) l'.world.db)
    (s : StatusListSnapshot) :
    s ∈ l'.world.db.history ↔ s = snapshotOf id record exp ∨ s ∈ l.world.db.history := by
  rw [hwritten.history s, Option.elim_some, Table.mem_upsert]
  constructor
  · rintro (rfl | ⟨hs, _⟩)
    · exact Or.inl rfl
    · exact Or.inr hs
  · rintro (rfl | hs)
    · exact Or.inl rfl
    · exact Or.inr ⟨hs, h.unused i id hid hfresh s hs⟩

/-- A version that lands is newer than every snapshot of its list. -/
theorem Chronicle.snapshot_older (h : Chronicle d tasks t l) (hstep : LedgerStep d.env l e l')
    {record : StatusListRecord} (hlanded : landedRow e.op e.res = some record) :
    ∀ s ∈ l.world.db.history, s.listId = record.listId → s.iat < record.updatedAt := by
  intro s hs hlist
  obtain ⟨v, hv, hrec⟩ := h.recorded s hs
  rw [hrec.iat]
  exact h.newest hstep hlanded v hv (hrec.listId.symm.trans hlist)

/-- The stored rows after a version has landed. -/
theorem Chronicle.latest_landed (h : Chronicle d tasks t l) (hstep : LedgerStep d.env l e l')
    {record : StatusListRecord} (hlanded : landedRow e.op e.res = some record)
    {snapshot : Option StatusListSnapshot}
    (hwritten : RowWritten l.world.db record snapshot l'.world.db) {v : StatusListRecord}
    (hv : v ∈ versions t ∨ v = record) :
    ∃ row, l'.world.db.rows.find? v.listId = some row ∧
      (v = row ∨ v.updatedAt < row.updatedAt) := by
  rcases hv with hv | rfl
  · by_cases hlist : v.listId = record.listId
    · refine ⟨record, by rw [hlist]; exact hwritten.find?_self, Or.inr ?_⟩
      exact h.newest hstep hlanded v hv hlist
    · rw [hwritten.find?_of_ne hlist]
      exact h.latest v hv
  · exact ⟨v, hwritten.find?_self, Or.inl rfl⟩

/-- A landed version gets a stamp that its list has not had. -/
theorem Chronicle.distinct_landed (h : Chronicle d tasks t l) (hstep : LedgerStep d.env l e l')
    {record : StatusListRecord} (hlanded : landedRow e.op e.res = some record)
    {v v' : StatusListRecord} (hv : v ∈ versions t ∨ v = record)
    (hv' : v' ∈ versions t ∨ v' = record) (hlist : v.listId = v'.listId)
    (hstamp : v.updatedAt = v'.updatedAt) : v = v' := by
  have hnewest := h.newest hstep hlanded
  rcases hv with hv | rfl <;> rcases hv' with hv' | rfl
  · exact h.distinct v hv v' hv' hlist hstamp
  · have := hnewest v hv hlist
    omega
  · have := hnewest v' hv' hlist.symm
    omega
  · rfl

/-- The invariant is kept by a step that lands a version. -/
theorem Chronicle.step_landed (henabled : d.app.service.snapshotsEnabled = true)
    (h : Chronicle d tasks t l) (hstep : LedgerStep d.env l e l') {record : StatusListRecord}
    (hlanded : landedRow e.op e.res = some record) : Chronicle d tasks (t ++ [e]) l' := by
  obtain ⟨id, exp, hid, hwritten⟩ := Deployment.landed_snapshot henabled hstep hlanded
  have hfresh := Deployment.fresh_of_landed hstep hlanded
  have hmem := h.mem_history hid hfresh hwritten
  have hversions : versions (t ++ [e]) = versions t ++ [record] := by
    rw [versions_append, hlanded]
    rfl
  have hnew : ∀ v, v ∈ versions (t ++ [e]) ↔ v ∈ versions t ∨ v = record := by
    intro v
    rw [hversions, List.mem_append, List.mem_singleton]
  have hsame : ∀ i id', (l'.locals i).snapshotId = some id' →
      (l.locals i).snapshotId = some id' := by
    intro i id' hi
    rcases Deployment.snapshotId_cases hstep hi with hold | ⟨_, _, _, hnone⟩
    · exact hold
    · rw [hlanded] at hnone
      cases hnone
  refine ⟨?_, ?_, ?_, ?_, ?_, ?_, ?_, ?_, ?_, ?_, ?_⟩
  · exact fun i => (Deployment.task_eq hstep i).trans (h.task i)
  · intro i read hfound
    rw [hnew]
    rcases Deployment.found_cases hstep hfound with hold | ⟨_, _, _, hread⟩
    · exact Or.inl (h.found i read hold)
    · exact Or.inl (h.row _ read hread)
  · intro listId row hrow
    rw [hnew]
    by_cases hlist : listId = record.listId
    · subst hlist
      rw [hwritten.find?_self] at hrow
      cases hrow
      exact Or.inr rfl
    · rw [hwritten.find?_of_ne hlist] at hrow
      exact Or.inl (h.row listId row hrow)
  · intro v hv
    exact h.latest_landed hstep hlanded hwritten ((hnew v).mp hv)
  · intro v hv v' hv' hlist hstamp
    exact h.distinct_landed hstep hlanded ((hnew v).mp hv) ((hnew v').mp hv') hlist hstamp
  · intro s hs
    rcases (hmem s).mp hs with rfl | hs
    · exact ⟨record, (hnew record).mpr (Or.inr rfl), records_snapshotOf _ _ _⟩
    · obtain ⟨v, hv, hrec⟩ := h.recorded s hs
      exact ⟨v, (hnew v).mpr (Or.inl hv), hrec⟩
  · intro s hs s' hs' hlist hiat
    have holder := h.snapshot_older hstep hlanded
    rcases (hmem s).mp hs with rfl | hs <;> rcases (hmem s').mp hs' with rfl | hs'
    · rfl
    · have := holder s' hs' hlist.symm
      simp only [snapshotOf] at hiat
      omega
    · have := holder s hs hlist
      simp only [snapshotOf] at hiat
      omega
    · exact h.single s hs s' hs' hlist hiat
  · intro s hs
    apply Deployment.issued_mono hstep
    rcases (hmem s).mp hs with rfl | hs
    · exact h.held e.tid id hid
    · exact h.issued s hs
  · intro i id' hi
    exact Deployment.issued_mono hstep (h.held i id' (hsame i id' hi))
  · intro i j id' hi hj
    exact h.apart i j id' (hsame i id' hi) (hsame j id' hj)
  · intro i id' hi hnone s hs
    have hne : i ≠ e.tid := by
      rintro rfl
      rw [Deployment.landed_eq hstep, if_pos rfl, hlanded] at hnone
      cases hnone
    rcases (hmem s).mp hs with rfl | hs
    · rintro rfl
      exact hne (h.apart i e.tid _ (hsame i _ hi) hid)
    · rw [Deployment.landed_eq hstep, if_neg hne] at hnone
      exact h.unused i id' (hsame i id' hi) hnone s hs

/-- The invariant is kept by a step that lands nothing. -/
theorem Chronicle.step_quiet (h : Chronicle d tasks t l) (hstep : LedgerStep d.env l e l')
    (hlanded : landedRow e.op e.res = none) : Chronicle d tasks (t ++ [e]) l' := by
  have hversions : versions (t ++ [e]) = versions t := by
    rw [versions_append, hlanded]
    simp
  have heffect := Deployment.effect hstep
  rw [hlanded] at heffect
  obtain ⟨hrows, hsub⟩ : l'.world.db.rows = l.world.db.rows ∧
      ∀ s ∈ l'.world.db.history, s ∈ l.world.db.history := by
    generalize l'.world.db = db' at heffect
    cases heffect with
    | quiet => exact ⟨rfl, fun _ hs => hs⟩
    | swept _ hsweeps => exact ⟨hsweeps.rows, hsweeps.subset⟩
    | registered _ _ _ hrows hhistory => exact ⟨hrows, fun s hs => hhistory ▸ hs⟩
  have hland : ∀ i, (l'.locals i).landed = (l.locals i).landed := by
    intro i
    rw [Deployment.landed_eq hstep, hlanded]
    simp
  refine ⟨?_, ?_, ?_, ?_, ?_, ?_, ?_, ?_, ?_, ?_, ?_⟩
  · exact fun i => (Deployment.task_eq hstep i).trans (h.task i)
  · intro i read hfound
    rw [hversions]
    rcases Deployment.found_cases hstep hfound with hold | ⟨_, _, _, hread⟩
    · exact h.found i read hold
    · exact h.row _ read hread
  · rw [hversions, hrows]
    exact h.row
  · rw [hversions, hrows]
    exact h.latest
  · rw [hversions]
    exact h.distinct
  · rw [hversions]
    exact fun s hs => h.recorded s (hsub s hs)
  · exact fun s hs s' hs' => h.single s (hsub s hs) s' (hsub s' hs')
  · exact fun s hs => Deployment.issued_mono hstep (h.issued s (hsub s hs))
  · intro i id hi
    rcases Deployment.snapshotId_cases hstep hi with hold | ⟨_, _, hworld, _⟩
    · exact Deployment.issued_mono hstep (h.held i id hold)
    · rw [hworld]
      exact List.mem_cons_self
  · intro i j id hi hj
    rcases Deployment.snapshotId_cases hstep hi with holdi | ⟨rfl, hfresh, _⟩ <;>
      rcases Deployment.snapshotId_cases hstep hj with holdj | ⟨rfl, hfresh', _⟩
    · exact h.apart i j id holdi holdj
    · exact absurd (h.held i id holdi) hfresh'
    · exact absurd (h.held j id holdj) hfresh
    · rfl
  · intro i id hi hnone s hs
    rw [hland] at hnone
    rcases Deployment.snapshotId_cases hstep hi with hold | ⟨_, hfresh, _⟩
    · exact h.unused i id hold hnone s (hsub s hs)
    · rintro rfl
      exact hfresh (h.issued s (hsub s hs))

/-- **One step keeps the chronicle.** -/
theorem Chronicle.step (henabled : d.app.service.snapshotsEnabled = true)
    (h : Chronicle d tasks t l) (hstep : LedgerStep d.env l e l') :
    Chronicle d tasks (t ++ [e]) l' := by
  cases hlanded : landedRow e.op e.res with
  | none => exact h.step_quiet hstep hlanded
  | some record => exact h.step_landed henabled hstep hlanded

/-- A call that has landed a row does not forget it. -/
theorem Deployment.landed_mono (hstep : LedgerStep d.env l e l') {i : Nat}
    (hnone : (l'.locals i).landed = none) : (l.locals i).landed = none := by
  rw [Deployment.landed_eq hstep] at hnone
  split at hnone
  · exact (Option.or_eq_none_iff.mp hnone).2
  · exact hnone

/-- A writing call that lands nothing in a step leaves the database and the
caches alone. -/
theorem Deployment.unchanged_of_not_landed (hstep : LedgerStep d.env l e l')
    (htask : ((l.locals e.tid).task.publishArgs d.app).isSome ∨
      ((l.locals e.tid).task.updateArgs d.app).isSome)
    (hnone : (l'.locals e.tid).landed = none) :
    l'.world.db = l.world.db ∧ l'.world.caches = l.world.caches := by
  have hbefore := Deployment.landed_mono hstep hnone
  rw [Deployment.landed_eq hstep, if_pos rfl, hbefore, Option.or_none] at hnone
  have heffect := Deployment.effect hstep
  rw [hnone] at heffect
  constructor
  · generalize l'.world.db = db' at heffect ⊢
    cases heffect with
    | quiet => rfl
    | swept hcleanup => simp [hcleanup, Task.publishArgs, Task.updateArgs] at htask
    | registered hpost => simp [hpost, Task.publishArgs, Task.updateArgs] at htask
  · cases hstep with
    | @act i op r w hmay henv =>
        rcases op with op | _ | op | _ | _ | _
        · obtain ⟨db', _, rfl⟩ := henv
          rfl
        · obtain ⟨db', _, rfl⟩ := henv
          rfl
        · cases op with
          | get listId =>
              have hget : l.locals i = .start (.get listId) := hmay
              simp [hget, CallState.start, Task.publishArgs, Task.updateArgs] at htask
          | put record =>
              obtain ⟨_, listId, hget⟩ := hmay
              simp [hget, Task.publishArgs, Task.updateArgs] at htask
          | invalidate listId =>
              obtain ⟨_, record, args, _, hrecord, _⟩ := hmay
              simp only [] at hbefore
              rw [hrecord] at hbefore
              cases hbefore
        · obtain rfl := henv
          rfl
        · obtain rfl := henv
          rfl
        · obtain ⟨_, rfl⟩ := henv
          rfl

end Step

/-- Calls that have not landed a row at the end of a run had not before. -/
theorem Tracks.landed_mono {d : Deployment}
    {c c' : Pool Nat Port Port.Answer (Except Failure Value) World} {locals : Nat → CallState}
    (htracks : Tracks d.app c locals) {t : List PortEvent} (hrun : Run d.env c t c') :
    ∃ locals', (∀ i, (locals' i).landed = none → (locals i).landed = none) ∧
      Tracks d.app c' locals' :=
  Run.ledger htracks
    (I := fun _ l => ∀ i, (l.locals i).landed = none → (locals i).landed = none)
    (fun _ h => h) (fun _ _ _ _ h hstep i hnone => h i (Deployment.landed_mono hstep hnone))
    hrun

/-- Every run that starts without lists and snapshots has a chronicle. -/
theorem Chronicle.run {d : Deployment} (henabled : d.app.service.snapshotsEnabled = true)
    (tasks : Nat → Task) {w : World} (hrows : ∀ r, r ∉ w.db.rows)
    (hhistory : ∀ s, s ∉ w.db.history) {t : List PortEvent}
    {c : Pool Nat Port Port.Answer (Except Failure Value) World}
    (hrun : Run d.env (d.start tasks w) t c) :
    ∃ locals, Chronicle d tasks t ⟨c.world, locals⟩ ∧ Tracks d.app c locals :=
  Run.ledger (Tracks.start d tasks w) (Chronicle.start d tasks hrows hhistory)
    (fun _ _ _ _ h hstep => h.step henabled hstep) hrun

/-- Without sweeps every version keeps its snapshot. -/
theorem Chronicle.committed {d : Deployment}
    (henabled : d.app.service.snapshotsEnabled = true) (tasks : Nat → Task)
    (hsweeps : ∀ i cutoff, tasks i ≠ .cleanup cutoff) {w : World}
    (hrows : ∀ r, r ∉ w.db.rows) (hhistory : ∀ s, s ∉ w.db.history) {t : List PortEvent}
    {c : Pool Nat Port Port.Answer (Except Failure Value) World}
    (hrun : Run d.env (d.start tasks w) t c) :
    ∃ locals, (Chronicle d tasks t ⟨c.world, locals⟩ ∧
      ∀ v ∈ versions t, ∃ s ∈ c.world.db.history, Records s v) ∧ Tracks d.app c locals := by
  refine Run.ledger (Tracks.start d tasks w)
    (I := fun t l => Chronicle d tasks t l ∧
      ∀ v ∈ versions t, ∃ s ∈ l.world.db.history, Records s v)
    ⟨Chronicle.start d tasks hrows hhistory, nofun⟩ ?_ hrun
  rintro t l e l' ⟨h, hall⟩ hstep
  refine ⟨h.step henabled hstep, ?_⟩
  cases hlanded : landedRow e.op e.res with
  | none =>
      have heffect := Deployment.effect hstep
      rw [hlanded] at heffect
      have hkeep : l'.world.db.history = l.world.db.history := by
        generalize l'.world.db = db' at heffect ⊢
        cases heffect with
        | quiet => rfl
        | swept hcleanup =>
            rw [h.task] at hcleanup
            exact absurd hcleanup (hsweeps _ _)
        | registered _ _ _ _ hhistory => exact hhistory
      rw [versions_append, hlanded, hkeep]
      simpa using hall
  | some record =>
      obtain ⟨id, exp, hid, hwritten⟩ := Deployment.landed_snapshot henabled hstep hlanded
      have hmem := h.mem_history hid (Deployment.fresh_of_landed hstep hlanded) hwritten
      intro v hv
      rw [versions_append, hlanded, Option.toList_some, List.mem_append,
        List.mem_singleton] at hv
      rcases hv with hv | rfl
      · obtain ⟨s, hs, hrec⟩ := hall v hv
        exact ⟨s, (hmem s).mpr (Or.inr hs), hrec⟩
      · exact ⟨_, (hmem _).mpr (Or.inl rfl), records_snapshotOf id v exp⟩

/-- **Rows and history stay in step, and failures change nothing.**  With
snapshots enabled, in every state reachable by publications and updates: every
version ever committed has exactly one snapshot, every snapshot records a
committed version, no two snapshots of a list share an `iat`, stored rows are
committed versions, and no operation of a call that ends with an error changes
the database or a cache. -/
theorem rows_and_history_in_step (d : Deployment)
    (henabled : d.app.service.snapshotsEnabled = true) (tasks : Nat → Task)
    (hwrites : ∀ i, ((tasks i).publishArgs d.app).isSome ∨
      ((tasks i).updateArgs d.app).isSome)
    {w : World} (hrows : ∀ r, r ∉ w.db.rows) (hhistory : ∀ s, s ∉ w.db.history)
    {t : List PortEvent} {c : Pool Nat Port Port.Answer (Except Failure Value) World}
    (hrun : Run d.env (d.start tasks w) t c) :
    (∀ v ∈ versions t, ∃ s, (s ∈ c.world.db.history ∧ Records s v) ∧
      ∀ s', s' ∈ c.world.db.history ∧ Records s' v → s' = s) ∧
    (∀ s ∈ c.world.db.history, ∃ v ∈ versions t, Records s v) ∧
    (∀ s ∈ c.world.db.history, ∀ s' ∈ c.world.db.history, s.listId = s'.listId →
      s.iat = s'.iat → s = s') ∧
    (∀ row ∈ c.world.db.rows, row ∈ versions t) ∧
    ∀ t₁ c₁ e c₂ t₂ failure, Run d.env (d.start tasks w) t₁ c₁ → Step d.env c₁ e c₂ →
      Run d.env c₂ t₂ c → c.threads e.tid = .ret (.error failure) →
      c₂.world.db = c₁.world.db ∧ c₂.world.caches = c₁.world.caches := by
  have hsweeps : ∀ i cutoff, tasks i ≠ .cleanup cutoff := by
    intro i cutoff hcleanup
    have := hwrites i
    simp [hcleanup, Task.publishArgs, Task.updateArgs] at this
  obtain ⟨locals, ⟨h, hcommitted⟩, _⟩ :=
    Chronicle.committed henabled tasks hsweeps hrows hhistory hrun
  refine ⟨?_, h.recorded, h.single, ?_, ?_⟩
  · intro v hv
    obtain ⟨s, hs, hrec⟩ := hcommitted v hv
    refine ⟨s, ⟨hs, hrec⟩, ?_⟩
    rintro s' ⟨hs', hrec'⟩
    exact h.single s' hs' s hs (hrec'.listId.trans hrec.listId.symm)
      (hrec'.iat.trans hrec.iat.symm)
  · intro row hrow
    exact h.row row.listId row (Table.find?_eq_some.mpr ⟨hrow, rfl⟩)
  · intro t₁ c₁ e c₂ t₂ failure hrun₁ hstep hrun₂ hret
    obtain ⟨locals₁, h₁, htracks₁⟩ := Chronicle.run henabled tasks hrows hhistory hrun₁
    obtain ⟨locals₂, hledger, htracks₂⟩ := hstep.ledger htracks₁
    obtain ⟨locals₃, hmono, htracks₃⟩ := Tracks.landed_mono htracks₂ hrun₂
    have hended : (locals₃ e.tid).landed = none := htracks₃.ended hret
    exact Deployment.unchanged_of_not_landed hledger (by rw [h₁.task]; exact hwrites e.tid)
      (hmono _ hended)

/-- Call 0 publishes a list; every other call suspends its index 1. -/
def publishThenUpdate : Nat → Task
  | 0 => .publish sampleIssuer "list" "https://status.example.com/list"
      [⟨0, .valid⟩, ⟨1, .invalid⟩] sampleLimits
  | _ => .update sampleIssuer "list" [⟨1, .suspended⟩] sampleLimits

/-- The theorem at a publication and two racing updates: three calls end, two
versions are committed, and the losing update changed nothing. -/
theorem rows_and_history_in_step_sample :
    let schedule := turns 100 [0, 0, 0, 1, 2, 1, 2, 1, 2, 1, 2, 1, 2]
    let played := (sampleDeployment true).play publishThenUpdate emptyWorld schedule
    (versions played.1).map StatusListRecord.updatedAt = [100, 101] ∧
      (played.2.threads 2).result? = some (.error (.statusList (.error .conflict))) ∧
      ∀ v ∈ versions played.1, ∃ s, (s ∈ played.2.world.db.history ∧ Records s v) ∧
        ∀ s', s' ∈ played.2.world.db.history ∧ Records s' v → s' = s := by
  intro schedule played
  refine ⟨by decide +kernel, by decide +kernel, ?_⟩
  have hwrites : ∀ i, ((publishThenUpdate i).publishArgs (sampleApp true)).isSome ∨
      ((publishThenUpdate i).updateArgs (sampleApp true)).isSome := by
    intro i
    cases i with
    | zero => exact Or.inl rfl
    | succ n => exact Or.inr rfl
  exact (rows_and_history_in_step (sampleDeployment true) rfl publishThenUpdate hwrites
    (Table.not_mem_empty) (Table.not_mem_empty)
    ((sampleDeployment true).play_run rfl publishThenUpdate emptyWorld schedule)).1

end StatusListServer
