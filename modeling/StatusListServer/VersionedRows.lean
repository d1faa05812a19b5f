import StatusListServer.Deployment
import StatusListServer.StatusRuns

/-!
# The row of a list is a chain of updates

A guarded update lands only on the row it was computed from: stamps strictly
increase, so a row that a call has read and whose stamp is still current is the
current row.  Hence the stored list is always the published one with the
entries of the landed calls applied in commit order, and nothing is lost.
-/

namespace StatusListServer

open KeyedTable CheckedEval Interaction

/-- The event wrote the row of a list. -/
def landsOn (listId : String) (e : PortEvent) : Bool :=
  match landedRow e.op e.res with
  | some record => decide (record.listId = listId)
  | none => false

/-- An event that does not write the row of a list leaves it alone. -/
theorem Deployment.row_kept {d : Deployment} {l l' : Calls d.app} {e : PortEvent}
    (h : LedgerStep d.env l e l') {listId : String} (hquiet : landsOn listId e = false) :
    l'.world.db.rows.find? listId = l.world.db.rows.find? listId := by
  have heffect := Deployment.effect h
  have hother : ∀ record, landedRow e.op e.res = some record → listId ≠ record.listId := by
    rintro record hlanded rfl
    simp [landsOn, hlanded] at hquiet
  generalize landedRow e.op e.res = landed at heffect hother
  generalize l'.world.db = db' at heffect ⊢
  cases heffect with
  | quiet => rfl
  | swept _ hsweeps => rw [hsweeps.rows]
  | registered _ _ _ hrows => rw [hrows]
  | published _ _ hwritten => exact hwritten.find?_of_ne (hother _ rfl)
  | updated _ _ hwritten => exact hwritten.find?_of_ne (hother _ rfl)

/-- The calls whose write of a list has landed, in commit order. -/
def landedCalls (listId : String) (t : List PortEvent) : List Nat :=
  (t.filter (landsOn listId)).map Event.tid

/-- The entries a call was asked to apply. -/
def Task.entries (app : AppState) (task : Task) : List StatusEntry :=
  ((task.updateArgs app).map UpdateArgs.statuses).getD []

/-- Calls found the rows of the lists they read, and wrote the rows of the lists
they were asked to write. -/
structure OnTarget (app : AppState) (tasks : Nat → Task) (l : Calls app) : Prop where
  task : ∀ i, (l.locals i).task = tasks i
  found : ∀ i record, (l.locals i).found = some record → (tasks i).Reads app record.listId
  landed : ∀ i record args, (l.locals i).landed = some record →
    (tasks i).updateArgs app = some args → record.listId = args.listId

/-- At the start no call has written. -/
theorem OnTarget.start (d : Deployment) (tasks : Nat → Task) (w : World) :
    OnTarget d.app tasks ⟨w, fun i => CallState.start (tasks i)⟩ :=
  ⟨fun _ => rfl, nofun, nofun⟩

/-- One step keeps every call on its own list. -/
theorem OnTarget.step {d : Deployment} {tasks : Nat → Task} {l l' : Calls d.app}
    {e : PortEvent} (h : OnTarget d.app tasks l) (hstep : LedgerStep d.env l e l') :
    OnTarget d.app tasks l' where
  task := fun i => (Deployment.task_eq hstep i).trans (h.task i)
  found := by
    intro i record hfound
    rcases Deployment.found_cases hstep hfound with hold | ⟨_, _, hreads, _⟩
    · exact h.found i record hold
    · rwa [h.task i] at hreads
  landed := by
    intro i record args hlanded hargs
    rw [Deployment.landed_eq hstep] at hlanded
    split at hlanded
    · rename_i hi
      subst hi
      have heffect := Deployment.effect hstep
      cases hrow : landedRow e.op e.res with
      | none =>
          rw [hrow] at hlanded
          exact h.landed _ record args hlanded hargs
      | some row =>
          rw [hrow] at hlanded heffect
          cases hlanded
          cases heffect with
          | published hpublishing =>
              have hpub := hpublishing.task
              rw [h.task] at hpub
              cases htask : tasks e.tid <;>
                simp [htask, Task.publishArgs, Task.updateArgs] at hpub hargs
          | updated hupdating =>
              have hup := hupdating.task
              rw [h.task, hargs] at hup
              cases hup
              rw [hupdating.listId]
              rcases h.found _ _ hupdating.found with ⟨args', hargs', hid⟩ | hget
              · rw [hargs] at hargs'
                cases hargs'
                exact hid.symm
              · rw [hget] at hargs
                cases hargs
    · exact h.landed i record args hlanded hargs

/-- The history of one list that was stored at the start of a run. -/
structure Lineage (d : Deployment) (tasks : Nat → Task) (listId : String)
    (published : StatusListRecord) (t : List PortEvent) (l : Calls d.app)
    (row : StatusListRecord) : Prop where
  onTarget : OnTarget d.app tasks l
  stored : l.world.db.rows.find? listId = some row
  applied : (landedCalls listId t).foldlM (fun list i =>
    StatusList.update d.app.service.codec list ((tasks i).entries d.app))
      published.statusList = .ok row.statusList
  issuer : row.issuer = published.issuer
  sub : row.sub = published.sub
  found : ∀ i read, (l.locals i).found = some read → read.listId = listId →
    read = row ∨ read.updatedAt < row.updatedAt
  answered : ∀ i read, ⟨i, .store (.find listId), .ok (some read)⟩ ∈ t →
    read = row ∨ read.updatedAt < row.updatedAt
  landed : ∀ i, i ∈ landedCalls listId t ↔
    ∃ record, (l.locals i).landed = some record ∧ record.listId = listId
  nodup : (landedCalls listId t).Nodup

/-- At the start the row is the published one. -/
theorem Lineage.start (d : Deployment) (tasks : Nat → Task) {w : World} {listId : String}
    {published : StatusListRecord} (h : w.db.rows.find? listId = some published) :
    Lineage d tasks listId published [] ⟨w, fun i => CallState.start (tasks i)⟩ published where
  onTarget := .start d tasks w
  stored := h
  applied := rfl
  issuer := rfl
  sub := rfl
  found := nofun
  answered := nofun
  landed := fun i => ⟨nofun, fun ⟨_, h, _⟩ => by cases h⟩
  nodup := List.nodup_nil

/-- What a step does to the row of the list. -/
inductive RowStep (d : Deployment) (tasks : Nat → Task) (listId : String)
    (row : StatusListRecord) (l : Calls d.app) (e : PortEvent) : StatusListRecord → Prop
  | kept (hquiet : landsOn listId e = false) : RowStep d tasks listId row l e row
  | landed {next : StatusListRecord} (hlands : landsOn listId e = true)
      (hrow : landedRow e.op e.res = some next) (hlater : row.updatedAt < next.updatedAt)
      (hissuer : next.issuer = row.issuer) (hsub : next.sub = row.sub)
      (hactsFor : (l.locals e.tid).ActsFor d.app row.issuer)
      (hfresh : (l.locals e.tid).landed = none)
      (happlied : StatusList.update d.app.service.codec row.statusList
        ((tasks e.tid).entries d.app) = .ok next.statusList) :
      RowStep d tasks listId row l e next

/-- **One step of a lineage.**  The row is kept, or it is replaced by the update
of a call that had read exactly this row. -/
theorem Lineage.row_step {d : Deployment} {tasks : Nat → Task} {listId : String}
    {published row : StatusListRecord} {t : List PortEvent} {l l' : Calls d.app}
    {e : PortEvent} (h : Lineage d tasks listId published t l row)
    (hstep : LedgerStep d.env l e l') :
    ∃ next, l'.world.db.rows.find? listId = some next ∧
      RowStep d tasks listId row l e next := by
  have heffect := Deployment.effect hstep
  generalize l'.world.db = db' at heffect ⊢
  cases hlanded : landedRow e.op e.res with
  | none =>
      rw [hlanded] at heffect
      have hquiet : landsOn listId e = false := by simp [landsOn, hlanded]
      refine ⟨row, ?_, .kept hquiet⟩
      cases heffect with
      | quiet => exact h.stored
      | swept _ hsweeps => rw [hsweeps.rows, h.stored]
      | registered _ _ _ hrows => rw [hrows, h.stored]
  | some record =>
      rw [hlanded] at heffect
      by_cases hid : record.listId = listId
      · subst hid
        have hlands : landsOn record.listId e = true := by simp [landsOn, hlanded]
        cases heffect with
        | published _ habsent =>
            rw [h.stored] at habsent
            cases habsent
        | @updated args read _ snapshot _ hupdating hguard hwritten =>
            obtain ⟨current, hcurrent, hstamp⟩ := hguard
            rw [h.stored] at hcurrent
            cases hcurrent
            have hread : read = row := by
              rcases h.found _ _ hupdating.found hupdating.listId.symm with hread | hlt
              · exact hread
              · omega
            subst hread
            have hentries : (tasks e.tid).entries d.app = args.statuses := by
              have htask := hupdating.task
              rw [h.onTarget.task] at htask
              simp [Task.entries, htask]
            refine ⟨record, hwritten.find?_self, .landed hlands hlanded hupdating.later
              hupdating.issuer hupdating.sub hupdating.actsFor hupdating.fresh ?_⟩
            rw [hentries]
            exact hupdating.updated
      · have hquiet : landsOn listId e = false := by simp [landsOn, hlanded, hid]
        refine ⟨row, ?_, .kept hquiet⟩
        cases heffect with
        | published _ _ hwritten =>
            rw [hwritten.find?_of_ne (Ne.symm hid)]
            exact h.stored
        | updated _ _ hwritten =>
            rw [hwritten.find?_of_ne (Ne.symm hid)]
            exact h.stored

/-- The landed calls after one more event. -/
theorem landedCalls_append (listId : String) (t : List PortEvent) (e : PortEvent) :
    landedCalls listId (t ++ [e]) =
      landedCalls listId t ++ if landsOn listId e then [e.tid] else [] := by
  unfold landedCalls
  rw [List.filter_append, List.map_append]
  by_cases h : landsOn listId e = true
  · simp [h]
  · simp [h]

/-- The answer of a lookup is the stored row. -/
theorem Deployment.find_answer {d : Deployment} {l l' : Calls d.app} {i : Nat}
    {listId : String} {read : StatusListRecord}
    (h : LedgerStep d.env l ⟨i, .store (.find listId), .ok (some read)⟩ l') :
    l'.world = l.world ∧ l.world.db.rows.find? listId = some read := by
  cases h with
  | act hmay henv =>
      obtain ⟨db', hanswers, rfl⟩ := henv
      have hspec : Reads _ _ _ _ := hanswers.spec
      obtain rfl := hspec.unchanged
      exact ⟨rfl, (hspec.truth _ rfl).symm⟩

/-- Lineages persist. -/
theorem Lineage.step {d : Deployment} {tasks : Nat → Task} {listId : String}
    {published row : StatusListRecord} {t : List PortEvent} {l l' : Calls d.app}
    {e : PortEvent} (h : Lineage d tasks listId published t l row)
    (hstep : LedgerStep d.env l e l') :
    ∃ next, Lineage d tasks listId published (t ++ [e]) l' next ∧
      RowStep d tasks listId row l e next := by
  obtain ⟨next, hnext, hrow⟩ := h.row_step hstep
  have hlater : ∀ read, read = row ∨ read.updatedAt < row.updatedAt →
      read = next ∨ read.updatedAt < next.updatedAt := by
    intro read hread
    cases hrow with
    | kept _ => exact hread
    | landed _ _ hlt =>
        rcases hread with rfl | hread
        · exact Or.inr hlt
        · exact Or.inr (Int.lt_trans hread hlt)
  refine ⟨next, ⟨h.onTarget.step hstep, hnext, ?_, ?_, ?_, ?_, ?_, ?_, ?_⟩, hrow⟩
  · rw [landedCalls_append]
    cases hrow with
    | kept hquiet => simpa [hquiet] using h.applied
    | landed hlands _ _ _ _ _ _ happlied =>
        rw [if_pos hlands, foldlM_append_singleton, h.applied, ok_bind]
        exact happlied
  · cases hrow with
    | kept _ => exact h.issuer
    | landed _ _ _ hissuer => exact hissuer.trans h.issuer
  · cases hrow with
    | kept _ => exact h.sub
    | landed _ _ _ _ hsub => exact hsub.trans h.sub
  · intro i read hfound hid
    rcases Deployment.found_cases hstep hfound with hold | ⟨_, hworld, _, hread⟩
    · exact hlater read (h.found i read hold hid)
    · rw [hworld, ← hid, hread] at hnext
      cases hnext
      exact Or.inl rfl
  · intro i read hmem
    rcases List.mem_append.mp hmem with hmem | hmem
    · exact hlater read (h.answered i read hmem)
    · obtain rfl := List.mem_singleton.mp hmem
      obtain ⟨hworld, hread⟩ := Deployment.find_answer hstep
      rw [hworld, hread] at hnext
      cases hnext
      exact Or.inl rfl
  · intro i
    rw [landedCalls_append, List.mem_append, h.landed i, Deployment.landed_eq hstep]
    cases hlanded : landedRow e.op e.res with
    | none => simp [landsOn, hlanded]
    | some record =>
        have hfresh := Deployment.fresh_of_landed hstep hlanded
        by_cases hi : i = e.tid
        · subst hi
          by_cases hid : record.listId = listId
          · simp [landsOn, hlanded, hid]
          · simp [landsOn, hlanded, hid, hfresh]
        · by_cases hid : record.listId = listId
          · simp [landsOn, hlanded, hid, hi]
          · simp [landsOn, hlanded, hid, hi]
  · rw [landedCalls_append]
    cases hrow with
    | kept hquiet => simpa [hquiet] using h.nodup
    | landed hlands hrow _ _ _ _ hfresh =>
        rw [if_pos hlands, List.nodup_append]
        refine ⟨h.nodup, by simp, ?_⟩
        intro i hi j hj heq
        obtain rfl := List.mem_singleton.mp hj
        subst heq
        obtain ⟨record, hrecord, _⟩ := (h.landed _).mp hi
        rw [hfresh] at hrecord
        cases hrecord

/-- A lineage extends along every further run, and its stamps never go back. -/
theorem Lineage.extend {d : Deployment} {tasks : Nat → Task} {listId : String}
    {published row : StatusListRecord} {t t' : List PortEvent}
    {c c' : Pool Nat Port Port.Answer (Except Failure Value) World}
    {locals : Nat → CallState} (h : Lineage d tasks listId published t ⟨c.world, locals⟩ row)
    (htracks : Tracks d.app c locals) (hrun : Run d.env c t' c') :
    ∃ locals' row', Lineage d tasks listId published (t ++ t') ⟨c'.world, locals'⟩ row' ∧
      row.updatedAt ≤ row'.updatedAt ∧ Tracks d.app c' locals' := by
  obtain ⟨locals', ⟨row', hlineage, hle⟩, htracks'⟩ := Run.ledger htracks
    (I := fun t' l => ∃ row', Lineage d tasks listId published (t ++ t') l row' ∧
      row.updatedAt ≤ row'.updatedAt)
    ⟨row, by simpa using h, Int.le_refl _⟩ (by
      rintro t' l e l' ⟨mid, hmid, hle⟩ hstep
      obtain ⟨next, hnext, hrow⟩ := hmid.step hstep
      refine ⟨next, by simpa using hnext, ?_⟩
      cases hrow with
      | kept _ => exact hle
      | landed _ _ hlt => exact Int.le_of_lt (Int.lt_of_le_of_lt hle hlt)) hrun
  exact ⟨locals', row', hlineage, hle, htracks'⟩

/-- Every run has the lineage of every list stored at its start. -/
theorem Lineage.run {d : Deployment} {tasks : Nat → Task} {w : World} {listId : String}
    {published : StatusListRecord} (h : w.db.rows.find? listId = some published)
    {t : List PortEvent} {c : Pool Nat Port Port.Answer (Except Failure Value) World}
    (hrun : Run d.env (d.start tasks w) t c) :
    ∃ locals row, Lineage d tasks listId published t ⟨c.world, locals⟩ row ∧
      Tracks d.app c locals := by
  obtain ⟨locals, row, hlineage, _, htracks⟩ :=
    (Lineage.start d tasks h).extend (Tracks.start d tasks w) hrun
  exact ⟨locals, row, by simpa using hlineage, htracks⟩

/-- **No update is lost.**  In every run of any tasks, on any number of replicas
with any clock readings and any failing statements, a list that was stored at
the start is at every point the stored one with the entries of exactly the
landed calls applied in commit order; calls that ended with an error are not
among them and calls that ended well are.  Every commit advances the stamp and
nothing else touches the row, so a stale read never matches a guard again. -/
theorem no_lost_update (d : Deployment) (tasks : Nat → Task) {w : World} {listId : String}
    {published : StatusListRecord} (hpublished : w.db.rows.find? listId = some published)
    {t : List PortEvent} {c : Pool Nat Port Port.Answer (Except Failure Value) World}
    (hrun : Run d.env (d.start tasks w) t c) :
    ∃ row, c.world.db.rows.find? listId = some row ∧
      (landedCalls listId t).foldlM (fun list i =>
        StatusList.update d.app.service.codec list ((tasks i).entries d.app))
          published.statusList = .ok row.statusList ∧
      (landedCalls listId t).Nodup ∧
      (∀ i failure, c.threads i = .ret (.error failure) → i ∉ landedCalls listId t) ∧
      (∀ i args value, (tasks i).updateArgs d.app = some args → args.listId = listId →
        c.threads i = .ret (.ok value) → i ∈ landedCalls listId t) ∧
      (∀ e c', Step d.env c e c' → ∃ next, c'.world.db.rows.find? listId = some next ∧
        if landsOn listId e then row.updatedAt < next.updatedAt else next = row) ∧
      (∀ i read, ⟨i, .store (.find listId), .ok (some read)⟩ ∈ t → read = row ∨
        ∀ t' c', Run d.env c t' c' → ∃ later, c'.world.db.rows.find? listId = some later ∧
          read.updatedAt < later.updatedAt) := by
  obtain ⟨locals, row, hlineage, htracks⟩ := Lineage.run hpublished hrun
  refine ⟨row, hlineage.stored, hlineage.applied, hlineage.nodup, ?_, ?_, ?_, ?_⟩
  · intro i failure hret hi
    obtain ⟨record, hrecord, _⟩ := (hlineage.landed i).mp hi
    have hended : (locals i).landed = none := htracks.ended hret
    rw [hended] at hrecord
    cases hrecord
  · intro i args value hargs hid hret
    have hended := htracks.ended hret
    have hsome : ((locals i).task.updateArgs d.app).isSome := by
      rw [hlineage.onTarget.task i, hargs]
      rfl
    obtain ⟨record, hrecord⟩ : ∃ record, (locals i).landed = some record := by
      cases value with
      | record record => exact ⟨record, (hended.1 hsome).1⟩
      | _ => exact Option.isSome_iff_exists.mp (hended hsome).1
    exact (hlineage.landed i).mpr
      ⟨record, hrecord, (hlineage.onTarget.landed i record args hrecord hargs).trans hid⟩
  · intro e c' hstep
    obtain ⟨locals', hledger, _⟩ := hstep.ledger htracks
    obtain ⟨next, hnext, hrow⟩ := hlineage.step hledger
    refine ⟨next, hnext.stored, ?_⟩
    cases hrow with
    | kept hquiet => simp [hquiet]
    | landed hlands _ hlt => simpa [hlands] using hlt
  · intro i read hmem
    rcases hlineage.answered i read hmem with hread | hlt
    · exact Or.inl hread
    · refine Or.inr ?_
      intro t' c' hrun'
      obtain ⟨locals', later, hlater, hle, _⟩ := hlineage.extend htracks hrun'
      exact ⟨later, hlater.stored, Int.lt_of_lt_of_le hlt hle⟩

/-- The issuer of the samples. -/
def sampleIssuer : Issuer := ⟨"https://issuer.example.com"⟩

/-- The JWT library on one token, signed under one key. -/
def sampleJwt : JwtLibrary where
  Jwk := List BitStream.Byte
  DecodingKey := List BitStream.Byte
  decodeHeader := fun token =>
    if token = "header.claims.signature" then .ok "ES256" else .error "InvalidToken"
  insecureDecode := fun token =>
    if token = "header.claims.signature" then .ok sampleIssuer.name else .error "InvalidToken"
  parseJwk := .ok
  fromJwk := .ok
  decode := fun token key validation =>
    if token = "header.claims.signature" ∧ key = [1] ∧
        sampleIssuer.name ∈ validation.issuers then
      .ok ⟨sampleIssuer.name, 10, none, 20⟩
    else .error "InvalidSignature"

/-- The limits of the samples. -/
def sampleLimits : Limits := ⟨3600, 1000, 10, 1000⟩

/-- The application of the samples. -/
def sampleApp (snapshotsEnabled : Bool) : AppState where
  service := ⟨sampleCodec, snapshotsEnabled⟩
  serverDomain := "status.example.com"
  limits := sampleLimits
  managementAuth := ⟨60, 3600, []⟩
  jwt := sampleJwt
  uuidTryParse := fun _ => .ok ()
  jsonObject := fun _ => .ok ()

/-- One process over the in-memory adapters. -/
def sampleDeployment (snapshotsEnabled : Bool) : Deployment where
  app := sampleApp snapshotsEnabled
  backend := .memory snapshotsEnabled
  cache := MemoryCache.model
  replica := fun _ => 0
  batches := fun _ => 1

/-- Index 1 is invalid. -/
def sampleRow : StatusListRecord :=
  ⟨"list", sampleIssuer, ⟨1, "eNpjAgAAAwAD"⟩, "https://status.example.com/list", 10⟩

/-- The sample list is stored. -/
def sampleWorld : World where
  db := { Database.empty with rows := Table.empty.upsert sampleRow }
  caches := fun _ => Table.empty
  issued := []

/-- No lists, no snapshots, one registered issuer. -/
def emptyWorld : World where
  db := { Database.empty with credentials := Table.empty.upsert ⟨sampleIssuer, ⟨[1]⟩⟩ }
  caches := fun _ => Table.empty
  issued := []

/-- Calls 0 and 1 suspend index 1 of the sample list. -/
def sampleTasks : Nat → Task := fun _ =>
  .update sampleIssuer "list" [⟨1, .suspended⟩] sampleLimits

/-- Both calls read the row before either writes. -/
def sampleRace : List (Nat × Script) :=
  turns 5 [0, 1, 0, 1, 0, 1, 0, 1, 0, 1]

/-- The theorem at two racing calls with a clock behind the stored stamp: one
lands, the other ends with a conflict. -/
theorem no_lost_update_sample :
    let played := (sampleDeployment true).play sampleTasks sampleWorld sampleRace
    landedCalls "list" played.1 = [0] ∧
      (played.2.threads 1).result? = some (.error (.statusList (.error .conflict))) ∧
      ∃ row, played.2.world.db.rows.find? "list" = some row ∧
        StatusList.update sampleCodec sampleRow.statusList [⟨1, .suspended⟩] =
          .ok row.statusList := by
  intro played
  have hcalls : landedCalls "list" played.1 = [0] := by decide +kernel
  refine ⟨hcalls, by decide +kernel, ?_⟩
  obtain ⟨row, hrow, happlied, _⟩ := no_lost_update (sampleDeployment true) sampleTasks
    (show sampleWorld.db.rows.find? "list" = some sampleRow by decide)
    ((sampleDeployment true).play_run rfl sampleTasks sampleWorld sampleRace)
  refine ⟨row, hrow, ?_⟩
  rw [show landedCalls "list" ((sampleDeployment true).play sampleTasks sampleWorld
    sampleRace).1 = [0] from hcalls, List.foldlM_cons] at happlied
  obtain ⟨list, hupdate, hlast⟩ := bind_eq_ok happlied
  cases hlast
  exact hupdate

end StatusListServer
