import StatusListServer.AdapterOutcomes
import StatusListServer.CorruptLists
import StatusListServer.RunHistory
import StatusListServer.VersionedRows

/-!
# Conflicts have winners

`update_statuses` ends with `Conflict` when its guarded write matches no row.  The
contract of the ports allows that at any time; the adapters do it only when the guard
is false.  A call that was told to retry has therefore lost to another one: between
its read and its write some other call changed the list.
-/

namespace StatusListServer

open KeyedTable CheckedEval Interaction

/-! ## Guards that do not match -/

/-- An `UPDATE` that affects no row found no row with the expected stamp. -/
theorem Sql.not_guard_of_updateRow {fault : Option DbErr} {db db' : Database}
    {entity : StatusListRecord} {expected : Int}
    (h : Sql.updateRow fault db entity.listId entity expected = .ok (0, db')) :
    ¬ Guard db entity expected := by
  rintro ⟨current, hcurrent, hstamp⟩
  obtain ⟨hmem, hkey⟩ := Table.find?_eq_some.mp hcurrent
  have haddressed : 0 < db.rows.rows.countP (Sql.addresses entity.listId expected) :=
    List.countP_pos_iff.mpr ⟨current, hmem, by simp [Sql.addresses, hkey, hstamp]⟩
  unfold Sql.updateRow at h
  split at h
  · cases h
  · simp only at h
    split at h
    · cases h
    · injection h with h
      injection h with hcount _
      omega

/-- An update that affected no row has missed its guard. -/
theorem Sql.not_guard_of_updateOne {faults : SqlFaults} {db db' : Database}
    {record : StatusListRecord} {expected : Int}
    (h : Sql.updateOne faults db record.listId record expected = (.ok false, db')) :
    ¬ Guard db record expected := by
  unfold Sql.updateOne at h
  split at h
  · cases h
  split at h
  · cases h
  split at h
  · cases h
  rename_i n db'' hrow
  rcases Sql.commit_cases faults mapUpdateErr (decide (0 < n)) db db'' with ⟨e, he⟩ | he
  · rw [he] at h
    cases h
  rw [he] at h
  have hzero : n = 0 := by simpa using congrArg Prod.fst h
  subst hzero
  exact Sql.not_guard_of_updateRow hrow

/-- The same with history enabled. -/
theorem Sql.not_guard_of_updateOneWithSnapshot {faults : SqlFaults} {db db' : Database}
    {record : StatusListRecord} {expected : Int} {snapshot : StatusListSnapshot}
    (h : Sql.updateOneWithSnapshot faults db record.listId record expected snapshot =
      (.ok false, db')) :
    ¬ Guard db record expected := by
  unfold Sql.updateOneWithSnapshot at h
  split at h
  · cases h
  split at h
  · cases h
  split at h
  · cases h
  split at h
  · cases h
  · rename_i hrow
    exact Sql.not_guard_of_updateRow hrow
  split at h
  · cases h
  rename_i db'' _
  rcases Sql.commit_cases faults mapUpdateErr true db db'' with ⟨e, he⟩ | he
  · rw [he] at h
    cases h
  · rw [he] at h
    cases h

/-- A guarded write over the row `read` that matched nothing. -/
def Misses (read : StatusListRecord) : (op : Port) → op.Answer → Prop
  | .store (.update record expected), .ok false =>
      record.listId = read.listId ∧ expected = read.updatedAt
  | .store (.updateWithSnapshot record expected _), .ok false =>
      record.listId = read.listId ∧ expected = read.updatedAt
  | _, _ => False

/-- The answer of a repository is the domain error of a conflict. -/
def Refuses : (op : Port) → op.Answer → Prop
  | .store (.find _), answer => answer = .error .conflict
  | .store (.update _ _), answer => answer = .error .conflict
  | .store (.updateWithSnapshot _ _ _), answer => answer = .error .conflict
  | _, _ => False

/-- No error of a repository is a conflict. -/
theorem RepositoryError.toStatusListError_ne_conflict (e : RepositoryError) :
    e.toStatusListError ≠ .conflict := by
  cases e <;> simp [RepositoryError.toStatusListError]

/-- No operation of the adapter answers with a conflict. -/
theorem Sql.converted_ne_conflict {α : Type} {x : Except RepositoryError α × Database}
    {answer : Except StatusListError α} {db' : Database} (h : Sql.converted x = (answer, db')) :
    answer ≠ .error .conflict := by
  rintro rfl
  obtain ⟨result, db⟩ := x
  cases result with
  | ok a => cases h
  | error e =>
      have herror := congrArg Prod.fst h
      simp only [Sql.converted, Except.mapError, Except.error.injEq] at herror
      exact e.toStatusListError_ne_conflict herror

/-- A success comes from a success. -/
theorem Sql.converted_eq_ok {α : Type} {x : Except RepositoryError α × Database} {a : α}
    {db' : Database} (h : Sql.converted x = (.ok a, db')) : x = (.ok a, db') := by
  obtain ⟨result, db⟩ := x
  cases result with
  | ok b =>
      cases h
      rfl
  | error e => cases h

section Adapters

variable {backend : Backend} {op : StoreOp} {db db' : Database} {answer : op.Answer}

/-- No adapter answers with the error of a conflict. -/
theorem Backend.Answers.not_refuses (h : backend.Answers op db answer db') :
    ¬ Refuses (.store op) answer := by
  intro hrefuses
  cases backend with
  | memory withSnapshot =>
      obtain ⟨order, horder⟩ := h
      cases op with
      | find listId =>
          cases horder
          cases hrefuses
      | update record expected =>
          simp only [Memory.handle, Memory.update] at horder
          split at horder
          · cases horder
            cases hrefuses
          · cases horder
            cases hrefuses
      | updateWithSnapshot record expected snapshot =>
          simp only [Memory.handle, Memory.updateWithSnapshot, Memory.requireSnapshot] at horder
          split at horder
          · split at horder
            · cases horder
              cases hrefuses
            · cases horder
              cases hrefuses
          · cases horder
            cases hrefuses
      | _ => exact hrefuses
  | sql reserialise =>
      obtain ⟨faults, order, horder⟩ := h
      cases op with
      | find listId => exact Sql.converted_ne_conflict horder hrefuses
      | update record expected => exact Sql.converted_ne_conflict horder hrefuses
      | updateWithSnapshot record expected snapshot =>
          exact Sql.converted_ne_conflict horder hrefuses
      | _ => exact hrefuses

/-- **A guarded write misses only when its guard is false.** -/
theorem Backend.Answers.not_guard {read : StatusListRecord}
    (h : backend.Answers op db answer db') (hmiss : Misses read (.store op) answer) :
    db.rows.find? read.listId ≠ some read := by
  intro hrow
  cases op with
  | update record expected =>
      rcases answer with _ | _ | _
      · exact hmiss
      · obtain ⟨hlist, rfl⟩ := hmiss
        have hguard : Guard db record read.updatedAt := ⟨read, hlist ▸ hrow, rfl⟩
        cases backend with
        | memory withSnapshot =>
            obtain ⟨order, horder⟩ := h
            simp only [Memory.handle, Memory.update, Memory.guardMatches_of_guard hguard,
              if_true] at horder
            cases horder
        | sql reserialise =>
            obtain ⟨faults, order, horder⟩ := h
            exact Sql.not_guard_of_updateOne (Sql.converted_eq_ok horder) hguard
      · exact hmiss
  | updateWithSnapshot record expected snapshot =>
      rcases answer with _ | _ | _
      · exact hmiss
      · obtain ⟨hlist, rfl⟩ := hmiss
        have hguard : Guard db record read.updatedAt := ⟨read, hlist ▸ hrow, rfl⟩
        cases backend with
        | memory withSnapshot =>
            obtain ⟨order, horder⟩ := h
            simp only [Memory.handle, Memory.updateWithSnapshot, Memory.requireSnapshot,
              Memory.guardMatches_of_guard hguard, if_true] at horder
            split at horder <;> cases horder
        | sql reserialise =>
            obtain ⟨faults, order, horder⟩ := h
            exact Sql.not_guard_of_updateOneWithSnapshot (Sql.converted_eq_ok horder) hguard
      · exact hmiss
  | _ => exact hmiss

end Adapters

/-! ## What a call that was refused has done -/

/-- The log of a call that ends with a conflict: it read a row, wrote nothing until its
guarded write missed, or a repository refused it. -/
def Blamed (listId : String) (log : List (Exchange Port Port.Answer)) : Prop :=
  (∃ read before between op r, log = before ++ ⟨.store (.find listId), .ok (some read)⟩ ::
      (between ++ [⟨op, r⟩]) ∧ Misses read op r ∧
      ∀ x ∈ between, landedRow x.1 x.2 = none) ∨
    ∃ x ∈ log, Refuses x.1 x.2

/-- A miss after a read blames what happened between the two. -/
theorem Blamed.of_miss {listId : String} {log : List (Exchange Port Port.Answer)}
    {read : StatusListRecord} (between : List (Exchange Port Port.Answer)) {op : Port}
    {r : op.Answer} (hmiss : Misses read op r) (hquiet : ∀ x ∈ between, landedRow x.1 x.2 = none) :
    Blamed listId (log ++ ⟨.store (.find listId), .ok (some read)⟩ :: (between ++ [⟨op, r⟩])) :=
  .inl ⟨read, log, between, op, r, rfl, hmiss, hquiet⟩

/-- No update of a list has the error of a conflict, whatever the stored list holds. -/
theorem update_ne_conflict (codec : Codec) (list : StatusList) (entries : List StatusEntry) :
    StatusList.update codec list entries ≠ .error (.error .conflict) := by
  have hreported : ∀ {r : Eval StatusListError StatusList}, Reported r →
      r ≠ .error (.error .conflict) := by
    rintro r (⟨_, rfl⟩ | ⟨_, rfl⟩ | ⟨_, rfl⟩ | rfl) <;> exact nofun
  cases entries with
  | nil => exact nofun
  | cons entry rest =>
      by_cases hacc : ∀ e ∈ entry :: rest, e.status.Accepted
      · rcases decodeCompressed_cases codec list.lst with ⟨bytes, hdecode⟩ | ⟨message, hdecode⟩
        · by_cases hzero : list.bits.toNat = 0
          · rw [update_zero_width hzero (by simp) hacc hdecode]
            exact nofun
          by_cases hle : list.bits.toNat ≤ 32
          · exact hreported (update_reported (Nat.pos_of_ne_zero hzero) hle (by simp) hacc hdecode)
          · rw [update_wide (Nat.not_le.mp hle) hacc hdecode]
            split <;> exact nofun
        · rw [update_eq codec list (by simp) hacc, hdecode]
          exact nofun
      · push Not at hacc
        rw [update_of_refused codec list hacc]
        exact nofun

/-- The first check does not find conflicts. -/
theorem checkStatuses_ne_conflict (statuses : List StatusEntry) (limits : Limits) :
    checkStatuses statuses limits ≠ .error (.error .conflict) := by
  unfold checkStatuses
  split
  · exact nofun
  · split <;> exact nofun

/-- Nor does the second. -/
theorem checkSize_ne_conflict (list : StatusList) (limits : Limits) :
    checkSize list limits ≠ .error (.error .conflict) := by
  unfold checkSize
  split <;> exact nofun

/-- Every program keeps to the discipline that allows everything. -/
theorem obeys_log {α : Type} (p : PortProg α) (log : List (Exchange Port Port.Answer)) :
    p.Obeys (logDiscipline Port Port.Answer) (fun _ _ => True) log := by
  induction p generalizing log with
  | ret a => trivial
  | call op k ih => exact ⟨trivial, fun r => ih r _⟩

/-- `update_statuses` ends with a conflict only after its guarded write has missed. -/
theorem updateStatuses_blamed (service : Service) (issuer : Issuer) (listId : String)
    (statuses : List StatusEntry) (limits : Limits) (log : List (Exchange Port Port.Answer)) :
    Prog.Obeys (logDiscipline Port Port.Answer)
      (fun log result => result = .error (.error .conflict) → Blamed listId log) log
      (service.updateStatuses issuer listId statuses limits).run := by
  -- A step that stops with another error proves nothing about conflicts.
  have hother : ∀ {α : Type} {x : Eval StatusListError α} {log}, x ≠ .error (.error .conflict) →
      ∀ e, x = .error e → (Except.error e : Eval StatusListError StatusListRecord) =
        .error (.error .conflict) → Blamed listId log := by
    intro α x log hne e hx he
    cases he
    exact absurd hx hne
  unfold Service.updateStatuses
  refine obeys_ofEval_bind (hother (checkStatuses_ne_conflict statuses limits)) ?_
  intro _ _
  refine obeys_ask_bind trivial ?_
  intro answer
  refine obeys_ofAnswer_bind ?_ ?_
  · rintro e rfl he
    cases he
    exact .inr ⟨⟨.store (.find listId), .error .conflict⟩, by simp, rfl⟩
  rintro found rfl
  refine obeys_okOr_bind (fun _ => nofun) ?_
  rintro existing rfl
  dsimp only
  split
  · exact nofun
  refine obeys_ofEval_bind (hother (update_ne_conflict service.codec existing.statusList
    statuses)) ?_
  intro statusList _
  refine obeys_ofEval_bind (hother (checkSize_ne_conflict statusList limits)) ?_
  intro _ _
  refine obeys_ask_bind trivial ?_
  intro now
  split
  · refine obeys_buildSnapshot_bind trivial ?_
    intro snapshotId
    refine obeys_ask_bind trivial ?_
    intro answer
    refine obeys_ofAnswer_bind ?_ ?_
    · rintro e rfl he
      cases he
      exact .inr ⟨_, List.mem_append_right _ (List.mem_singleton.mpr rfl), rfl⟩
    · rintro landed rfl
      cases landed with
      | true => exact ⟨trivial, fun _ => nofun⟩
      | false =>
          intro _
          have hmiss : ∀ record snapshot, record.listId = existing.listId → Misses existing
              (.store (.updateWithSnapshot record existing.updatedAt snapshot)) (.ok false) :=
            fun _ _ hlist => ⟨hlist, rfl⟩
          simp only [List.append_assoc, List.cons_append, List.nil_append]
          exact Blamed.of_miss [⟨.currentUnixTimestamp, now⟩, ⟨.newUuid, snapshotId⟩]
            (hmiss _ _ rfl) (by simp [landedRow])
  · refine obeys_ask_bind trivial ?_
    intro answer
    refine obeys_ofAnswer_bind ?_ ?_
    · rintro e rfl he
      cases he
      exact .inr ⟨_, List.mem_append_right _ (List.mem_singleton.mpr rfl), rfl⟩
    · rintro landed rfl
      cases landed with
      | true => exact ⟨trivial, fun _ => nofun⟩
      | false =>
          intro _
          have hmiss : ∀ record, record.listId = existing.listId → Misses existing
              (.store (.update record existing.updatedAt)) (.ok false) :=
            fun _ hlist => ⟨hlist, rfl⟩
          simp only [List.append_assoc, List.cons_append, List.nil_append]
          exact Blamed.of_miss [⟨.currentUnixTimestamp, now⟩] (hmiss _ rfl) (by simp [landedRow])

/-- A task that updates a list ends with a conflict only after its guarded write has
missed. -/
theorem serve_blamed (app : AppState) {task : Task} {args : UpdateArgs}
    (htask : task.updateArgs app = some args) :
    Prog.Obeys (logDiscipline Port Port.Answer)
      (fun log result => result = .error (.statusList (.error .conflict)) →
        Blamed args.listId log) [] (task.serve app) := by
  cases task with
  | update issuer listId statuses limits =>
      cases htask
      refine obeys_ofService_bind (updateStatuses_blamed app.service issuer listId statuses
        limits []) ?_ ?_
      · rintro log e h he
        cases he
        exact h rfl
      · exact fun log record _ => nofun
  | patchStatuses authorization listId statuses =>
      cases htask
      refine obeys_ofAuth_bind (obeys_log _ []) (fun log e _ => nofun) ?_
      intro log principal _
      refine obeys_check_bind ?_ ?_
      · rintro e he hconflict
        cases hconflict
        unfold checkListId at he
        cases huuid : app.uuidTryParse listId with
        | ok u => simp [huuid, Except.mapError] at he
        | error m => simp [huuid, Except.mapError] at he
      intro _ _
      refine obeys_ofService_bind (updateStatuses_blamed app.service principal listId statuses
        app.limits log) ?_ ?_
      · rintro log e h he
        cases he
        exact h rfl
      · exact fun log record _ => nofun
  | _ => cases htask

/-- An update is no sweep. -/
theorem Task.ne_cleanup {app : AppState} {task : Task} {args : UpdateArgs}
    (htask : task.updateArgs app = some args) (cutoff : Int) : task ≠ .cleanup cutoff := by
  rintro rfl
  cases htask

/-! ## Who won -/

/-- A row that nobody writes stays as it is. -/
theorem Deployment.row_unwritten {d : Deployment}
    {c c' : Pool Nat Port Port.Answer (Except Failure Value) World} {locals : Nat → CallState}
    (htracks : Tracks d.app c locals) {t : List PortEvent} (hrun : Run d.env c t c')
    {listId : String} (hquiet : ∀ e ∈ t, landsOn listId e = false) :
    c'.world.db.rows.find? listId = c.world.db.rows.find? listId ∧
      ∃ locals', Tracks d.app c' locals' := by
  obtain ⟨locals', hrow, htracks'⟩ := Run.ledger htracks
    (I := fun t l => (∀ e ∈ t, landsOn listId e = false) →
      l.world.db.rows.find? listId = c.world.db.rows.find? listId) (fun _ => rfl)
    (by
      intro t l e l' h hstep hquiet
      rw [Deployment.row_kept hstep (hquiet e (by simp))]
      exact h (fun e' he' => hquiet e' (List.mem_append_left _ he'))) hrun
  exact ⟨hrow hquiet, locals', htracks'⟩

/-- **Every conflict has a winner.**  In every run of any tasks, over either adapter, on
any number of replicas with any failures: when an update ends with `Conflict`, it has
read a row, its guarded write of that list has missed, and in between another call has
written the list.  Calls that update a list without such competition never conflict. -/
theorem conflict_has_winner (d : Deployment) (tasks : Nat → Task) {w : World}
    {t : List PortEvent} {c : Pool Nat Port Port.Answer (Except Failure Value) World}
    (hrun : Run d.env (d.start tasks w) t c) {i : Nat} {args : UpdateArgs}
    (htask : (tasks i).updateArgs d.app = some args)
    (hret : c.threads i = .ret (.error (.statusList (.error .conflict)))) :
    ∃ t₁ read t₂ op r t₃, t = t₁ ++ ⟨i, .store (.find args.listId), .ok (some read)⟩ ::
        (t₂ ++ ⟨i, op, r⟩ :: t₃) ∧ Misses read op r ∧
      ∃ e ∈ t₂, e.tid ≠ i ∧ landsOn args.listId e = true := by
  have hstart : (d.start tasks w).threads i = (tasks i).serve d.app :=
    Deployment.start_thread rfl (Task.ne_cleanup htask)
  have hobeys := hrun.exchanged (hstart ▸ serve_blamed d.app htask)
  rw [hret] at hobeys
  rcases hobeys rfl with ⟨read, before, between, op, r, hlog, hmiss, hquiet⟩ | ⟨x, hx, hrefuses⟩
  · obtain ⟨t₁, rest, rfl, _, hrest⟩ := exchanges_split hlog
    obtain ⟨t₂, t₃, rfl, hbetween, _⟩ := exchanges_split hrest
    refine ⟨t₁, read, t₂, op, r, t₃, rfl, hmiss, ?_⟩
    by_contra hnone
    push Not at hnone
    -- Nobody wrote the list in between, so the row read is still there and matches.
    obtain ⟨c₁, hrun₁, hrun⟩ := hrun.split
    obtain ⟨c₂, hfind, hrun⟩ := hrun.uncons
    obtain ⟨c₃, hrun₂, hrun⟩ := hrun.split
    obtain ⟨c₄, hwrite, _⟩ := hrun.uncons
    obtain ⟨locals₁, _, htracks₁⟩ := Run.ledger (Tracks.start d tasks w)
      (I := fun _ _ => True) trivial (fun _ _ _ _ _ _ => trivial) hrun₁
    obtain ⟨locals₂, hledger, htracks₂⟩ := hfind.ledger htracks₁
    obtain ⟨hworld, hread⟩ := Deployment.find_answer hledger
    have hunwritten : ∀ e ∈ t₂, landsOn args.listId e = false := by
      intro e he
      by_cases hi : e.tid = i
      · have hmem : (⟨e.op, e.res⟩ : Exchange Port Port.Answer) ∈ exchanges i t₂ :=
          List.mem_filterMap.mpr ⟨e, he, by simp [hi]⟩
        rw [hbetween] at hmem
        simp [landsOn, hquiet _ hmem]
      · simpa using hnone e he hi
    obtain ⟨hkept, locals₃, htracks₃⟩ := Deployment.row_unwritten htracks₂ hrun₂ hunwritten
    have hrow : c₃.world.db.rows.find? read.listId = some read := by
      have hsame : c₂.world = c₁.world := hworld
      rw [Table.key_of_find? hread, hkept, hsame]
      exact hread
    cases hwrite with
    | call _ henv =>
        cases op with
        | store op =>
            obtain ⟨db', hanswers, _⟩ := henv
            exact hanswers.not_guard hmiss hrow
        | _ => exact hmiss
  · obtain ⟨before, after, hlog⟩ := List.append_of_mem hx
    obtain ⟨op, r⟩ := x
    obtain ⟨t₁, rest, rfl, _, _⟩ := exchanges_split hlog
    obtain ⟨c₁, _, hrun⟩ := hrun.split
    obtain ⟨c₂, hstep, _⟩ := hrun.uncons
    cases hstep with
    | call _ henv =>
        cases op with
        | store op =>
            obtain ⟨db', hanswers, _⟩ := henv
            exact absurd hrefuses hanswers.not_refuses
        | _ => exact absurd hrefuses id

/-- The theorem at two racing calls: the one that conflicts lost to the other. -/
theorem conflict_has_winner_sample :
    let played := (sampleDeployment true).play sampleTasks sampleWorld sampleRace
    (played.2.threads 1).result? = some (.error (.statusList (.error .conflict))) ∧
      ∃ t₁ read t₂ op r t₃, played.1 = t₁ ++ ⟨1, .store (.find "list"), .ok (some read)⟩ ::
          (t₂ ++ ⟨1, op, r⟩ :: t₃) ∧ Misses read op r ∧
        ∃ e ∈ t₂, e.tid ≠ 1 ∧ landsOn "list" e = true := by
  intro played
  have hret : (played.2.threads 1).result? = some (.error (.statusList (.error .conflict))) := by
    decide +kernel
  have htask : (sampleTasks 1).updateArgs (sampleApp true) =
      some ⟨"list", [⟨1, .suspended⟩], 3600⟩ := rfl
  exact ⟨hret, conflict_has_winner (sampleDeployment true) sampleTasks
    ((sampleDeployment true).play_run rfl sampleTasks sampleWorld sampleRace) htask
    (Prog.eq_ret_of_result? hret)⟩

end StatusListServer
