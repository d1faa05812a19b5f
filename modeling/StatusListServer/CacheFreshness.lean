import StatusListServer.VersionedRows

/-!
# Reading one's own writes through the cache

`get_status_list` fills the cache with the row it read some steps ago, and
`update_statuses` removes the entry after its commit.  An update that commits
and invalidates between a reader's `find` and its `put` is undone in the cache:
the reader puts the old row back, and readers that start later are served from
it.  This file shows that nothing else goes wrong, in one process whose cache
operations succeed.
-/

namespace StatusListServer

open KeyedTable CheckedEval Interaction

/-- The record an event put into a cache. -/
def putRecord (e : PortEvent) : Option StatusListRecord :=
  match e.op with
  | .cache (.put record) => some record
  | _ => none

/-- The event removed an entry from a cache. -/
def isInvalidation (e : PortEvent) : Bool :=
  match e.op with
  | .cache (.invalidate _) => true
  | _ => false

/-- The row a call has written in a run. -/
def landedBy (t : List PortEvent) (i : Nat) : Option StatusListRecord :=
  t.findSome? (fun e => if e.tid = i then landedRow e.op e.res else none)

theorem landedBy_append (t : List PortEvent) (e : PortEvent) (i : Nat) :
    landedBy (t ++ [e]) i =
      (landedBy t i).or (if e.tid = i then landedRow e.op e.res else none) := by
  unfold landedBy
  rw [List.findSome?_append]
  congr 1
  cases h : (if e.tid = i then landedRow e.op e.res else none) with
  | none => simp [h]
  | some record => simp [h]

/-- An update removed a list from the cache after it had written a newer version
than the one put into the cache. -/
def StalePut (t : List PortEvent) (invalidation put : PortEvent) : Prop :=
  isInvalidation invalidation = true ∧ ∃ written ∈ landedBy t invalidation.tid,
    ∃ record ∈ putRecord put, written.listId = record.listId ∧
      record.updatedAt < written.updatedAt

instance (t : List PortEvent) (invalidation put : PortEvent) :
    Decidable (StalePut t invalidation put) :=
  inferInstanceAs (Decidable (_ ∧ ∃ written ∈ landedBy t invalidation.tid,
    ∃ record ∈ putRecord put, _ ∧ _))

/-- No record is put into the cache after a newer version of its list has been
invalidated. -/
def PutsFresh (t : List PortEvent) : Prop :=
  t.Pairwise (fun e e' => ¬ StalePut t e e')

instance (t : List PortEvent) : Decidable (PutsFresh t) :=
  inferInstanceAs (Decidable (t.Pairwise _))

/-- What a longer run asks of its last event. -/
theorem putsFresh_append {t : List PortEvent} {e : PortEvent} (h : PutsFresh (t ++ [e])) :
    PutsFresh t ∧ ∀ e₀ ∈ t, ¬ StalePut (t ++ [e]) e₀ e := by
  obtain ⟨hinit, _, hlast⟩ := List.pairwise_append.mp h
  refine ⟨hinit.imp ?_, fun e₀ he₀ => hlast e₀ he₀ e (List.mem_singleton.mpr rfl)⟩
  rintro e₁ e₂ hfresh ⟨hinvalidation, written, hwritten, hstale⟩
  refine hfresh ⟨hinvalidation, written, ?_, hstale⟩
  rw [Option.mem_def] at hwritten ⊢
  rw [landedBy_append, hwritten, Option.some_or]

/-- A part of a run without stale puts. -/
theorem putsFresh_left {t₁ t₂ : List PortEvent} (h : PutsFresh (t₁ ++ t₂)) : PutsFresh t₁ := by
  induction t₂ using List.reverseRecOn with
  | nil => simpa using h
  | append_singleton t₂ e ih =>
      rw [← List.append_assoc] at h
      exact ih (putsFresh_append h).1

/-- Written rows are not forgotten: the stored row of a list is at least as new
as every landed row, and so is its cache entry once the update has invalidated
it. -/
structure Settled (d : Deployment) (tasks : Nat → Task) (t : List PortEvent)
    (l : Calls d.app) : Prop where
  onTarget : OnTarget d.app tasks l
  idle : ∀ i, (∀ e ∈ t, e.tid ≠ i) → l.locals i = .start (tasks i)
  landed : ∀ i, (l.locals i).landed = landedBy t i
  invalidated : ∀ i, (l.locals i).invalidated = true ↔
    ∃ e ∈ t, e.tid = i ∧ isInvalidation e = true
  updated : ∀ i, (l.locals i).invalidated = true →
    ((tasks i).updateArgs d.app).isSome ∧ ∃ written, (l.locals i).landed = some written
  row : ∀ i written, (l.locals i).landed = some written →
    ∃ row, l.world.db.rows.find? written.listId = some row ∧ written.updatedAt ≤ row.updatedAt
  cache : ∀ i written, (l.locals i).landed = some written → (l.locals i).invalidated = true →
    ∀ j record, (l.world.caches (d.replica j)).find? written.listId = some record →
      written.updatedAt ≤ record.updatedAt

theorem Settled.start (d : Deployment) (tasks : Nat → Task) (w : World) :
    Settled d tasks [] ⟨w, fun i => CallState.start (tasks i)⟩ where
  onTarget := .start d tasks w
  idle := fun _ _ => rfl
  landed := fun _ => rfl
  invalidated := fun i => by simp [CallState.start]
  updated := fun i h => by simp [CallState.start] at h
  row := fun i written h => by simp [CallState.start] at h
  cache := fun i written h => by simp [CallState.start] at h

section Step

variable {d : Deployment} {tasks : Nat → Task} {t : List PortEvent} {l l' : Calls d.app}
  {e : PortEvent}

/-- What a step does to the cache of a process whose operations succeed. -/
inductive CacheStep (d : Deployment) (l : Calls d.app) (e : PortEvent) (l' : Calls d.app) : Prop
  | kept (hcaches : l'.world.caches = l.world.caches) (hput : putRecord e = none)
      (hinvalidation : isInvalidation e = false)
  | put {record : StatusListRecord} (hput : putRecord e = some record)
      (hinvalidation : isInvalidation e = false) (hlanded : landedRow e.op e.res = none)
      (hcaches : l'.world.caches = Function.update l.world.caches (d.replica e.tid)
        ((l.world.caches (d.replica e.tid)).upsert record))
  | invalidated {written : StatusListRecord} (hput : putRecord e = none)
      (hinvalidation : isInvalidation e = true) (hlanded : landedRow e.op e.res = none)
      (hupdate : ((l.locals e.tid).task.updateArgs d.app).isSome)
      (hwritten : (l.locals e.tid).landed = some written)
      (hcaches : l'.world.caches = Function.update l.world.caches (d.replica e.tid)
        ((l.world.caches (d.replica e.tid)).remove written.listId))

theorem Deployment.cacheStep (hcache : d.cache = MemoryCache.model)
    (h : LedgerStep d.env l e l') : CacheStep d l e l' := by
  cases h with
  | @act i op r w hmay henv =>
      rcases op with op | _ | op | _ | _ | _
      · obtain ⟨db', _, rfl⟩ := henv
        exact .kept rfl rfl rfl
      · obtain ⟨db', _, rfl⟩ := henv
        exact .kept rfl rfl rfl
      · obtain ⟨values, hanswers, rfl⟩ := henv
        rw [hcache] at hanswers
        cases op with
        | get listId =>
            cases hanswers
            exact .kept (Function.update_eq_self _ _) rfl rfl
        | put record =>
            cases hanswers
            exact .put rfl rfl rfl rfl
        | invalidate listId =>
            cases hanswers
            obtain ⟨_, written, args, hargs, hwritten, rfl⟩ := hmay
            exact .invalidated rfl rfl rfl (by simp [hargs]) hwritten rfl
      · obtain rfl := henv
        exact .kept rfl rfl rfl
      · obtain rfl := henv
        exact .kept rfl rfl rfl
      · obtain ⟨_, rfl⟩ := henv
        exact .kept rfl rfl rfl

/-- A call has invalidated once one of its operations has. -/
theorem Deployment.invalidated_eq (h : LedgerStep d.env l e l') (i : Nat) :
    (l'.locals i).invalidated =
      if i = e.tid then isInvalidation e || (l.locals i).invalidated
      else (l.locals i).invalidated := by
  rw [Deployment.locals_eq h]
  by_cases hi : i = e.tid
  · subst hi
    rw [Function.update_self, if_pos rfl]
    obtain ⟨i, op, r⟩ := e
    rcases op with op | _ | op | _ | _ | _
    · cases op <;> rfl
    · rfl
    · cases op <;> rfl
    all_goals rfl
  · simp [hi]

/-- Rows a call has landed stay landed. -/
theorem Deployment.landed_persists (h : LedgerStep d.env l e l') {i : Nat}
    {written : StatusListRecord} (hwritten : (l.locals i).landed = some written) :
    (l'.locals i).landed = some written := by
  rw [Deployment.landed_eq h]
  split
  · rename_i hi
    subst hi
    cases hlanded : landedRow e.op e.res with
    | none => exact hwritten
    | some record =>
        rw [Deployment.fresh_of_landed h hlanded] at hwritten
        cases hwritten
  · exact hwritten

/-- The landed rows are those of the trace. -/
theorem Settled.landed_step (h : Settled d tasks t l) (hstep : LedgerStep d.env l e l') (i : Nat) :
    (l'.locals i).landed = landedBy (t ++ [e]) i := by
  rw [landedBy_append, ← h.landed i]
  cases hbefore : (l.locals i).landed with
  | some written => exact Deployment.landed_persists hstep hbefore
  | none =>
      rw [Deployment.landed_eq hstep, hbefore, Option.none_or, Option.or_none]
      by_cases hi : i = e.tid
      · simp [hi]
      · simp [hi, Ne.symm hi]

/-- A call that has invalidated is an update and had landed its row before. -/
theorem Settled.updated_before (hcache : d.cache = MemoryCache.model) (h : Settled d tasks t l)
    (hstep : LedgerStep d.env l e l') {i : Nat}
    (hinvalidated : (l'.locals i).invalidated = true) :
    ((tasks i).updateArgs d.app).isSome ∧ ∃ written, (l.locals i).landed = some written := by
  rw [Deployment.invalidated_eq hstep] at hinvalidated
  split at hinvalidated
  · rename_i hi
    subst hi
    rcases Bool.or_eq_true_iff.mp hinvalidated with hnow | hold
    · cases Deployment.cacheStep hcache hstep with
      | kept _ _ hno =>
          rw [hno] at hnow
          cases hnow
      | put _ hno =>
          rw [hno] at hnow
          cases hnow
      | invalidated _ _ _ hupdate hwritten =>
          rw [h.onTarget.task] at hupdate
          exact ⟨hupdate, _, hwritten⟩
    · exact h.updated _ hold
  · exact h.updated i hinvalidated

/-- The calls that have invalidated are those of the trace. -/
theorem Settled.invalidated_step (h : Settled d tasks t l) (hstep : LedgerStep d.env l e l')
    (i : Nat) : (l'.locals i).invalidated = true ↔
      ∃ e' ∈ t ++ [e], e'.tid = i ∧ isInvalidation e' = true := by
  rw [Deployment.invalidated_eq hstep]
  have hiff := h.invalidated i
  constructor
  · intro hinvalidated
    by_cases hnow : i = e.tid ∧ isInvalidation e = true
    · exact ⟨e, by simp, hnow.1.symm, hnow.2⟩
    · have hold : (l.locals i).invalidated = true := by
        by_cases hi : i = e.tid
        · simpa [hi, show isInvalidation e = false by simpa [hi] using hnow] using hinvalidated
        · simpa [hi] using hinvalidated
      obtain ⟨e', he', hevent⟩ := hiff.mp hold
      exact ⟨e', List.mem_append_left _ he', hevent⟩
  · rintro ⟨e', he', rfl, hevent⟩
    rcases List.mem_append.mp he' with he' | he'
    · rw [hiff.mpr ⟨e', he', rfl, hevent⟩]
      simp
    · obtain rfl := List.mem_singleton.mp he'
      simp [hevent]

/-- The stored row of a list stays as new as every row that has landed. -/
theorem Settled.row_step (h : Settled d tasks t l) (hstep : LedgerStep d.env l e l') {i : Nat}
    {written : StatusListRecord} (hwritten : (l'.locals i).landed = some written) :
    ∃ row, l'.world.db.rows.find? written.listId = some row ∧
      written.updatedAt ≤ row.updatedAt := by
  rw [Deployment.landed_eq hstep] at hwritten
  by_cases hnow : i = e.tid ∧ landedRow e.op e.res = some written
  · have heffect := Deployment.effect hstep
    rw [hnow.2] at heffect
    refine ⟨written, ?_, Int.le_refl _⟩
    cases heffect with
    | published _ _ hrow => exact hrow.find?_self
    | updated _ _ hrow => exact hrow.find?_self
  · have hold : (l.locals i).landed = some written := by
      by_cases hi : i = e.tid
      · cases hlanded : landedRow e.op e.res with
        | none => simpa [hi, hlanded] using hwritten
        | some record =>
            simp only [hi, if_true, hlanded, Option.some_or, Option.some.injEq] at hwritten
            exact absurd ⟨hi, by rw [hlanded, hwritten]⟩ hnow
      · simpa [hi] using hwritten
    obtain ⟨row, hrow, hle⟩ := h.row i written hold
    obtain ⟨next, hnext, hmono⟩ := Deployment.stamp_mono hstep hrow
    exact ⟨next, hnext, Int.le_trans hle hmono⟩

/-- The cache entry of a list stays as new as every row that was invalidated. -/
theorem Settled.cache_step (hcache : d.cache = MemoryCache.model)
    (hone : ∀ i j, d.replica i = d.replica j) (h : Settled d tasks t l)
    (hstep : LedgerStep d.env l e l') (hfresh : ∀ e₀ ∈ t, ¬ StalePut (t ++ [e]) e₀ e) {i : Nat}
    {written : StatusListRecord} (hwritten : (l'.locals i).landed = some written)
    (hinvalidated : (l'.locals i).invalidated = true) {j : Nat} {record : StatusListRecord}
    (hrecord : (l'.world.caches (d.replica j)).find? written.listId = some record) :
    written.updatedAt ≤ record.updatedAt := by
  obtain ⟨_, written', hbefore⟩ := h.updated_before hcache hstep hinvalidated
  obtain rfl : written' = written :=
    Option.some.inj ((Deployment.landed_persists hstep hbefore).symm.trans hwritten)
  have hold : isInvalidation e = false → (l.locals i).invalidated = true := by
    intro hno
    rw [Deployment.invalidated_eq hstep, hno] at hinvalidated
    simpa using hinvalidated
  cases Deployment.cacheStep hcache hstep with
  | kept hcaches _ hno =>
      rw [hcaches] at hrecord
      exact h.cache i _ hbefore (hold hno) j record hrecord
  | @put record' hput hno hlanded hcaches =>
      rw [hcaches, hone j e.tid, Function.update_self] at hrecord
      by_cases hlist : written'.listId = record'.listId
      · -- The entry is the record put by this step, which is not stale.
        rw [hlist, Table.find?_upsert_self] at hrecord
        cases hrecord
        obtain ⟨e₀, he₀, rfl, hevent⟩ := (h.invalidated i).mp (hold hno)
        by_contra hlt
        refine hfresh e₀ he₀ ⟨hevent, written', ?_, _, hput, hlist, by omega⟩
        rw [Option.mem_def, ← h.landed_step hstep]
        exact hwritten
      · rw [Table.find?_upsert_of_ne hlist] at hrecord
        exact h.cache i _ hbefore (hold hno) e.tid record hrecord
  | @invalidated removed _ hevent hlanded _ hremoved hcaches =>
      rw [hcaches, hone j e.tid, Function.update_self] at hrecord
      by_cases hlist : written'.listId = removed.listId
      · rw [hlist, Table.find?_remove_self] at hrecord
        cases hrecord
      · rw [Table.find?_remove_of_ne hlist] at hrecord
        have hi : i ≠ e.tid := by
          rintro rfl
          rw [hbefore] at hremoved
          cases hremoved
          exact hlist rfl
        rw [Deployment.invalidated_eq hstep, if_neg hi] at hinvalidated
        exact h.cache i _ hbefore hinvalidated e.tid record hrecord

/-- **One step keeps written rows settled**, unless it puts a stale record into
the cache. -/
theorem Settled.step (hcache : d.cache = MemoryCache.model)
    (hone : ∀ i j, d.replica i = d.replica j) (h : Settled d tasks t l)
    (hstep : LedgerStep d.env l e l') (hfresh : ∀ e₀ ∈ t, ¬ StalePut (t ++ [e]) e₀ e) :
    Settled d tasks (t ++ [e]) l' where
  onTarget := h.onTarget.step hstep
  idle := by
    intro i hquiet
    have hi : i ≠ e.tid := fun hi => hquiet e (by simp) hi.symm
    rw [Deployment.locals_eq hstep, Function.update_of_ne hi]
    exact h.idle i (fun e' he' => hquiet e' (List.mem_append_left _ he'))
  landed := h.landed_step hstep
  invalidated := h.invalidated_step hstep
  updated := by
    intro i hinvalidated
    obtain ⟨hupdate, written, hwritten⟩ := h.updated_before hcache hstep hinvalidated
    exact ⟨hupdate, written, Deployment.landed_persists hstep hwritten⟩
  row := fun _ _ => h.row_step hstep
  cache := fun _ _ hwritten hinvalidated _ _ =>
    h.cache_step hcache hone hstep hfresh hwritten hinvalidated

end Step

/-- Runs without stale puts keep written rows settled. -/
theorem Settled.run {d : Deployment} (hcache : d.cache = MemoryCache.model)
    (hone : ∀ i j, d.replica i = d.replica j) (tasks : Nat → Task) {w : World}
    {t : List PortEvent} {c : Pool Nat Port Port.Answer (Except Failure Value) World}
    (hrun : Run d.env (d.start tasks w) t c) (hfresh : PutsFresh t) :
    ∃ locals, Settled d tasks t ⟨c.world, locals⟩ ∧ Tracks d.app c locals := by
  obtain ⟨locals, hsettled, htracks⟩ := Run.ledger (Tracks.start d tasks w)
    (I := fun t l => PutsFresh t → Settled d tasks t l) (fun _ => Settled.start d tasks w)
    (by
      intro t l e l' h hstep hfresh
      obtain ⟨hinit, hlast⟩ := putsFresh_append hfresh
      exact (h hinit).step hcache hone hstep hlast) hrun
  exact ⟨locals, hsettled hfresh, htracks⟩

/-- What a call that reads a list holds is at least as new as a stamp. -/
def CallState.ReadsFrom (s : CallState) (stamp : Int) : Prop :=
  (∀ record, s.cached = some record → stamp ≤ record.updatedAt) ∧
    ∀ record, s.found = some record → stamp ≤ record.updatedAt

/-- A call that reads a list an update has written and invalidated reads nothing
older. -/
theorem Settled.reads_step {d : Deployment} {tasks : Nat → Task} {t : List PortEvent}
    {l l' : Calls d.app} {e : PortEvent} (hcache : d.cache = MemoryCache.model)
    (h : Settled d tasks t l) {i j : Nat} {written : StatusListRecord}
    (hwritten : (l.locals i).landed = some written)
    (hinvalidated : (l.locals i).invalidated = true) (hget : tasks j = .get written.listId)
    (hreads : (l.locals j).ReadsFrom written.updatedAt) (hstep : LedgerStep d.env l e l') :
    (l'.locals j).ReadsFrom written.updatedAt := by
  constructor
  · intro record hcached
    rcases Deployment.cached_cases hcache hstep hcached with hold | ⟨listId, htask, hentry⟩
    · exact hreads.1 record hold
    · rw [h.onTarget.task, hget] at htask
      cases htask
      exact h.cache i written hwritten hinvalidated j record hentry
  · intro record hfound
    rcases Deployment.found_cases hstep hfound with hold | ⟨_, _, hreads, hrow⟩
    · exact hreads.2 record hold
    · rw [h.onTarget.task, hget] at hreads
      rcases hreads with ⟨args, hargs, _⟩ | hlist
      · cases hargs
      · obtain ⟨row, hrow', hle⟩ := h.row i written hwritten
        rw [Task.get.inj hlist, hrow] at hrow'
        cases hrow'
        exact hle

/-- Once an update has returned a record, every `get_status_list` of that list
that starts afterwards returns a record at least as new. -/
def ReadAfterWrite (d : Deployment) (tasks : Nat → Task) (w : World) (t : List PortEvent)
    (c : Pool Nat Port Port.Answer (Except Failure Value) World) : Prop :=
  ∀ t₁ t₂ c₁, t = t₁ ++ t₂ → Run d.env (d.start tasks w) t₁ c₁ → Run d.env c₁ t₂ c →
    ∀ i issuer listId statuses limits written, tasks i = .update issuer listId statuses limits →
      c₁.threads i = .ret (.ok (.record written)) →
      ∀ j read, tasks j = .get listId → (∀ e ∈ t₁, e.tid ≠ j) →
        c.threads j = .ret (.ok (.record read)) → written.updatedAt ≤ read.updatedAt

/-- **Read after write, as long as no stale record is put into the cache.**  In
one process whose cache operations succeed, every run of any calls reads its
writes, if in it no call puts a record into the cache after an update of that
list to a newer version has invalidated it. -/
theorem read_after_write_without_stale_puts (d : Deployment)
    (hcache : d.cache = MemoryCache.model) (hone : ∀ i j, d.replica i = d.replica j)
    (tasks : Nat → Task) {w : World} {t : List PortEvent}
    {c : Pool Nat Port Port.Answer (Except Failure Value) World} (hfresh : PutsFresh t) :
    ReadAfterWrite d tasks w t c := by
  intro t₁ t₂ c₁ ht hrun₁ hrun₂ i issuer listId statuses limits written hupdate hreturned
    j read hget hstarts hread
  subst ht
  obtain ⟨locals₁, hsettled, htracks⟩ := Settled.run hcache hone tasks hrun₁ (putsFresh_left hfresh)
  have hended := (htracks.ended hreturned).1
  rw [hsettled.onTarget.task i, hupdate] at hended
  obtain ⟨hwritten, hinvalidated⟩ := hended rfl
  have hlist : written.listId = listId := hsettled.onTarget.landed i written _ hwritten
    (by rw [hupdate]; rfl)
  subst hlist
  obtain ⟨locals₂, hI, htracks₂⟩ := Run.ledger htracks
    (I := fun t₂ l => PutsFresh (t₁ ++ t₂) → Settled d tasks (t₁ ++ t₂) l ∧
      (l.locals i).landed = some written ∧ (l.locals i).invalidated = true ∧
      (l.locals j).ReadsFrom written.updatedAt)
    (by
      intro _
      refine ⟨by simpa using hsettled, hwritten, hinvalidated, ?_⟩
      have hidle : locals₁ j = .start (tasks j) := hsettled.idle j hstarts
      simp only [hidle]
      exact ⟨nofun, nofun⟩)
    (by
      intro t₂ l e l' h hstep hfresh
      rw [← List.append_assoc] at hfresh ⊢
      obtain ⟨hinit, hlast⟩ := putsFresh_append hfresh
      obtain ⟨hsettled, hwritten, hinvalidated, hreads⟩ := h hinit
      refine ⟨hsettled.step hcache hone hstep hlast, Deployment.landed_persists hstep hwritten,
        ?_, hsettled.reads_step hcache hwritten hinvalidated hget hreads hstep⟩
      rw [Deployment.invalidated_eq hstep, hinvalidated]
      simp) hrun₂
  obtain ⟨hsettled₂, _, _, hreads⟩ := hI hfresh
  have hended := (Tracks.ended htracks₂ hread).2.2 written.listId
    ((hsettled₂.onTarget.task j).trans hget)
  rcases hended with hcached | ⟨_, hfound⟩
  · exact hreads.1 read hcached
  · exact hreads.2 read hfound

/-- Call 1 suspends index 1 of the sample list; every other call reads the list. -/
def updateAmongReaders : Nat → Task
  | 1 => .update sampleIssuer "list" [⟨1, .suspended⟩] sampleLimits
  | _ => .get "list"

/-- The sample list after the update. -/
def suspendedRow : StatusListRecord :=
  ⟨"list", sampleIssuer, ⟨2, "eNrjYAAAABIACQ"⟩, "https://status.example.com/list", 20⟩

/-- The theorem at an update and a reader that fills the cache after it has
returned. -/
theorem read_after_write_without_stale_puts_sample :
    let d := sampleDeployment false
    let played := d.play updateAmongReaders sampleWorld (turns 20 [1, 1, 1, 1, 2, 2, 2])
    (played.2.threads 2).result?.isSome ∧
      ReadAfterWrite d updateAmongReaders sampleWorld played.1 played.2 := by
  intro d played
  refine ⟨by decide +kernel, ?_⟩
  exact read_after_write_without_stale_puts d rfl (fun _ _ => rfl) updateAmongReaders
    (by decide +kernel)

/-- Reader 0 finds the row before call 1 updates it, and puts it into the cache
after call 1 has returned; reader 2 is served the old row. -/
theorem old_row_served_after_update :
    let d := sampleDeployment false
    let before := d.play updateAmongReaders sampleWorld (turns 20 [0, 0, 1, 1, 1, 1])
    let after := d.resume before.2 (turns 20 [0, 2])
    Run d.env (d.start updateAmongReaders sampleWorld) (before.1 ++ after.1) after.2 ∧
      ¬ ReadAfterWrite d updateAmongReaders sampleWorld (before.1 ++ after.1) after.2 := by
  intro d before after
  have hbefore : Run d.env (d.start updateAmongReaders sampleWorld) before.1 before.2 :=
    d.play_run rfl updateAmongReaders sampleWorld (turns 20 [0, 0, 1, 1, 1, 1])
  have hafter : Run d.env before.2 after.1 after.2 := d.resume_run rfl before.2 (turns 20 [0, 2])
  refine ⟨hbefore.trans hafter, ?_⟩
  intro hread
  have hwritten : (before.2.threads 1).result? = some (.ok (.record suspendedRow)) := by
    decide +kernel
  have hold : (after.2.threads 2).result? = some (.ok (.record sampleRow)) := by decide +kernel
  have hidle : ∀ e ∈ before.1, e.tid ≠ 2 := by decide +kernel
  have hle := hread before.1 after.1 before.2 rfl hbefore hafter 1 _ _ _ _ suspendedRow rfl
    (Prog.eq_ret_of_result? hwritten) 2 sampleRow rfl hidle (Prog.eq_ret_of_result? hold)
  exact absurd hle (by decide)

/-- A cached record ends `get_status_list` at once. -/
theorem serve_get (app : AppState) (listId : String) :
    ∃ k, (Task.get listId).serve app = .call (.cache (.get listId)) k ∧
      ∀ record, k (.ok (some record)) = .ret (.ok (.record record)) := by
  simp only [Task.serve, Service.getStatusList]
  exact ⟨_, rfl, fun _ => rfl⟩

/-- An update that has invalidated has returned. -/
theorem Tracks.returned {app : AppState}
    {c : Pool Nat Port Port.Answer (Except Failure Value) World} {locals : Nat → CallState}
    (h : Tracks app c locals) {i : Nat} {written : StatusListRecord}
    (hupdate : ((locals i).task.updateArgs app).isSome)
    (hwritten : (locals i).landed = some written)
    (hinvalidated : (locals i).invalidated = true) :
    ∃ value, c.threads i = .ret (.ok value) := by
  have hi := h i
  cases hthread : c.threads i with
  | ret result =>
      rw [hthread] at hi
      cases result with
      | error failure =>
          have hnone : (locals i).landed = none := hi
          rw [hwritten] at hnone
          cases hnone
      | ok value => exact ⟨value, rfl⟩
  | call op k =>
      -- No operation is allowed any more.
      rw [hthread] at hi
      have hmay : (locals i).may app op := hi.1
      have hfresh : (locals i).landed ≠ none := by simp [hwritten]
      exfalso
      rcases op with op | _ | op | _ | _ | _
      · cases op with
        | find listId => exact hfresh hmay.1
        | insert record => exact hfresh hmay.2.choose_spec.fresh
        | update record expected => exact hfresh hmay.2.choose_spec.choose_spec.1.fresh
        | updateWithSnapshot record expected snapshot =>
            exact hfresh hmay.2.choose_spec.choose_spec.1.fresh
        | insertWithSnapshot record snapshot => exact hfresh hmay.2.choose_spec.1.fresh
        | findCredential issuer => exact hfresh hmay
        | listUris => simp [show (locals i).task = _ from hmay, Task.updateArgs] at hupdate
        | findValidAt listId time =>
            simp [show (locals i).task = _ from hmay, Task.updateArgs] at hupdate
        | deleteOlderThan cutoff =>
            rw [show locals i = .start (.cleanup cutoff) from hmay] at hwritten
            cases hwritten
        | insertCredential credential =>
            simp [show (locals i).task = _ from hmay, Task.updateArgs] at hupdate
      · rw [show locals i = .start (.cleanup _) from hmay] at hwritten
        cases hwritten
      · cases op with
        | get listId =>
            rw [show locals i = .start (.get listId) from hmay] at hwritten
            cases hwritten
        | put record =>
            obtain ⟨_, listId, htask⟩ := hmay
            simp [htask, Task.updateArgs] at hupdate
        | invalidate listId =>
            rw [hmay.1] at hinvalidated
            cases hinvalidated
      · exact hfresh hmay
      · exact hfresh hmay
      · exact hfresh hmay.1

/-- **A stale put is served.**  After a run without stale puts, a step that puts
a stale record into the cache leaves an update that has returned, and every
`get_status_list` of its list that starts then returns the older record. -/
theorem stale_put_served (d : Deployment) (hcache : d.cache = MemoryCache.model)
    (hone : ∀ i j, d.replica i = d.replica j) (tasks : Nat → Task) {w : World}
    {t : List PortEvent} {c c' : Pool Nat Port Port.Answer (Except Failure Value) World}
    (hrun : Run d.env (d.start tasks w) t c) (hfresh : PutsFresh t) {e₀ e : PortEvent}
    (he₀ : e₀ ∈ t) (hstep : Step d.env c e c') (hstale : StalePut (t ++ [e]) e₀ e) :
    ∃ value written stale, c'.threads e₀.tid = .ret (.ok value) ∧
      landedBy t e₀.tid = some written ∧ stale.updatedAt < written.updatedAt ∧
      ∀ e' c'', Step d.env c' e' c'' → tasks e'.tid = .get written.listId →
        (∀ x ∈ t ++ [e], x.tid ≠ e'.tid) → c''.threads e'.tid = .ret (.ok (.record stale)) := by
  obtain ⟨locals, hsettled, htracks⟩ := Settled.run hcache hone tasks hrun hfresh
  obtain ⟨locals', hledger, htracks'⟩ := hstep.ledger htracks
  obtain ⟨hevent, written, hwritten, stale, hput, hlist, hlt⟩ := hstale
  have hinvalidated : (locals e₀.tid).invalidated = true :=
    (hsettled.invalidated e₀.tid).mpr ⟨e₀, he₀, rfl, hevent⟩
  obtain ⟨hupdate, written', hbefore⟩ := hsettled.updated e₀.tid hinvalidated
  have hafter : (locals' e₀.tid).landed = some written' :=
    Deployment.landed_persists hledger hbefore
  have hsame : written' = written := by
    have htrace := hsettled.landed_step hledger e₀.tid
    rw [Option.mem_def] at hwritten
    rw [hwritten] at htrace
    exact Option.some.inj (hafter.symm.trans htrace)
  subst hsame
  have hstill : (locals' e₀.tid).invalidated = true := by
    have heq := Deployment.invalidated_eq hledger e₀.tid
    simp only [hinvalidated, Bool.or_true, ite_self] at heq
    exact heq
  have htask : (locals' e₀.tid).task = tasks e₀.tid :=
    (Deployment.task_eq hledger e₀.tid).trans (hsettled.onTarget.task e₀.tid)
  obtain ⟨value, hreturned⟩ := Tracks.returned htracks' (htask ▸ hupdate) hafter hstill
  refine ⟨value, written', stale, hreturned, ?_, hlt, ?_⟩
  · exact (hsettled.landed e₀.tid).symm.trans hbefore
  · intro e' c'' hread hget hidle
    obtain ⟨k, hserve, hk⟩ := serve_get d.app written'.listId
    have hstart : c'.threads e'.tid = .call (.cache (.get written'.listId)) k := by
      rw [(Run.snoc hrun hstep).idle hidle, Deployment.start_thread hget (fun _ => nofun), hserve]
    have hentry : ∀ j, (c'.world.caches (d.replica j)).find? written'.listId = some stale := by
      intro j
      cases Deployment.cacheStep hcache hledger with
      | kept _ hno =>
          rw [hno] at hput
          cases hput
      | put hput' _ _ hcaches =>
          obtain rfl := Option.some.inj (hput'.symm.trans hput)
          have hcaches : c'.world.caches = _ := hcaches
          rw [hcaches, hone j e.tid, Function.update_self, hlist, Table.find?_upsert_self]
      | invalidated hno =>
          rw [hno] at hput
          cases hput
    cases hread with
    | @call i op k' r w' hthread henv =>
        simp only at hstart
        rw [hstart] at hthread
        cases hthread
        obtain ⟨values, hanswers, rfl⟩ := henv
        rw [hcache] at hanswers
        cases hanswers
        simp only [Function.update_self, hentry]
        exact hk stale

end StatusListServer
