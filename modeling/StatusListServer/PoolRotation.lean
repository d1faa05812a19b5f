import StatusListServer.RefCounts
import StatusListServer.RunHistory

/-!
# Rotation of the database pool

`SwappableDatabaseConnection` (`outbound/sql/store.rs`) holds the pool that new operations
use.  An operation takes a counted handle of it, makes its query and drops the handle.  A
write keeps its handle only until its transaction has begun (`begin_read_committed`); the
statements after that go over the connection of the transaction.  When the password file
changes, `spawn_database_rotation` (`setup.rs`) connects a new pool, pings it, puts it into
the cell and drains the old one: `drain_and_close_database` waits until its own handle is
the last and closes the pool.

Any number of operations and rotations run at once.  No query is made and no transaction
begins on a closed pool, however long the handle is kept.  What the later statements of a
transaction meet when its pool has been closed is left to the driver.
-/

namespace StatusListServer

open Interaction

namespace PoolRotation

/-! ## Programs -/

/-- The name of a pool. -/
abbrev PoolId := Nat

/-- What operations and rotations do with pools and their handles. -/
inductive Op
  | current
  | query (pool : PoolId)
  | begin (pool : PoolId)
  | statement (pool : PoolId)
  | release (pool : PoolId)
  | connect
  | ping (pool : PoolId)
  | swap (pool : PoolId)
  | tryUnwrap (pool : PoolId)
  | sleep
  | close (pool : PoolId)
deriving DecidableEq, Repr

/-- What the operations answer. -/
@[reducible] def Op.Answer : Op → Type
  | .current => PoolId
  | .query _ => Except String Unit
  | .begin _ => Except String Unit
  | .statement _ => Except String Unit
  | .release _ => Unit
  | .connect => Except String PoolId
  | .ping _ => Except String Unit
  | .swap _ => PoolId
  | .tryUnwrap _ => Bool
  | .sleep => Unit
  | .close _ => Except String Unit

/-- A task. -/
abbrev M := Prog Op Op.Answer

/-- One operation. -/
def ask (op : Op) : M op.Answer := Prog.ask op

/-- How a task ends. -/
inductive Outcome
  | answered (result : Except String Unit)
  | rejected (message : String)
  | closed (result : Except String Unit)
  | draining
deriving Repr

/-- A query with a handle of its own. -/
def inquire : M (Except String Unit) := do
  let db ← ask .current
  let result ← ask (.query db)
  ask (.release db)
  return result

/-- A read of the store, or a readiness check. -/
def read : M Outcome := do
  let result ← inquire
  return .answered result

/-- The batches of a sweep, up to the first that fails; each takes a handle of its own. -/
def deleteOlderThan : Nat → M Outcome
  | 0 => return .answered (.ok ())
  | batches + 1 => do
      match ← inquire with
      | .ok _ => deleteOlderThan batches
      | .error e => return .answered (.error e)

/-- Begin a transaction; the handle is dropped when it has begun. -/
def beginReadCommitted : M (Except String PoolId) := do
  let db ← ask .current
  let result ← ask (.begin db)
  ask (.release db)
  return result.map fun _ => db

/-- The statements of a transaction and its commit, or its rollback after one that fails. -/
def runStatements (pool : PoolId) : Nat → M Outcome
  | 0 => do
      let result ← ask (.statement pool)
      return .answered result
  | statements + 1 => do
      match ← ask (.statement pool) with
      | .ok _ => runStatements pool statements
      | .error e => do
          let _ ← ask (.statement pool)
          return .answered (.error e)

/-- A transaction with its statements, which keeps no handle of the pool after it has begun. -/
def write (statements : Nat) : M Outcome := do
  match ← beginReadCommitted with
  | .error e => return .answered (.error e)
  | .ok db => runStatements db statements

/-- Wait for the other handles to be dropped, at most `fuel` times. -/
def drainAndCloseDatabase : Nat → PoolId → M Outcome
  | 0, _ => return .draining
  | fuel + 1, db => do
      if ← ask (.tryUnwrap db) then
        let result ← ask (.close db)
        return .closed result
      else
        ask .sleep
        drainAndCloseDatabase fuel db

/-- The callback of the watcher, with the task that it spawns. -/
def rotateDatabase (fuel : Nat) : M Outcome := do
  match ← ask .connect with
  | .error e => return .rejected e
  | .ok newDb =>
      match ← ask (.ping newDb) with
      | .error e => do
          ask (.release newDb)
          return .rejected e
      | .ok _ => do
          let oldDb ← ask (.swap newDb)
          drainAndCloseDatabase fuel oldDb

/-- What a task is to do. -/
inductive Task
  | read
  | sweep (batches : Nat)
  | write (statements : Nat)
  | rotate (fuel : Nat)
deriving DecidableEq, Repr

/-- The program of a task. -/
def Task.run : Task → M Outcome
  | .read => PoolRotation.read
  | .sweep batches => deleteOlderThan batches
  | .write statements => PoolRotation.write statements
  | .rotate fuel => rotateDatabase fuel

/-! ## What a task holds -/

/-- What a task holds. -/
inductive Stage
  | idle
  | holding (pool : PoolId)
  | connected (pool : PoolId)
  | validated (pool : PoolId)
  | draining (pool : PoolId)
  | unwrapped (pool : PoolId)
deriving DecidableEq, Repr

/-- The pool that a task has a handle of. -/
def Stage.held : Stage → Option PoolId
  | .holding pool => some pool
  | .connected pool => some pool
  | .validated pool => some pool
  | .draining pool => some pool
  | _ => none

/-- The statements of a transaction need no handle. -/
def may (s : Stage) : Op → Prop
  | .current => s = .idle
  | .query pool => s = .holding pool
  | .begin pool => s = .holding pool
  | .statement _ => s = .idle
  | .release pool => s = .holding pool ∨ s = .connected pool
  | .connect => s = .idle
  | .ping pool => s = .connected pool
  | .swap pool => s = .validated pool
  | .tryUnwrap pool => s = .draining pool
  | .sleep => ∃ pool, s = .draining pool
  | .close pool => s = .unwrapped pool

/-- What a task holds after an answer. -/
def next (s : Stage) : (op : Op) → op.Answer → Stage
  | .current, pool => .holding pool
  | .query _, _ => s
  | .begin _, _ => s
  | .statement _, _ => s
  | .release _, _ => .idle
  | .connect, .ok pool => .connected pool
  | .connect, .error _ => s
  | .ping pool, .ok _ => .validated pool
  | .ping _, .error _ => s
  | .swap _, pool => .draining pool
  | .tryUnwrap pool, unwrapped => if unwrapped then .unwrapped pool else s
  | .sleep, _ => s
  | .close _, _ => .idle

/-- The discipline of the tasks. -/
@[reducible] def discipline : Discipline Op Op.Answer where
  State := Stage
  may := may
  next := next

/-- A task that has ended has no handle, unless it gave up draining. -/
def Ended (s : Stage) (outcome : Outcome) : Prop := outcome ≠ .draining → s.held = none

/-- A query holds the pool while it runs. -/
theorem obeys_inquire : inquire.Obeys discipline (fun s _ => s = .idle) .idle :=
  ⟨rfl, fun _ => ⟨rfl, fun _ => ⟨.inl rfl, fun _ => rfl⟩⟩⟩

/-- So does a read. -/
theorem obeys_read : read.Obeys discipline Ended .idle := by
  refine Prog.Obeys.bind obeys_inquire ?_
  rintro s result rfl
  exact fun _ => rfl

/-- So does every batch of a sweep. -/
theorem obeys_deleteOlderThan (batches : Nat) :
    (deleteOlderThan batches).Obeys discipline Ended .idle := by
  induction batches with
  | zero => exact fun _ => rfl
  | succ batches ih =>
      refine Prog.Obeys.bind obeys_inquire ?_
      rintro s result rfl
      cases result with
      | ok _ => exact ih
      | error e => exact fun _ => rfl

/-- A transaction goes on without a handle. -/
theorem obeys_runStatements (pool : PoolId) (statements : Nat) :
    (runStatements pool statements).Obeys discipline Ended .idle := by
  induction statements with
  | zero => exact ⟨rfl, fun _ _ => rfl⟩
  | succ statements ih =>
      refine Prog.obeys_ask_bind ?_ ?_
      · exact rfl
      · intro result
        cases result with
        | ok _ => exact ih
        | error e => exact ⟨rfl, fun _ _ => rfl⟩

/-- A write holds the pool until it has begun. -/
theorem obeys_write (statements : Nat) : (write statements).Obeys discipline Ended .idle := by
  have hbegin : beginReadCommitted.Obeys discipline (fun s _ => s = .idle) .idle :=
    ⟨rfl, fun _ => ⟨rfl, fun _ => ⟨.inl rfl, fun _ => rfl⟩⟩⟩
  refine Prog.Obeys.bind hbegin ?_
  rintro s result rfl
  cases result with
  | ok db => exact obeys_runStatements db statements
  | error e => exact fun _ => rfl

/-- A pool is closed by whoever holds it alone. -/
theorem obeys_drainAndCloseDatabase (pool : PoolId) (fuel : Nat) :
    (drainAndCloseDatabase fuel pool).Obeys discipline Ended (.draining pool) := by
  induction fuel with
  | zero =>
      unfold drainAndCloseDatabase
      exact fun h => absurd rfl h
  | succ fuel ih =>
      unfold drainAndCloseDatabase
      refine Prog.obeys_ask_bind ?_ ?_
      · exact rfl
      · intro unwrapped
        cases unwrapped with
        | true => exact ⟨rfl, fun _ _ => rfl⟩
        | false => exact ⟨⟨pool, rfl⟩, fun _ => ih⟩

/-- **Every task keeps to its stages.** -/
theorem obeys_run (task : Task) : task.run.Obeys discipline Ended .idle := by
  cases task with
  | read => exact obeys_read
  | sweep batches => exact obeys_deleteOlderThan batches
  | write statements => exact obeys_write statements
  | rotate fuel =>
      unfold Task.run rotateDatabase
      refine Prog.obeys_ask_bind ?_ ?_
      · exact rfl
      · intro connected
        cases connected with
        | error e => exact fun _ => rfl
        | ok pool =>
            refine ⟨rfl, ?_⟩
            intro pinged
            cases pinged with
            | error e => exact ⟨.inr rfl, fun _ _ => rfl⟩
            | ok _ => exact ⟨rfl, fun old => obeys_drainAndCloseDatabase old fuel⟩

/-! ## The pools -/

/-- The pool in the cell, the handles of every pool, whether it is open, and the pools
that were connected so far. -/
structure Pools where
  active : PoolId
  strong : PoolId → Nat
  opened : PoolId → Bool
  issued : List PoolId

/-- What the operations do.  A query on a closed pool fails, and so does the begin of a
transaction; others may fail too.  The statements of a transaction may always fail. -/
def env {Tid : Type} : Env Tid Op Op.Answer Pools
  | _, .current, w, pool, w' =>
      pool = w.active ∧ w' = { w with strong := Function.update w.strong pool (w.strong pool + 1) }
  | _, .query pool, w, result, w' =>
      w' = w ∧ (w.opened pool = false → ∃ e, result = .error e)
  | _, .begin pool, w, result, w' =>
      w' = w ∧ (w.opened pool = false → ∃ e, result = .error e)
  | _, .statement _, w, _, w' => w' = w
  | _, .release pool, w, _, w' =>
      w' = { w with strong := Function.update w.strong pool (w.strong pool - 1) }
  | _, .connect, w, .error _, w' => w' = w
  | _, .connect, w, .ok pool, w' => pool ∉ w.issued ∧
      w' = { w with
        strong := Function.update w.strong pool 1
        opened := Function.update w.opened pool true
        issued := pool :: w.issued }
  | _, .ping pool, w, result, w' =>
      w' = w ∧ (w.opened pool = false → ∃ e, result = .error e)
  | _, .swap pool, w, old, w' => old = w.active ∧ w' = { w with active := pool }
  | _, .tryUnwrap pool, w, unwrapped, w' =>
      if w.strong pool = 1 then
        unwrapped = true ∧ w' = { w with strong := Function.update w.strong pool 0 }
      else unwrapped = false ∧ w' = w
  | _, .sleep, w, _, w' => w' = w
  | _, .close pool, w, _, w' => w' = { w with opened := Function.update w.opened pool false }

/-- One pool, in the cell. -/
def Pools.start (pool : PoolId) : Pools :=
  ⟨pool, fun p => if pool = p then 1 else 0, fun p => decide (pool = p), [pool]⟩

section Runs

variable {Tid : Type}

/-- The pools, with what has happened to them. -/
abbrev History (Tid : Type) := Recorded Tid Op Op.Answer Pools

/-- The tasks with the pools. -/
abbrev Tasks (Tid : Type) := Pool Tid Op Op.Answer Outcome (History Tid)

/-- The tasks before their first step. -/
def start (tasks : Tid → Task) (pool : PoolId) : Tasks Tid :=
  ⟨⟨.start pool, []⟩, fun i => (tasks i).run⟩

/-- What a stage says of the pool that it is about. -/
def StageHolds (i : Tid) (w : History Tid) : Stage → Prop
  | .idle => True
  | .holding pool => w.now.opened pool = true
  | .connected pool => w.now.opened pool = true ∧ w.now.strong pool = 1
  | .validated pool => w.now.opened pool = true ∧ w.now.strong pool = 1 ∧
      ∃ m ∈ w.log, m.event = ⟨i, .ping pool, .ok ()⟩
  | .draining pool => w.now.opened pool = true ∧ w.now.active ≠ pool
  | .unwrapped pool => w.now.opened pool = true ∧ w.now.strong pool = 0 ∧ pool ∈ w.now.issued

/-- A query is made on the pool, or a transaction begins on it. -/
def Op.Enters : Op → PoolId → Prop
  | .query pool, p => pool = p
  | .begin pool, p => pool = p
  | _, _ => False

/-- What is right at a moment of a run: queries are made and transactions begin on open
pools, a pool is closed once, when it is open, out of the cell and without handles, and a
pool that comes into the cell has been pinged by the task that puts it there. -/
structure MomentHolds (earlier : List (Moment Tid Op Op.Answer Pools))
    (m : Moment Tid Op Op.Answer Pools) : Prop where
  entered : ∀ pool, m.event.op.Enters pool → m.before.opened pool = true
  closing : ∀ pool, m.event.op = .close pool → m.before.opened pool = true ∧
    m.before.strong pool = 0 ∧ m.before.active ≠ pool ∧ ∀ m' ∈ earlier, m'.event.op ≠ .close pool
  swapped : m.after.active ≠ m.before.active →
    ∃ m' ∈ earlier, m'.event = ⟨m.event.tid, .ping m.after.active, .ok ()⟩

/-- The invariant of all runs. -/
structure Sound (locals : Tid → Stage) (w : History Tid) : Prop where
  counted : RefCounts.Counted w.now.strong w.now.active fun i => (locals i).held
  unissued : ∀ pool, pool ∉ w.now.issued → w.now.strong pool = 0
  live : w.now.opened w.now.active = true
  stages : ∀ i, StageHolds i w (locals i)
  unique : ∀ i j pool, locals i = .unwrapped pool → locals j = .unwrapped pool → i = j
  shut : ∀ m ∈ w.log, ∀ pool, m.event.op = .close pool →
    w.now.opened pool = false ∧ pool ∈ w.now.issued
  moments : ∀ earlier m later, w.log = earlier ++ m :: later → MomentHolds earlier m

/-- What a step of one task leaves to the others. -/
structure Spares (i : Tid) (locals : Tid → Stage) (w w' : Pools) : Prop where
  opened : ∀ j, j ≠ i → ∀ pool, (locals j).held = some pool ∨ locals j = .unwrapped pool →
    w.opened pool = true → w'.opened pool = true
  alone : ∀ j, j ≠ i → ∀ pool, (locals j).held = some pool → w.strong pool = 1 →
    w'.strong pool = 1
  gone : ∀ pool, pool ∈ w.issued → w.strong pool = 0 → w'.strong pool = 0
  out : ∀ j, j ≠ i → ∀ pool, (locals j).held = some pool → w.active ≠ pool → w'.active ≠ pool
  issued : ∀ pool ∈ w.issued, pool ∈ w'.issued
  shut : ∀ pool ∈ w.issued, w.opened pool = false → w'.opened pool = false

/-- What a stage says stays true in the steps of other tasks. -/
theorem StageHolds.spared {i j : Tid} {locals : Tid → Stage} {w : History Tid} {w' : Pools}
    {m : Moment Tid Op Op.Answer Pools} (h : StageHolds j w (locals j)) (hj : j ≠ i)
    (hspares : Spares i locals w.now w') : StageHolds j ⟨w', w.log ++ [m]⟩ (locals j) := by
  have hopened := hspares.opened j hj
  have halone := hspares.alone j hj
  have hout := hspares.out j hj
  generalize locals j = s at h hopened halone hout
  cases s with
  | idle => trivial
  | holding pool => exact hopened pool (.inl rfl) h
  | connected pool => exact ⟨hopened pool (.inl rfl) h.1, halone pool rfl h.2⟩
  | validated pool =>
      obtain ⟨hopen, hone, m', hm', hping⟩ := h
      exact ⟨hopened pool (.inl rfl) hopen, halone pool rfl hone, m',
        List.mem_append_left _ hm', hping⟩
  | draining pool => exact ⟨hopened pool (.inl rfl) h.1, hout pool rfl h.2⟩
  | unwrapped pool =>
      obtain ⟨hopen, hzero, hissued⟩ := h
      exact ⟨hopened pool (.inr rfl) hopen, hspares.gone pool hissued hzero,
        hspares.issued pool hissued⟩

/-- A moment that neither enters nor closes a pool, and keeps the one in the cell. -/
theorem MomentHolds.plain {earlier : List (Moment Tid Op Op.Answer Pools)}
    {m : Moment Tid Op Op.Answer Pools} (henter : ∀ pool, ¬ m.event.op.Enters pool)
    (hclose : ∀ pool, m.event.op ≠ .close pool) (hactive : m.after.active = m.before.active) :
    MomentHolds earlier m where
  entered pool h := absurd h (henter pool)
  closing pool h := absurd h (hclose pool)
  swapped h := absurd hactive h

/-- Nothing may happen. -/
theorem Spares.refl (i : Tid) (locals : Tid → Stage) (w : Pools) : Spares i locals w w where
  opened _ _ _ _ h := h
  alone _ _ _ _ h := h
  gone _ _ h := h
  out _ _ _ _ h := h
  issued _ h := h
  shut _ _ h := h

/-- A step that changes the count of one pool, which no other task holds alone. -/
theorem Spares.count {i : Tid} {locals : Tid → Stage} {w : Pools} {pool : PoolId} {n : Nat}
    (hpos : w.strong pool ≠ 0)
    (halone : ∀ j, j ≠ i → (locals j).held = some pool → w.strong pool ≠ 1) :
    Spares i locals w { w with strong := Function.update w.strong pool n } where
  opened _ _ _ _ h := h
  alone j hj q hq hone := by
    by_cases hqp : q = pool
    · subst hqp
      exact absurd hone (halone j hj hq)
    · simpa [hqp] using hone
  gone q _ hzero := by
    by_cases hqp : q = pool
    · subst hqp
      exact absurd hzero hpos
    · simpa [hqp] using hzero
  out _ _ _ _ h := h
  issued _ h := h
  shut _ _ h := h

/-- A pool with handles was issued. -/
theorem Sound.issued_of_strong {locals : Tid → Stage} {w : History Tid} (h : Sound locals w)
    {pool : PoolId} (hpos : w.now.strong pool ≠ 0) : pool ∈ w.now.issued := by
  by_contra hpool
  exact hpos (h.unissued pool hpool)

/-- A pool that is held has a handle. -/
theorem Sound.strong_of_held {locals : Tid → Stage} {w : History Tid} {i : Tid}
    (h : Sound locals w) {pool : PoolId}
    (hheld : (locals i).held = some pool) : w.now.strong pool ≠ 0 :=
  Nat.pos_iff_ne_zero.mp (h.counted.held_pos hheld)

/-- The start is sound. -/
theorem sound_start (tasks : Tid → Task) (pool : PoolId) :
    Sound (fun _ : Tid => Stage.idle) (start tasks pool).world where
  counted := RefCounts.counted_start
  unissued := by
    intro q hq
    have hne : pool ≠ q := by
      rintro rfl
      exact hq List.mem_cons_self
    simp [start, Pools.start, hne]
  live := by simp [start, Pools.start]
  stages _ := trivial
  unique _ _ _ h := by cases h
  shut := by
    intro m hm
    cases hm
  moments := by
    intro earlier m later h
    simp [start] at h

variable [DecidableEq Tid]

/-- **The rule for one step of a task.** -/
theorem Sound.request {locals : Tid → Stage} {w : History Tid} (h : Sound locals w) {i : Tid}
    {op : Op} {r : op.Answer} {w' : Pools} {s : Stage}
    (hcounted : RefCounts.Counted w'.strong w'.active
      (Function.update (fun j => (locals j).held) i s.held))
    (hunissued : ∀ pool, pool ∉ w'.issued → w'.strong pool = 0)
    (hlive : w'.opened w'.active = true) (hspares : Spares i locals w.now w')
    (hstage : StageHolds i ⟨w', w.log ++ [⟨⟨i, op, r⟩, w.now, w'⟩]⟩ s)
    (hunique : ∀ pool, s = .unwrapped pool → ∀ j, j ≠ i → locals j ≠ .unwrapped pool)
    (hshut : ∀ pool, op = .close pool → w'.opened pool = false ∧ pool ∈ w'.issued)
    (hmoment : MomentHolds w.log ⟨⟨i, op, r⟩, w.now, w'⟩) :
    Sound (Function.update locals i s) ⟨w', w.log ++ [⟨⟨i, op, r⟩, w.now, w'⟩]⟩ where
  counted := by
    have hheld : (fun j => (Function.update locals i s j).held) =
        Function.update (fun j => (locals j).held) i s.held := by
      funext j
      by_cases hj : j = i
      · subst hj
        simp
      · simp [hj]
    rw [hheld]
    exact hcounted
  unissued := hunissued
  live := hlive
  stages := by
    intro j
    by_cases hj : j = i
    · subst hj
      simpa using hstage
    · simpa [hj] using (h.stages j).spared hj hspares
  unique := by
    intro j k pool hj hk
    by_cases hji : j = i
    · by_cases hki : k = i
      · rw [hji, hki]
      · rw [hji, Function.update_self] at hj
        rw [Function.update_of_ne hki] at hk
        exact absurd hk (hunique pool hj k hki)
    · rw [Function.update_of_ne hji] at hj
      by_cases hki : k = i
      · rw [hki, Function.update_self] at hk
        exact absurd hj (hunique pool hk j hji)
      · rw [Function.update_of_ne hki] at hk
        exact h.unique j k pool hj hk
  shut := by
    intro m hm pool hclose
    rcases List.mem_append.mp hm with hm | hm
    · obtain ⟨hclosed, hissued⟩ := h.shut m hm pool hclose
      exact ⟨hspares.shut pool hissued hclosed, hspares.issued pool hissued⟩
    · obtain rfl := List.mem_singleton.mp hm
      exact hshut pool hclose
  moments := by
    intro earlier m later hlog
    obtain ⟨rfl, rfl, _⟩ | ⟨later', _, hold⟩ := split_snoc hlog
    · exact hmoment
    · exact h.moments earlier m later' hold

variable {locals : Tid → Stage} {w : History Tid} {i : Tid}

/-- A step that leaves the pools as they are. -/
theorem Sound.quiet (h : Sound locals w) {op : Op} {r : op.Answer} {s : Stage}
    (hheld : s.held = (locals i).held)
    (hstage : StageHolds i ⟨w.now, w.log ++ [⟨⟨i, op, r⟩, w.now, w.now⟩]⟩ s)
    (hunwrapped : ∀ pool, s ≠ .unwrapped pool) (hclose : ∀ pool, op ≠ .close pool)
    (henter : ∀ pool, op.Enters pool → w.now.opened pool = true) :
    Sound (Function.update locals i s) ⟨w.now, w.log ++ [⟨⟨i, op, r⟩, w.now, w.now⟩]⟩ := by
  refine h.request ?_ h.unissued h.live (.refl _ _ _) hstage
    (fun pool hs => absurd hs (hunwrapped pool)) (fun pool hop => absurd hop (hclose pool)) ?_
  · rw [hheld, Function.update_eq_self]
    exact h.counted
  · exact ⟨henter, fun pool hop => absurd hop (hclose pool), fun hne => absurd rfl hne⟩

/-- A query or the begin of a transaction, by a task that holds the pool. -/
theorem Sound.entered (h : Sound locals w) {pool : PoolId} (hstage : locals i = .holding pool)
    {op : Op} {r : op.Answer} (hclose : ∀ q, op ≠ .close q) (honly : ∀ q, op.Enters q → q = pool) :
    Sound (Function.update locals i (.holding pool))
      ⟨w.now, w.log ++ [⟨⟨i, op, r⟩, w.now, w.now⟩]⟩ := by
  have hopen : w.now.opened pool = true := by
    have hholds := h.stages i
    rw [hstage] at hholds
    exact hholds
  refine h.quiet (by rw [hstage]) hopen (fun _ => by simp) hclose fun q henter => ?_
  rw [honly q henter]
  exact hopen

/-- A task takes a handle of the pool in the cell. -/
theorem Sound.current (h : Sound locals w) {pool : PoolId} (hstage : locals i = .idle)
    (hactive : pool = w.now.active) {w' : Pools} (hw : w' =
      { w.now with strong := Function.update w.now.strong pool (w.now.strong pool + 1) }) :
    Sound (Function.update locals i (.holding pool))
      ⟨w', w.log ++ [⟨⟨i, .current, pool⟩, w.now, w'⟩]⟩ := by
  subst hactive hw
  have hpos : w.now.strong w.now.active ≠ 0 := Nat.pos_iff_ne_zero.mp h.counted.cell_pos
  have hnone : (locals i).held = none := by rw [hstage]; rfl
  refine h.request (h.counted.take hnone _) ?_ h.live (.count hpos ?_) h.live
    (fun _ hs => by cases hs) (fun _ hop => by cases hop)
    (.plain (fun _ => by simp [Op.Enters]) (fun _ => by simp) rfl)
  · intro q hq
    have hne : q ≠ w.now.active := by
      rintro rfl
      exact hq (h.issued_of_strong hpos)
    simpa [hne] using h.unissued q hq
  · intro j _ hj hone
    exact h.counted.ne_cell_of_one hone hj rfl

/-- A task gives up its handle. -/
theorem Sound.dropped (h : Sound locals w) {pool : PoolId} {op : Op} {r : op.Answer} {s : Stage}
    {n : Nat} (hheld : (locals i).held = some pool) (hn : n = w.now.strong pool - 1)
    (hnone : s.held = none)
    (hstage : StageHolds i ⟨{ w.now with strong := Function.update w.now.strong pool n },
      w.log ++ [⟨⟨i, op, r⟩, w.now,
        { w.now with strong := Function.update w.now.strong pool n }⟩]⟩ s)
    (hunique : ∀ pool, s = .unwrapped pool → ∀ j, j ≠ i → locals j ≠ .unwrapped pool)
    (henter : ∀ pool, ¬ op.Enters pool) (hclose : ∀ pool, op ≠ .close pool) :
    Sound (Function.update locals i s)
      ⟨{ w.now with strong := Function.update w.now.strong pool n },
        w.log ++ [⟨⟨i, op, r⟩, w.now,
          { w.now with strong := Function.update w.now.strong pool n }⟩]⟩ := by
  subst hn
  have hpos := h.strong_of_held hheld
  refine h.request ?_ ?_ h.live (.count hpos ?_) hstage hunique
    (fun q hop => absurd hop (hclose q)) (.plain henter hclose rfl)
  · rw [hnone]
    exact h.counted.drop hheld
  · intro q hq
    have hne : q ≠ pool := by
      rintro rfl
      exact hq (h.issued_of_strong hpos)
    simpa [hne] using h.unissued q hq
  · intro j hj hother hone
    exact hj (h.counted.eq_of_one hone hheld hother)

/-- A pool is connected under a new name. -/
theorem Sound.connected (h : Sound locals w) {pool : PoolId} (hstage : locals i = .idle)
    (hfresh : pool ∉ w.now.issued) {w' : Pools} (hw : w' = { w.now with
        strong := Function.update w.now.strong pool 1
        opened := Function.update w.now.opened pool true
        issued := pool :: w.now.issued }) :
    Sound (Function.update locals i (.connected pool))
      ⟨w', w.log ++ [⟨⟨i, .connect, .ok pool⟩, w.now, w'⟩]⟩ := by
  subst hw
  have hzero := h.unissued pool hfresh
  have hnone : (locals i).held = none := by rw [hstage]; rfl
  have hcounted := h.counted.take hnone pool
  rw [hzero] at hcounted
  refine h.request hcounted ?_ ?_ ⟨?_, ?_, ?_, ?_, ?_, ?_⟩ ⟨by simp, by simp⟩
    (fun _ hs => by cases hs) (fun _ hop => by cases hop)
    (.plain (fun _ => by simp [Op.Enters]) (fun _ => by simp) rfl)
  · intro q hq
    have hne : q ≠ pool := fun heq => hq (heq ▸ List.mem_cons_self)
    simpa [hne] using h.unissued q fun hold => hq (List.mem_cons_of_mem _ hold)
  · by_cases hactive : w.now.active = pool
    · simp [hactive]
    · simpa [hactive] using h.live
  · intro j _ q _ hopen
    by_cases hqp : q = pool
    · simp [hqp]
    · simpa [hqp] using hopen
  · intro j _ q _ hone
    by_cases hqp : q = pool
    · simp [hqp]
    · simpa [hqp] using hone
  · intro q hq hold
    have hne : q ≠ pool := fun heq => hfresh (heq ▸ hq)
    simpa [hne] using hold
  · exact fun _ _ _ _ hout => hout
  · exact fun _ hq => List.mem_cons_of_mem _ hq
  · intro q hq hclosed
    have hne : q ≠ pool := fun heq => hfresh (heq ▸ hq)
    simpa [hne] using hclosed

/-- A validated pool comes into the cell. -/
theorem Sound.swapped (h : Sound locals w) {pool : PoolId} (hstage : locals i = .validated pool) :
    Sound (Function.update locals i (.draining w.now.active))
      ⟨{ w.now with active := pool }, w.log ++ [⟨⟨i, .swap pool, w.now.active⟩, w.now,
        { w.now with active := pool }⟩]⟩ := by
  have hholds := h.stages i
  rw [hstage] at hholds
  obtain ⟨hopen, hone, hping⟩ := hholds
  have hheld : (locals i).held = some pool := by rw [hstage]; rfl
  have hne := h.counted.ne_cell_of_one hone hheld
  refine h.request (h.counted.swap hheld hne) h.unissued hopen ⟨?_, ?_, ?_, ?_, ?_, ?_⟩
    ⟨h.live, hne.symm⟩ (fun _ hs => by cases hs) (fun _ hop => by cases hop) ⟨?_, ?_, ?_⟩
  · exact fun _ _ _ _ hq => hq
  · exact fun _ _ _ _ hq => hq
  · exact fun _ _ hq => hq
  · rintro j hj q hq _ rfl
    exact hj (h.counted.eq_of_one hone hheld hq)
  · exact fun _ hq => hq
  · exact fun _ _ hq => hq
  · exact fun q henter => henter.elim
  · exact fun q hop => by cases hop
  · exact fun _ => hping

/-- A pool without handles is closed. -/
theorem Sound.closed (h : Sound locals w) {pool : PoolId} {r : Except String Unit}
    (hstage : locals i = .unwrapped pool) :
    Sound (Function.update locals i .idle)
      ⟨{ w.now with opened := Function.update w.now.opened pool false },
        w.log ++ [⟨⟨i, .close pool, r⟩, w.now,
          { w.now with opened := Function.update w.now.opened pool false }⟩]⟩ := by
  have hholds := h.stages i
  rw [hstage] at hholds
  obtain ⟨hopen, hzero, hissued⟩ := hholds
  have hnone : (locals i).held = none := by rw [hstage]; rfl
  have hactive : w.now.active ≠ pool := by
    rintro rfl
    exact absurd hzero (Nat.pos_iff_ne_zero.mp h.counted.cell_pos)
  refine h.request ?_ h.unissued ?_ ⟨?_, ?_, ?_, ?_, ?_, ?_⟩ trivial (fun _ hs => by cases hs)
    ?_ ⟨?_, ?_, ?_⟩
  · have hsame : Stage.idle.held = (locals i).held := by rw [hnone]; rfl
    rw [hsame, Function.update_eq_self]
    exact h.counted
  · simpa [hactive] using h.live
  · intro j hj q hq hq'
    have hne : q ≠ pool := by
      rintro rfl
      rcases hq with hq | hq
      · exact h.strong_of_held hq hzero
      · exact hj (h.unique j i q hq hstage)
    simpa [hne] using hq'
  · exact fun _ _ _ _ hq => hq
  · exact fun _ _ hq => hq
  · exact fun _ _ _ _ hq => hq
  · exact fun _ hq => hq
  · intro q _ hclosed
    by_cases hqp : q = pool
    · simp [hqp]
    · simpa [hqp] using hclosed
  · intro q hop
    cases hop
    exact ⟨by simp, hissued⟩
  · exact fun q henter => henter.elim
  · intro q hop
    cases hop
    refine ⟨hopen, hzero, hactive, ?_⟩
    intro m' hm' hclose
    rw [(h.shut m' hm' pool hclose).1] at hopen
    cases hopen
  · exact fun hne => absurd rfl hne

/-- **One step of a task.** -/
theorem Sound.step (h : Sound locals w) {op : Op} {r : op.Answer} {w' : Pools}
    (hmay : may (locals i) op) (henv : env i op w.now r w') :
    Sound (Function.update locals i (next (locals i) op r))
      ⟨w', w.log ++ [⟨⟨i, op, r⟩, w.now, w'⟩]⟩ := by
  have hholds := h.stages i
  cases op with
  | current =>
      exact h.current hmay henv.1 henv.2
  | query pool =>
      have hstage : locals i = .holding pool := hmay
      obtain ⟨rfl, _⟩ := henv
      simp only [next, hstage]
      exact h.entered hstage (fun _ => by simp) fun _ henter => henter.symm
  | begin pool =>
      have hstage : locals i = .holding pool := hmay
      obtain ⟨rfl, _⟩ := henv
      simp only [next, hstage]
      exact h.entered hstage (fun _ => by simp) fun _ henter => henter.symm
  | statement pool =>
      have hstage : locals i = .idle := hmay
      obtain rfl := henv
      simp only [next, hstage]
      exact h.quiet (by rw [hstage]) trivial (fun _ => by simp) (fun _ => by simp)
        fun _ henter => henter.elim
  | release pool =>
      obtain rfl := henv
      have hheld : (locals i).held = some pool := by
        rcases hmay with hstage | hstage
        · rw [hstage]
          rfl
        · rw [hstage]
          rfl
      exact h.dropped hheld rfl rfl trivial (fun _ hs => by cases hs)
        (fun _ => by simp [Op.Enters]) (fun _ => by simp)
  | connect =>
      have hstage : locals i = .idle := hmay
      cases r with
      | error e =>
          obtain rfl := henv
          simp only [next, hstage]
          exact h.quiet (by rw [hstage]) trivial (fun _ => by simp) (fun _ => by simp)
            (fun _ henter => henter.elim)
      | ok pool => exact h.connected hstage henv.1 henv.2
  | ping pool =>
      have hstage : locals i = .connected pool := hmay
      obtain ⟨rfl, _⟩ := henv
      rw [hstage] at hholds
      cases r with
      | error e =>
          simp only [next, hstage]
          exact h.quiet (by rw [hstage]) hholds (fun _ => by simp) (fun _ => by simp)
            (fun _ henter => henter.elim)
      | ok _ =>
          refine h.quiet (by rw [hstage]; rfl) ⟨hholds.1, hholds.2, _,
            List.mem_append_right _ List.mem_cons_self, rfl⟩ (fun _ => by simp [next])
            (fun _ => by simp) (fun _ henter => henter.elim)
  | swap pool =>
      obtain ⟨rfl, rfl⟩ := henv
      exact h.swapped hmay
  | tryUnwrap pool =>
      have hstage : locals i = .draining pool := hmay
      have hheld : (locals i).held = some pool := by
        rw [hstage]
        rfl
      rw [hstage] at hholds
      simp only [env] at henv
      split at henv
      · rename_i hone
        obtain ⟨rfl, rfl⟩ := henv
        have hissued := h.issued_of_strong (h.strong_of_held hheld)
        refine h.dropped hheld (by rw [hone]) rfl ⟨hholds.1, by simp, hissued⟩ ?_
          (fun _ => by simp [Op.Enters]) (fun _ => by simp)
        -- a task that has unwrapped the pool would have left no handle
        intro q hs j _ hj
        obtain rfl : pool = q := by simpa [next] using hs
        have hother := h.stages j
        rw [hj] at hother
        exact h.strong_of_held hheld hother.2.1
      · obtain ⟨rfl, rfl⟩ := henv
        simp only [next, hstage, Bool.false_eq_true, if_false]
        exact h.quiet (by rw [hstage]) hholds (fun _ => by simp) (fun _ => by simp)
          (fun _ henter => henter.elim)
  | sleep =>
      obtain ⟨pool, hstage⟩ := hmay
      obtain rfl := henv
      rw [hstage] at hholds
      simp only [next, hstage]
      exact h.quiet (by rw [hstage]) hholds (fun _ => by simp) (fun _ => by simp)
        (fun _ henter => henter.elim)
  | close pool =>
      obtain rfl := henv
      exact h.closed hmay

end Runs

section Results

variable {Tid : Type} [DecidableEq Tid]

/-- Every run is sound. -/
theorem sound_of_run {tasks : Tid → Task} {pool : PoolId} {t : List (Event Tid Op Op.Answer)}
    {c : Tasks Tid} (h : Run (recorded env) (start tasks pool) t c) :
    ∃ locals, Sound locals c.world ∧
      ∀ i, (c.threads i).Obeys discipline Ended (locals i) := by
  refine Run.ledger (I := fun _ l => Sound l.locals l.world) (fun i => obeys_run (tasks i))
    (sound_start tasks pool) ?_ h
  intro t l e l' hsound hstep
  cases hstep with
  | @act i op r w' hmay henv =>
      rw [henv.eq]
      exact hsound.step hmay henv.1

/-- **Operations never meet a closed pool.**  Whatever operations and rotations run at once
and in whichever order they take their steps: the pool in the cell is always open, and so is
the pool of every query, and of every transaction that begins, at its moment; a pool is
closed at most once, after it has left the cell and its last handle is gone; a pool comes
into the cell only after its own rotation has pinged it; and as soon as all other tasks are
done, the next attempt of a rotation to close the old pool succeeds.  A transaction that has
begun has no handle any more, so its pool may be closed before its last statement. -/
theorem operations_never_meet_closed_pools (tasks : Tid → Task) (pool : PoolId)
    {t : List (Event Tid Op Op.Answer)} {c : Tasks Tid}
    (h : Run (recorded env) (start tasks pool) t c) :
    c.world.now.opened c.world.now.active = true ∧
    (∀ earlier m later, c.world.log = earlier ++ m :: later →
      (∀ p, m.event.op = .query p → m.before.opened p = true) ∧
      (∀ p, m.event.op = .begin p → m.before.opened p = true) ∧
      (∀ p, m.event.op = .close p → m.before.strong p = 0 ∧ m.before.active ≠ p ∧
        ∀ m' ∈ earlier, m'.event.op ≠ .close p) ∧
      (m.after.active ≠ m.before.active →
        ∃ m' ∈ earlier, m'.event = ⟨m.event.tid, .ping m.after.active, .ok ()⟩)) ∧
    ∀ i fuel p, c.threads i = drainAndCloseDatabase (fuel + 1) p →
      (∀ j, j ≠ i → ∃ outcome, c.threads j = .ret outcome ∧ outcome ≠ .draining) →
      c.world.now.strong p = 1 := by
  obtain ⟨locals, hsound, hobeys⟩ := sound_of_run h
  refine ⟨hsound.live, ?_, ?_⟩
  · intro earlier m later hlog
    have hm := hsound.moments earlier m later hlog
    refine ⟨fun p hop => hm.entered p ?_, fun p hop => hm.entered p ?_,
      fun p hop => (hm.closing p hop).2, hm.swapped⟩
    · rw [hop]
      rfl
    · rw [hop]
      rfl
  · intro i fuel p hthread hothers
    have hi := hobeys i
    rw [hthread] at hi
    have hstage : locals i = .draining p := hi.1
    have hholds := hsound.stages i
    rw [hstage] at hholds
    refine hsound.counted.eq_one (i := i) (by rw [hstage]; rfl) hholds.2 ?_
    intro j hj
    obtain ⟨outcome, hret, hdone⟩ := hothers j hj
    have hj' := hobeys j
    rw [hret] at hj'
    rw [hj' hdone]
    simp

end Results

/-! ## An operation that outlives a rotation -/

/-- Answer a step; `id` is for the pool it may connect. -/
def answer (id : PoolId) (op : Op) (w : Pools) : Option (op.Answer × Pools) :=
  match op with
  | .current =>
      some (w.active,
        { w with strong := Function.update w.strong w.active (w.strong w.active + 1) })
  | .query pool =>
      if w.opened pool then some (.ok (), w) else some (.error "pool closed", w)
  | .begin pool =>
      if w.opened pool then some (.ok (), w) else some (.error "pool closed", w)
  | .statement _ => some (.ok (), w)
  | .release pool =>
      some ((), { w with strong := Function.update w.strong pool (w.strong pool - 1) })
  | .connect =>
      if id ∈ w.issued then some (.error "connection refused", w)
      else
        let w' : Pools := { w with
          strong := Function.update w.strong id 1
          opened := Function.update w.opened id true
          issued := id :: w.issued }
        some (.ok id, w')
  | .ping pool =>
      if w.opened pool then some (.ok (), w) else some (.error "pool closed", w)
  | .swap pool => some (w.active, { w with active := pool })
  | .tryUnwrap pool =>
      if w.strong pool = 1 then
        some (true, { w with strong := Function.update w.strong pool 0 })
      else some (false, w)
  | .sleep => some ((), w)
  | .close pool =>
      some (.ok (), { w with opened := Function.update w.opened pool false })

/-- The sample answers are possible. -/
theorem answer_sound {Tid : Type} {id : PoolId} {i : Tid} {op : Op} {w w' : Pools} {r : op.Answer}
    (h : answer id op w = some (r, w')) : env i op w r w' := by
  cases op with
  | current =>
      cases h
      exact ⟨rfl, rfl⟩
  | query pool =>
      simp only [answer] at h
      split at h
      · rename_i hopen
        cases h
        exact ⟨rfl, fun hclosed => by simp [hopen] at hclosed⟩
      · cases h
        exact ⟨rfl, fun _ => ⟨_, rfl⟩⟩
  | begin pool =>
      simp only [answer] at h
      split at h
      · rename_i hopen
        cases h
        exact ⟨rfl, fun hclosed => by simp [hopen] at hclosed⟩
      · cases h
        exact ⟨rfl, fun _ => ⟨_, rfl⟩⟩
  | statement pool =>
      cases h
      rfl
  | release pool =>
      cases h
      rfl
  | connect =>
      simp only [answer] at h
      split at h
      · cases h
        rfl
      · rename_i hfresh
        cases h
        exact ⟨hfresh, rfl⟩
  | ping pool =>
      simp only [answer] at h
      split at h
      · rename_i hopen
        cases h
        exact ⟨rfl, fun hclosed => by simp [hopen] at hclosed⟩
      · cases h
        exact ⟨rfl, fun _ => ⟨_, rfl⟩⟩
  | swap pool =>
      cases h
      exact ⟨rfl, rfl⟩
  | tryUnwrap pool =>
      simp only [answer] at h
      simp only [env]
      split at h
      · rename_i hone
        cases h
        rw [if_pos hone]
        exact ⟨rfl, rfl⟩
      · rename_i hshared
        cases h
        rw [if_neg hshared]
        exact ⟨rfl, rfl⟩
  | sleep =>
      cases h
      rfl
  | close pool =>
      cases h
      rfl

/-- A write of one statement, a read and a rotation. -/
def sampleTasks : Option Bool → Task
  | some true => .write 1
  | some false => .read
  | none => .rotate 3

/-- The rotation swaps the pool while the read has a handle of it and the transaction of the
write has begun. -/
def sampleRun :=
  Pool.drive (recordedAnswer fun id (_ : Option Bool) => answer id)
    [(some true, 0), (some true, 0), (some true, 0), (some false, 0), (none, 2), (none, 0),
      (none, 0), (none, 0), (none, 0), (some false, 0), (some false, 0), (some true, 0),
      (some true, 0)]
    (start sampleTasks 1)

/-- The sample is a run. -/
theorem sampleRun_runs :
    Run (recorded env) (start sampleTasks 1) sampleRun.1 sampleRun.2 := by
  apply Run.drive
  intro id i op w r w' h
  refine recordedAnswer_sound ?_ h
  exact fun _ _ _ _ _ _ hanswer => answer_sound hanswer

/-- The read made its query on the pool that had been swapped out; after it and the write the
rotation can close the pool. -/
theorem operations_never_meet_closed_pools_sample :
    sampleRun.2.world.now.active = 2 ∧ sampleRun.2.world.now.opened 2 = true ∧
      (∃ earlier m later, sampleRun.2.world.log = earlier ++ m :: later ∧
        m.event = ⟨some false, .query 1, .ok ()⟩ ∧ m.before.active = 2 ∧
        m.before.opened 1 = true) ∧
      sampleRun.2.world.now.strong 1 = 1 := by
  have hpools := operations_never_meet_closed_pools sampleTasks 1 sampleRun_runs
  have hactive : sampleRun.2.world.now.active = 2 := by decide +kernel
  refine ⟨hactive, hactive ▸ hpools.1, ?_, ?_⟩
  · have hlog : sampleRun.2.world.log = sampleRun.2.world.log.take 9 ++
        sampleRun.2.world.log[9] :: sampleRun.2.world.log.drop 10 := rfl
    exact ⟨_, _, _, hlog, rfl, rfl, (hpools.2.1 _ _ _ hlog).1 1 rfl⟩
  · refine hpools.2.2 none 1 1 rfl ?_
    rintro (_ | _ | _) hj
    · exact absurd rfl hj
    · exact ⟨.answered (.ok ()), rfl, by simp⟩
    · exact ⟨.answered (.ok ()), rfl, by simp⟩

end PoolRotation

end StatusListServer
