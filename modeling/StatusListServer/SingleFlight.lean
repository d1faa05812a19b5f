import StatusListServer.RunHistory

/-!
# A cache behind a lock that is held while it is filled

A value that is produced at some cost and good for some time is kept in a cell behind a
lock.  A caller takes the lock, returns the kept value if it is still fresh, and otherwise
produces one, keeps it and returns it; the lock is held throughout.  A caller may be
cancelled while it waits for the lock or for the production, and a production may fail:
the lock is given back and the cell is left alone.

Productions do not overlap, none begins while the kept value is fresh, and every value that
is returned is the caller's own or was fresh when the caller looked at the clock.
-/

namespace SingleFlight

open Interaction

/-- What is kept (`C`) of what is produced (`A`), and what callers get of it (`V`).  What is
not fresh does not become fresh again. -/
structure Policy (C A V : Type) where
  fresh : C → Nat → Bool
  keep : A → Nat → C
  value : C → V
  give : A → V
  fresh_of_le : ∀ c t t', t ≤ t' → fresh c t' = true → fresh c t = true

/-! ## The callers -/

/-- What a caller does. -/
inductive Op (C : Type)
  | lock
  | read
  | now
  | begin
  | finish
  | write (c : C)
  | unlock
deriving DecidableEq

/-- The answer to `lock` says whether the caller has it; `finish` has none when the caller
is cancelled. -/
@[reducible] def Op.Answer (A E : Type) {C : Type} : Op C → Type
  | .lock => Bool
  | .read => Option C
  | .now => Nat
  | .begin => Unit
  | .finish => Option (Except E A)
  | .write _ => Unit
  | .unlock => Unit

section Programs

variable {C A V E : Type} (P : Policy C A V)

/-- A caller's program. -/
abbrev M (C A E : Type) := Prog (Op C) (Op.Answer A E)

/-- One operation of a caller. -/
def ask (op : Op C) : M C A E (op.Answer A E) := Prog.ask op

/-- Produce a value and keep it, with the lock held. -/
def refresh : M C A E (Option (Except E V)) := do
  ask .begin
  match ← ask .finish with
  | none => do
      ask .unlock
      return none
  | some (.error e) => do
      ask .unlock
      return some (.error e)
  | some (.ok a) => do
      let t ← ask .now
      ask (.write (P.keep a t))
      ask .unlock
      return some (.ok (P.give a))

/-- Return a kept value that is fresh at a time, or produce one. -/
def serve (c : C) (t : Nat) : M C A E (Option (Except E V)) :=
  if P.fresh c t then do
    ask .unlock
    return some (.ok (P.value c))
  else refresh P

/-- Look under the lock, and produce what is not there or not fresh. -/
def getOrProduce : M C A E (Option (Except E V)) := do
  if ← ask .lock then
    match ← ask .read with
    | none => refresh P
    | some c => do
        let t ← ask .now
        serve P c t
  else return none

/-! ## Where a caller stands -/

/-- How far a caller has come, with what it has read. -/
inductive Phase (C A V : Type)
  | outside
  | locked
  | seen (c : Option C)
  | hit (c : C)
  | stale
  | producing
  | produced (a : A)
  | timed (a : A) (t : Nat)
  | stored (a : A)
  | failed
  | answered (v : V)
  | ended

/-- The caller has the lock. -/
def Phase.inside : Phase C A V → Bool
  | .outside => false
  | .answered _ => false
  | .ended => false
  | _ => true

/-- What a caller may do next. -/
def may (s : Phase C A V) : Op C → Prop
  | .lock => s = .outside
  | .read => s = .locked
  | .now => (∃ c, s = .seen (some c)) ∨ ∃ a, s = .produced a
  | .begin => s = .seen none ∨ s = .stale
  | .finish => s = .producing
  | .write c => ∃ a t, s = .timed a t ∧ c = P.keep a t
  | .unlock => (∃ c, s = .hit c) ∨ (∃ a, s = .stored a) ∨ s = .failed

/-- What a caller knows after an answer. -/
def next (s : Phase C A V) : (op : Op C) → op.Answer A E → Phase C A V
  | .lock, acquired => if acquired then .locked else .ended
  | .read, c => .seen c
  | .now, t =>
      match s with
      | .seen (some c) => if P.fresh c t then .hit c else .stale
      | .produced a => .timed a t
      | s => s
  | .begin, _ => .producing
  | .finish, some (.ok a) => .produced a
  | .finish, _ => .failed
  | .write _, _ =>
      match s with
      | .timed a _ => .stored a
      | s => s
  | .unlock, _ =>
      match s with
      | .hit c => .answered (P.value c)
      | .stored a => .answered (P.give a)
      | _ => .ended

/-- The discipline of the callers. -/
@[reducible] def discipline (E : Type) : Discipline (Op C) (Op.Answer A E) where
  State := Phase C A V
  may := may P
  next := next P

/-- A caller that returns a value has it from the cell or from its own production. -/
def Ended (s : Phase C A V) : Option (Except E V) → Prop
  | some (.ok v) => s = .answered v
  | _ => s = .ended

/-- Whoever is to do anything but ask for the lock has it. -/
theorem inside_of_may {s : Phase C A V} {op : Op C} (h : may P s op) (hop : op ≠ .lock) :
    s.inside = true := by
  cases op with
  | lock => exact absurd rfl hop
  | read =>
      rw [show s = .locked from h]
      rfl
  | now =>
      rcases h with ⟨c, rfl⟩ | ⟨a, rfl⟩
      · rfl
      · rfl
  | begin =>
      rcases h with rfl | rfl
      · rfl
      · rfl
  | finish =>
      rw [show s = .producing from h]
      rfl
  | write c =>
      obtain ⟨a, t, rfl, _⟩ := h
      rfl
  | unlock =>
      rcases h with ⟨c, rfl⟩ | ⟨a, rfl⟩ | rfl
      · rfl
      · rfl
      · rfl

/-- Whoever is producing has only to finish. -/
theorem eq_finish_of_may {op : Op C} (h : may P (.producing : Phase C A V) op) : op = .finish := by
  cases op with
  | finish => rfl
  | lock => cases h
  | read => cases h
  | now => simp [may] at h
  | begin => simp [may] at h
  | write c => simp [may] at h
  | unlock => simp [may] at h

/-- Producing and keeping an artifact. -/
theorem obeys_refresh {s : Phase C A V} (hs : s = .seen none ∨ s = .stale) :
    (refresh P : M C A E _).Obeys (discipline P E) Ended s := by
  unfold refresh
  refine Prog.obeys_ask_bind ?_ ?_
  · exact hs
  · intro _
    refine ⟨rfl, ?_⟩
    intro result
    rcases result with _ | (e | a)
    · exact ⟨.inr (.inr rfl), fun _ => rfl⟩
    · exact ⟨.inr (.inr rfl), fun _ => rfl⟩
    · refine ⟨.inr ⟨a, rfl⟩, ?_⟩
      intro t
      exact ⟨⟨a, t, rfl, rfl⟩, fun _ => ⟨.inr (.inl ⟨a, rfl⟩), fun _ => rfl⟩⟩

/-- Serving what is kept, or producing anew. -/
theorem obeys_serve (c : C) (t : Nat) :
    (serve P c t : M C A E _).Obeys (discipline P E) Ended
      (if P.fresh c t then .hit c else .stale) := by
  unfold serve
  split
  · exact ⟨.inl ⟨c, rfl⟩, fun _ => rfl⟩
  · exact obeys_refresh P (.inr rfl)

/-- **Every caller keeps to its phases.** -/
theorem obeys_getOrProduce :
    (getOrProduce P : M C A E _).Obeys (discipline P E) Ended .outside := by
  unfold getOrProduce
  refine Prog.obeys_ask_bind ?_ ?_
  · exact rfl
  · intro acquired
    cases acquired with
    | false => exact rfl
    | true =>
        refine ⟨rfl, ?_⟩
        intro c
        cases c with
        | none => exact obeys_refresh P (.inl rfl)
        | some c =>
            exact ⟨.inl ⟨c, rfl⟩, fun t => obeys_serve P c t⟩

end Programs

/-! ## The lock, the cell and the clock -/

/-- The lock, what it guards, and the clock. -/
structure Guarded (Tid C : Type) where
  holder : Option Tid
  cell : Option C
  clock : Nat

section Runs

variable {Tid C A V E : Type}

/-- What the operations do; time passes in every one of them.  A production gives what is
`allowed`. -/
def env (allowed : A → Prop) : Env Tid (Op C) (Op.Answer A E) (Guarded Tid C)
  | i, .lock, w, acquired, w' => ∃ t, w.clock ≤ t ∧
      if acquired then w.holder = none ∧ w' = { w with holder := some i, clock := t }
      else w' = { w with clock := t }
  | _, .read, w, c, w' => c = w.cell ∧ ∃ t, w.clock ≤ t ∧ w' = { w with clock := t }
  | _, .now, w, t, w' => w.clock ≤ t ∧ w' = { w with clock := t }
  | _, .begin, w, _, w' => ∃ t, w.clock ≤ t ∧ w' = { w with clock := t }
  | _, .finish, w, result, w' => (∀ a, result = some (.ok a) → allowed a) ∧
      ∃ t, w.clock ≤ t ∧ w' = { w with clock := t }
  | _, .write c, w, _, w' => ∃ t, w.clock ≤ t ∧ w' = { w with cell := some c, clock := t }
  | _, .unlock, w, _, w' => ∃ t, w.clock ≤ t ∧ w' = { w with holder := none, clock := t }

/-- Answer the operations of callers that wait while the lock is taken.  Each takes a time of
its own, and every production has one result. -/
def answer (given : Option (Except E A)) (elapsed : Nat) (i : Tid) :
    (op : Op C) → Guarded Tid C → Option (op.Answer A E × Guarded Tid C)
  | .lock, w =>
      if w.holder.isNone then
        some (true, { w with holder := some i, clock := w.clock + elapsed })
      else none
  | .read, w => some (w.cell, { w with clock := w.clock + elapsed })
  | .now, w => some (w.clock + elapsed, { w with clock := w.clock + elapsed })
  | .begin, w => some ((), { w with clock := w.clock + elapsed })
  | .finish, w => some (given, { w with clock := w.clock + elapsed })
  | .write c, w => some ((), { w with cell := some c, clock := w.clock + elapsed })
  | .unlock, w => some ((), { w with holder := none, clock := w.clock + elapsed })

/-- The sample world answers as the world may. -/
theorem answer_sound {allowed : A → Prop} {given : Option (Except E A)}
    (hgiven : ∀ a, given = some (.ok a) → allowed a) {elapsed : Nat} {i : Tid} {op : Op C}
    {w w' : Guarded Tid C} {r : op.Answer A E} (h : answer given elapsed i op w = some (r, w')) :
    env allowed i op w r w' := by
  have hlater : w.clock ≤ w.clock + elapsed := Nat.le_add_right _ _
  cases op with
  | lock =>
      simp only [answer] at h
      split at h
      · rename_i hfree
        cases h
        exact ⟨_, hlater, Option.isNone_iff_eq_none.mp hfree, rfl⟩
      · cases h
  | read =>
      cases h
      exact ⟨rfl, _, hlater, rfl⟩
  | now =>
      cases h
      exact ⟨hlater, rfl⟩
  | begin =>
      cases h
      exact ⟨_, hlater, rfl⟩
  | finish =>
      cases h
      exact ⟨hgiven, _, hlater, rfl⟩
  | write c =>
      cases h
      exact ⟨_, hlater, rfl⟩
  | unlock =>
      cases h
      exact ⟨_, hlater, rfl⟩

/-- What has happened, in order. -/
abbrev Log (Tid C A E : Type) := List (Moment Tid (Op C) (Op.Answer A E) (Guarded Tid C))

/-- The world, with what has happened in it. -/
abbrev History (Tid C A E : Type) := Recorded Tid (Op C) (Op.Answer A E) (Guarded Tid C)

/-- The callers before their first step, at some time, with nothing kept. -/
def start (P : Policy C A V) (clock : Nat) :
    Pool Tid (Op C) (Op.Answer A E) (Option (Except E V)) (History Tid C A E) :=
  ⟨⟨⟨none, none, clock⟩, []⟩, fun _ => getOrProduce P⟩

variable (P : Policy C A V)

/-- A caller's production has given a value. -/
def Produced (i : Tid) (a : A) (log : Log Tid C A E) : Prop :=
  ∃ m ∈ log, m.event = ⟨i, .finish, some (.ok a)⟩

/-- The steps were made in this order, perhaps with others between them. -/
def InOrder (events : List (Event Tid (Op C) (Op.Answer A E))) (log : Log Tid C A E) : Prop :=
  events.Sublist (log.map Moment.event)

/-- A caller has produced a value and then looked at the clock. -/
def Timed (i : Tid) (a : A) (t : Nat) (log : Log Tid C A E) : Prop :=
  InOrder [⟨i, .finish, some (.ok a)⟩, ⟨i, .now, t⟩] log

/-- What is kept was produced by a caller that then looked at the clock, not later than at a
given time, and kept it. -/
def KeptFrom (c : C) (log : Log Tid C A E) (time : Nat) : Prop :=
  ∃ i a, ∃ t : Nat, c = P.keep a t ∧ t ≤ time ∧
    InOrder [⟨i, .finish, some (.ok a)⟩, ⟨i, .now, t⟩, ⟨i, .write c, ()⟩] log

/-- A caller has looked at the clock, and what was kept at that moment was fresh by it. -/
def Found (i : Tid) (c : C) (log : Log Tid C A E) : Prop :=
  ∃ earlier m later, ∃ t : Nat, log = earlier ++ m :: later ∧ m.event = ⟨i, .now, t⟩ ∧
    m.before.cell = some c ∧ P.fresh c t = true ∧ KeptFrom P c earlier t

/-- A caller's production is over. -/
def Finished (i : Tid) (log : Log Tid C A E) : Prop :=
  ∃ m ∈ log, m.event.tid = i ∧ m.event.op = .finish

/-- Where a production begins, what is kept is not fresh, and all productions before it are
over. -/
def MomentHolds (earlier : Log Tid C A E)
    (m : Moment Tid (Op C) (Op.Answer A E) (Guarded Tid C)) : Prop :=
  m.event.op = .begin →
    (∀ c, m.before.cell = some c → P.fresh c m.before.clock = false) ∧
    ∀ before m' after, earlier = before ++ m' :: after → m'.event.op = .begin →
      Finished m'.event.tid after

/-- What is true of the world while a caller is in a phase. -/
def PhaseHolds (i : Tid) (w : History Tid C A E) : Phase C A V → Prop
  | .seen c => w.now.cell = c
  | .hit c => Found P i c w.log
  | .stale => ∀ c, w.now.cell = some c → P.fresh c w.now.clock = false
  | .produced a => Produced i a w.log
  | .timed a t => t ≤ w.now.clock ∧ Timed i a t w.log
  | .stored a => Produced i a w.log
  | .answered v =>
      (∃ c, v = P.value c ∧ Found P i c w.log) ∨ ∃ a, v = P.give a ∧ Produced i a w.log
  | _ => True

/-- The invariant of all runs. -/
structure Sound (locals : Tid → Phase C A V) (w : History Tid C A E) : Prop where
  holder : ∀ i, (locals i).inside = true → w.now.holder = some i
  phases : ∀ i, PhaseHolds P i w (locals i)
  kept : ∀ c, w.now.cell = some c → KeptFrom P c w.log w.now.clock
  begun : ∀ earlier m later, w.log = earlier ++ m :: later → m.event.op = .begin →
    locals m.event.tid = .producing ∨ Finished m.event.tid later
  moments : ∀ earlier m later, w.log = earlier ++ m :: later → MomentHolds P earlier m

variable {P}

/-- Events that are in order stay so in a longer log. -/
theorem InOrder.append {events : List (Event Tid (Op C) (Op.Answer A E))} {log : Log Tid C A E}
    (h : InOrder events log) (more : Log Tid C A E) : InOrder events (log ++ more) := by
  rw [InOrder, List.map_append]
  exact h.trans (List.sublist_append_left _ _)

/-- One more step comes after the others. -/
theorem InOrder.snoc {events : List (Event Tid (Op C) (Op.Answer A E))} {log : Log Tid C A E}
    (h : InOrder events log) (m : Moment Tid (Op C) (Op.Answer A E) (Guarded Tid C)) :
    InOrder (events ++ [m.event]) (log ++ [m]) := by
  rw [InOrder, List.map_append]
  exact List.Sublist.append h (List.Sublist.refl _)

/-- What was produced stays produced. -/
theorem Produced.append {i : Tid} {a : A} {log : Log Tid C A E} (h : Produced i a log)
    (more : Log Tid C A E) : Produced i a (log ++ more) := by
  obtain ⟨m, hm, hevent⟩ := h
  exact ⟨m, List.mem_append_left _ hm, hevent⟩

/-- What was produced is in the log. -/
theorem Produced.inOrder {i : Tid} {a : A} {log : Log Tid C A E} (h : Produced i a log) :
    InOrder [⟨i, .finish, some (.ok a)⟩] log := by
  obtain ⟨m, hm, hevent⟩ := h
  exact List.singleton_sublist.mpr (List.mem_map.mpr ⟨m, hm, hevent⟩)

/-- What comes first in some order of steps is a step. -/
theorem InOrder.produced {i : Tid} {a : A} {log : Log Tid C A E}
    {events : List (Event Tid (Op C) (Op.Answer A E))}
    (h : InOrder (⟨i, .finish, some (.ok a)⟩ :: events) log) : Produced i a log := by
  obtain ⟨m, hm, hevent⟩ := List.mem_map.mp (h.subset List.mem_cons_self)
  exact ⟨m, hm, hevent⟩

/-- What was kept from a time on stays so. -/
theorem KeptFrom.append {c : C} {log : Log Tid C A E} {time time' : Nat}
    (h : KeptFrom P c log time) (htime : time ≤ time') (more : Log Tid C A E) :
    KeptFrom P c (log ++ more) time' := by
  obtain ⟨i, a, t, hc, ht, horder⟩ := h
  exact ⟨i, a, t, hc, Nat.le_trans ht htime, horder.append _⟩

/-- What was found stays found. -/
theorem Found.append {i : Tid} {c : C} {log : Log Tid C A E} (h : Found P i c log)
    (more : Log Tid C A E) : Found P i c (log ++ more) := by
  obtain ⟨earlier, m, later, t, rfl, hfound⟩ := h
  exact ⟨earlier, m, later ++ more, t, by simp, hfound⟩

/-- Who has finished stays finished. -/
theorem Finished.append {i : Tid} {log : Log Tid C A E} (h : Finished i log)
    (more : Log Tid C A E) : Finished i (log ++ more) := by
  obtain ⟨m, hm, hrest⟩ := h
  exact ⟨m, List.mem_append_left _ hm, hrest⟩

/-- What is not fresh is not fresh later. -/
theorem Policy.stale_of_le (P : Policy C A V) {c : C} {t t' : Nat} (hle : t ≤ t')
    (h : P.fresh c t = false) : P.fresh c t' = false := by
  cases hfresh : P.fresh c t' with
  | false => rfl
  | true =>
      rw [P.fresh_of_le c t t' hle hfresh] at h
      cases h

/-- What a phase says stays true while time passes, if the cell is the same or the caller
does not have the lock. -/
theorem PhaseHolds.later {i : Tid} {w : History Tid C A E} {w' : Guarded Tid C}
    {s : Phase C A V} (h : PhaseHolds P i w s) (hclock : w.now.clock ≤ w'.clock)
    (hcell : s.inside = true → w'.cell = w.now.cell)
    (m : Moment Tid (Op C) (Op.Answer A E) (Guarded Tid C)) :
    PhaseHolds P i ⟨w', w.log ++ [m]⟩ s := by
  cases s with
  | seen c => exact (hcell rfl).trans h
  | hit c => exact h.append _
  | stale =>
      intro c hc
      rw [hcell rfl] at hc
      exact P.stale_of_le hclock (h c hc)
  | produced a => exact h.append _
  | timed a t =>
      obtain ⟨ht, horder⟩ := h
      exact ⟨Nat.le_trans ht hclock, InOrder.append horder _⟩
  | stored a => exact h.append _
  | answered v =>
      rcases h with ⟨c, hv, hfound⟩ | ⟨a, hv, hproduced⟩
      · exact .inl ⟨c, hv, hfound.append _⟩
      · exact .inr ⟨a, hv, hproduced.append _⟩
  | outside => trivial
  | locked => trivial
  | producing => trivial
  | failed => trivial
  | ended => trivial

/-- The caller with the lock is alone inside. -/
theorem Sound.alone {locals : Tid → Phase C A V} {w : History Tid C A E} (h : Sound P locals w)
    {i j : Tid} (hi : (locals i).inside = true) (hj : j ≠ i) : (locals j).inside ≠ true := by
  intro hinside
  have hholder := h.holder i hi
  rw [h.holder j hinside] at hholder
  exact hj (Option.some.inj hholder)

/-- Only the start of a production asks for anything. -/
theorem MomentHolds.plain {earlier : Log Tid C A E}
    {m : Moment Tid (Op C) (Op.Answer A E) (Guarded Tid C)} (hop : m.event.op ≠ .begin) :
    MomentHolds P earlier m := fun h => absurd h hop

variable [DecidableEq Tid]

/-- **The rule for one step of a caller.** -/
theorem Sound.request {locals : Tid → Phase C A V} {w : History Tid C A E}
    (h : Sound P locals w) {i : Tid} {op : Op C} {r : op.Answer A E} {w' : Guarded Tid C}
    (hmay : may P (locals i) op) (hclock : w.now.clock ≤ w'.clock)
    (hholder : (next P (locals i) op r).inside = true → w'.holder = some i)
    (hothers : ∀ j, j ≠ i → (locals j).inside = true →
      w'.holder = some j ∧ w'.cell = w.now.cell)
    (hphase : PhaseHolds P i ⟨w', w.log ++ [⟨⟨i, op, r⟩, w.now, w'⟩]⟩ (next P (locals i) op r))
    (hkept : ∀ c, w'.cell = some c →
      KeptFrom P c (w.log ++ [⟨⟨i, op, r⟩, w.now, w'⟩]) w'.clock)
    (hmoment : MomentHolds P w.log ⟨⟨i, op, r⟩, w.now, w'⟩) :
    Sound P (Function.update locals i (next P (locals i) op r))
      ⟨w', w.log ++ [⟨⟨i, op, r⟩, w.now, w'⟩]⟩ where
  holder := by
    intro j hj
    by_cases hji : j = i
    · subst hji
      exact hholder (by simpa using hj)
    · exact (hothers j hji (by simpa [hji] using hj)).1
  phases := by
    intro j
    by_cases hji : j = i
    · subst hji
      simpa using hphase
    · rw [Function.update_of_ne hji]
      exact (h.phases j).later hclock (fun hinside => (hothers j hji hinside).2) _
  kept := hkept
  begun := by
    intro earlier m later hlog hop
    obtain ⟨rfl, rfl, rfl⟩ | ⟨later', rfl, hold⟩ := split_snoc hlog
    · cases hop
      exact .inl (Function.update_self ..)
    · rcases h.begun earlier m later' hold hop with hopen | hover
      · by_cases hmi : m.event.tid = i
        · rw [hmi] at hopen ⊢
          rw [hopen] at hmay
          exact .inr ⟨_, List.mem_append_right _ List.mem_cons_self, rfl, eq_finish_of_may P hmay⟩
        · exact .inl (by simpa [hmi] using hopen)
      · exact .inr (hover.append _)
  moments := by
    intro earlier m later hlog
    obtain ⟨rfl, rfl, _⟩ | ⟨later', _, hold⟩ := split_snoc hlog
    · exact hmoment
    · exact h.moments earlier m later' hold

/-- A step that takes time and nothing else, of a caller that keeps what it has. -/
theorem Sound.elapse {locals : Tid → Phase C A V} {w : History Tid C A E}
    (h : Sound P locals w) {i : Tid} {op : Op C} {r : op.Answer A E} {t : Nat}
    (hmay : may P (locals i) op) (ht : w.now.clock ≤ t)
    (hinside : (next P (locals i) op r).inside = true → (locals i).inside = true)
    (hphase : PhaseHolds P i ⟨{ w.now with clock := t },
      w.log ++ [⟨⟨i, op, r⟩, w.now, { w.now with clock := t }⟩]⟩ (next P (locals i) op r))
    (hmoment : MomentHolds P w.log ⟨⟨i, op, r⟩, w.now, { w.now with clock := t }⟩) :
    Sound P (Function.update locals i (next P (locals i) op r)) ⟨{ w.now with clock := t },
      w.log ++ [⟨⟨i, op, r⟩, w.now, { w.now with clock := t }⟩]⟩ := by
  refine h.request hmay ht (fun hs => h.holder i (hinside hs)) ?_ hphase ?_ hmoment
  · exact fun j _ hj => ⟨h.holder j hj, rfl⟩
  · exact fun c hc => (h.kept c hc).append ht _

/-- All productions are over when a caller begins one. -/
theorem Sound.finished {locals : Tid → Phase C A V} {w : History Tid C A E} (h : Sound P locals w)
    {i : Tid} (hmay : may P (locals i) .begin)
    {before after : Log Tid C A E} {m : Moment Tid (Op C) (Op.Answer A E) (Guarded Tid C)}
    (hlog : w.log = before ++ m :: after) (hop : m.event.op = .begin) :
    Finished m.event.tid after := by
  rcases h.begun before m after hlog hop with hopen | hover
  · by_cases hmi : m.event.tid = i
    · rw [hmi] at hopen
      rw [hopen] at hmay
      cases eq_finish_of_may P hmay
    · refine absurd ?_ (h.alone (inside_of_may P hmay (by simp)) hmi)
      rw [hopen]
      rfl
  · exact hover

/-- **One step of a caller.** -/
theorem Sound.step {allowed : A → Prop} {locals : Tid → Phase C A V} {w : History Tid C A E}
    (h : Sound P locals w) {i : Tid} {op : Op C} {r : op.Answer A E} {w' : Guarded Tid C}
    (hmay : may P (locals i) op) (henv : env allowed i op w.now r w') :
    Sound P (Function.update locals i (next P (locals i) op r))
      ⟨w', w.log ++ [⟨⟨i, op, r⟩, w.now, w'⟩]⟩ := by
  have hphase := h.phases i
  have hinside := inside_of_may P hmay
  cases op with
  | lock =>
      obtain ⟨t, ht, hlock⟩ := henv
      cases r with
      | true =>
          obtain ⟨hfree, rfl⟩ := hlock
          refine h.request hmay ht (fun _ => rfl) ?_ trivial
            (fun c hc => (h.kept c hc).append ht _) (.plain (by simp))
          intro j _ hj
          have hholder := h.holder j hj
          rw [hfree] at hholder
          cases hholder
      | false =>
          obtain rfl : w' = { w.now with clock := t } := hlock
          exact h.elapse hmay ht (fun hs => by cases hs) trivial (.plain (by simp))
  | read =>
      obtain ⟨rfl, t, ht, rfl⟩ := henv
      exact h.elapse hmay ht (fun _ => hinside (by simp)) rfl (.plain (by simp))
  | now =>
      obtain ⟨ht, rfl⟩ := henv
      refine h.elapse hmay ht (fun _ => hinside (by simp)) ?_ (.plain (by simp))
      rcases hmay with ⟨c, hstage⟩ | ⟨a, hstage⟩
      · rw [hstage] at hphase
        have hcell : w.now.cell = some c := hphase
        simp only [next, hstage]
        split
        · rename_i hfresh
          obtain ⟨j, a, s, hc, hs, horder⟩ := h.kept c hcell
          exact ⟨w.log, _, [], r, rfl, rfl, hcell, hfresh, j, a, s, hc, Nat.le_trans hs ht, horder⟩
        · rename_i hstale
          intro c' hc'
          obtain rfl : c = c' := Option.some.inj (hcell.symm.trans hc')
          exact Bool.eq_false_iff.mpr hstale
      · rw [hstage] at hphase
        simp only [next, hstage]
        exact ⟨Nat.le_refl _, (Produced.inOrder hphase).snoc ⟨⟨i, .now, r⟩, _, _⟩⟩
  | begin =>
      obtain ⟨t, ht, rfl⟩ := henv
      refine h.elapse hmay ht (fun _ => hinside (by simp)) trivial ?_
      refine fun _ => ⟨?_, fun before m' after hlog hop => h.finished hmay hlog hop⟩
      rcases hmay with hstage | hstage
      · rw [hstage] at hphase
        intro c hc
        rw [show w.now.cell = none from hphase] at hc
        cases hc
      · rw [hstage] at hphase
        exact hphase
  | finish =>
      obtain ⟨_, t, ht, rfl⟩ := henv
      refine h.elapse hmay ht (fun _ => hinside (by simp)) ?_ (.plain (by simp))
      rcases r with _ | (e | a)
      · trivial
      · trivial
      · exact ⟨_, List.mem_append_right _ List.mem_cons_self, rfl⟩
  | write c =>
      obtain ⟨t, ht, rfl⟩ := henv
      obtain ⟨a, s, hstage, rfl⟩ := id hmay
      rw [hstage] at hphase
      obtain ⟨hs, htimed⟩ := hphase
      refine h.request hmay ht (fun _ => h.holder i (hinside (by simp)))
        (fun j hj hother => absurd hother (h.alone (hinside (by simp)) hj)) ?_ ?_
        (.plain (by simp))
      · simp only [next, hstage]
        exact (InOrder.produced htimed).append _
      · intro c hc
        obtain rfl : P.keep a s = c := Option.some.inj hc
        exact ⟨i, a, s, rfl, Nat.le_trans hs ht, InOrder.snoc htimed ⟨⟨i, .write _, r⟩, _, _⟩⟩
  | unlock =>
      obtain ⟨t, ht, rfl⟩ := henv
      have hafter : PhaseHolds P i ⟨{ w.now with holder := none, clock := t },
          w.log ++ [⟨⟨i, .unlock, r⟩, w.now, { w.now with holder := none, clock := t }⟩]⟩
            (next P (locals i) .unlock r) ∧ (next P (locals i) .unlock r).inside = false := by
        rcases hmay with ⟨c, hstage⟩ | ⟨a, hstage⟩ | hstage
        · rw [hstage] at hphase ⊢
          exact ⟨.inl ⟨c, rfl, Found.append hphase _⟩, rfl⟩
        · rw [hstage] at hphase ⊢
          exact ⟨.inr ⟨a, rfl, Produced.append hphase _⟩, rfl⟩
        · rw [hstage]
          exact ⟨trivial, rfl⟩
      exact h.request hmay ht (fun hs => by rw [hafter.2] at hs; cases hs)
        (fun j hj hother => absurd hother (h.alone (hinside (by simp)) hj)) hafter.1
        (fun c hc => (h.kept c hc).append ht _) (.plain (by simp))

/-- **The invariant holds after every run.** -/
theorem sound_of_run {allowed : A → Prop} {clock : Nat}
    {t : List (Event Tid (Op C) (Op.Answer A E))}
    {c : Pool Tid (Op C) (Op.Answer A E) (Option (Except E V)) (History Tid C A E)}
    (h : Run (recorded (env allowed)) (start P clock) t c) :
    ∃ locals, Sound P locals c.world ∧
      ∀ i, (c.threads i).Obeys (discipline P E) Ended (locals i) := by
  refine Run.ledger (I := fun _ l => Sound P l.locals l.world) (fun _ => obeys_getOrProduce P)
    ?_ ?_ h
  · refine ⟨fun _ hi => ?_, fun _ => trivial, fun _ hc => ?_, ?_, ?_⟩
    · cases hi
    · cases hc
    · intro earlier m later hlog
      simp [start] at hlog
    · intro earlier m later hlog
      simp [start] at hlog
  · intro t l e l' hsound hstep
    cases hstep with
    | @act i op r w' hmay henv =>
        rw [henv.eq]
        exact hsound.step hmay henv.1

end Runs

end SingleFlight
