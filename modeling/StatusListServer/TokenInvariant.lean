import StatusListServer.TokenPhases

/-!
# The invariant of the Vault token manager

Any number of callers make sure that the Vault token is valid and read it, in any
interleaving of their operations and with any answers of the server.  The ranges
of phases (`holdsLock`, `expired`, `cooled`, ...) carry the invariant: only the
caller that holds the renewal lock writes or sends, and it does so after the
recorded lease and cooldown have run out.
-/

namespace StatusListServer

open Interaction

namespace VaultToken

/-! ## Ranges of phases -/

/-- The phases in which a caller holds the lock. -/
def Phase.holdsLock : Phase → Bool
  | .start | .fast _ | .outside | .valid | .ended | .done _ => false
  | _ => true

/-- The phases in which a caller waits for a reply of the server. -/
def Phase.inFlight : Phase → Bool
  | .renewing | .loggingIn => true
  | _ => false

/-- The caller has found, with the lock held, that the recorded lease is used up. -/
def Phase.expired : Phase → Bool
  | .stale | .cooling _ | .ready | .renewable | .holdingToken | .renewing | .loginDue
  | .loggingIn | .failed | .failedAt _ | .granted _ | .tokenWritten _ | .stamped _ _
  | .issuedWritten _ => true
  | _ => false

/-- The caller has found, with the lock held, that no cooldown is running. -/
def Phase.cooled : Phase → Bool
  | .ready | .renewable | .holdingToken | .renewing | .loginDue | .loggingIn | .failed
  | .failedAt _ | .granted _ | .tokenWritten _ | .stamped _ _ | .issuedWritten _
  | .leaseWritten _ | .installed => true
  | _ => false

/-- The phases between the writing of a token and that of its last field. -/
def Phase.installing : Phase → Bool
  | .tokenWritten _ | .stamped _ _ | .issuedWritten _ | .leaseWritten _ => true
  | _ => false

/-- The caller has found the token safe, or has installed it. -/
def Phase.checked : Phase → Bool
  | .tokenWritten _ | .stamped _ _ | .issuedWritten _ | .leaseWritten _ | .installed | .safe
  | .valid => true
  | _ => false

/-- Operations that only read. -/
def Op.quiet : Op → Bool
  | .elapsed | .readLease | .readLastFailure | .readRenewable | .readToken | .now
  | .readServiceToken _ => true
  | _ => false

variable {Tid : Type} {backend : AuthBackend}

/-- A quiet operation leaves the world alone. -/
theorem apply_quiet [DecidableEq Tid] {op : Op} (h : op.quiet = true) (w : World Tid) (i : Tid) :
    w.apply i op = w := by
  cases op <;> first | rfl | cases h

section Moves

variable {p p' : Phase} {op : Op} {r : op.Answer}

/-- A caller without the lock only reads, or takes the lock. -/
theorem Move.quiet_of_not_holding (h : Move backend p op r p') (hlock : p.holdsLock = false) :
    op.quiet = true ∨ op = .lock := by
  cases h <;> first | exact .inl rfl | exact .inr rfl | cases hlock

/-- Only the lock operations change whether a caller holds the lock. -/
theorem Move.holdsLock_eq (h : Move backend p op r p') (hlock : op ≠ .lock)
    (hunlock : op ≠ .unlock) : p'.holdsLock = p.holdsLock := by
  cases h <;> first | rfl | exact absurd rfl hlock | exact absurd rfl hunlock

/-- Taking the lock. -/
theorem Move.of_lock {r : Unit} (h : Move backend p .lock r p') :
    p.holdsLock = false ∧ p'.holdsLock = true := by
  cases h with
  | lock => exact ⟨rfl, rfl⟩

/-- Giving the lock back. -/
theorem Move.of_unlock {r : Unit} (h : Move backend p .unlock r p') :
    p.holdsLock = true ∧ p'.holdsLock = false := by
  cases h with
  | unlockSafe => exact ⟨rfl, rfl⟩
  | unlockRefused => exact ⟨rfl, rfl⟩

/-- Who has seen the token expire holds the lock. -/
theorem Phase.holdsLock_of_expired (h : p.expired = true) : p.holdsLock = true := by
  cases p <;> first | rfl | cases h

/-- Who has seen the cool-down pass holds the lock. -/
theorem Phase.holdsLock_of_cooled (h : p.cooled = true) : p.holdsLock = true := by
  cases p <;> first | rfl | cases h

/-- Who installs a token holds the lock. -/
theorem Phase.holdsLock_of_installing (h : p.installing = true) : p.holdsLock = true := by
  cases p <;> first | rfl | cases h

/-- Who waits for a reply holds the lock. -/
theorem Phase.holdsLock_of_inFlight (h : p.inFlight = true) : p.holdsLock = true := by
  cases p <;> first | rfl | cases h

/-- Only the check under the lock finds a lease used up. -/
theorem Move.expired_cases (h : Move backend p op r p') (hexpired : p'.expired = true) :
    p.expired = true ∨ ∃ e lease, p = .rechecking e ∧
      (⟨op, r⟩ : (op : Op) × op.Answer) = ⟨.readLease, lease⟩ ∧ isSafe e lease = false := by
  cases h with
  | stale hsafe => exact .inr ⟨_, _, rfl, rfl, hsafe⟩
  | _ => first | exact .inl rfl | cases hexpired

/-- Only the check of the last failure finds that no cooldown is running. -/
theorem Move.cooled_cases (h : Move backend p op r p') (hcooled : p'.cooled = true) :
    p.cooled = true ∨
      (p = .stale ∧ (⟨op, r⟩ : (op : Op) × op.Answer) = ⟨.readLastFailure, none⟩) ∨
      ∃ time now : Nat, p = .cooling time ∧
        (⟨op, r⟩ : (op : Op) × op.Answer) = ⟨.now, now⟩ ∧ ¬ now - time < failureCooldown := by
  cases h with
  | noFailure => exact .inr (.inl ⟨rfl, rfl⟩)
  | cooled hover => exact .inr (.inr ⟨_, _, rfl, rfl, hover⟩)
  | _ => first | exact .inl rfl | cases hcooled

/-- The lease is written after the time of issue, as the reply has it. -/
theorem Move.of_writeLease {lease : Nat} {r : Unit}
    (h : Move backend p (.writeLease lease) r p') :
    ∃ auth, p = .issuedWritten auth ∧ lease = auth.leaseDuration ∧ p' = .leaseWritten auth := by
  cases h with
  | writeLease auth => exact ⟨auth, rfl, rfl, rfl⟩

/-- The time of issue is written after the token, as the clock showed it. -/
theorem Move.of_writeIssuedAt {time : Nat} {r : Unit}
    (h : Move backend p (.writeIssuedAt time) r p') :
    ∃ auth, p = .stamped auth time ∧ p' = .issuedWritten auth := by
  cases h with
  | writeIssuedAt auth => exact ⟨auth, rfl, rfl⟩

/-- A failure is written or cleared after the check of the last one. -/
theorem Move.of_writeLastFailure {time : Option Nat} {r : Unit}
    (h : Move backend p (.writeLastFailure time) r p') :
    (∃ t, time = some t ∧ p = .failedAt t ∧ p' = .refused) ∨
      (time = none ∧ p = .installed ∧ p' = .safe) := by
  cases h with
  | recordFailure t => exact .inl ⟨t, rfl, rfl, rfl⟩
  | clearFailure => exact .inr ⟨rfl, rfl, rfl⟩

/-- An installation starts with the writing of the token. -/
theorem Move.installing_cases (h : Move backend p op r p') (hinstalling : p'.installing = true) :
    p.installing = true ∨ ∃ token, op = .writeToken token := by
  cases h with
  | writeToken auth => exact .inr ⟨_, rfl⟩
  | _ => first | exact .inl rfl | cases hinstalling

/-- The last field ends an installation. -/
theorem Move.of_writeRenewable {renewable : Bool} {r : Unit}
    (h : Move backend p (.writeRenewable renewable) r p') : p' = .installed := by
  cases h with
  | writeRenewable auth => rfl

/-- A request is in flight from its sending to its answer. -/
theorem Move.inFlight_cases (h : Move backend p op r p') :
    (isRequest op = true ∧ p.inFlight = false ∧ p'.inFlight = true) ∨
      ((op = .renewReply ∨ op = .loginReply) ∧ p.inFlight = true ∧ p'.inFlight = false) ∨
      (isRequest op = false ∧ op ≠ .renewReply ∧ op ≠ .loginReply ∧ p.inFlight = false ∧
        p'.inFlight = false) := by
  cases h <;> simp [isRequest, Phase.inFlight]

/-- A caller that has read a failure has the time that is recorded. -/
theorem Move.to_cooling {time : Nat} (h : Move backend p op r (.cooling time)) :
    (⟨op, r⟩ : (op : Op) × op.Answer) = ⟨.readLastFailure, some time⟩ := by
  cases h with
  | lastFailure time => rfl

/-- A caller that rechecks has the age of the token. -/
theorem Move.to_rechecking {e : Nat} (h : Move backend p op r (.rechecking e)) :
    (⟨op, r⟩ : (op : Op) × op.Answer) = ⟨.elapsed, e⟩ := by
  cases h with
  | recheck r => rfl

/-- A request is sent with the token in hand, or when a login is due. -/
theorem Move.of_request (h : Move backend p op r p') (hrequest : isRequest op = true) :
    p = .holdingToken ∨ p = .loginDue := by
  cases h with
  | sendRenew token => exact .inl rfl
  | sendLogin authMount body => exact .inr rfl
  | _ => cases hrequest

/-- Requests are sent under the lock. -/
theorem Move.holdsLock_of_request (h : Move backend p op r p') (hrequest : isRequest op = true) :
    p.holdsLock = true := by
  obtain rfl | rfl := h.of_request hrequest
  · rfl
  · rfl

/-- A token is found safe by a check, or is being written. -/
theorem Move.checked_cases (h : Move backend p op r p') (hchecked : p'.checked = true) :
    p.checked = true ∨ (∃ e lease, (p = .fast e ∨ p = .rechecking e) ∧
      (⟨op, r⟩ : (op : Op) × op.Answer) = ⟨.readLease, lease⟩ ∧ isSafe e lease = true) ∨
      ∃ token, op = .writeToken token := by
  cases h with
  | fastSafe hsafe => exact .inr (.inl ⟨_, _, .inl rfl, rfl, hsafe⟩)
  | safe hsafe => exact .inr (.inl ⟨_, _, .inr rfl, rfl, hsafe⟩)
  | writeToken auth => exact .inr (.inr ⟨_, rfl⟩)
  | _ => first | exact .inl rfl | cases hchecked

/-- An age that a caller holds is one it has measured. -/
theorem Move.to_timed {e : Nat} (h : Move backend p op r p')
    (htimed : p' = .fast e ∨ p' = .rechecking e) :
    (⟨op, r⟩ : (op : Op) × op.Answer) = ⟨.elapsed, e⟩ := by
  obtain rfl | rfl := htimed
  · cases h with
    | elapsed r => rfl
  · exact h.to_rechecking

/-- A caller that is done returns the token it has read. -/
theorem Move.to_done {token : String} (h : Move backend p op r (.done token)) :
    p = .valid ∧ (⟨op, r⟩ : (op : Op) × op.Answer) = ⟨.readToken, token⟩ := by
  cases h with
  | token r => exact ⟨rfl, rfl⟩

/-- The fields of a token are written while it is being installed. -/
theorem Move.installing_of_write (h : Move backend p op r p')
    (hwrite : (∃ time, op = .writeIssuedAt time) ∨ ∃ lease, op = .writeLease lease) :
    p.installing = true := by
  obtain ⟨time, rfl⟩ | ⟨lease, rfl⟩ := hwrite
  · obtain ⟨auth, rfl, _⟩ := h.of_writeIssuedAt
    rfl
  · obtain ⟨auth, rfl, _⟩ := h.of_writeLease
    rfl

end Moves

/-! ## The invariant -/

/-- The callers of a token manager over one world. -/
abbrev Callers (Tid : Type) := Recorded Tid Op Op.Answer (World Tid)

/-- One operation, with the world around it. -/
abbrev Instant (Tid : Type) := Moment Tid Op Op.Answer (World Tid)

/-- An issue time and lease the manager started with or recorded since. -/
def Leased (w₀ : World Tid) (log : List (Instant Tid)) (s lease : Nat) : Prop :=
  (s = w₀.issuedAt ∧ lease = w₀.lease) ∨
    ∃ m ∈ log, m.event.op = .writeLease lease ∧ m.after.issuedAt = s

/-- A failure that was recorded. -/
def Failed (log : List (Instant Tid)) (time : Nat) : Prop :=
  ∃ m ∈ log, m.event.op = .writeLastFailure (some time)

/-- A lease that a longer log shows was shown before, or is written by the last operation. -/
theorem leased_snoc {w₀ : World Tid} {log : List (Instant Tid)} {m : Instant Tid} {s lease : Nat}
    (h : Leased w₀ (log ++ [m]) s lease) :
    Leased w₀ log s lease ∨ (m.event.op = .writeLease lease ∧ m.after.issuedAt = s) := by
  obtain hstart | ⟨m', hm', hrest⟩ := h
  · exact .inl (.inl hstart)
  · obtain hold | hnew := List.mem_append.mp hm'
    · exact .inl (.inr ⟨m', hold, hrest⟩)
    · rw [List.mem_singleton.mp hnew] at hrest
      exact .inr hrest

/-- A failure that a longer log shows was shown before, or is recorded by the last
operation. -/
theorem failed_snoc {log : List (Instant Tid)} {m : Instant Tid} {time : Nat}
    (h : Failed (log ++ [m]) time) :
    Failed log time ∨ m.event.op = .writeLastFailure (some time) := by
  obtain ⟨m', hm', hop⟩ := h
  obtain hold | hnew := List.mem_append.mp hm'
  · exact .inl ⟨m', hold, hop⟩
  · rw [List.mem_singleton.mp hnew] at hop
    exact .inr hop

/-- What holds of the fields of the manager and of the phases of its callers. -/
structure Sound (w₀ : World Tid) (w : Callers Tid) (phases : Tid → Phase) : Prop where
  lock : ∀ i, (phases i).holdsLock = true ↔ w.now.lockedBy = some i
  flight : (w.now.inFlight = [] ∧ ∀ i, (phases i).inFlight = false) ∨
    ∃ i, w.now.inFlight = [i] ∧ (phases i).inFlight = true
  installing : ∀ i, (phases i).installing = true → w.now.installing = true
  leases : ∀ s lease, Leased w₀ w.log s lease → s + safeWindow lease ≤ w.now.now ∨
    (w.now.issuedAt = s ∧ w.now.lease = lease)
  expired : ∀ i, (phases i).expired = true → ∀ s lease, Leased w₀ w.log s lease →
    s + safeWindow lease ≤ w.now.now
  failures : ∀ time, Failed w.log time → time + failureCooldown ≤ w.now.now ∨
    w.now.lastFailure = some time
  cooled : ∀ i, (phases i).cooled = true → ∀ time, Failed w.log time →
    time + failureCooldown ≤ w.now.now
  cooling : ∀ i time, phases i = .cooling time → w.now.lastFailure = some time
  rechecking : ∀ i e, phases i = .rechecking e → e ≤ w.now.now - w.now.issuedAt

variable {w₀ : World Tid} {w : Callers Tid} {phases : Tid → Phase} {i : Tid} {op : Op}
  {r : op.Answer} {p : Phase} {delay : Nat}

/-- Time passes. -/
@[simp] theorem pass_now : (w.now.pass delay).now = w.now.now + delay := rfl

/-- While another caller holds the lock, a caller only reads. -/
theorem Sound.quiet (h : Sound w₀ w phases) {j : Tid} (hne : j ≠ i)
    (hlock : (phases j).holdsLock = true) (hmove : Move backend (phases i) op r p)
    (hanswer : (w.now.pass delay).answers op r) : op.quiet = true := by
  have hj := (h.lock j).mp hlock
  have hi : (phases i).holdsLock = false := by
    apply Bool.eq_false_of_not_eq_true
    intro hi
    exact hne (Option.some_injective _ (hj.symm.trans ((h.lock i).mp hi)))
  obtain hquiet | rfl := hmove.quiet_of_not_holding hi
  · exact hquiet
  · have hfree : w.now.lockedBy = none := hanswer
    rw [hfree] at hj
    cases hj

/-- Only one caller holds the lock. -/
theorem Sound.holder_unique (h : Sound w₀ w phases) {j : Tid}
    (hi : (phases i).holdsLock = true) (hj : (phases j).holdsLock = true) : j = i :=
  Option.some_injective _ (((h.lock j).mp hj).symm.trans ((h.lock i).mp hi))

variable [DecidableEq Tid]

section Apply

variable (w : World Tid) (i : Tid) (op : Op)

/-- No operation changes the time. -/
@[simp] theorem apply_now : (w.apply i op).now = w.now := by cases op <;> rfl

/-- Only the lock operations change who holds the lock. -/
theorem apply_lockedBy (hlock : op ≠ .lock) (hunlock : op ≠ .unlock) :
    (w.apply i op).lockedBy = w.lockedBy := by
  cases op <;> first | rfl | exact absurd rfl hlock | exact absurd rfl hunlock

/-- Only its own write changes the time of issue. -/
theorem apply_issuedAt (h : ∀ time, op ≠ .writeIssuedAt time) :
    (w.apply i op).issuedAt = w.issuedAt := by
  cases op <;> first | rfl | exact absurd rfl (h _)

/-- Only its own write changes the lease. -/
theorem apply_lease (h : ∀ lease, op ≠ .writeLease lease) : (w.apply i op).lease = w.lease := by
  cases op <;> first | rfl | exact absurd rfl (h _)

/-- Only its own write changes the recorded failure. -/
theorem apply_lastFailure (h : ∀ time, op ≠ .writeLastFailure time) :
    (w.apply i op).lastFailure = w.lastFailure := by
  cases op <;> first | rfl | exact absurd rfl (h _)

/-- An installation lasts until its last field is written. -/
theorem apply_installing (h : ∀ renewable, op ≠ .writeRenewable renewable)
    (hw : w.installing = true) : (w.apply i op).installing = true := by
  cases op <;> first | exact hw | rfl | exact absurd rfl (h _)

/-- Only requests and their replies change who waits. -/
theorem apply_inFlight (hrequest : isRequest op = false) (hrenew : op ≠ .renewReply)
    (hlogin : op ≠ .loginReply) : (w.apply i op).inFlight = w.inFlight := by
  cases op <;> first | rfl | exact absurd rfl hrenew | exact absurd rfl hlogin | cases hrequest

end Apply

section Step

/-- An operation of a caller after some time. -/
def moment (w : Callers Tid) (delay : Nat) (i : Tid) (op : Op) (r : op.Answer) : Instant Tid :=
  ⟨⟨i, op, r⟩, w.now, (w.now.pass delay).apply i op⟩

/-- The world after an operation, with its log. -/
def after (w : Callers Tid) (delay : Nat) (i : Tid) (op : Op) (r : op.Answer) : Callers Tid :=
  ⟨(w.now.pass delay).apply i op, w.log ++ [moment w delay i op r]⟩

/-- The world after an operation. -/
@[simp] theorem after_now : (after w delay i op r).now = (w.now.pass delay).apply i op := rfl

/-- The log after an operation. -/
@[simp] theorem after_log :
    (after w delay i op r).log = w.log ++ [moment w delay i op r] := rfl

/-- One step keeps the lock with the caller whose phase holds it. -/
theorem Sound.lock_step (h : Sound w₀ w phases) (hmove : Move backend (phases i) op r p)
    (hanswer : (w.now.pass delay).answers op r) (j : Tid) :
    (Function.update phases i p j).holdsLock = true ↔
      ((w.now.pass delay).apply i op).lockedBy = some j := by
  by_cases hlock : op = .lock
  · subst hlock
    have hfree : w.now.lockedBy = none := hanswer
    by_cases hj : j = i
    · subst hj
      rw [Function.update_self]
      exact iff_of_true hmove.of_lock.2 rfl
    · rw [Function.update_of_ne hj]
      apply iff_of_false
      · intro hold
        have hheld := (h.lock j).mp hold
        rw [hfree] at hheld
        cases hheld
      · intro hsame
        exact hj (Option.some_injective _ hsame).symm
  · by_cases hunlock : op = .unlock
    · subst hunlock
      apply iff_of_false
      · intro hold
        by_cases hj : j = i
        · subst hj
          rw [Function.update_self, hmove.of_unlock.2] at hold
          cases hold
        · rw [Function.update_of_ne hj] at hold
          exact hj (h.holder_unique hmove.of_unlock.1 hold)
      · intro hheld
        cases hheld
    · rw [apply_lockedBy _ _ _ hlock hunlock]
      change _ ↔ w.now.lockedBy = some j
      rw [← h.lock j]
      by_cases hj : j = i
      · subst hj
        rw [Function.update_self, hmove.holdsLock_eq hlock hunlock]
      · rw [Function.update_of_ne hj]

/-- A request makes its caller wait. -/
theorem apply_inFlight_request (w : World Tid) (hrequest : isRequest op = true) :
    (w.apply i op).inFlight = i :: w.inFlight := by
  cases op <;> first | rfl | cases hrequest

/-- A reply ends the waiting. -/
theorem apply_inFlight_reply (w : World Tid) (hreply : op = .renewReply ∨ op = .loginReply) :
    (w.apply i op).inFlight = w.inFlight.erase i := by
  obtain rfl | rfl := hreply
  · rfl
  · rfl

/-- After one step no caller waits, or only the one whose phase says so. -/
theorem Sound.flight_step (h : Sound w₀ w phases) (hmove : Move backend (phases i) op r p) :
    (((w.now.pass delay).apply i op).inFlight = [] ∧
        ∀ j, (Function.update phases i p j).inFlight = false) ∨
      ∃ j, ((w.now.pass delay).apply i op).inFlight = [j] ∧
        (Function.update phases i p j).inFlight = true := by
  obtain ⟨hrequest, hbefore, hafter⟩ | ⟨hreply, hbefore, hafter⟩ |
    ⟨hrequest, hrenew, hlogin, hbefore, hafter⟩ := hmove.inFlight_cases
  · right
    refine ⟨i, ?_, by rwa [Function.update_self]⟩
    rw [apply_inFlight_request _ hrequest]
    obtain ⟨hnone, _⟩ | ⟨j, _, hj⟩ := h.flight
    · exact congrArg (i :: ·) hnone
    · have hji := h.holder_unique (hmove.holdsLock_of_request hrequest)
        (Phase.holdsLock_of_inFlight hj)
      rw [hji, hbefore] at hj
      cases hj
  · left
    have hholds := Phase.holdsLock_of_inFlight hbefore
    obtain ⟨_, hnone⟩ | ⟨j, hsome, hj⟩ := h.flight
    · rw [hnone i] at hbefore
      cases hbefore
    · obtain rfl := h.holder_unique hholds (Phase.holdsLock_of_inFlight hj)
      refine ⟨?_, ?_⟩
      · rw [apply_inFlight_reply _ hreply]
        change w.now.inFlight.erase j = []
        simp [hsome]
      · intro k
        by_cases hk : k = j
        · subst hk
          rwa [Function.update_self]
        · rw [Function.update_of_ne hk]
          apply Bool.eq_false_of_not_eq_true
          intro hflying
          exact hk (h.holder_unique hholds (Phase.holdsLock_of_inFlight hflying))
  · rw [apply_inFlight _ _ _ hrequest hrenew hlogin]
    obtain ⟨hnone, hall⟩ | ⟨j, hsome, hj⟩ := h.flight
    · left
      refine ⟨hnone, ?_⟩
      intro k
      by_cases hk : k = i
      · subst hk
        rwa [Function.update_self]
      · rw [Function.update_of_ne hk]
        exact hall k
    · right
      have hji : j ≠ i := by
        intro hji
        rw [hji, hbefore] at hj
        cases hj
      exact ⟨j, hsome, by rwa [Function.update_of_ne hji]⟩

/-- One step keeps the mark of an installation. -/
theorem Sound.installing_step (h : Sound w₀ w phases) (hmove : Move backend (phases i) op r p)
    (hanswer : (w.now.pass delay).answers op r) (j : Tid)
    (hj : (Function.update phases i p j).installing = true) :
    ((w.now.pass delay).apply i op).installing = true := by
  by_cases hji : j = i
  · subst hji
    rw [Function.update_self] at hj
    obtain hbefore | ⟨token, rfl⟩ := hmove.installing_cases hj
    · apply apply_installing
      · intro renewable hop
        subst hop
        rw [hmove.of_writeRenewable] at hj
        cases hj
      · exact h.installing j hbefore
    · rfl
  · rw [Function.update_of_ne hji] at hj
    rw [apply_quiet (h.quiet hji (Phase.holdsLock_of_installing hj) hmove hanswer)]
    exact h.installing j hj

/-- A lease on record is used up, or is the present one. -/
theorem Sound.leases_step (h : Sound w₀ w phases) (hmove : Move backend (phases i) op r p)
    (s lease : Nat) (hleased : Leased w₀ (after w delay i op r).log s lease) :
    s + safeWindow lease ≤ w.now.now + delay ∨
      (((w.now.pass delay).apply i op).issuedAt = s ∧
        ((w.now.pass delay).apply i op).lease = lease) := by
  obtain hold | ⟨hop, hissued⟩ := leased_snoc hleased
  · by_cases hexpired : (phases i).expired = true
    · left
      have hpast := h.expired i hexpired s lease hold
      omega
    · obtain hpast | ⟨hissued, hlease⟩ := h.leases s lease hold
      · left
        omega
      · right
        constructor
        · rw [apply_issuedAt]
          · exact hissued
          · intro time hop
            subst hop
            obtain ⟨auth, hp, _⟩ := hmove.of_writeIssuedAt
            rw [hp] at hexpired
            exact hexpired rfl
        · rw [apply_lease]
          · exact hlease
          · intro l hop
            subst hop
            obtain ⟨auth, hp, _⟩ := hmove.of_writeLease
            rw [hp] at hexpired
            exact hexpired rfl
  · right
    change op = .writeLease lease at hop
    subst hop
    exact ⟨hissued, rfl⟩

/-- A token whose age is not safe has left its safe window. -/
theorem window_le_of_not_safe {e lease now issuedAt : Nat} (hsafe : isSafe e lease = false)
    (he : e ≤ now - issuedAt) : issuedAt + safeWindow lease ≤ now := by
  obtain ⟨hne, hlt⟩ := Bool.or_eq_false_iff.mp hsafe
  have hlease := beq_eq_false_iff_ne.mp hne
  have hlong := of_decide_eq_false hlt
  simp only [safeWindow] at hlong ⊢
  omega

/-- One step keeps what a caller that saw the token expire knows: every lease is over. -/
theorem Sound.expired_step (h : Sound w₀ w phases) (hmove : Move backend (phases i) op r p)
    (hanswer : (w.now.pass delay).answers op r) (j : Tid)
    (hj : (Function.update phases i p j).expired = true) (s lease : Nat)
    (hleased : Leased w₀ (after w delay i op r).log s lease) :
    s + safeWindow lease ≤ w.now.now + delay := by
  by_cases hji : j = i
  · subst hji
    rw [Function.update_self] at hj
    obtain hold | ⟨hop, _⟩ := leased_snoc hleased
    · obtain hbefore | ⟨e, l, hp, hread, hsafe⟩ := hmove.expired_cases hj
      · have hpast := h.expired j hbefore s lease hold
        omega
      · cases hread
        have hl : l = w.now.lease := hanswer
        have hwindow := window_le_of_not_safe hsafe (h.rechecking j e hp)
        obtain hpast | ⟨hissued, hlease⟩ := h.leases s lease hold
        · omega
        · rw [← hissued, ← hlease, ← hl]
          omega
    · change op = .writeLease lease at hop
      subst hop
      obtain ⟨auth, _, _, hp⟩ := hmove.of_writeLease
      rw [hp] at hj
      cases hj
  · rw [Function.update_of_ne hji] at hj
    have hquiet := h.quiet hji (Phase.holdsLock_of_expired hj) hmove hanswer
    obtain hold | ⟨hop, _⟩ := leased_snoc hleased
    · have hpast := h.expired j hj s lease hold
      omega
    · change op = .writeLease lease at hop
      subst hop
      cases hquiet

/-- A failure on record has cooled down, or is the last one. -/
theorem Sound.failures_step (h : Sound w₀ w phases) (hmove : Move backend (phases i) op r p)
    (time : Nat) (hfailed : Failed (after w delay i op r).log time) :
    time + failureCooldown ≤ w.now.now + delay ∨
      ((w.now.pass delay).apply i op).lastFailure = some time := by
  obtain hold | hop := failed_snoc hfailed
  · by_cases hcooled : (phases i).cooled = true
    · left
      have hpast := h.cooled i hcooled time hold
      omega
    · obtain hpast | hlast := h.failures time hold
      · left
        omega
      · right
        rw [apply_lastFailure]
        · exact hlast
        · intro time' hop
          subst hop
          obtain ⟨t, _, hp, _⟩ | ⟨_, hp, _⟩ := hmove.of_writeLastFailure
          · rw [hp] at hcooled
            exact hcooled rfl
          · rw [hp] at hcooled
            exact hcooled rfl
  · right
    change op = .writeLastFailure (some time) at hop
    subst hop
    rfl

/-- One step keeps what a caller that saw the cool-down pass knows: every failure is old. -/
theorem Sound.cooled_step (h : Sound w₀ w phases) (hmove : Move backend (phases i) op r p)
    (hanswer : (w.now.pass delay).answers op r) (j : Tid)
    (hj : (Function.update phases i p j).cooled = true) (time : Nat)
    (hfailed : Failed (after w delay i op r).log time) :
    time + failureCooldown ≤ w.now.now + delay := by
  by_cases hji : j = i
  · subst hji
    rw [Function.update_self] at hj
    obtain hold | hop := failed_snoc hfailed
    · obtain hbefore | ⟨_, hread⟩ | ⟨t, now, hp, hread, hover⟩ := hmove.cooled_cases hj
      · have hpast := h.cooled j hbefore time hold
        omega
      · cases hread
        have hnone : none = w.now.lastFailure := hanswer
        obtain hpast | hlast := h.failures time hold
        · omega
        · rw [hlast] at hnone
          cases hnone
      · cases hread
        have hnow : now = w.now.now + delay := hanswer
        obtain hpast | hlast := h.failures time hold
        · omega
        · rw [h.cooling j t hp] at hlast
          cases hlast
          simp only [failureCooldown] at hover ⊢
          omega
    · change op = .writeLastFailure (some time) at hop
      subst hop
      obtain ⟨_, _, _, hp⟩ | ⟨hnone, _⟩ := hmove.of_writeLastFailure
      · rw [hp] at hj
        cases hj
      · cases hnone
  · rw [Function.update_of_ne hji] at hj
    have hquiet := h.quiet hji (Phase.holdsLock_of_cooled hj) hmove hanswer
    obtain hold | hop := failed_snoc hfailed
    · have hpast := h.cooled j hj time hold
      omega
    · change op = .writeLastFailure (some time) at hop
      subst hop
      cases hquiet

/-- One step keeps the failure that a caller has read the recorded one. -/
theorem Sound.cooling_step (h : Sound w₀ w phases) (hmove : Move backend (phases i) op r p)
    (hanswer : (w.now.pass delay).answers op r) (j : Tid) (time : Nat)
    (hj : Function.update phases i p j = .cooling time) :
    ((w.now.pass delay).apply i op).lastFailure = some time := by
  by_cases hji : j = i
  · subst hji
    rw [Function.update_self] at hj
    subst hj
    cases hmove.to_cooling
    have hlast : some time = w.now.lastFailure := hanswer
    exact hlast.symm
  · rw [Function.update_of_ne hji] at hj
    rw [apply_quiet (h.quiet hji (by rw [hj]; rfl) hmove hanswer)]
    exact h.cooling j time hj

/-- One step keeps an age that a caller has measured a lower bound. -/
theorem Sound.rechecking_step (h : Sound w₀ w phases) (hmove : Move backend (phases i) op r p)
    (hanswer : (w.now.pass delay).answers op r) (j : Tid) (e : Nat)
    (hj : Function.update phases i p j = .rechecking e) :
    e ≤ w.now.now + delay - ((w.now.pass delay).apply i op).issuedAt := by
  by_cases hji : j = i
  · subst hji
    rw [Function.update_self] at hj
    subst hj
    cases hmove.to_rechecking
    have helapsed : e = w.now.now + delay - w.now.issuedAt := hanswer
    exact le_of_eq helapsed
  · rw [Function.update_of_ne hji] at hj
    rw [apply_quiet (h.quiet hji (by rw [hj]; rfl) hmove hanswer)]
    have hbefore := h.rechecking j e hj
    change e ≤ w.now.now + delay - w.now.issuedAt
    omega

/-- **One operation of a caller.** -/
theorem Sound.step (h : Sound w₀ w phases) (hmove : Move backend (phases i) op r p)
    (hanswer : (w.now.pass delay).answers op r) :
    Sound w₀ (after w delay i op r) (Function.update phases i p) where
  lock := h.lock_step hmove hanswer
  flight := h.flight_step hmove
  installing := h.installing_step hmove hanswer
  leases s lease hleased := by
    rw [after_now, apply_now]
    exact h.leases_step hmove s lease hleased
  expired j hj s lease hleased := by
    rw [after_now, apply_now]
    exact h.expired_step hmove hanswer j hj s lease hleased
  failures time hfailed := by
    rw [after_now, apply_now]
    exact h.failures_step hmove time hfailed
  cooled j hj time hfailed := by
    rw [after_now, apply_now]
    exact h.cooled_step hmove hanswer j hj time hfailed
  cooling := h.cooling_step hmove hanswer
  rechecking j e hj := by
    rw [after_now, apply_now]
    exact h.rechecking_step hmove hanswer j e hj

end Step

end VaultToken

end StatusListServer
