import StatusListServer.TokenInvariant

/-!
# Token renewal is serialised and rate limited

What the history of interleaved callers says: at most one request is in flight;
a request is sent only after every recorded lease has run down to its last fifth
and every recorded failure has cooled down; and a caller that returns a token has
passed an instant when that token was inside its window, or was being installed.
-/

namespace StatusListServer

open Interaction

namespace VaultToken

variable {Tid : Type} {backend : AuthBackend} {w₀ : World Tid} {w : Callers Tid}
  {phases : Tid → Phase} {i : Tid} {op : Op} {r : op.Answer} {p : Phase} {delay : Nat}

/-! ## When requests are sent -/

/-- The event ends a re-login with an error. -/
def loginFailed (backend : AuthBackend) : Event Tid Op Op.Answer → Prop
  | ⟨_, .loginReply, r⟩ => ∃ e, readLogin backend r = .error e
  | ⟨_, .readServiceToken path, r⟩ => ∃ e, readJwt path r = .error e
  | _ => False

/-- The event answers a renewal or login with a lease. -/
def grants (backend : AuthBackend) (lease : Nat) : Event Tid Op Op.Answer → Prop
  | ⟨_, .loginReply, r⟩ => ∃ auth, readLogin backend r = .ok auth ∧ auth.leaseDuration = lease
  | ⟨_, .renewReply, r⟩ => ∃ auth, readRenew r = .ok auth ∧ auth.leaseDuration = lease
  | _ => False

/-- A failed login leads to the recording of the failure. -/
theorem Move.of_loginFailed {p' : Phase} (h : Move backend p op r p')
    (hfailed : loginFailed backend ⟨i, op, r⟩) : p' = .failed := by
  cases h with
  | noJwt _ => rfl
  | notLoggedIn _ => rfl
  | jwt hok =>
      obtain ⟨e, he⟩ := hfailed
      rw [hok] at he
      cases he
  | loggedIn hok =>
      obtain ⟨e, he⟩ := hfailed
      rw [hok] at he
      cases he
  | _ => cases hfailed

/-- A granted token leads to its installation. -/
theorem Move.of_grants {p' : Phase} {lease : Nat} (h : Move backend p op r p')
    (hgrants : grants backend lease ⟨i, op, r⟩) :
    ∃ auth, auth.leaseDuration = lease ∧ p' = .granted auth := by
  cases h with
  | renewed hok =>
      obtain ⟨auth, hauth, hlease⟩ := hgrants
      rw [hok] at hauth
      cases hauth
      exact ⟨_, hlease, rfl⟩
  | loggedIn hok =>
      obtain ⟨auth, hauth, hlease⟩ := hgrants
      rw [hok] at hauth
      cases hauth
      exact ⟨_, hlease, rfl⟩
  | notRenewed hno =>
      obtain ⟨auth, hauth, _⟩ := hgrants
      rw [hno] at hauth
      cases hauth
  | notLoggedIn hno =>
      obtain ⟨auth, hauth, _⟩ := hgrants
      rw [hno] at hauth
      cases hauth
  | _ => cases hgrants

/-- A caller in this phase is about to record a failure of a given time. -/
def Phase.owesFailure (time : Nat) : Phase → Prop
  | .failed => True
  | .failedAt t => time ≤ t
  | _ => False

/-- A caller in this phase is about to record a lease that was granted at a given
time; `issuedAt` is the present issue time. -/
def Phase.owesLease (time lease issuedAt : Nat) : Phase → Prop
  | .granted auth => auth.leaseDuration = lease
  | .tokenWritten auth => auth.leaseDuration = lease
  | .stamped auth t => auth.leaseDuration = lease ∧ time ≤ t
  | .issuedWritten auth => auth.leaseDuration = lease ∧ time ≤ issuedAt
  | _ => False

/-- Who owes the record of a failure holds the lock. -/
theorem Phase.holdsLock_of_owesFailure {time : Nat} (h : p.owesFailure time) :
    p.holdsLock = true := by
  cases p <;> first | rfl | cases h

/-- Who owes the record of a lease holds the lock. -/
theorem Phase.holdsLock_of_owesLease {time lease issuedAt : Nat}
    (h : p.owesLease time lease issuedAt) : p.holdsLock = true := by
  cases p <;> first | rfl | cases h

/-- The failure is recorded among these moments. -/
def RecordsFailure (time : Nat) (log : List (Instant Tid)) (t : Nat) : Prop :=
  time ≤ t ∧ ∃ m ∈ log, m.event.op = .writeLastFailure (some t)

/-- The lease is recorded among these moments. -/
def RecordsLease (time lease : Nat) (log : List (Instant Tid)) (s : Nat) : Prop :=
  time ≤ s ∧ ∃ m ∈ log, m.event.op = .writeLease lease ∧ m.after.issuedAt = s

/-- A recorded failure stays recorded. -/
theorem RecordsFailure.snoc {time t : Nat} {log : List (Instant Tid)} {m : Instant Tid}
    (h : RecordsFailure time log t) : RecordsFailure time (log ++ [m]) t := by
  obtain ⟨hle, m', hm', hop⟩ := h
  exact ⟨hle, m', List.mem_append_left _ hm', hop⟩

/-- A recorded lease stays recorded. -/
theorem RecordsLease.snoc {time lease s : Nat} {log : List (Instant Tid)} {m : Instant Tid}
    (h : RecordsLease time lease log s) : RecordsLease time lease (log ++ [m]) s := by
  obtain ⟨hle, m', hm', hop⟩ := h
  exact ⟨hle, m', List.mem_append_left _ hm', hop⟩

/-- When a request may be sent after the earlier moments: the first lease has run
down to its last fifth; a failed re-login was recorded since, and its cooldown is
over; a granted lease was recorded since, and has run down as well. -/
structure Allowed (backend : AuthBackend) (w₀ : World Tid) (earlier : List (Instant Tid))
    (time : Nat) : Prop where
  first : w₀.issuedAt + safeWindow w₀.lease ≤ time
  failure : ∀ before m mid, earlier = before ++ m :: mid → loginFailed backend m.event →
    ∃ t, RecordsFailure m.after.now mid t ∧ t + failureCooldown ≤ time
  lease : ∀ before m mid lease, earlier = before ++ m :: mid → grants backend lease m.event →
    ∃ s, RecordsLease m.after.now lease mid s ∧ s + safeWindow lease ≤ time

/-- What the log says of past failures, grants and requests. -/
structure Logged (backend : AuthBackend) (w₀ : World Tid) (w : Callers Tid)
    (phases : Tid → Phase) : Prop where
  past : ∀ m ∈ w.log, m.after.now ≤ w.now.now
  single : ∀ m ∈ w.log, m.after.inFlight.length ≤ 1
  failure : ∀ earlier m later, w.log = earlier ++ m :: later → loginFailed backend m.event →
    (phases m.event.tid).owesFailure m.after.now ∨ ∃ t, RecordsFailure m.after.now later t
  lease : ∀ earlier m later lease, w.log = earlier ++ m :: later → grants backend lease m.event →
    (phases m.event.tid).owesLease m.after.now lease w.now.issuedAt ∨
      ∃ s, RecordsLease m.after.now lease later s
  requests : ∀ earlier m later, w.log = earlier ++ m :: later → isRequest m.event.op = true →
    Allowed backend w₀ earlier m.after.now

/-- The next step of a caller that owes the record of a failure. -/
theorem Move.owesFailure_step {p' : Phase} {time : Nat} (h : Move backend p op r p')
    (howes : p.owesFailure time) (hanswer : (w.now.pass delay).answers op r)
    (hpast : time ≤ w.now.now) :
    p'.owesFailure time ∨ ∃ t, op = .writeLastFailure (some t) ∧ time ≤ t := by
  cases h with
  | failedAt r =>
      left
      have hnow : r = w.now.now + delay := hanswer
      change time ≤ r
      omega
  | recordFailure t => exact .inr ⟨t, rfl, howes⟩
  | _ => cases howes

/-- A request is sent by a caller that has made both checks. -/
theorem Logged.allowed (h : Logged backend w₀ w phases) (hsound : Sound w₀ w phases)
    (hmove : Move backend (phases i) op r p) (hrequest : isRequest op = true) :
    Allowed backend w₀ w.log (w.now.now + delay) := by
  have hlock := hmove.holdsLock_of_request hrequest
  obtain ⟨hexpired, hcooled, hfailure, hlease⟩ : (phases i).expired = true ∧
      (phases i).cooled = true ∧ (∀ time, ¬ (phases i).owesFailure time) ∧
      ∀ time lease issuedAt, ¬ (phases i).owesLease time lease issuedAt := by
    obtain hp | hp := hmove.of_request hrequest
    · rw [hp]
      exact ⟨rfl, rfl, fun _ h => h, fun _ _ _ h => h⟩
    · rw [hp]
      exact ⟨rfl, rfl, fun _ h => h, fun _ _ _ h => h⟩
  refine ⟨?_, ?_, ?_⟩
  · have hpast := hsound.expired i hexpired _ _ (.inl ⟨rfl, rfl⟩)
    omega
  · intro before m mid hlog hfailed
    obtain howes | ⟨t, hrecorded⟩ := h.failure before m mid hlog hfailed
    · rw [hsound.holder_unique hlock (Phase.holdsLock_of_owesFailure howes)] at howes
      exact absurd howes (hfailure _)
    · obtain ⟨m', hm', hop⟩ := hrecorded.2
      have hmem : m' ∈ w.log := by
        rw [hlog]
        exact List.mem_append_right _ (List.mem_cons_of_mem _ hm')
      have hover := hsound.cooled i hcooled t ⟨m', hmem, hop⟩
      exact ⟨t, hrecorded, by omega⟩
  · intro before m mid lease hlog hgrants
    obtain howes | ⟨s, hrecorded⟩ := h.lease before m mid lease hlog hgrants
    · rw [hsound.holder_unique hlock (Phase.holdsLock_of_owesLease howes)] at howes
      exact absurd howes (hlease _ _ _)
    · obtain ⟨m', hm', hop⟩ := hrecorded.2
      have hmem : m' ∈ w.log := by
        rw [hlog]
        exact List.mem_append_right _ (List.mem_cons_of_mem _ hm')
      have hover := hsound.expired i hexpired s lease (.inr ⟨m', hmem, hop⟩)
      exact ⟨s, hrecorded, by omega⟩

variable [DecidableEq Tid]

/-! ## The token a caller reads -/

/-- The part of the log since the first operation of a caller. -/
def since (i : Tid) (log : List (Instant Tid)) : List (Instant Tid) :=
  log.dropWhile fun m => decide (m.event.tid ≠ i)

/-- The token is being installed, has no lease, or is inside its safe window. -/
def Good (w : World Tid) : Prop :=
  w.installing = true ∨ w.lease = 0 ∨ w.now < w.issuedAt + safeWindow w.lease

/-- The present token was good at some instant since the caller began. -/
def SeenGood (i : Tid) (w : World Tid) (log : List (Instant Tid)) : Prop :=
  ∃ m ∈ since i log, m.after.generation = w.generation ∧ Good m.after

/-- The elapsed time was read at an instant with the present fields. -/
def Timed (i : Tid) (elapsed : Nat) (w : World Tid) (log : List (Instant Tid)) : Prop :=
  w.installing = false ∧ ∃ m ∈ since i log, m.after.generation = w.generation ∧
    m.after.issuedAt = w.issuedAt ∧ m.after.lease = w.lease ∧
    elapsed = m.after.now - m.after.issuedAt

/-- What has happened since an event grows with the log. -/
theorem since_snoc {m : Instant Tid} (x : Instant Tid) {log : List (Instant Tid)}
    (hm : m ∈ since i log) : since i (log ++ [x]) = since i log ++ [x] := by
  have hne : (since i log).isEmpty = false := by
    cases hsince : since i log with
    | nil =>
        rw [hsince] at hm
        cases hm
    | cons _ _ => rfl
  unfold since at hne ⊢
  rw [List.dropWhile_append, hne]
  rfl

/-- A new event is among those that have happened since. -/
theorem mem_since_snoc {m : Instant Tid} (x : Instant Tid) {log : List (Instant Tid)}
    (hm : m ∈ since i log) : m ∈ since i (log ++ [x]) ∧ x ∈ since i (log ++ [x]) := by
  rw [since_snoc x hm]
  exact ⟨List.mem_append_left _ hm, List.mem_append_right _ (List.mem_singleton.mpr rfl)⟩

/-- A caller's own event is the start of what happens since. -/
theorem mem_since_own (x : Instant Tid) (log : List (Instant Tid)) (hx : x.event.tid = i) :
    x ∈ since i (log ++ [x]) := by
  cases hsince : since i log with
  | cons m rest =>
      have hm : m ∈ since i log := by
        rw [hsince]
        exact List.mem_cons_self
      exact (mem_since_snoc x hm).2
  | nil =>
      unfold since at hsince ⊢
      rw [List.dropWhile_append, hsince]
      simp [hx]

section Fields

variable (v : World Tid)

/-- Only the writing of a token starts a generation. -/
theorem apply_generation (h : ∀ token, op ≠ .writeToken token) :
    (v.apply i op).generation = v.generation := by
  cases op <;> first | rfl | exact absurd rfl (h _)

/-- Only the writing of a token starts an installation. -/
theorem apply_installing_false (h : ∀ token, op ≠ .writeToken token)
    (hv : v.installing = false) : (v.apply i op).installing = false := by
  cases op <;> first | exact hv | rfl | exact absurd rfl (h _)

end Fields

/-- A token that was seen good stays so; a new one is seen while it is
installed. -/
theorem SeenGood.step {j : Tid} (h : SeenGood j w.now w.log) :
    SeenGood j (after w delay i op r).now (after w delay i op r).log := by
  obtain ⟨m, hm, hgeneration, hgood⟩ := h
  obtain ⟨hmem, hself⟩ := mem_since_snoc (moment w delay i op r) hm
  by_cases hop : ∃ token, op = .writeToken token
  · obtain ⟨token, rfl⟩ := hop
    exact ⟨_, hself, rfl, .inl rfl⟩
  · refine ⟨m, hmem, ?_, hgood⟩
    rw [after_now, apply_generation _ (fun token htoken => hop ⟨token, htoken⟩)]
    exact hgeneration

/-- One step keeps a measured age, unless a safe token is seen. -/
theorem Timed.step (hsound : Sound w₀ w phases) (hmove : Move backend (phases i) op r p) {j : Tid}
    {e : Nat} (h : Timed j e w.now w.log) :
    SeenGood j (after w delay i op r).now (after w delay i op r).log ∨
      Timed j e (after w delay i op r).now (after w delay i op r).log := by
  obtain ⟨hinstalled, m, hm, hgeneration, hissued, hlease, helapsed⟩ := h
  obtain ⟨hmem, hself⟩ := mem_since_snoc (moment w delay i op r) hm
  by_cases hop : ∃ token, op = .writeToken token
  · obtain ⟨token, rfl⟩ := hop
    exact .inl ⟨_, hself, rfl, .inl rfl⟩
  · have hwrite : ∀ token, op ≠ .writeToken token := fun token htoken => hop ⟨token, htoken⟩
    have hidle : (phases i).installing = false := by
      apply Bool.eq_false_of_not_eq_true
      intro hi
      rw [hsound.installing i hi] at hinstalled
      cases hinstalled
    have hfields : ¬ ((∃ time, op = .writeIssuedAt time) ∨ ∃ lease, op = .writeLease lease) := by
      intro hfields
      rw [hmove.installing_of_write hfields] at hidle
      cases hidle
    right
    refine ⟨apply_installing_false _ hwrite hinstalled, m, hmem, ?_, ?_, ?_, helapsed⟩
    · rw [after_now, apply_generation _ hwrite]
      exact hgeneration
    · rw [after_now, apply_issuedAt _ _ _ fun time htime => hfields (.inl ⟨time, htime⟩)]
      exact hissued
    · rw [after_now, apply_lease _ _ _ fun l hl => hfields (.inr ⟨l, hl⟩)]
      exact hlease

/-- A passed check is about the present token. -/
theorem Timed.good {j : Tid} {e lease : Nat} (h : Timed j e w.now w.log)
    (hlease : lease = w.now.lease) (hsafe : isSafe e lease = true) :
    SeenGood j w.now w.log := by
  obtain ⟨_, m, hm, hgeneration, _, hmlease, helapsed⟩ := h
  refine ⟨m, hm, hgeneration, .inr ?_⟩
  obtain hzero | hlt := Bool.or_eq_true_iff.mp hsafe
  · left
    rw [hmlease, ← hlease]
    exact beq_iff_eq.mp hzero
  · right
    have hshort := of_decide_eq_true hlt
    rw [hmlease, ← hlease]
    omega

/-- The caller read the token at a moment; since the caller began, that token was
good at some instant. -/
def ReadGood (i : Tid) (token : String) (log : List (Instant Tid)) : Prop :=
  ∃ earlier m later, log = earlier ++ m :: later ∧ m.event = ⟨i, .readToken, token⟩ ∧
    (∀ m' ∈ later, m'.event.tid ≠ i) ∧
    ∃ m' ∈ since i (earlier ++ [m]), m'.after.generation = m.after.generation ∧ Good m'.after

/-- What the callers have seen of the token. -/
structure Witnessed (w : Callers Tid) (phases : Tid → Phase) : Prop where
  timed : ∀ i e, phases i = .fast e ∨ phases i = .rechecking e →
    SeenGood i w.now w.log ∨ Timed i e w.now w.log
  checked : ∀ i, (phases i).checked = true → SeenGood i w.now w.log
  done : ∀ i token, phases i = .done token → ReadGood i token w.log

/-- One step keeps the age that a caller has measured. -/
theorem Witnessed.timed_step (h : Witnessed w phases) (hsound : Sound w₀ w phases)
    (hmove : Move backend (phases i) op r p) (hanswer : (w.now.pass delay).answers op r)
    (j : Tid) (e : Nat) (hj : Function.update phases i p j = .fast e ∨
      Function.update phases i p j = .rechecking e) :
    SeenGood j (after w delay i op r).now (after w delay i op r).log ∨
      Timed j e (after w delay i op r).now (after w delay i op r).log := by
  by_cases hji : j = i
  · subst hji
    rw [Function.update_self] at hj
    cases hmove.to_timed hj
    have helapsed : e = w.now.now + delay - w.now.issuedAt := hanswer
    have hself : moment w delay j .elapsed e ∈ since j (w.log ++ [moment w delay j .elapsed e]) :=
      mem_since_own _ _ rfl
    cases hinstalling : w.now.installing with
    | true => exact .inl ⟨_, hself, rfl, .inl hinstalling⟩
    | false => exact .inr ⟨hinstalling, _, hself, rfl, rfl, rfl, helapsed⟩
  · rw [Function.update_of_ne hji] at hj
    obtain hgood | htimed := h.timed j e hj
    · exact .inl hgood.step
    · exact htimed.step hsound hmove

/-- One step keeps that a caller has seen a safe token. -/
theorem Witnessed.checked_step (h : Witnessed w phases) (hmove : Move backend (phases i) op r p)
    (hanswer : (w.now.pass delay).answers op r) (j : Tid)
    (hj : (Function.update phases i p j).checked = true) :
    SeenGood j (after w delay i op r).now (after w delay i op r).log := by
  by_cases hji : j = i
  · subst hji
    rw [Function.update_self] at hj
    obtain hbefore | ⟨e, lease, hp, hread, hsafe⟩ | ⟨token, rfl⟩ := hmove.checked_cases hj
    · exact (h.checked j hbefore).step
    · cases hread
      have hlease : lease = w.now.lease := hanswer
      obtain hgood | htimed := h.timed j e hp
      · exact hgood.step
      · exact (htimed.good hlease hsafe).step
    · exact ⟨_, mem_since_own (moment w delay j (.writeToken token) r) w.log rfl, rfl, .inl rfl⟩
  · rw [Function.update_of_ne hji] at hj
    exact (h.checked j hj).step

/-- A caller that is done has read a safe token. -/
theorem Witnessed.done_step (h : Witnessed w phases) (hmove : Move backend (phases i) op r p)
    (j : Tid) (token : String) (hj : Function.update phases i p j = .done token) :
    ReadGood j token (after w delay i op r).log := by
  by_cases hji : j = i
  · subst hji
    rw [Function.update_self] at hj
    subst hj
    obtain ⟨hvalid, hread⟩ := hmove.to_done
    cases hread
    obtain ⟨m, hm, hgeneration, hgood⟩ := h.checked j (by rw [hvalid]; rfl)
    refine ⟨w.log, _, [], rfl, rfl, ?_, m, (mem_since_snoc _ hm).1, hgeneration, hgood⟩
    intro m' hm'
    cases hm'
  · rw [Function.update_of_ne hji] at hj
    obtain ⟨earlier, m, later, hlog, hevent, hlater, hgood⟩ := h.done j token hj
    refine ⟨earlier, m, later ++ [moment w delay i op r], ?_, hevent, ?_, hgood⟩
    · rw [after_log, hlog, List.append_assoc, List.cons_append]
    · intro m' hm'
      obtain hold | hnew := List.mem_append.mp hm'
      · exact hlater m' hold
      · rw [List.mem_singleton.mp hnew]
        exact fun hij => hji hij.symm

/-- One step keeps the witnesses of all callers. -/
theorem Witnessed.step (h : Witnessed w phases) (hsound : Sound w₀ w phases)
    (hmove : Move backend (phases i) op r p) (hanswer : (w.now.pass delay).answers op r) :
    Witnessed (after w delay i op r) (Function.update phases i p) where
  timed := h.timed_step hsound hmove hanswer
  checked := h.checked_step hmove hanswer
  done := h.done_step hmove

/-! ## The moments of requests -/

/-- The next step of a caller that owes the record of a lease. -/
theorem Move.owesLease_step {p' : Phase} {time lease : Nat} (h : Move backend p op r p')
    (howes : p.owesLease time lease w.now.issuedAt) (hanswer : (w.now.pass delay).answers op r)
    (hpast : time ≤ w.now.now) :
    p'.owesLease time lease ((w.now.pass delay).apply i op).issuedAt ∨
      (op = .writeLease lease ∧ time ≤ w.now.issuedAt) := by
  cases h with
  | writeToken auth => exact .inl howes
  | stamp auth r =>
      left
      have hnow : r = w.now.now + delay := hanswer
      refine ⟨howes, ?_⟩
      omega
  | writeIssuedAt auth t => exact .inl howes
  | writeLease auth =>
      obtain ⟨rfl, hissued⟩ := howes
      exact .inr ⟨rfl, hissued⟩
  | _ => cases howes

/-- One step keeps that every failure is recorded, or owed. -/
theorem Logged.failure_step (h : Logged backend w₀ w phases)
    (hmove : Move backend (phases i) op r p) (hanswer : (w.now.pass delay).answers op r)
    (earlier : List (Instant Tid)) (m : Instant Tid) (later : List (Instant Tid))
    (hlog : (after w delay i op r).log = earlier ++ m :: later)
    (hfailed : loginFailed backend m.event) :
    (Function.update phases i p m.event.tid).owesFailure m.after.now ∨
      ∃ t, RecordsFailure m.after.now later t := by
  obtain ⟨_, rfl, rfl⟩ | ⟨later', rfl, hold⟩ := split_snoc hlog
  · left
    change (Function.update phases i p i).owesFailure _
    rw [Function.update_self, hmove.of_loginFailed hfailed]
    exact trivial
  · obtain howes | ⟨t, hrecorded⟩ := h.failure earlier m later' hold hfailed
    · by_cases hi : m.event.tid = i
      · rw [hi] at howes ⊢
        rw [Function.update_self]
        have hpast := h.past m (by rw [hold]; simp)
        obtain hstill | ⟨t, hop, hle⟩ := hmove.owesFailure_step howes hanswer hpast
        · exact .inl hstill
        · exact .inr ⟨t, hle, _, List.mem_append_right _ (List.mem_singleton.mpr rfl), hop⟩
      · rw [Function.update_of_ne hi]
        exact .inl howes
    · exact .inr ⟨t, hrecorded.snoc⟩

/-- One step keeps that every grant is recorded, or owed. -/
theorem Logged.lease_step (h : Logged backend w₀ w phases) (hsound : Sound w₀ w phases)
    (hmove : Move backend (phases i) op r p) (hanswer : (w.now.pass delay).answers op r)
    (earlier : List (Instant Tid)) (m : Instant Tid) (later : List (Instant Tid)) (lease : Nat)
    (hlog : (after w delay i op r).log = earlier ++ m :: later)
    (hgrants : grants backend lease m.event) :
    (Function.update phases i p m.event.tid).owesLease m.after.now lease
        ((w.now.pass delay).apply i op).issuedAt ∨
      ∃ s, RecordsLease m.after.now lease later s := by
  obtain ⟨_, rfl, rfl⟩ | ⟨later', rfl, hold⟩ := split_snoc hlog
  · left
    obtain ⟨auth, hlease, hp⟩ := hmove.of_grants hgrants
    change (Function.update phases i p i).owesLease _ _ _
    rw [Function.update_self, hp]
    exact hlease
  · obtain howes | ⟨s, hrecorded⟩ := h.lease earlier m later' lease hold hgrants
    · by_cases hi : m.event.tid = i
      · rw [hi] at howes ⊢
        rw [Function.update_self]
        have hpast := h.past m (by rw [hold]; simp)
        obtain hstill | ⟨hop, hle⟩ := hmove.owesLease_step howes hanswer hpast
        · exact .inl hstill
        · right
          refine ⟨w.now.issuedAt, hle, moment w delay i op r,
            List.mem_append_right _ (List.mem_singleton.mpr rfl), hop, ?_⟩
          subst hop
          rfl
      · left
        rw [Function.update_of_ne hi,
          apply_quiet (hsound.quiet hi (Phase.holdsLock_of_owesLease howes) hmove hanswer)]
        exact howes
    · exact .inr ⟨s, hrecorded.snoc⟩

/-- One step keeps the records of failures and grants. -/
theorem Logged.step (h : Logged backend w₀ w phases) (hsound : Sound w₀ w phases)
    (hmove : Move backend (phases i) op r p) (hanswer : (w.now.pass delay).answers op r) :
    Logged backend w₀ (after w delay i op r) (Function.update phases i p) where
  past := by
    intro m hm
    rw [after_now, apply_now]
    obtain hold | hnew := List.mem_append.mp hm
    · have hpast := h.past m hold
      simp only [pass_now]
      omega
    · rw [List.mem_singleton.mp hnew]
      exact le_of_eq (apply_now _ _ _)
  single := by
    intro m hm
    obtain hold | hnew := List.mem_append.mp hm
    · exact h.single m hold
    · rw [List.mem_singleton.mp hnew]
      change (after w delay i op r).now.inFlight.length ≤ 1
      obtain ⟨hnone, _⟩ | ⟨j, hsome, _⟩ := (hsound.step hmove hanswer).flight
      · rw [hnone]
        exact Nat.zero_le 1
      · rw [hsome]
        exact le_refl 1
  failure := h.failure_step hmove hanswer
  lease := h.lease_step hsound hmove hanswer
  requests := by
    intro earlier m later hlog hrequest
    obtain ⟨rfl, rfl, _⟩ | ⟨later', _, hold⟩ := split_snoc hlog
    · change Allowed backend w₀ w.log ((w.now.pass delay).apply i op).now
      rw [apply_now]
      exact h.allowed hsound hmove hrequest
    · exact h.requests earlier m later' hold hrequest

/-! ## Runs -/

/-- The manager after its login. -/
def World.loggedIn (auth : AuthData) (time : Nat) : World Tid where
  now := time
  token := auth.clientToken
  issuedAt := time
  lease := auth.leaseDuration
  renewable := auth.renewable
  lastFailure := none
  lockedBy := none
  inFlight := []
  generation := 0
  installing := false

/-- Callers before their first operation. -/
def callers (Tid : Type) (backend : AuthBackend) (auth : AuthData) (time : Nat) :
    Pool Tid Op Op.Answer (Except StorageError String) (Callers Tid) :=
  ⟨⟨.loggedIn auth time, []⟩, fun _ => (addAuthHeaders backend).run⟩

/-- All that is kept of the callers. -/
structure Kept (backend : AuthBackend) (w₀ : World Tid) (w : Callers Tid)
    (phases : Tid → Phase) : Prop where
  sound : Sound w₀ w phases
  witnessed : Witnessed w phases
  logged : Logged backend w₀ w phases

/-- At the start nothing has happened. -/
theorem Kept.start (auth : AuthData) (time : Nat) :
    Kept backend (.loggedIn auth time : World Tid) ⟨.loggedIn auth time, []⟩
      (fun _ => .start) where
  sound :=
    { lock := fun _ => iff_of_false (by decide) (by simp [World.loggedIn])
      flight := .inl ⟨rfl, fun _ => rfl⟩
      installing := by
        intro i h
        cases h
      leases := by
        intro s lease h
        obtain ⟨rfl, rfl⟩ | ⟨m, hm, _⟩ := h
        · exact .inr ⟨rfl, rfl⟩
        · cases hm
      expired := by
        intro i h
        cases h
      failures := by
        intro t h
        obtain ⟨m, hm, _⟩ := h
        cases hm
      cooled := by
        intro i h
        cases h
      cooling := by
        intro i t h
        cases h
      rechecking := by
        intro i e h
        cases h }
  witnessed :=
    { timed := by
        intro i e h
        obtain h | h := h
        · cases h
        · cases h
      checked := by
        intro i h
        cases h
      done := by
        intro i token h
        cases h }
  logged :=
    { past := by
        intro m hm
        cases hm
      single := by
        intro m hm
        cases hm
      failure := by
        intro earlier m later h
        simp at h
      lease := by
        intro earlier m later lease h
        simp at h
      requests := by
        intro earlier m later h
        simp at h }

/-- One step keeps everything that is known of the callers. -/
theorem Kept.step (h : Kept backend w₀ w phases) (hmove : Move backend (phases i) op r p)
    {w' : Callers Tid} (henv : recorded Env i op w r w') :
    Kept backend w₀ w' (Function.update phases i p) := by
  obtain ⟨delay, hanswer, hnow⟩ := henv.1
  have hw : w' = after w delay i op r := by
    calc w' = ⟨w'.now, w.log ++ [⟨⟨i, op, r⟩, w.now, w'.now⟩]⟩ := recorded.eq henv
      _ = after w delay i op r := by rw [hnow]; rfl
  rw [hw]
  exact ⟨h.sound.step hmove hanswer, h.witnessed.step h.sound hmove hanswer,
    h.logged.step h.sound hmove hanswer⟩

/-- **Serialised and rate limited.**  Never more than one request is in flight,
every request is allowed by the moments before it, and a token that is returned
was seen good. -/
structure RateLimited (backend : AuthBackend) (w₀ : World Tid)
    (c : Pool Tid Op Op.Answer (Except StorageError String) (Callers Tid)) : Prop where
  serialised : ∀ m ∈ c.world.log, m.after.inFlight.length ≤ 1
  requests : ∀ earlier m later, c.world.log = earlier ++ m :: later →
    isRequest m.event.op = true → Allowed backend w₀ earlier m.after.now
  fresh : ∀ i token, c.threads i = .ret (.ok token) → ReadGood i token c.world.log

end VaultToken

open VaultToken

/-- **Vault token renewal is serialised and rate limited**, for any number of
callers, any interleaving, any answers and any passage of time. -/
theorem token_renewal_rate_limited {Tid : Type} [DecidableEq Tid] (backend : AuthBackend)
    (auth : AuthData) (time : Nat) {t : List (Event Tid Op Op.Answer)}
    {c : Pool Tid Op Op.Answer (Except StorageError String) (Callers Tid)}
    (hrun : Run (recorded Env) (callers Tid backend auth time) t c) :
    RateLimited backend (.loggedIn auth time) c := by
  obtain ⟨phases, hkept, hfollows⟩ := Run.followed
    (I := VaultToken.Kept backend (.loggedIn auth time)) (fun _ => follows_addAuthHeaders)
    (.start auth time) (fun _ _ _ _ _ _ _ h hmove henv => h.step hmove henv) hrun
  refine ⟨hkept.logged.single, hkept.logged.requests, ?_⟩
  intro i token hret
  have hpost := hfollows i
  rw [hret] at hpost
  exact hkept.witnessed.done i token (hpost token rfl)

/-! ## Two callers at once -/

/-- A world that answers after a delay; the schedule gives the server's replies. -/
def VaultToken.answer {Tid : Type} [DecidableEq Tid] (input : Nat × Reply AuthData) (i : Tid)
    (op : Op) (w : World Tid) : Option (op.Answer × World Tid) :=
  let now := w.pass input.1
  match op with
  | .elapsed => some (now.now - now.issuedAt, now)
  | .readLease => some (now.lease, now)
  | .readLastFailure => some (now.lastFailure, now)
  | .readRenewable => some (now.renewable, now)
  | .readToken => some (now.token, now)
  | .now => some (now.now, now)
  | .renewReply => some (input.2, now.apply i .renewReply)
  | .loginReply => some (input.2, now.apply i .loginReply)
  | .readServiceToken _ => none
  | .lock => if now.lockedBy = none then some ((), now.apply i .lock) else none
  | .unlock => some ((), now.apply i .unlock)
  | .sendRenew token => some ((), now.apply i (.sendRenew token))
  | .sendLogin authMount body => some ((), now.apply i (.sendLogin authMount body))
  | .writeToken token => some ((), now.apply i (.writeToken token))
  | .writeIssuedAt time => some ((), now.apply i (.writeIssuedAt time))
  | .writeLease lease => some ((), now.apply i (.writeLease lease))
  | .writeRenewable renewable => some ((), now.apply i (.writeRenewable renewable))
  | .writeLastFailure time => some ((), now.apply i (.writeLastFailure time))

/-- The sample server answers as the world may. -/
theorem VaultToken.answer_sound {Tid : Type} [DecidableEq Tid] {input : Nat × Reply AuthData}
    {i : Tid} {op : Op} {w w' : World Tid} {r : op.Answer}
    (h : VaultToken.answer input i op w = some (r, w')) : Env i op w r w' := by
  refine ⟨input.1, ?_⟩
  cases op with
  | lock =>
      simp only [VaultToken.answer] at h
      split at h
      · rename_i hfree
        cases h
        exact ⟨hfree, rfl⟩
      · cases h
  | readServiceToken path => cases h
  | _ =>
      cases h
      first | exact ⟨rfl, rfl⟩ | exact ⟨trivial, rfl⟩

/-- The sample backend. -/
def sampleBackend : AuthBackend := .appRole "role" "secret" "approle"

/-- The reply to the sample renewal. -/
def renewedReply : Reply AuthData := .response ⟨200, "OK"⟩ "" (.ok ⟨"s.renewed", 3600, true⟩)

/-- Both callers find the lease of one second used up after 0.85 s; the first one
renews the token while the second one waits for the lock. -/
def sampleRenewal : List (Bool × Nat × Reply AuthData) :=
  [(true, 850000000, renewedReply), (false, 0, renewedReply), (true, 0, renewedReply),
    (false, 0, renewedReply)] ++ List.replicate 16 (true, 0, renewedReply) ++
    List.replicate 5 (false, 0, renewedReply)

/-- Two callers, of which one renews the token. -/
def sampleRenewalRun :=
  Pool.drive (recordedAnswer VaultToken.answer) sampleRenewal
    (callers Bool sampleBackend ⟨"s.initial", 1, true⟩ 0)

/-- The sample is a run. -/
theorem sampleRenewalRun_runs :
    Run (recorded Env) (callers Bool sampleBackend ⟨"s.initial", 1, true⟩ 0) sampleRenewalRun.1
      sampleRenewalRun.2 := by
  apply Run.drive
  intro input i op w r w' h
  refine recordedAnswer_sound ?_ h
  exact fun _ _ _ _ _ _ hanswer => VaultToken.answer_sound hanswer

/-- Both callers return the renewed token. -/
theorem token_renewal_rate_limited_sample :
    ∃ t c, Run (recorded Env) (callers Bool sampleBackend ⟨"s.initial", 1, true⟩ 0) t c ∧
      (∀ i, c.threads i = .ret (.ok "s.renewed")) ∧
      RateLimited sampleBackend (.loggedIn ⟨"s.initial", 1, true⟩ 0) c := by
  refine ⟨_, _, sampleRenewalRun_runs, ?_, token_renewal_rate_limited _ _ _ sampleRenewalRun_runs⟩
  intro i
  apply Prog.eq_ret_of_result?
  cases i with
  | true => rfl
  | false => rfl

end StatusListServer
