import Mathlib.Data.List.Perm.Basic
import StatusListServer.SecretNames
import StatusListServer.SingleFlight

/-!
# Access tokens and the readiness report

Two caches of the server hold their lock while they are filled.  `TokenCache`
(`challenge/dns01/token.rs`) keeps an OAuth2 access token until a minute before it expires;
`Readiness` (`server/health.rs`) keeps the report of its checks for a second, so that probes
do not load the dependencies more than once a second.

Times are in nanoseconds of a clock that does not go back.
-/

namespace StatusListServer

open Interaction SingleFlight

/-- Seconds in nanoseconds. -/
def nanos (seconds : Nat) : Nat := seconds * 1000000000

/-! ## Access tokens -/

namespace TokenCache

/-- `EXPIRY_SKEW`: a token is not used in its last minute. -/
def expirySkew : Nat := nanos 60

/-- A token with its expiry. -/
structure CachedToken where
  token : String
  expiresAt : Nat
deriving DecidableEq, Repr

/-- A token with its time to live is kept until a minute before it expires. -/
def policy : Policy CachedToken (String × Nat) String where
  fresh cached now := decide (now < cached.expiresAt)
  keep minted now := ⟨minted.1, now + (minted.2 - expirySkew)⟩
  value cached := cached.token
  give minted := minted.1
  fresh_of_le cached t t' hle hfresh := by
    rw [decide_eq_true_eq] at hfresh ⊢
    exact Nat.lt_of_le_of_lt hle hfresh

/-- Return the cached token, or mint a new one when absent or expired. -/
def getOrMint :
    M CachedToken (String × Nat) ChallengeError (Option (Except ChallengeError String)) :=
  getOrProduce policy

section Results

variable {Tid : Type} [DecidableEq Tid]

/-- Callers that share the cache. -/
abbrev Callers (Tid : Type) := Pool Tid (Op CachedToken) (Op.Answer (String × Nat) ChallengeError)
  (Option (Except ChallengeError String))
  (SingleFlight.History Tid CachedToken (String × Nat) ChallengeError)

/-- Callers of one cache, which mints whatever token it gets. -/
def start (clock : Nat) : Callers Tid := ⟨⟨⟨none, none, clock⟩, []⟩, fun _ => getOrMint⟩

/-- A caller has looked at the clock, and what was kept at that moment is a token that some
caller had minted and kept before, and that had more than a minute of its time to live left. -/
def HandedOut (i : Tid) (token : String)
    (log : Log Tid CachedToken (String × Nat) ChallengeError) : Prop :=
  ∃ earlier m later, ∃ now : Nat, log = earlier ++ m :: later ∧ m.event = ⟨i, .now, now⟩ ∧
    ∃ j ttl, ∃ keptAt expiresAt : Nat, m.before.cell = some ⟨token, expiresAt⟩ ∧
      InOrder [⟨j, .finish, some (.ok (token, ttl))⟩, ⟨j, .now, keptAt⟩,
        ⟨j, .write ⟨token, expiresAt⟩, ()⟩] earlier ∧
      keptAt ≤ now ∧ now + nanos 60 < keptAt + ttl

/-- **Tokens are minted one at a time and handed out while they are good.**  For any number of
callers, in any order of their steps, with mints that fail and callers that are cancelled: a
mint begins only when no kept token is good and every mint before it is over, and a caller
gets the token that it minted itself, or the kept one, when that still had more than a minute
to live, as counted from the time it was kept, when the caller looked. -/
theorem tokens_minted_one_at_a_time {clock : Nat}
    {t : List (Event Tid (Op CachedToken) (Op.Answer (String × Nat) ChallengeError))}
    {c : Callers Tid} (h : Run (recorded (env fun _ => True)) (start clock) t c) :
    (∀ earlier m later, c.world.log = earlier ++ m :: later → m.event.op = .begin →
      (∀ cached, m.before.cell = some cached → cached.expiresAt ≤ m.before.clock) ∧
      ∀ before m' after, earlier = before ++ m' :: after → m'.event.op = .begin →
        SingleFlight.Finished m'.event.tid after) ∧
    ∀ i token, c.threads i = .ret (some (.ok token)) →
      (∃ ttl, ∃ m ∈ c.world.log, m.event = ⟨i, .finish, some (.ok (token, ttl))⟩) ∨
      HandedOut i token c.world.log := by
  obtain ⟨locals, hsound, hobeys⟩ := sound_of_run (P := policy) h
  constructor
  · intro earlier m later hlog hop
    obtain ⟨hstale, hover⟩ := hsound.moments earlier m later hlog hop
    refine ⟨?_, hover⟩
    intro cached hcell
    have hexpired := hstale cached hcell
    simp only [policy, decide_eq_false_iff_not] at hexpired
    omega
  · intro i token hret
    have hended := hobeys i
    rw [hret] at hended
    have hphase := hsound.phases i
    rw [show locals i = .answered token from hended] at hphase
    rcases hphase with ⟨cached, rfl, earlier, m, later, now, hlog, hevent, hcell, hfresh, j,
      ⟨token, ttl⟩, keptAt, rfl, hkept, horder⟩ | ⟨⟨token, ttl⟩, rfl, m, hm, hevent⟩
    · refine .inr ⟨earlier, m, later, now, hlog, hevent, j, ttl, keptAt, _, hcell, horder, hkept,
        ?_⟩
      simp only [policy, decide_eq_true_eq, expirySkew] at hfresh
      omega
    · exact .inl ⟨ttl, m, hm, hevent⟩

end Results

/-- The first caller mints a token that is good for an hour; the second waits for it, and
looks at the clock two seconds after it was minted. -/
def sampleRun :=
  Pool.drive (recordedAnswer (SingleFlight.answer (some (.ok ("token", nanos 3600)))))
    [(0, nanos 1), (1, 0), (0, 0), (0, 0), (0, nanos 2), (0, 0), (0, 0), (1, 0), (0, 0), (1, 0),
      (1, 0), (1, nanos 2), (1, 0)]
    (start 0 : Callers (Fin 2))

/-- The sample is a run. -/
theorem sampleRun_runs :
    Run (recorded (env fun _ => True)) (start 0) sampleRun.1 sampleRun.2 := by
  apply Run.drive
  intro elapsed i op w r w' h
  refine recordedAnswer_sound ?_ h
  exact fun _ _ _ _ _ _ hanswer => SingleFlight.answer_sound (fun _ _ => trivial) hanswer

/-- The second caller gets the token without minting one. -/
theorem sampleRun_threads :
    (sampleRun.2.threads 1).result?.bind (fun r => r.bind Except.toOption) = some "token" ∧
      ∀ m ∈ sampleRun.2.world.log, m.event.tid = 1 → m.event.op ≠ .finish := by
  decide +kernel

/-- The second caller, which has minted none itself, is handed the token that was kept. -/
theorem tokens_minted_one_at_a_time_sample : HandedOut 1 "token" sampleRun.2.world.log := by
  obtain ⟨hthread, hmints⟩ := sampleRun_threads
  obtain ⟨result, hresult, hanswer⟩ := Option.bind_eq_some_iff.mp hthread
  obtain ⟨token, rfl, htoken⟩ := Option.bind_eq_some_iff.mp hanswer
  cases token with
  | error e => cases htoken
  | ok token =>
      cases htoken
      obtain ⟨ttl, m, hm, hevent⟩ | hhanded :=
        (tokens_minted_one_at_a_time sampleRun_runs).2 1 "token" (Prog.eq_ret_of_result? hresult)
      · refine absurd ?_ (hmints m hm (by rw [hevent]))
        rw [hevent]
      · exact hhanded

end TokenCache

/-! ## The readiness report -/

namespace Readiness

/-- How long a report is kept. -/
def readinessCacheTtl : Nat := nanos 1

/-- How the task of a check ends: the check answers in time, or not, or the task fails. -/
inductive CheckOutcome
  | finished (result : Except String Unit)
  | timedOut
  | panicked (error : String)

/-- The result of one check. -/
structure CheckResult where
  name : String
  ok : Bool
  reason : Option String
deriving DecidableEq, Repr

/-- The results of all checks. -/
structure ReadinessReport where
  ready : Bool
  checks : List CheckResult
deriving DecidableEq, Repr

/-- The result of a check whose task has ended. -/
def checkResult (name : String) : CheckOutcome → CheckResult
  | .finished (.ok _) => ⟨name, true, none⟩
  | .finished (.error reason) => ⟨name, false, some reason⟩
  | .timedOut => ⟨name, false, some "readiness check timed out"⟩
  | .panicked error =>
      ⟨"readiness_check_task", false, some s!"readiness check task failed: {error}"⟩

/-- The report on the registered checks, from their tasks in the order in which they ended. -/
def report (registered : List String) (joined : List (String × CheckOutcome)) : ReadinessReport :=
  let checks := joined.map fun task => checkResult task.1 task.2
  ⟨checks.length == registered.length && checks.all CheckResult.ok, checks⟩

/-- A report with the time it was made. -/
structure CachedReadinessReport where
  report : ReadinessReport
  checkedAt : Nat
deriving DecidableEq, Repr

/-- A report is kept for a second. -/
def policy : Policy CachedReadinessReport ReadinessReport ReadinessReport where
  fresh cached now := decide (now - cached.checkedAt < readinessCacheTtl)
  keep report now := ⟨report, now⟩
  value cached := cached.report
  give report := report
  fresh_of_le cached t t' hle hfresh := by
    rw [decide_eq_true_eq] at hfresh ⊢
    omega

/-- Run every check, unless the last report is recent. -/
def run : M CachedReadinessReport ReadinessReport Empty (Option (Except Empty ReadinessReport)) :=
  getOrProduce policy

/-- The status of the readiness endpoint. -/
def ready (report : ReadinessReport) : Nat × String :=
  if report.ready then (200, "READY") else (503, "NOT_READY")

/-- The task of every check has ended, in any order. -/
def Swept (registered : List String) (outcomes : List CheckOutcome) (made : ReadinessReport) :
    Prop :=
  outcomes.length = registered.length ∧
    ∃ joined, joined.Perm (registered.zip outcomes) ∧ made = report registered joined

/-- A check is good only if it has finished without an error. -/
theorem checkResult_ok (name : String) (outcome : CheckOutcome) :
    (checkResult name outcome).ok = true ↔ outcome = .finished (.ok ()) := by
  rcases outcome with (reason | _) | _ | error
  · simp [checkResult]
  · simp [checkResult]
  · simp [checkResult]
  · simp [checkResult]

/-- **The verdict does not depend on the order.**  The service is ready if every check has
succeeded in time. -/
theorem ready_iff {registered : List String} {outcomes : List CheckOutcome}
    {made : ReadinessReport} (h : Swept registered outcomes made) :
    made.ready = true ↔ ∀ outcome ∈ outcomes, outcome = .finished (.ok ()) := by
  obtain ⟨hlength, joined, hperm, rfl⟩ := h
  have hcount : joined.length = registered.length := by
    rw [hperm.length_eq, List.length_zip, hlength, Nat.min_self]
  have hready : (report registered joined).ready = true ↔
      ∀ task ∈ joined, task.2 = .finished (.ok ()) := by
    simp [report, hcount, checkResult_ok]
  rw [hready]
  constructor
  · intro hall outcome houtcome
    obtain ⟨n, hn, rfl⟩ := List.getElem_of_mem houtcome
    have hname : n < registered.length := by
      omega
    have hmem : (registered[n], outcomes[n]) ∈ registered.zip outcomes := by
      rw [← List.getElem_zip (h := by simp; omega)]
      exact List.getElem_mem _
    exact hall _ (hperm.mem_iff.mpr hmem)
  · intro hall task htask
    have hmem := hperm.mem_iff.mp htask
    exact hall task.2 (List.of_mem_zip hmem).2

section Results

variable {Tid : Type} [DecidableEq Tid]

/-- Probes that share the report. -/
abbrev Probes (Tid : Type) := Pool Tid (Op CachedReadinessReport) (Op.Answer ReadinessReport Empty)
  (Option (Except Empty ReadinessReport))
  (SingleFlight.History Tid CachedReadinessReport ReadinessReport Empty)

/-- Probes of one server. -/
def start (clock : Nat) : Probes Tid := ⟨⟨⟨none, none, clock⟩, []⟩, fun _ => run⟩

/-- A probe has looked at the clock, and what was kept at that moment is a report that some
probe had made and kept before, less than a second ago. -/
def HandedOut (i : Tid) (made : ReadinessReport)
    (log : Log Tid CachedReadinessReport ReadinessReport Empty) : Prop :=
  ∃ earlier m later, ∃ now : Nat, log = earlier ++ m :: later ∧ m.event = ⟨i, .now, now⟩ ∧
    ∃ j, ∃ checkedAt : Nat, m.before.cell = some ⟨made, checkedAt⟩ ∧
      InOrder [⟨j, .finish, some (.ok made)⟩, ⟨j, .now, checkedAt⟩,
        ⟨j, .write ⟨made, checkedAt⟩, ()⟩] earlier ∧
      checkedAt ≤ now ∧ now < checkedAt + readinessCacheTtl

/-- **Readiness answers are recent, and the checks are run once a second at most.**  For any
number of probes, in any order of their steps, also when some are cancelled: a sweep of the
checks begins only when every sweep before it is over and the last report is a second old;
and every answer is the report of a sweep, by the probe itself or kept less than a second
before the probe looked, which says READY if and only if every registered check has succeeded
in time. -/
theorem readiness_answers_recent (registered : List String) {clock : Nat}
    {t : List (Event Tid (Op CachedReadinessReport) (Op.Answer ReadinessReport Empty))}
    {c : Probes Tid}
    (h : Run (recorded (env fun made => ∃ outcomes, Swept registered outcomes made)) (start clock)
      t c) :
    (∀ earlier m later, c.world.log = earlier ++ m :: later → m.event.op = .begin →
      (∀ cached, m.before.cell = some cached →
        cached.checkedAt + readinessCacheTtl ≤ m.before.clock) ∧
      ∀ before m' after, earlier = before ++ m' :: after → m'.event.op = .begin →
        SingleFlight.Finished m'.event.tid after) ∧
    ∀ i made, c.threads i = .ret (some (.ok made)) →
      (∃ outcomes, Swept registered outcomes made ∧
        (ready made = (200, "READY") ↔ ∀ outcome ∈ outcomes, outcome = .finished (.ok ()))) ∧
      ((∃ m ∈ c.world.log, m.event = ⟨i, .finish, some (.ok made)⟩) ∨
        HandedOut i made c.world.log) := by
  obtain ⟨locals, hsound, hobeys⟩ := sound_of_run (P := policy) h
  constructor
  · intro earlier m later hlog hop
    obtain ⟨hstale, hover⟩ := hsound.moments earlier m later hlog hop
    refine ⟨?_, hover⟩
    intro cached hcell
    have hold := hstale cached hcell
    have hpos : 0 < readinessCacheTtl := by decide
    simp only [policy, decide_eq_false_iff_not] at hold
    omega
  · intro i made hret
    have hended := hobeys i
    rw [hret] at hended
    have hphase := hsound.phases i
    rw [show locals i = .answered made from hended] at hphase
    have hsource : (∃ m ∈ c.world.log, m.event = ⟨i, .finish, some (.ok made)⟩) ∨
        HandedOut i made c.world.log := by
      rcases hphase with ⟨cached, rfl, earlier, m, later, now, hlog, hevent, hcell, hfresh, j, made,
        checkedAt, rfl, hkept, horder⟩ | ⟨made, rfl, m, hm, hevent⟩
      · refine .inr ⟨earlier, m, later, now, hlog, hevent, j, checkedAt, hcell, horder, hkept, ?_⟩
        simp only [policy, decide_eq_true_eq] at hfresh
        omega
      · exact .inl ⟨m, hm, hevent⟩
    refine ⟨?_, hsource⟩
    obtain ⟨j, m, hm, hevent⟩ : ∃ j, Produced j made c.world.log := by
      rcases hsource with ⟨m, hm, hevent⟩ | ⟨earlier, _, later, _, hlog, _, j, _, _, horder, _⟩
      · exact ⟨i, m, hm, hevent⟩
      · obtain ⟨m, hm, hevent⟩ := horder.produced
        exact ⟨j, m, hlog ▸ List.mem_append_left _ hm, hevent⟩
    have hallowed := h.moment_allowed rfl m hm
    rw [hevent] at hallowed
    obtain ⟨outcomes, hswept⟩ := hallowed.1 made rfl
    refine ⟨outcomes, hswept, ?_⟩
    rw [← ready_iff hswept]
    cases hready : made.ready with
    | true => simp [ready, hready]
    | false => simp [ready, hready]

end Results

/-- The report when the first of two checks has answered in time and the second has not. -/
def sampleReport : ReadinessReport :=
  report ["database", "cache"] [("cache", .timedOut), ("database", .finished (.ok ()))]

/-- The second probe looks half a second after the report of the first. -/
def sampleRun :=
  Pool.drive (recordedAnswer (SingleFlight.answer (some (.ok sampleReport))))
    [(0, 0), (1, 0), (0, 0), (0, 0), (0, 0), (0, 0), (0, 0), (0, 0), (1, 0), (1, 0),
      (1, 500000000), (1, 0)]
    (start 0 : Probes (Fin 2))

/-- The sample is a run. -/
theorem sampleRun_runs :
    Run (recorded (env fun made => ∃ outcomes, Swept ["database", "cache"] outcomes made))
      (start 0) sampleRun.1 sampleRun.2 := by
  apply Run.drive
  intro elapsed i op w r w' h
  refine recordedAnswer_sound ?_ h
  intro _ _ _ _ _ _ hanswer
  refine SingleFlight.answer_sound ?_ hanswer
  intro made hmade
  cases hmade
  exact ⟨[.finished (.ok ()), .timedOut], rfl, _, .swap _ _ _, rfl⟩

/-- The second probe gets the report without a sweep of its own. -/
theorem sampleRun_threads :
    (sampleRun.2.threads 1).result?.bind (fun r => r.bind Except.toOption) = some sampleReport ∧
      ∀ m ∈ sampleRun.2.world.log, m.event.tid = 1 → m.event.op ≠ .finish := by
  decide +kernel

/-- The second probe is handed the kept report, of which one check timed out. -/
theorem readiness_answers_recent_sample :
    (∃ outcomes, Swept ["database", "cache"] outcomes sampleReport ∧
      ¬∀ outcome ∈ outcomes, outcome = .finished (.ok ())) ∧
    HandedOut 1 sampleReport sampleRun.2.world.log := by
  obtain ⟨hthread, hsweeps⟩ := sampleRun_threads
  obtain ⟨result, hresult, hanswer⟩ := Option.bind_eq_some_iff.mp hthread
  obtain ⟨made, rfl, hmade⟩ := Option.bind_eq_some_iff.mp hanswer
  cases made with
  | error e => cases e
  | ok made =>
      obtain rfl : made = sampleReport := Option.some.inj hmade
      obtain ⟨⟨outcomes, hswept, hready⟩, hsource⟩ :=
        (readiness_answers_recent ["database", "cache"] sampleRun_runs).2 1 _
          (Prog.eq_ret_of_result? hresult)
      refine ⟨⟨outcomes, hswept, ?_⟩, ?_⟩
      · rw [← hready]
        decide
      · rcases hsource with ⟨m, hm, hevent⟩ | hhanded
        · refine absurd ?_ (hsweeps m hm (by rw [hevent]))
          rw [hevent]
        · exact hhanded

end Readiness

end StatusListServer
