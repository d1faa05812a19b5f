import StatusListServer.DnsChallenges

/-!
# The Google Cloud DNS provider

`challenge/dns01/gcloud.rs`.  A change replaces a whole record set: it deletes the
set that was read and adds the merged one.  The server applies a change only if
its deletions are exactly what is stored, so a change that is applied was made
from the present values.  A change that would change nothing is not sent.
-/

namespace StatusListServer

open Interaction

namespace GoogleDns

/-- A record set of the API. -/
structure RrSet where
  name : DnsName
  kind : String
  ttl : Nat
  rrdatas : List String
deriving DecidableEq, Repr

/-- A change of a zone, with its progress. -/
structure Change where
  id : String
  status : String
deriving DecidableEq, Repr

/-- `TXT_TTL`. -/
def txtTtl : Nat := 60

/-- `CONFLICT_RETRIES`. -/
def conflictRetries : Nat := 3

/-- Seconds before the first poll of a change. -/
def propagationInitialDelay : Nat := 2

/-- Seconds after which a change is given up. -/
def propagationTimeout : Nat := 300

/-- An error of this provider. -/
def dnsErr (message : String) : ChallengeError := .dns "gcloud" message

/-- What the provider calls.  `zones` answers with the DNS names and the names of
the managed zones the provider has cached, or fetches them; `poll` waits and asks
for a change, and has no answer once the timeout is over. -/
inductive Op
  | zones
  | accessToken
  | get (zone name : DnsName)
  | change (zone : DnsName) (deletions additions : List RrSet)
  | poll (zone : DnsName) (changeId : String) (delay : Nat)

/-- What the API answers. -/
@[reducible] def Op.Answer : Op → Type
  | .zones => Except ChallengeError (List (DnsName × DnsName))
  | .accessToken => Except ChallengeError Unit
  | .get _ _ => Reply (List RrSet)
  | .change _ _ _ => Reply Change
  | .poll _ _ _ => Option (Reply Change)

/-- A call, which may fail. -/
abbrev M := ExceptT ChallengeError (Prog Op Op.Answer)

/-! ## Requests -/

/-- The name of the challenge record, with the dot of a full name. -/
def recordName (domain : DnsName) : DnsName := acmeChallengeLabel ++ trimEndDots domain ++ ['.']

/-- The managed zone of a domain among the known ones. -/
def zoneOf (domain : DnsName) (zones : List (DnsName × DnsName)) :
    Except ChallengeError DnsName :=
  match findBestMatch (trimEndDots domain) (zones.map fun zone => .new zone.1 zone.2) with
  | some zone => .ok zone.id
  | none => .error (.zoneNotFound (String.ofList (trimEndDots domain)))

/-- The zone that covers a domain. -/
def findZone (domain : DnsName) : M DnsName :=
  Prog.request .zones fun answer => answer.bind (zoneOf domain)

/-- `access_token`. -/
def accessToken : M Unit := Prog.request .accessToken id

/-- The first record set of a reply. -/
def readRrset : Reply (List RrSet) → Except ChallengeError (Option RrSet)
  | .failed message => .error (dnsErr message)
  | .response status text json => (parseResponse dnsErr status text json).map List.head?

/-- Fetch the existing TXT rrset for the record, if any. -/
def getRrset (zone name : DnsName) : M (Option RrSet) := Prog.request (.get zone name) readRrset

/-- The change of a reply. -/
def readChange : Reply Change → Except ChallengeError Change
  | .failed message => .error (dnsErr message)
  | .response status text json => parseResponse dnsErr status text json

/-- Whether a change was refused since another came first. -/
def isConflict : Reply Change → Bool
  | .failed _ => false
  | .response status _ _ => status.code == 409

/-! ## Waiting for a change -/

/-- The delay before a poll. -/
def pollDelay (retries : Nat) : Nat :=
  backoffDelay propagationInitialDelay propagationTimeout retries

/-- Waiting takes time. -/
theorem pollDelay_pos (retries : Nat) : 0 < pollDelay retries :=
  backoffDelay_pos (by decide) (by decide) retries

/-- The error when a change takes too long. -/
def timedOut : ChallengeError := dnsErr "DNS propagation timed out after 300s"

/-- The reply of a poll, if it came in time. -/
def readPoll : Option (Reply Change) → Except ChallengeError Change
  | none => .error timedOut
  | some reply => readChange reply

/-- Poll a change until it is done.  The timeout ends the loop at the latest when
it has slept for that long. -/
def pollChange (zone : DnsName) (changeId : String) (retries slept : Nat) : M Unit :=
  if _h : slept + pollDelay retries ≤ propagationTimeout then do
    let change ← Prog.request (.poll zone changeId (pollDelay retries)) readPoll
    if change.status = "done" then
      return ()
    else
      pollChange zone changeId (retries + 1) (slept + pollDelay retries)
  else
    throw timedOut
termination_by propagationTimeout - slept
decreasing_by
  have hpos := pollDelay_pos retries
  omega

/-- Wait until the change is served by all authoritative name servers. -/
def waitForChange (zone : DnsName) (change : Change) : M Unit :=
  if change.status = "done" then pure () else pollChange zone change.id 0 0

/-! ## The two calls -/

/-- The values of a set that may be missing. -/
def rrdatasOf : Option RrSet → List String
  | some existing => existing.rrdatas
  | none => []

/-- Whether a change would change nothing. -/
def nothingToChange (existing : Option RrSet) (rrdatas : List String) : Bool :=
  existing.map RrSet.rrdatas == some rrdatas || (existing == none && rrdatas == [])

/-- The record set to add; none without records. -/
def additionsOf (name : DnsName) (rrdatas : List String) : List RrSet :=
  if rrdatas = [] then [] else [⟨name, "TXT", txtTtl, rrdatas⟩]

/-- Wait for the change of a reply. -/
def finish (zone : DnsName) (reply : Reply Change) : M Unit := do
  let change ← ExceptT.mk (pure (readChange reply))
  waitForChange zone change

/-- One pass of the loop of `change_rrset`; `again` is the next one, if any. -/
def changeAttempt (zone name : DnsName) (merge : List String → List String)
    (again : Option (M Unit)) : M Unit := do
  let existing ← getRrset zone name
  let rrdatas := merge (rrdatasOf existing)
  if nothingToChange existing rrdatas then
    return ()
  else
    let reply ← Prog.request (.change zone existing.toList (additionsOf name rrdatas)) .ok
    match again with
    | none => finish zone reply
    | some again => if isConflict reply then again else finish zone reply

/-- The loop of `change_rrset`, with the retries that are left. -/
def changeLoop (zone name : DnsName) (merge : List String → List String) : Nat → M Unit
  | 0 => changeAttempt zone name merge none
  | retries + 1 => changeAttempt zone name merge (some (changeLoop zone name merge retries))

/-- Replace the existing rrset by its merge. -/
def changeRrset (zone name : DnsName) (merge : List String → List String) : M Unit := do
  accessToken
  changeLoop zone name merge conflictRetries

/-- A TXT value in its quotes. -/
def quoted (value : String) : String := "\"" ++ value ++ "\""

/-- `create_txt_record`. -/
def createTxtRecord (domain : DnsName) (value : String) : M Unit := do
  let zone ← findZone domain
  changeRrset zone (recordName domain) (pushRecord (quoted value))

/-- `delete_txt_record`. -/
def deleteTxtRecord (domain : DnsName) (value : String) : M Unit := do
  let zone ← findZone domain
  changeRrset zone (recordName domain) (dropRecord (quoted value))

/-- The program of a call. -/
def run (call : DnsCall) : Prog Op Op.Answer (Except ChallengeError Unit) :=
  match call.action with
  | .create => (createTxtRecord call.domain call.value).run
  | .delete => (deleteTxtRecord call.domain call.value).run

/-! ## The server -/

/-- What a record set is stored under. -/
def RrSet.key (rrset : RrSet) : DnsName × String := (rrset.name, rrset.kind)

/-- The record sets of the managed zones, by name and kind. -/
structure Server where
  sets : DnsName → DnsName × String → Option RrSet
  key_eq : ∀ zone key rrset, sets zone key = some rrset → rrset.key = key

/-- A reply to a read that tells the truth if it tells anything. -/
def honest (current : Option RrSet) : Reply (List RrSet) → Prop
  | .failed _ => True
  | .response status _ json => status.isSuccess = true → ∀ rrsets, json = .ok rrsets →
      rrsets = current.toList

/-- Whether a change was made. -/
def succeeded : Reply Change → Bool
  | .failed _ => false
  | .response status _ _ => status.isSuccess

/-- A zone after a change. -/
def applyChange (sets : DnsName × String → Option RrSet) (deletions additions : List RrSet)
    (key : DnsName × String) : Option RrSet :=
  match additions.find? (·.key = key) with
  | some rrset => some rrset
  | none => if deletions.any (·.key = key) then none else sets key

/-- What the server can answer and do.  It applies a change only if each deletion
is exactly the stored record set and no addition replaces one that is not
deleted; it may refuse a change, and the answer to one it applied may be lost. -/
inductive Env : (op : Op) → Server → op.Answer → Server → Prop
  | zones {server : Server} (answer : Except ChallengeError (List (DnsName × DnsName))) :
      Env .zones server answer server
  | accessToken {server : Server} (answer : Except ChallengeError Unit) :
      Env .accessToken server answer server
  | poll {server : Server} {zone : DnsName} {changeId : String} {delay : Nat}
      (answer : Option (Reply Change)) : Env (.poll zone changeId delay) server answer server
  | get {server : Server} {zone name : DnsName} {reply : Reply (List RrSet)}
      (hhonest : honest (server.sets zone (name, "TXT")) reply) :
      Env (.get zone name) server reply server
  | changeKept {server : Server} {zone : DnsName} {deletions additions : List RrSet}
      {reply : Reply Change} (hreply : succeeded reply = false) :
      Env (.change zone deletions additions) server reply server
  | changeApplied {server server' : Server} {zone : DnsName} {deletions additions : List RrSet}
      {reply : Reply Change} (hreply : isConflict reply = false)
      (hdeletions : ∀ rrset ∈ deletions, server.sets zone rrset.key = some rrset)
      (hadditions : ∀ rrset ∈ additions, server.sets zone rrset.key = none ∨
        ∃ deleted ∈ deletions, deleted.key = rrset.key)
      (hsets : server'.sets =
        Function.update server.sets zone (applyChange (server.sets zone) deletions additions)) :
      Env (.change zone deletions additions) server reply server'

/-- The values of the TXT record set of a name. -/
def records (server : Server) (set : DnsName × DnsName) : List String :=
  rrdatasOf (server.sets set.1 (set.2, "TXT"))

/-- Whether an operation writes. -/
def isWrite : Op → Bool
  | .change _ _ _ => true
  | _ => false

end GoogleDns

/-- The Google Cloud DNS provider with its server. -/
def googleCloudDnsProvider : DnsProvider where
  Op := GoogleDns.Op
  Answer := GoogleDns.Op.Answer
  Server := GoogleDns.Server
  Record := String
  decEqRecord := inferInstance
  run := GoogleDns.run
  env := GoogleDns.Env
  records := GoogleDns.records
  record := GoogleDns.quoted
  nameIn := fun _ => GoogleDns.recordName
  writes := GoogleDns.isWrite
  conflictRetries := GoogleDns.conflictRetries
  operationLimit := 10 + GoogleDns.propagationTimeout

namespace GoogleDns

/-- The quotes do not hide a difference. -/
theorem quoted_injective : Function.Injective quoted := by
  intro v v' h
  have hlist := congrArg String.toList h
  apply String.toList_inj.mp
  simpa [quoted] using hlist

/-! ## The discipline of a call -/

/-- A call changes what it read last into its merge. -/
def may (s : DnsLocal (Option RrSet)) : Op → Prop
  | .get _ name => name = recordName s.call.domain
  | .change zone deletions additions =>
      ∃ seen, s.seen = some ((zone, recordName s.call.domain), seen) ∧ deletions = seen.toList ∧
        additions = additionsOf (recordName s.call.domain) (s.call.merge quoted (rrdatasOf seen)) ∧
        nothingToChange seen (s.call.merge quoted (rrdatasOf seen)) = false
  | _ => True

/-- What a call knows after an answer. -/
def next (s : DnsLocal (Option RrSet)) : (op : Op) → op.Answer → DnsLocal (Option RrSet)
  | .get zone name, reply =>
      match readRrset reply with
      | .ok seen =>
          { s with
            seen := some ((zone, name), seen)
            settled := if quoted s.call.value ∈ rrdatasOf seen then some (zone, name)
              else s.settled }
      | .error _ => s
  | .change zone _ _, reply =>
      match readChange reply with
      | .ok _ => { s with settled := some (zone, recordName s.call.domain) }
      | .error _ => s
  | _, _ => s

/-- The discipline of the calls. -/
abbrev discipline : Discipline Op Op.Answer := ⟨DnsLocal (Option RrSet), may, next⟩

variable {call : DnsCall} {s : DnsLocal (Option RrSet)} {zone : DnsName}

/-- Polling, by induction on the polls: the value is settled already. -/
theorem obeys_pollChange {changeId : String} (hsettled : s.settled ≠ none) (retries slept : Nat) :
    Prog.Obeys discipline call.Settles s (pollChange zone changeId retries slept).run := by
  induction retries, slept using pollChange.induct with
  | case1 retries slept hle ih =>
      rw [pollChange, dif_pos hle]
      apply DnsCall.obeys_quiet_bind (Op.poll zone changeId (pollDelay retries)) trivial
        (fun _ => rfl)
      intro change
      split
      · exact fun _ _ => hsettled
      · exact ih
  | case2 retries slept hle =>
      rw [pollChange, dif_neg hle]
      exact DnsCall.obeys_throw

/-- After its change a call has only to wait. -/
theorem obeys_finish (deletions additions : List RrSet) {reply : Reply Change} :
    Prog.Obeys discipline call.Settles (next s (.change zone deletions additions) reply)
      (finish zone reply).run := by
  unfold finish
  cases hread : readChange reply with
  | error e =>
      intro hok
      cases hok
  | ok change =>
      have hsettled : (next s (.change zone deletions additions) reply).settled ≠ none := by
        simp [next, hread]
      have hwait : Prog.Obeys discipline call.Settles
          (next s (.change zone deletions additions) reply) (waitForChange zone change).run := by
        unfold waitForChange
        split
        · exact fun _ _ => hsettled
        · exact obeys_pollChange hsettled 0 0
      exact hwait

/-- No answer changes what the call is about. -/
theorem next_call (s : DnsLocal (Option RrSet)) (op : Op) (r : op.Answer) :
    (next s op r).call = s.call := by
  unfold next
  split
  · split
    · rfl
    · rfl
  · split
    · rfl
    · rfl
  · rfl

/-- A creation with nothing to change has found its value. -/
theorem mem_of_nothingToChange {seen : Option RrSet} (haction : call.action = .create)
    (h : nothingToChange seen (call.merge quoted (rrdatasOf seen)) = true) :
    quoted call.value ∈ rrdatasOf seen := by
  have hmerge : call.merge quoted (rrdatasOf seen) =
      pushRecord (quoted call.value) (rrdatasOf seen) := by
    simp only [DnsCall.merge, haction]
  rw [hmerge] at h
  have hmem := mem_pushRecord (quoted call.value) (rrdatasOf seen)
  simp only [nothingToChange, Bool.or_eq_true, Bool.and_eq_true, beq_iff_eq] at h
  obtain hsame | ⟨_, hempty⟩ := h
  · cases seen with
    | none => cases hsame
    | some rrset =>
        rw [← Option.some_injective _ hsame] at hmem
        exact hmem
  · rw [hempty] at hmem
    cases hmem

/-- One attempt: read, change, and again on a conflict. -/
theorem obeys_changeAttempt {again : Option (M Unit)} (hcall : s.call = call)
    (hagain : ∀ rest ∈ again, ∀ s' : DnsLocal (Option RrSet), s'.call = call →
      Prog.Obeys discipline call.Settles s' rest.run) :
    Prog.Obeys discipline call.Settles s
      (changeAttempt zone (recordName call.domain) (call.merge quoted) again).run := by
  subst hcall
  unfold changeAttempt
  apply Prog.obeys_request_bind (D := discipline)
  · rfl
  · intro reply seen hread
    have hseen : (next s (.get zone (recordName s.call.domain)) reply).seen =
        some ((zone, recordName s.call.domain), seen) := by simp only [next, hread]
    have hfound : quoted s.call.value ∈ rrdatasOf seen →
        (next s (.get zone (recordName s.call.domain)) reply).settled ≠ none := by
      intro hmem
      simp [next, hread, hmem]
    have hsame := next_call s (.get zone (recordName s.call.domain)) reply
    by_cases hnothing : nothingToChange seen (s.call.merge quoted (rrdatasOf seen)) = true
    · simp only [hnothing, if_true]
      exact fun _ haction => hfound (mem_of_nothingToChange haction hnothing)
    · simp only [hnothing]
      apply Prog.obeys_request_bind (D := discipline)
      · exact ⟨seen, by rw [hsame]; exact hseen, rfl, by rw [hsame],
          by rw [hsame]; exact Bool.eq_false_of_not_eq_true hnothing⟩
      · intro posted reply' hreply
        cases hreply
        have hfinish : ∀ s', Prog.Obeys discipline s.call.Settles
            (next s' (.change zone seen.toList (additionsOf (recordName s.call.domain)
              (s.call.merge quoted (rrdatasOf seen)))) posted) (finish zone posted).run :=
          fun s' => obeys_finish _ _
        cases again with
        | none => exact hfinish _
        | some rest =>
            by_cases hconflict : isConflict posted = true
            · simp only [hconflict, if_true]
              exact hagain rest rfl _ ((next_call _ _ _).trans hsame)
            · simp only [hconflict]
              exact hfinish _
      · intro reply e herror
        cases herror
  · intro reply e _ hok
    cases hok

/-- The attempts, by induction on the retries. -/
theorem obeys_changeLoop (retries : Nat) :
    ∀ s : DnsLocal (Option RrSet), s.call = call → Prog.Obeys discipline call.Settles s
      (changeLoop zone (recordName call.domain) (call.merge quoted) retries).run := by
  induction retries with
  | zero =>
      intro s hcall
      apply obeys_changeAttempt hcall
      intro rest hrest
      cases hrest
  | succ retries ih =>
      intro s hcall
      apply obeys_changeAttempt hcall
      intro rest hrest
      cases hrest
      exact ih

/-- Both calls are a change of the record set by the merge of the call. -/
theorem run_eq (call : DnsCall) :
    run call = (findZone call.domain >>= fun zone =>
      changeRrset zone (recordName call.domain) (call.merge quoted)).run := by
  unfold run
  split
  · rename_i haction
    have hmerge : call.merge quoted = pushRecord (quoted call.value) := by
      funext rrdatas
      simp only [DnsCall.merge, haction]
    rw [hmerge]
    rfl
  · rename_i haction
    have hmerge : call.merge quoted = dropRecord (quoted call.value) := by
      funext rrdatas
      simp only [DnsCall.merge, haction]
    rw [hmerge]
    rfl

/-- A whole call keeps the discipline, and settles the value it creates. -/
theorem obeys_run (call : DnsCall) :
    (run call).Obeys discipline call.Settles ⟨call, none, none⟩ := by
  rw [run_eq]
  apply DnsCall.obeys_quiet_bind Op.zones trivial (fun _ => rfl)
  intro zone
  apply DnsCall.obeys_quiet_bind Op.accessToken trivial (fun _ => rfl)
  intro _
  exact obeys_changeLoop conflictRetries _ rfl

/-! ## How much a call does -/

section Cost

variable {cost : Op → Nat} {other : Nat} {name : DnsName} {merge : List String → List String}

/-- A change costs one at most, and anything else `other`. -/
structure Costs (cost : Op → Nat) (other : Nat) : Prop where
  change : ∀ zone deletions additions, cost (.change zone deletions additions) ≤ 1
  quiet : ∀ op, isWrite op = false → cost op ≤ other

/-- Polling costs no more than the time that is left. -/
theorem within_pollChange (hcost : Costs cost other) {changeId : String} (retries slept : Nat) :
    Prog.Within cost (other * (propagationTimeout - slept))
      (pollChange zone changeId retries slept).run := by
  induction retries, slept using pollChange.induct with
  | case1 retries slept hle ih =>
      rw [pollChange, dif_pos hle]
      have hpos := pollDelay_pos retries
      have hless : 1 + (propagationTimeout - (slept + pollDelay retries)) ≤
          propagationTimeout - slept := by omega
      have hmul := Nat.mul_le_mul_left other hless
      rw [Nat.mul_add, Nat.mul_one] at hmul
      refine Prog.Within.mono ?_ hmul
      apply Prog.Within.bindExcept (Prog.within_request.mono (hcost.quiet _ rfl))
      intro change
      split
      · exact trivial
      · exact ih
  | case2 retries slept hle =>
      rw [pollChange, dif_neg hle]
      exact trivial

/-- Waiting costs no more than the timeout. -/
theorem within_finish (hcost : Costs cost other) {reply : Reply Change} :
    Prog.Within cost (other * propagationTimeout) (finish zone reply).run := by
  unfold finish
  cases hread : readChange reply with
  | error e => exact trivial
  | ok change =>
      have hwait : Prog.Within cost (other * propagationTimeout)
          (waitForChange zone change).run := by
        unfold waitForChange
        split
        · exact trivial
        · exact within_pollChange hcost 0 0
      exact hwait

/-- The cost of one attempt. -/
theorem within_changeAttempt (hcost : Costs cost other) {again : Option (M Unit)} (rest : Nat)
    (hagain : ∀ next ∈ again, Prog.Within cost (rest + other * propagationTimeout) next.run) :
    Prog.Within cost (other + (1 + (rest + other * propagationTimeout)))
      (changeAttempt zone name merge again).run := by
  have hfinish : ∀ reply, Prog.Within cost (rest + other * propagationTimeout)
      (finish zone reply).run := fun reply => (within_finish hcost).mono (Nat.le_add_left _ _)
  unfold changeAttempt
  apply Prog.Within.bindExcept (Prog.within_request.mono (hcost.quiet _ rfl))
  intro seen
  by_cases hnothing : nothingToChange seen (merge (rrdatasOf seen)) = true
  · simp only [hnothing, if_true]
    exact trivial
  · simp only [hnothing]
    apply Prog.Within.bindExcept (Prog.within_request.mono (hcost.change _ _ _))
    intro reply
    cases again with
    | none => exact hfinish reply
    | some next =>
        by_cases hconflict : isConflict reply = true
        · simp only [hconflict, if_true]
          exact hagain next rfl
        · simp only [hconflict]
          exact hfinish reply

/-- The cost of all attempts, by induction on the retries. -/
theorem within_changeLoop (hcost : Costs cost other) (retries : Nat) :
    Prog.Within cost ((retries + 1) * (other + 1) + other * propagationTimeout)
      (changeLoop zone name merge retries).run := by
  induction retries with
  | zero =>
      refine (within_changeAttempt hcost 0 ?_).mono (by omega)
      intro next hnext
      cases hnext
  | succ retries ih =>
      refine (within_changeAttempt hcost ((retries + 1) * (other + 1)) ?_).mono ?_
      · intro next hnext
        cases hnext
        exact ih
      · rw [Nat.succ_mul (retries + 1)]
        omega

/-- The cost of a whole call. -/
theorem within_run (hcost : Costs cost other) (call : DnsCall) :
    (run call).Within cost
      (other + (other + ((conflictRetries + 1) * (other + 1) + other * propagationTimeout))) := by
  rw [run_eq]
  apply Prog.Within.bindExcept (Prog.within_request.mono (hcost.quiet _ rfl))
  intro zone
  apply Prog.Within.bindExcept (Prog.within_request.mono (hcost.quiet _ rfl))
  intro _
  exact within_changeLoop hcost conflictRetries

end Cost

/-! ## Runs of replicas -/

section Runs

variable {Tid : Type} {calls : Tid → DnsCall}

/-- What a call has seen was a record set of the name it asked for. -/
def SeenKeys (locals : Tid → DnsLocal (Option RrSet)) : Prop :=
  ∀ i set rrset, (locals i).seen = some (set, some rrset) → rrset.key = (set.2, "TXT")

/-- An honest reply shows the record set of the server. -/
theorem eq_of_readRrset {current seen : Option RrSet} {reply : Reply (List RrSet)}
    (hhonest : honest current reply) (hread : readRrset reply = .ok seen) : seen = current := by
  cases reply with
  | failed message => cases hread
  | response status text json =>
      simp only [readRrset] at hread
      cases hparse : parseResponse dnsErr status text json with
      | error e =>
          rw [hparse] at hread
          cases hread
      | ok rrsets =>
          rw [hparse] at hread
          cases hread
          obtain ⟨hsuccess, hjson⟩ := isSuccess_of_parseResponse hparse
          rw [hhonest hsuccess rrsets hjson]
          exact Option.head?_toList

/-- A change that is read was made. -/
theorem succeeded_of_readChange {reply : Reply Change} {change : Change}
    (h : readChange reply = .ok change) : succeeded reply = true := by
  cases reply with
  | failed message => cases h
  | response status text json => exact (isSuccess_of_parseResponse h).1

/-- Only a successful change settles a call. -/
theorem next_settled_change {deletions additions : List RrSet} {reply : Reply Change}
    {set : DnsName × DnsName}
    (h : (next s (.change zone deletions additions) reply).settled = some set) :
    s.settled = some set ∨ (set = (zone, recordName s.call.domain) ∧ succeeded reply = true) := by
  simp only [next] at h
  split at h
  · rename_i change hread
    cases h
    exact .inr ⟨rfl, succeeded_of_readChange hread⟩
  · exact .inl h

/-- A change does not alter what the call has read. -/
theorem next_seen_change {deletions additions : List RrSet} {reply : Reply Change} :
    (next s (.change zone deletions additions) reply).seen = s.seen := by
  simp only [next]
  split
  · rfl
  · rfl

/-- A read settles a creation if it finds the value. -/
theorem next_settled_get {name : DnsName} {reply : Reply (List RrSet)} {set : DnsName × DnsName}
    {current : Option RrSet} (hhonest : honest current reply)
    (h : (next s (.get zone name) reply).settled = some set) :
    s.settled = some set ∨ (set = (zone, name) ∧ quoted s.call.value ∈ rrdatasOf current) := by
  simp only [next] at h
  split at h
  · rename_i seen hread
    rw [eq_of_readRrset hhonest hread] at h
    by_cases hmem : quoted s.call.value ∈ rrdatasOf current
    · simp only [hmem, if_true, Option.some.injEq] at h
      exact .inr ⟨h.symm, hmem⟩
    · simp only [hmem, if_false] at h
      exact .inl h
  · exact .inl h

/-- An event that leaves the server alone merges. -/
theorem merges_unchanged {e : Event Tid Op Op.Answer} {server : Server} :
    googleCloudDnsProvider.Merges calls ⟨e, server, server⟩ := fun _ => .inl rfl

section Change

variable {sets : DnsName × String → Option RrSet} {name : DnsName} {seen : Option RrSet}
  {rrdatas : List String}

/-- The server still has what was read when it applies a change made from it. -/
theorem current_of_change (hseen : ∀ rrset, seen = some rrset → rrset.key = (name, "TXT"))
    (hchange : nothingToChange seen rrdatas = false)
    (hdeletions : ∀ rrset ∈ seen.toList, sets rrset.key = some rrset)
    (hadditions : ∀ rrset ∈ additionsOf name rrdatas, sets rrset.key = none ∨
      ∃ deleted ∈ seen.toList, deleted.key = rrset.key) :
    sets (name, "TXT") = seen := by
  cases seen with
  | some rrset =>
      rw [← hseen rrset rfl]
      exact hdeletions rrset (by simp)
  | none =>
      have hsome : rrdatas ≠ [] := by
        intro hempty
        simp [nothingToChange, hempty] at hchange
      obtain habsent | ⟨deleted, hdeleted, _⟩ :=
        hadditions ⟨name, "TXT", txtTtl, rrdatas⟩ (by simp [additionsOf, hsome])
      · exact habsent
      · cases hdeleted

/-- After the change the set has the merged values. -/
theorem rrdatasOf_applyChange (hseen : ∀ rrset, seen = some rrset → rrset.key = (name, "TXT"))
    (hcurrent : sets (name, "TXT") = seen) :
    rrdatasOf (applyChange sets seen.toList (additionsOf name rrdatas) (name, "TXT")) =
      rrdatas := by
  by_cases hempty : rrdatas = []
  · cases seen with
    | none => simp [applyChange, additionsOf, hempty, hcurrent, rrdatasOf]
    | some rrset => simp [applyChange, additionsOf, hempty, hseen rrset rfl, rrdatasOf]
  · simp [applyChange, additionsOf, hempty, RrSet.key, rrdatasOf]

/-- A change leaves the sets of other names alone. -/
theorem applyChange_of_ne (hseen : ∀ rrset, seen = some rrset → rrset.key = (name, "TXT"))
    {key : DnsName × String} (hkey : key ≠ (name, "TXT")) :
    applyChange sets seen.toList (additionsOf name rrdatas) key = sets key := by
  have hadditions : (additionsOf name rrdatas).find? (·.key = key) = none := by
    unfold additionsOf
    split
    · rfl
    · simp [RrSet.key, hkey.symm]
  have hdeletions : seen.toList.any (·.key = key) = false := by
    cases seen with
    | none => rfl
    | some rrset => simp [hseen rrset rfl, hkey.symm]
  simp [applyChange, hadditions, hdeletions]

end Change

variable [DecidableEq Tid]

/-- What the calls have read stays under its names. -/
theorem SeenKeys.update {locals : Tid → DnsLocal (Option RrSet)} (h : SeenKeys locals) {i : Tid}
    {s : DnsLocal (Option RrSet)} (hseen : s.seen = (locals i).seen) :
    SeenKeys (Function.update locals i s) := by
  intro j set rrset hj
  by_cases hij : j = i
  · subst hij
    rw [Function.update_self, hseen] at hj
    exact h j set rrset hj
  · rw [Function.update_of_ne hij] at hj
    exact h j set rrset hj

/-- A record set that is read is stored under the name that was asked for. -/
theorem SeenKeys.get {locals : Tid → DnsLocal (Option RrSet)} (h : SeenKeys locals) {i : Tid}
    {server : Server} {name : DnsName} {reply : Reply (List RrSet)}
    (hhonest : honest (server.sets zone (name, "TXT")) reply) :
    SeenKeys (Function.update locals i (next (locals i) (.get zone name) reply)) := by
  cases hread : readRrset reply with
  | error e => exact h.update (by simp only [next, hread])
  | ok seen =>
      intro j set rrset hj
      by_cases hij : j = i
      · subst hij
        simp only [Function.update_self, next, hread, Option.some.injEq, Prod.mk.injEq] at hj
        obtain ⟨rfl, rfl⟩ := hj
        exact server.key_eq _ _ _ (eq_of_readRrset hhonest hread).symm
      · rw [Function.update_of_ne hij] at hj
        exact h j set rrset hj

/-- **One request of a replica.**  It merges the record sets for its call. -/
theorem step {locals : Tid → DnsLocal (Option RrSet)} {server server' : Server} {i : Tid}
    {op : Op} {r : op.Answer} (hkeys : SeenKeys locals) (hcall : (locals i).call = calls i)
    (hmay : may (locals i) op) (henv : Env op server r server') :
    SeenKeys (Function.update locals i (next (locals i) op r)) ∧
      googleCloudDnsProvider.Merges calls ⟨⟨i, op, r⟩, server, server'⟩ ∧
      ∀ set, (calls i).action = .create → (next (locals i) op r).settled = some set →
        (locals i).settled = some set ∨ googleCloudDnsProvider.Holds (calls i) server' set := by
  cases henv with
  | zones answer => exact ⟨hkeys.update rfl, merges_unchanged, fun _ _ h => .inl h⟩
  | accessToken answer => exact ⟨hkeys.update rfl, merges_unchanged, fun _ _ h => .inl h⟩
  | poll answer => exact ⟨hkeys.update rfl, merges_unchanged, fun _ _ h => .inl h⟩
  | @get _ zone name reply hhonest =>
      refine ⟨hkeys.get hhonest, merges_unchanged, ?_⟩
      intro set _ h
      obtain hold | ⟨rfl, hmem⟩ := next_settled_get hhonest h
      · exact .inl hold
      · right
        rw [hcall] at hmem
        refine ⟨?_, hmem⟩
        rw [← hcall]
        exact hmay
  | changeKept hreply =>
      refine ⟨hkeys.update next_seen_change, merges_unchanged, ?_⟩
      intro set _ h
      obtain hold | ⟨_, hsuccess⟩ := next_settled_change h
      · exact .inl hold
      · rw [hreply] at hsuccess
        cases hsuccess
  | @changeApplied _ _ zone deletions additions reply hreply hdeletions hadditions hsets =>
      obtain ⟨seen, hread, rfl, rfl, hchange⟩ := hmay
      rw [hcall] at hread hchange hadditions hsets
      have hseen : ∀ rrset, seen = some rrset →
          rrset.key = (recordName (calls i).domain, "TXT") := by
        intro rrset hrrset
        exact hkeys i _ rrset (by rw [hread, hrrset])
      have hcurrent := current_of_change hseen hchange hdeletions hadditions
      have hafter : records server' (zone, recordName (calls i).domain) =
          (calls i).merge quoted (records server (zone, recordName (calls i).domain)) := by
        simp only [records, hsets, Function.update_self, hcurrent]
        exact rrdatasOf_applyChange hseen hcurrent
      refine ⟨hkeys.update next_seen_change, ?_, ?_⟩
      · intro set
        by_cases hset : set = (zone, recordName (calls i).domain)
        · subst hset
          exact .inr hafter
        · left
          change records server' set = records server set
          by_cases hzone : set.1 = zone
          · have hname : (set.2, "TXT") ≠ (recordName (calls i).domain, "TXT") := by
              intro hname
              exact hset (Prod.ext hzone (Prod.mk.inj hname).1)
            simp only [records, hsets, hzone, Function.update_self,
              applyChange_of_ne hseen hname]
          · simp only [records, hsets, Function.update_of_ne hzone]
      · intro set hcreate h
        obtain hold | ⟨rfl, _⟩ := next_settled_change h
        · exact .inl hold
        · right
          rw [hcall]
          refine ⟨rfl, ?_⟩
          change quoted (calls i).value ∈ records server' _
          rw [hafter, DnsCall.merge, hcreate]
          exact mem_pushRecord _ _

/-- Writes cost one, everything else nothing. -/
theorem costs_writes : Costs (fun op => if isWrite op then 1 else 0) 0 where
  change _ _ _ := le_refl 1
  quiet op hop := by simp [hop]

/-- Every operation costs one. -/
theorem costs_operations : Costs (fun _ => 1) 1 where
  change _ _ _ := le_refl 1
  quiet _ _ := le_refl 1

/-- **Google Cloud replicas keep each other's values.** -/
theorem keepsValues {server : Server} {t : List (Event Tid Op Op.Answer)}
    {c : googleCloudDnsProvider.Replicas Tid}
    (hrun : googleCloudDnsProvider.Runs (googleCloudDnsProvider.start calls server) t c) :
    googleCloudDnsProvider.KeepsValues calls t c := by
  apply DnsProvider.KeepsValues.of_discipline (J := fun locals _ => SeenKeys locals)
    quoted_injective obeys_run (fun call => (within_run costs_writes call).mono (by decide))
    (fun call => (within_run costs_operations call).mono (by decide)) _ _ hrun
  · intro i set rrset h
    cases h
  · intro locals server i op r server' hJ hcall hmay henv
    obtain ⟨hJ', hmerges, hsettled⟩ := step hJ hcall hmay henv
    exact ⟨hJ', hmerges, next_call _ _ _, hsettled⟩

end Runs

end GoogleDns

end StatusListServer
