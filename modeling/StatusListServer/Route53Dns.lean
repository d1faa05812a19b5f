import StatusListServer.DnsChallenges

/-!
# The Route 53 DNS provider

`challenge/dns01/route53.rs`.  Both calls send one change with a record set of a
single value: a creation upserts it, which replaces the whole set of that name and
type, and a deletion deletes it, which the server does only if the stored set is
exactly the given one.  Unlike the other providers it does not merge.

A sequence of calls keeps the values of other challenges as long as no two of
them are in the set at once (`route53_keeps_values_iff`).
-/

namespace StatusListServer

open Interaction

namespace Route53Dns

/-- A record set of the API. -/
structure ResourceRecordSet where
  name : DnsName
  kind : String
  ttl : Nat
  resourceRecords : List String
deriving DecidableEq, Repr

/-- What is done to a record set. -/
inductive ChangeAction
  | upsert
  | delete
deriving DecidableEq, Repr

/-- The progress of a change. -/
inductive ChangeStatus
  | insync
  | pending
  | unknown (name : String)
deriving DecidableEq, Repr

/-- `TXT_TTL`. -/
def txtTtl : Nat := 60

/-- Seconds before a change is polled for the second time. -/
def propagationInitialDelay : Nat := 2

/-- Seconds after which a change is given up. -/
def propagationTimeout : Nat := 300

/-- An error of this provider. -/
def dnsErr (message : String) : ChallengeError := .dns "route53" message

/-- What the provider calls.  `zones` answers with the names and ids of the hosted
zones the provider has cached, or fetches them; a change is answered with its id,
if that is present; `getChange` has no answer once the timeout is over. -/
inductive Op
  | zones
  | change (zoneId : DnsName) (action : ChangeAction) (recordSet : ResourceRecordSet)
  | getChange (changeId : String)

/-- What the API answers. -/
@[reducible] def Op.Answer : Op → Type
  | .zones => Except String (List (DnsName × DnsName))
  | .change _ _ _ => Except String (Option String)
  | .getChange _ => Option (Except String (Option ChangeStatus))

/-- A call, which may fail. -/
abbrev M := ExceptT ChallengeError (Prog Op Op.Answer)

/-! ## The calls -/

/-- The name of the challenge record. -/
def recordName (domain : DnsName) : DnsName := acmeChallengeLabel ++ domain

/-- The hosted zone of a domain among the known ones. -/
def zoneOf (domain : DnsName) (zones : List (DnsName × DnsName)) : Option DnsName :=
  (findBestMatch (trimEndDots domain) (zones.map fun zone => .new zone.1 zone.2)).map ZoneInfo.id

/-- The zone that covers a domain. -/
def readZone (domain : DnsName) : Except String (List (DnsName × DnsName)) →
    Except ChallengeError DnsName
  | .error message => .error (dnsErr message)
  | .ok zones =>
      match zoneOf domain zones with
      | some id => .ok id
      | none => .error (.zoneNotFound (String.ofList (trimEndDots domain)))

/-- `find_hosted_zone`. -/
def findHostedZone (domain : DnsName) : M DnsName := Prog.request .zones (readZone domain)

/-- A TXT value in its quotes. -/
def quoted (value : String) : String := "\"" ++ value ++ "\""

/-- The record set of a change: the one value. -/
def recordSet (domain : DnsName) (value : String) : ResourceRecordSet :=
  ⟨recordName domain, "TXT", txtTtl, [quoted value]⟩

/-- The identifier of an accepted change. -/
def readChangeId : Except String (Option String) → Except ChallengeError String
  | .error message => .error (dnsErr message)
  | .ok (some id) => .ok id
  | .ok none => .error (dnsErr "Missing Change ID from AWS ChangeResourceRecordSets response")

/-- `change_records`: one record set with the one value. -/
def changeRecords (domain : DnsName) (action : ChangeAction) (value : String) : M String := do
  let zoneId ← findHostedZone domain
  Prog.request (.change zoneId action (recordSet domain value)) readChangeId

/-- Seconds to wait before a poll. -/
def pollDelay (retries : Nat) : Nat :=
  backoffDelay propagationInitialDelay propagationTimeout retries

/-- Waiting takes time. -/
theorem pollDelay_pos (retries : Nat) : 0 < pollDelay retries :=
  backoffDelay_pos (by decide) (by decide) retries

/-- The error when a change takes too long. -/
def timedOut : ChallengeError := dnsErr "DNS propagation timed out after 300s"

/-- A status as an error message shows it. -/
def ChangeStatus.debug : Option ChangeStatus → String
  | none => "None"
  | some .insync => "Some(Insync)"
  | some .pending => "Some(Pending)"
  | some (.unknown name) => s!"Some(Unknown({name}))"

/-- Whether a polled change is served everywhere. -/
def readStatus (changeId : String) : Option (Except String (Option ChangeStatus)) →
    Except ChallengeError Bool
  | none => .error timedOut
  | some (.error message) => .error (dnsErr message)
  | some (.ok (some .insync)) => .ok true
  | some (.ok (some .pending)) => .ok false
  | some (.ok status) => .error (dnsErr
      s!"Unexpected status for change {changeId}: {ChangeStatus.debug status}")

/-- Poll a change until it is served.  The timeout ends the loop at the latest
when it has slept for that long. -/
def waitForPropagation (changeId : String) (retries slept : Nat) : M Unit := do
  if ← Prog.request (.getChange changeId) (readStatus changeId) then
    return ()
  else if _h : slept + pollDelay retries ≤ propagationTimeout then
    waitForPropagation changeId (retries + 1) (slept + pollDelay retries)
  else
    throw timedOut
termination_by propagationTimeout - slept
decreasing_by
  have hpos := pollDelay_pos retries
  omega

/-- `create_txt_record`: upsert and wait. -/
def createTxtRecord (domain : DnsName) (value : String) : M Unit := do
  let changeId ← changeRecords domain .upsert value
  waitForPropagation changeId 0 0

/-- `delete_txt_record`: delete and wait. -/
def deleteTxtRecord (domain : DnsName) (value : String) : M Unit := do
  let _ ← changeRecords domain .delete value
  return ()

/-- The program of a call. -/
def run (call : DnsCall) : Prog Op Op.Answer (Except ChallengeError Unit) :=
  match call.action with
  | .create => (createTxtRecord call.domain call.value).run
  | .delete => (deleteTxtRecord call.domain call.value).run

/-! ## The server -/

/-- What a record set is stored under. -/
def ResourceRecordSet.key (set : ResourceRecordSet) : DnsName × String := (set.name, set.kind)

/-- The hosted zones, their record sets by name and type, and how many changes
the server has considered. -/
structure Server where
  zones : List (DnsName × DnsName)
  sets : DnsName → DnsName × String → Option ResourceRecordSet
  considered : Nat

/-- The server with another record set, and one more change considered. -/
def Server.put (server : Server) (zoneId : DnsName) (key : DnsName × String)
    (set : Option ResourceRecordSet) : Server :=
  { server with
    sets := Function.update server.sets zoneId (Function.update (server.sets zoneId) key set)
    considered := server.considered + 1 }

/-- A change as the server carries it out: an upsert replaces the whole set, a
deletion needs exactly the stored set. -/
def Server.apply (server : Server) (zoneId : DnsName) (set : ResourceRecordSet) :
    ChangeAction → Option Server
  | .upsert => some (server.put zoneId set.key (some set))
  | .delete =>
      if server.sets zoneId set.key = some set then some (server.put zoneId set.key none)
      else none

/-- The key of a challenge record. -/
@[simp] theorem recordSet_key (domain : DnsName) (value : String) :
    (recordSet domain value).key = (recordName domain, "TXT") := rfl

/-- What the server can answer and do.  A request may be lost, and so may the
answer to one that was carried out. -/
inductive Env : (op : Op) → Server → op.Answer → Server → Prop
  | zones {server : Server} : Env .zones server (.ok server.zones) server
  | zonesFailed {server : Server} (message : String) : Env .zones server (.error message) server
  | changeLost {server : Server} {zoneId : DnsName} {action : ChangeAction}
      {set : ResourceRecordSet} (message : String) :
      Env (.change zoneId action set) server (.error message) server
  | changeApplied {server server' : Server} {zoneId : DnsName} {action : ChangeAction}
      {set : ResourceRecordSet} (answer : Except String (Option String))
      (happly : server.apply zoneId set action = some server') :
      Env (.change zoneId action set) server answer server'
  | changeRefused {server : Server} {zoneId : DnsName} {action : ChangeAction}
      {set : ResourceRecordSet} (message : String)
      (happly : server.apply zoneId set action = none) :
      Env (.change zoneId action set) server (.error message)
        { server with considered := server.considered + 1 }
  | getChange {server : Server} {changeId : String}
      (answer : Option (Except String (Option ChangeStatus))) :
      Env (.getChange changeId) server answer server

/-- The challenge record set of a domain. -/
def Server.stored (server : Server) (domain : DnsName) : Option ResourceRecordSet :=
  (zoneOf domain server.zones).bind fun zoneId => server.sets zoneId (recordName domain, "TXT")

/-- The values of a set that may be missing. -/
def valuesOf : Option ResourceRecordSet → List String
  | some set => set.resourceRecords
  | none => []

/-- The values of the challenge record of a domain. -/
def Server.values (server : Server) (domain : DnsName) : List String :=
  valuesOf (server.stored domain)

/-! ## Sequences of calls -/

/-- A call that has been performed. -/
structure Performed where
  call : DnsCall
  before : Server
  result : Except ChallengeError Unit
  after : Server

/-- Calls for one domain, one after the other. -/
inductive Sequence (domain : DnsName) (server₀ : Server) : List Performed → Server → Prop
  | nil : Sequence domain server₀ [] server₀
  | snoc {done : List Performed} {server server' : Server} {call : DnsCall}
      {result : Except ChallengeError Unit} (hseq : Sequence domain server₀ done server)
      (hdomain : call.domain = domain)
      (hcall : (run call).Reaches Env server (.ret result) server') :
      Sequence domain server₀ (done ++ [⟨call, server, result, server'⟩]) server'

/-- The call keeps other values: a successful creation adds its value to the ones
that were there, and a deletion the server has considered removes exactly its
value. -/
def Keeps (call : DnsCall) (before : Server) (result : Except ChallengeError Unit)
    (after : Server) : Prop :=
  match call.action with
  | .create => result = .ok () → quoted call.value ∈ after.values call.domain ∧
      ∀ r ∈ before.values call.domain, r ∈ after.values call.domain
  | .delete => after.considered ≠ before.considered →
      ∀ r, r ∈ after.values call.domain ↔ r ∈ before.values call.domain ∧ r ≠ quoted call.value

/-- Nothing but the value of a creation is in the set before it, and a deletion
finds its value alone in the set, as a creation has left it, or not at all. -/
def Alone (call : DnsCall) (server : Server) : Prop :=
  match call.action with
  | .create => ∀ r ∈ server.values call.domain, r = quoted call.value
  | .delete => quoted call.value ∉ server.values call.domain ∨
      server.stored call.domain = some (recordSet call.domain call.value)

/-! ## What a call does -/

/-- Nothing happened, or the server carried out or refused the change. -/
inductive Outcome (call : DnsCall) (action : ChangeAction) (server : Server) :
    Except ChallengeError Unit → Server → Prop
  | idle {result : Except ChallengeError Unit} (hresult : result ≠ .ok ()) :
      Outcome call action server result server
  | applied {result : Except ChallengeError Unit} {server' : Server} {zoneId : DnsName}
      (hzone : zoneOf call.domain server.zones = some zoneId)
      (happly : server.apply zoneId (recordSet call.domain call.value) action = some server') :
      Outcome call action server result server'
  | refused {result : Except ChallengeError Unit} {zoneId : DnsName}
      (hzone : zoneOf call.domain server.zones = some zoneId) (hresult : result ≠ .ok ())
      (happly : server.apply zoneId (recordSet call.domain call.value) action = none) :
      Outcome call action server result { server with considered := server.considered + 1 }

variable {call : DnsCall} {server : Server}

/-- A failure is no success. -/
theorem error_ne_ok {e : ChallengeError} : (.error e : Except ChallengeError Unit) ≠ .ok () := by
  intro h
  cases h

/-- The server has carried out the change, or the call fails. -/
def changed (call : DnsCall) (action : ChangeAction) (server : Server)
    (x : Except ChallengeError String) (server' : Server) : Prop :=
  match x with
  | .ok _ => ∀ result, Outcome call action server result server'
  | .error e => Outcome call action server (.error e) server'

/-- A change is made, or the call fails with the records as they were. -/
theorem sure_changeRecords {action : ChangeAction} :
    Prog.Sure Env (fun _ => True) (changed call action server)
      (changeRecords call.domain action call.value).run server := by
  have hzones : Prog.Sure Env (fun _ => True) (fun x server' => server' = server ∧
      ∀ zoneId, x = .ok zoneId → zoneOf call.domain server.zones = some zoneId)
      (findHostedZone call.domain).run server := by
    apply Prog.sure_request
    intro answer server' henv
    cases henv with
    | zonesFailed message =>
        refine ⟨trivial, rfl, ?_⟩
        intro zoneId hread
        cases hread
    | zones =>
        refine ⟨trivial, rfl, ?_⟩
        intro zoneId hread
        simp only [readZone] at hread
        split at hread
        · rename_i id hid
          cases hread
          exact hid
        · cases hread
  apply Prog.Sure.bindExcept hzones
  · intro zoneId server' h
    obtain ⟨rfl, hzone⟩ := h
    apply Prog.sure_request
    intro answer server' henv
    cases henv with
    | changeLost message => exact ⟨trivial, .idle error_ne_ok⟩
    | changeApplied answer happly =>
        refine ⟨trivial, ?_⟩
        unfold changed
        split
        · exact fun _ => .applied (hzone zoneId rfl) happly
        · exact .applied (hzone zoneId rfl) happly
    | changeRefused message happly =>
        exact ⟨trivial, .refused (hzone zoneId rfl) error_ne_ok happly⟩
  · intro e server' h
    obtain ⟨rfl, _⟩ := h
    exact .idle error_ne_ok

/-- Waiting changes no record, by induction on the polls. -/
theorem sure_waitForPropagation {changeId : String}
    {post : Except ChallengeError Unit → Server → Prop} (hpost : ∀ result, post result server)
    (retries slept : Nat) :
    Prog.Sure Env (fun _ => True) post (waitForPropagation changeId retries slept).run server := by
  induction retries, slept using waitForPropagation.induct with
  | case1 retries slept ih =>
      rw [waitForPropagation]
      have hpoll : Prog.Sure Env (fun _ => True) (fun _ server' => server' = server)
          (Prog.request (.getChange changeId) (readStatus changeId) : M Bool).run server := by
        apply Prog.sure_request
        intro answer server' henv
        cases henv with
        | getChange answer => exact ⟨trivial, rfl⟩
      apply Prog.Sure.bindExcept hpoll
      · intro served server' h
        subst h
        split
        · exact hpost _
        · split
          · rename_i hle
            exact ih hle
          · exact hpost _
      · intro e server' h
        subst h
        exact hpost _

/-- The change an action makes. -/
def changeOf : DnsAction → ChangeAction
  | .create => .upsert
  | .delete => .delete

/-- How a call that has returned has ended. -/
theorem outcome_of_reaches {result : Except ChallengeError Unit} {server' : Server}
    (h : (run call).Reaches Env server (.ret result) server') :
    Outcome call (changeOf call.action) server result server' := by
  have hsure : (run call).Sure Env (fun _ => True) (Outcome call (changeOf call.action) server)
      server := by
    unfold run
    split
    · rename_i haction
      rw [haction]
      apply Prog.Sure.bindExcept sure_changeRecords
      · intro id server' h
        exact sure_waitForPropagation h 0 0
      · intro e server' h
        exact h
    · rename_i haction
      rw [haction]
      apply Prog.Sure.bindExcept sure_changeRecords
      · intro id server' h
        exact h _
      · intro e server' h
        exact h
  exact (Prog.Sure.reaches h hsure trivial).2

/-! ## When a call keeps the values -/

section Stored

variable {domain zoneId : DnsName}

/-- A record set that is put is stored. -/
theorem stored_put (hzone : zoneOf domain server.zones = some zoneId)
    (set : Option ResourceRecordSet) :
    (server.put zoneId (recordName domain, "TXT") set).stored domain = set := by
  simp [Server.stored, Server.put, hzone]

/-- The record set of a domain is in the zone that covers it. -/
theorem stored_eq (hzone : zoneOf domain server.zones = some zoneId) :
    server.stored domain = server.sets zoneId (recordName domain, "TXT") := by
  simp [Server.stored, hzone]

/-- An upsert replaces the set. -/
theorem stored_upsert (hzone : zoneOf domain server.zones = some zoneId) {value : String}
    {server' : Server}
    (happly : server.apply zoneId (recordSet domain value) .upsert = some server') :
    server'.stored domain = some (recordSet domain value) := by
  cases happly
  exact stored_put hzone _

/-- A deletion that is carried out finds exactly its set and leaves none. -/
theorem stored_delete (hzone : zoneOf domain server.zones = some zoneId) {value : String}
    {server' : Server}
    (happly : server.apply zoneId (recordSet domain value) .delete = some server') :
    server.stored domain = some (recordSet domain value) ∧ server'.stored domain = none := by
  simp only [Server.apply] at happly
  split at happly
  · rename_i hstored
    cases happly
    exact ⟨(stored_eq hzone).trans hstored, stored_put hzone _⟩
  · cases happly

/-- A deletion is refused unless it finds exactly its set. -/
theorem stored_refused (hzone : zoneOf domain server.zones = some zoneId) {value : String} :
    server.apply zoneId (recordSet domain value) .delete = none ↔
      server.stored domain ≠ some (recordSet domain value) := by
  rw [stored_eq hzone]
  simp only [Server.apply]
  split
  · rename_i hstored
    simpa using hstored
  · rename_i hstored
    simpa using hstored

end Stored

/-- A challenge record has the one value. -/
theorem mem_valuesOf_recordSet {domain : DnsName} {value r : String} :
    r ∈ valuesOf (some (recordSet domain value)) ↔ r = quoted value := by
  simp [valuesOf, recordSet]

/-- **One call.**  A call that finds no other values keeps them. -/
theorem keeps_of_outcome {result : Except ChallengeError Unit} {server' : Server}
    (halone : Alone call server)
    (h : Outcome call (changeOf call.action) server result server') :
    Keeps call server result server' := by
  unfold Keeps
  unfold Alone at halone
  split
  · rename_i haction
    simp only [haction] at halone
    rw [haction] at h
    intro hok
    cases h with
    | idle hresult => exact absurd hok hresult
    | refused hzone hresult happly => exact absurd hok hresult
    | applied hzone happly =>
        simp only [Server.values, stored_upsert hzone happly, mem_valuesOf_recordSet, true_and]
        exact halone
  · rename_i haction
    simp only [haction] at halone
    rw [haction] at h
    intro hconsidered r
    cases h with
    | idle hresult => exact absurd rfl hconsidered
    | applied hzone happly =>
        obtain ⟨hbefore, hafter⟩ := stored_delete hzone happly
        simp [Server.values, hbefore, hafter, recordSet, valuesOf]
    | refused hzone hresult happly =>
        have habsent : quoted call.value ∉ server.values call.domain := by
          obtain habsent | hstored := halone
          · exact habsent
          · exact absurd hstored ((stored_refused hzone).mp happly)
        change r ∈ server.values call.domain ↔ _
        constructor
        · intro hr
          refine ⟨hr, ?_⟩
          intro heq
          rw [heq] at hr
          exact habsent hr
        · exact fun h => h.1

/-- A server that answers every request and is done with a change at once. -/
def answer : (op : Op) → Server → op.Answer × Server
  | .zones, server => (.ok server.zones, server)
  | .change zoneId action set, server =>
      match server.apply zoneId set action with
      | some server' => (.ok (some "1"), server')
      | none => (.error "InvalidChangeBatch", { server with considered := server.considered + 1 })
  | .getChange _, server => (some (.ok (some .insync)), server)

/-- The sample server answers as a server may. -/
theorem answer_allowed (op : Op) (server : Server) :
    Env op server (answer op server).1 (answer op server).2 := by
  cases op with
  | zones => exact .zones
  | getChange changeId => exact .getChange _
  | change zoneId action set =>
      simp only [answer]
      split
      · rename_i server' happly
        exact .changeApplied _ happly
      · rename_i happly
        exact .changeRefused _ happly

/-- A change on the sample server. -/
theorem exec_changeRecords {action : ChangeAction} {domain zoneId : DnsName} {value : String}
    (hzone : zoneOf domain server.zones = some zoneId) :
    (changeRecords domain action value).run.exec answer server =
      match server.apply zoneId (recordSet domain value) action with
      | some server' => (.ok "1", server')
      | none => (.error (dnsErr "InvalidChangeBatch"),
          { server with considered := server.considered + 1 }) := by
  unfold changeRecords findHostedZone
  rw [Prog.exec_bindExcept, Prog.exec_request]
  simp only [answer, readZone, hzone, Prog.exec_request]
  split
  · rfl
  · rfl

/-- The sample server has propagated a change at once. -/
theorem exec_waitForPropagation {changeId : String} :
    (waitForPropagation changeId 0 0).run.exec answer server = (.ok (), server) := by
  rw [waitForPropagation, Prog.exec_bindExcept, Prog.exec_request]
  rfl

/-- A creation on the sample server. -/
theorem exec_createTxtRecord {domain zoneId : DnsName} {value : String}
    (hzone : zoneOf domain server.zones = some zoneId) :
    (createTxtRecord domain value).run.exec answer server =
      (.ok (), server.put zoneId (recordName domain, "TXT") (some (recordSet domain value))) := by
  unfold createTxtRecord
  rw [Prog.exec_bindExcept, exec_changeRecords hzone]
  exact exec_waitForPropagation

/-- A deletion on the sample server. -/
theorem exec_deleteTxtRecord {domain zoneId : DnsName} {value : String}
    (hzone : zoneOf domain server.zones = some zoneId)
    (hstored : server.stored domain = some (recordSet domain value)) :
    (deleteTxtRecord domain value).run.exec answer server =
      (.ok (), server.put zoneId (recordName domain, "TXT") none) := by
  rw [stored_eq hzone] at hstored
  have happly : server.apply zoneId (recordSet domain value) .delete =
      some (server.put zoneId (recordName domain, "TXT") none) := if_pos hstored
  unfold deleteTxtRecord
  rw [Prog.exec_bindExcept, exec_changeRecords hzone, happly]
  rfl

/-- A deletion of another record set is refused. -/
theorem exec_deleteTxtRecord_refused {domain zoneId : DnsName} {value : String}
    (hzone : zoneOf domain server.zones = some zoneId)
    (hstored : server.stored domain ≠ some (recordSet domain value)) :
    (deleteTxtRecord domain value).run.exec answer server =
      (.error (dnsErr "InvalidChangeBatch"),
        { server with considered := server.considered + 1 }) := by
  unfold deleteTxtRecord
  rw [Prog.exec_bindExcept, exec_changeRecords hzone, (stored_refused hzone).mpr hstored]

/-- **The converse.**  A call that finds other values can lose them, or leave its
own. -/
theorem exists_not_keeps (h : ¬ Alone call server) :
    ∃ result server', (run call).Reaches Env server (.ret result) server' ∧
      ¬ Keeps call server result server' := by
  refine ⟨_, _, Prog.reaches_exec answer_allowed (run call) server, ?_⟩
  have hzone : ∀ r ∈ server.values call.domain, ∃ zoneId,
      zoneOf call.domain server.zones = some zoneId := by
    intro r hr
    cases hzone : zoneOf call.domain server.zones with
    | some zoneId => exact ⟨zoneId, rfl⟩
    | none =>
        simp only [Server.values, Server.stored, hzone] at hr
        cases hr
  unfold Alone at h
  unfold Keeps run
  split
  · rename_i haction
    simp only [haction, not_forall] at h
    obtain ⟨r, hr, hne⟩ := h
    obtain ⟨zoneId, hzone⟩ := hzone r hr
    rw [exec_createTxtRecord hzone]
    intro hkeeps
    have hmem := (hkeeps rfl).2 r hr
    rw [Server.values, stored_put hzone, mem_valuesOf_recordSet] at hmem
    exact hne hmem
  · rename_i haction
    simp only [haction, not_or, not_not] at h
    obtain ⟨hmem, hstored⟩ := h
    obtain ⟨zoneId, hzone⟩ := hzone _ hmem
    rw [exec_deleteTxtRecord_refused hzone hstored]
    intro hkeeps
    have hgone := (hkeeps (Nat.succ_ne_self _) _).mp hmem
    exact hgone.2 rfl

end Route53Dns

open Route53Dns

/-- Every performed call keeps the values of other challenges; a deletion counts
if its value was created before. -/
def KeepsOthers (done : List Performed) : Prop :=
  ∀ earlier p later, done = earlier ++ p :: later →
    (p.call.action = .delete →
      ∃ q ∈ earlier, q.call.action = .create ∧ q.call.value = p.call.value) →
    Keeps p.call p.before p.result p.after

/-- If every call of a sequence is alone, every call keeps the values of others. -/
theorem Route53Dns.Sequence.keeps {domain : DnsName} {server₀ server : Server}
    {done : List Performed} (h : Sequence domain server₀ done server)
    (halone : ∀ p ∈ done, Alone p.call p.before) :
    ∀ p ∈ done, Keeps p.call p.before p.result p.after := by
  induction h with
  | nil =>
      intro p hp
      cases hp
  | snoc _ hdomain hcall ih =>
      intro p hp
      obtain hearlier | hlast := List.mem_append.mp hp
      · exact ih (fun q hq => halone q (List.mem_append_left _ hq)) p hearlier
      · have hpalone := halone p hp
        rw [List.mem_singleton.mp hlast] at hpalone ⊢
        exact keeps_of_outcome hpalone (outcome_of_reaches hcall)

/-- **When Route 53 keeps the values of other challenges.**  In every sequence of
calls that find no other values in the set, all values are kept; and a call keeps
them in all its executions exactly when it finds no others. -/
theorem route53_keeps_values_iff (domain : DnsName) :
    (∀ server₀ done server, Sequence domain server₀ done server →
      (∀ p ∈ done, Alone p.call p.before) → KeepsOthers done) ∧
    ∀ call server, (∀ result server',
      (Route53Dns.run call).Reaches Env server (.ret result) server' →
        Keeps call server result server') ↔ Alone call server := by
  constructor
  · intro server₀ done server hseq halone earlier p later hdone _
    apply hseq.keeps halone p
    rw [hdone]
    exact List.mem_append_right _ List.mem_cons_self
  · intro call server
    constructor
    · intro hkeeps
      by_contra hother
      obtain ⟨result, server', hreach, hlost⟩ := exists_not_keeps hother
      exact hlost (hkeeps result server' hreach)
    · intro halone result server' hreach
      exact keeps_of_outcome halone (outcome_of_reaches hreach)

/-! ## Two challenges for one domain -/

/-- A hosted zone without record sets. -/
def emptyZone : Server := ⟨[(exampleCom, ['Z'])], fun _ _ => none, 0⟩

/-- The zone of the sample domain. -/
theorem zoneOf_exampleCom {server : Server} (h : server.zones = [(exampleCom, ['Z'])]) :
    zoneOf exampleCom server.zones = some ['Z'] := by
  rw [h]
  decide

/-- The zone after a value was created. -/
def withValue (server : Server) (value : String) : Server :=
  server.put ['Z'] (recordName exampleCom, "TXT") (some (recordSet exampleCom value))

/-- The values of the sample record. -/
theorem mem_withValue {server : Server} (h : server.zones = [(exampleCom, ['Z'])])
    {value r : String} : r ∈ (withValue server value).values exampleCom ↔ r = quoted value := by
  rw [Server.values, withValue, stored_put (zoneOf_exampleCom h), mem_valuesOf_recordSet]

/-- A creation of the sample value. -/
theorem reaches_create {server : Server} (h : server.zones = [(exampleCom, ['Z'])])
    (value : String) :
    (Route53Dns.run ⟨.create, exampleCom, value⟩).Reaches Env server (.ret (.ok ()))
      (withValue server value) := by
  have hreach := Prog.reaches_exec answer_allowed
    (Route53Dns.run ⟨.create, exampleCom, value⟩) server
  have hexec : (Route53Dns.run ⟨.create, exampleCom, value⟩).exec answer server =
      (.ok (), withValue server value) := exec_createTxtRecord (zoneOf_exampleCom h)
  rwa [hexec] at hreach

/-- A deletion of the sample value. -/
theorem reaches_delete (value : String) :
    (Route53Dns.run ⟨.delete, exampleCom, value⟩).Reaches Env (withValue emptyZone value)
      (.ret (.ok ()))
      ((withValue emptyZone value).put ['Z'] (recordName exampleCom, "TXT") none) := by
  have hzone : zoneOf exampleCom emptyZone.zones = some ['Z'] := zoneOf_exampleCom rfl
  have hreach := Prog.reaches_exec answer_allowed
    (Route53Dns.run ⟨.delete, exampleCom, value⟩) (withValue emptyZone value)
  have hexec : (Route53Dns.run ⟨.delete, exampleCom, value⟩).exec answer
      (withValue emptyZone value) = (.ok (), (withValue emptyZone value).put ['Z']
        (recordName exampleCom, "TXT") none) :=
    exec_deleteTxtRecord hzone (stored_put hzone _)
  rwa [hexec] at hreach

/-- One challenge after the other keeps its value until it is deleted. -/
theorem route53_keeps_values_iff_sample :
    ∃ done server, Sequence exampleCom emptyZone done server ∧ done.length = 2 ∧
      (∀ p ∈ done, p.result = .ok ()) ∧ KeepsOthers done := by
  have hcreate := Sequence.snoc (.nil : Sequence exampleCom emptyZone [] emptyZone) rfl
    (reaches_create rfl "one")
  have hdelete := Sequence.snoc hcreate rfl (reaches_delete "one")
  refine ⟨_, _, hdelete, rfl, ?_, (route53_keeps_values_iff exampleCom).1 _ _ _ hdelete ?_⟩
  · intro p hp
    simp only [List.nil_append, List.cons_append, List.mem_cons, List.not_mem_nil, or_false] at hp
    obtain rfl | rfl := hp
    · rfl
    · rfl
  · intro p hp
    simp only [List.nil_append, List.cons_append, List.mem_cons, List.not_mem_nil, or_false] at hp
    obtain rfl | rfl := hp
    · intro r hr
      cases hr
    · exact .inr (stored_put (zoneOf_exampleCom rfl) _)

/-- The second of two challenges for a domain drops the value of the first. -/
theorem second_challenge_drops_first :
    ∃ done server, Sequence exampleCom emptyZone done server ∧
      (∀ p ∈ done, p.result = .ok ()) ∧ ¬ KeepsOthers done := by
  have hfirst := Sequence.snoc (.nil : Sequence exampleCom emptyZone [] emptyZone) rfl
    (reaches_create rfl "one")
  have hsecond := Sequence.snoc hfirst rfl (reaches_create rfl "two")
  refine ⟨_, _, hsecond, ?_, ?_⟩
  · intro p hp
    simp only [List.nil_append, List.cons_append, List.mem_cons, List.not_mem_nil, or_false] at hp
    obtain rfl | rfl := hp
    · rfl
    · rfl
  · intro hkeeps
    have hlast := hkeeps _ _ [] rfl (fun haction => by cases haction)
    have hone : quoted "one" ∈ (withValue emptyZone "one").values exampleCom :=
      (mem_withValue rfl).mpr rfl
    have htwo := (mem_withValue rfl).mp ((hlast rfl).2 _ hone)
    exact absurd htwo (by decide)

end StatusListServer
