import StatusListServer.DnsChallenges

/-!
# The Azure DNS provider

`challenge/dns01/azure.rs`.  A PUT replaces a whole record set, so both calls read
the set, merge it, and write it back under a precondition on its etag; a refused
write is tried again from the read.

The server keeps every version a record set ever had.  Two versions with one etag
are the same, so a write under the etag of a read finds the values that were read.
-/

namespace StatusListServer

open Interaction

namespace AzureDns

/-- A TXT record, whose texts are joined. -/
structure TxtRecord where
  value : List String
deriving DecidableEq, Repr

/-- The properties of a record set. -/
structure RecordSetProperties where
  ttl : Nat
  txtRecords : List TxtRecord
deriving DecidableEq, Repr

/-- A record set of the API. -/
structure RecordSet where
  etag : Option String
  properties : RecordSetProperties
deriving DecidableEq, Repr

/-- Concurrency guard for record set writes. -/
inductive Precondition
  | ifMatch (etag : String)
  | ifNoneMatch
  | none
deriving DecidableEq, Repr

/-- `TXT_TTL`. -/
def txtTtl : Nat := 60

/-- `CONFLICT_RETRIES`. -/
def conflictRetries : Nat := 3

/-- An error of this provider. -/
def dnsErr (message : String) : ChallengeError := .dns "azure" message

/-- What the provider calls.  `zones` answers with the names of the zones the
provider has cached, or fetches them. -/
inductive Op
  | zones
  | accessToken
  | get (zone name : DnsName)
  | put (zone name : DnsName) (recordSet : RecordSet) (precondition : Precondition)
  | delete (zone name : DnsName) (precondition : Precondition)
  | sleep

/-- What the API answers. -/
@[reducible] def Op.Answer : Op → Type
  | .zones => Except ChallengeError (List DnsName)
  | .accessToken => Except ChallengeError Unit
  | .get _ _ => Reply RecordSet
  | .put _ _ _ _ => Reply Unit
  | .delete _ _ _ => Reply Unit
  | .sleep => Unit

/-- A call, which may fail. -/
abbrev M := ExceptT ChallengeError (Prog Op Op.Answer)

/-! ## Requests -/

/-- The name of the challenge record. -/
def recordName (domain : DnsName) : DnsName := acmeChallengeLabel ++ trimEndDots domain

/-- The name of the challenge record of a domain relative to a zone. -/
def relativeName (zone domain : DnsName) : DnsName :=
  (stripSuffix ('.' :: zone) (recordName domain)).getD (recordName domain)

/-- The zone of a domain among the known ones. -/
def zoneOf (domain : DnsName) (names : List DnsName) : Except ChallengeError DnsName :=
  match findBestMatch (trimEndDots domain) (names.map fun name => .new name name) with
  | some zone => .ok zone.name
  | none => .error (.zoneNotFound (String.ofList (trimEndDots domain)))

/-- The zone that covers a domain. -/
def findZone (domain : DnsName) : M DnsName :=
  Prog.request .zones fun answer => answer.bind (zoneOf domain)

/-- `access_token`. -/
def accessToken : M Unit := Prog.request .accessToken id

/-- The record set of a reply; 404 means none. -/
def readRecordSet : Reply RecordSet → Except ChallengeError (Option RecordSet)
  | .failed message => .error (dnsErr message)
  | .response status text json =>
      if status.code = 404 then .ok none
      else (parseResponse dnsErr status text json).map some

/-- Fetch the existing TXT record set, if any. -/
def getRecordSet (zone name : DnsName) : M (Option RecordSet) :=
  Prog.request (.get zone name) readRecordSet

/-- Whether a put was applied; 412 means that its precondition failed. -/
def putApplied : Reply Unit → Except ChallengeError Bool
  | .failed message => .error (dnsErr message)
  | .response status text json =>
      if status.code = 412 then .ok false
      else (parseResponse dnsErr status text json).map fun _ => true

/-- Write the record set under the given precondition; false when it failed. -/
def putRecordSet (zone name : DnsName) (records : List TxtRecord) (precondition : Precondition) :
    M Bool :=
  Prog.request (.put zone name ⟨none, txtTtl, records⟩ precondition) putApplied

/-- Whether a deletion was applied; a record set that is gone counts. -/
def deleteApplied : Reply Unit → Except ChallengeError Bool
  | .failed message => .error (dnsErr message)
  | .response status text _ =>
      if status.code = 412 then .ok false
      else if status.isSuccess || status.code = 404 then .ok true
      else .error (dnsErr s!"Failed to delete record set (status {status}): {text}")

/-- Delete the whole record set under the given precondition; false when it
failed. -/
def deleteRecordSet (zone name : DnsName) (precondition : Precondition) : M Bool :=
  Prog.request (.delete zone name precondition) deleteApplied

/-! ## The two calls -/

/-- The guard of a write after a read. -/
def preconditionOf : Option RecordSet → Precondition
  | some existing =>
      match existing.etag with
      | some etag => .ifMatch etag
      | none => .none
  | none => .ifNoneMatch

/-- The records of a set that may be missing. -/
def recordsOf : Option RecordSet → List TxtRecord
  | some existing => existing.properties.txtRecords
  | none => []

/-- The record of a value. -/
def record (value : String) : TxtRecord := ⟨[value]⟩

/-- The error after the last retry. -/
def keptBeingModified (domain : DnsName) : ChallengeError :=
  dnsErr s!"Record set {String.ofList (recordName domain)} kept being modified concurrently"

/-- One pass of the loop of a creation. -/
def createAttempt (zone name : DnsName) (value : String) (onConflict : M Unit) : M Unit := do
  let existing ← getRecordSet zone name
  let records := pushRecord (record value) (recordsOf existing)
  if ← putRecordSet zone name records (preconditionOf existing) then
    return ()
  else
    onConflict

/-- The loop of a creation, with the retries that are left. -/
def createLoop (zone : DnsName) (domain : DnsName) (value : String) : Nat → M Unit
  | 0 => createAttempt zone (relativeName zone domain) value (throw (keptBeingModified domain))
  | retries + 1 =>
      createAttempt zone (relativeName zone domain) value (createLoop zone domain value retries)

/-- `create_txt_record`. -/
def createTxtRecord (domain : DnsName) (value : String) : M Unit := do
  let zone ← findZone domain
  accessToken
  createLoop zone domain value conflictRetries
  Prog.request .sleep .ok

/-- One pass of the loop of a deletion. -/
def deleteAttempt (zone name : DnsName) (value : String) (onConflict : M Unit) : M Unit := do
  match ← getRecordSet zone name with
  | none => return ()
  | some existing =>
      let records := dropRecord (record value) existing.properties.txtRecords
      let applied ←
        if records = [] then deleteRecordSet zone name (preconditionOf (some existing))
        else putRecordSet zone name records (preconditionOf (some existing))
      if applied then
        return ()
      else
        onConflict

/-- The loop of a deletion, with the retries that are left. -/
def deleteLoop (zone : DnsName) (domain : DnsName) (value : String) : Nat → M Unit
  | 0 => deleteAttempt zone (relativeName zone domain) value (throw (keptBeingModified domain))
  | retries + 1 =>
      deleteAttempt zone (relativeName zone domain) value (deleteLoop zone domain value retries)

/-- `delete_txt_record`. -/
def deleteTxtRecord (domain : DnsName) (value : String) : M Unit := do
  let zone ← findZone domain
  accessToken
  deleteLoop zone domain value conflictRetries

/-- The program of a call. -/
def run (call : DnsCall) : Prog Op Op.Answer (Except ChallengeError Unit) :=
  match call.action with
  | .create => (createTxtRecord call.domain call.value).run
  | .delete => (deleteTxtRecord call.domain call.value).run

/-! ## The server -/

/-- A record set and all the versions it has had.  Every version has an etag, and
versions with one etag are the same. -/
structure Slot where
  current : Option RecordSet
  versions : List RecordSet
  current_mem : ∀ rs, current = some rs → rs ∈ versions
  etag_ne : ∀ rs ∈ versions, rs.etag ≠ none
  etag_inj : ∀ rs ∈ versions, ∀ rs' ∈ versions, rs.etag = rs'.etag → rs = rs'

/-- The record sets by zone and name. -/
abbrev Server := DnsName × DnsName → Slot

/-- Whether a precondition holds of a record set. -/
def met (current : Option RecordSet) : Precondition → Prop
  | .ifMatch etag => ∃ rs, current = some rs ∧ rs.etag = some etag
  | .ifNoneMatch => current = none
  | .none => True

/-- A reply to a read that tells the truth if it tells anything. -/
def honest (current : Option RecordSet) : Reply RecordSet → Prop
  | .failed _ => True
  | .response status _ json =>
      (status.code = 404 → current = none) ∧
      (status.isSuccess = true → ∀ rs, json = .ok rs → current = some rs)

/-- Whether a write was applied. -/
def succeeded : Reply Unit → Bool
  | .failed _ => false
  | .response status _ _ => status.isSuccess

/-- Whether the precondition of a write failed. -/
def refused : Reply Unit → Bool
  | .failed _ => false
  | .response status _ _ => status.code == 412

/-- What the server can answer and do.  It applies a write only under its
precondition; it may refuse one, and the answer to one it applied may be lost. -/
inductive Env : (op : Op) → Server → op.Answer → Server → Prop
  | zones {server : Server} (answer : Except ChallengeError (List DnsName)) :
      Env .zones server answer server
  | accessToken {server : Server} (answer : Except ChallengeError Unit) :
      Env .accessToken server answer server
  | sleep {server : Server} : Env .sleep server () server
  | get {server : Server} {zone name : DnsName} {reply : Reply RecordSet}
      (hhonest : honest (server (zone, name)).current reply) :
      Env (.get zone name) server reply server
  | putKept {server : Server} {zone name : DnsName} {recordSet : RecordSet}
      {precondition : Precondition} {reply : Reply Unit} (hreply : succeeded reply = false) :
      Env (.put zone name recordSet precondition) server reply server
  | putApplied {server : Server} {zone name : DnsName} {recordSet : RecordSet}
      {precondition : Precondition} {reply : Reply Unit} {slot : Slot} {etag : String}
      (hprecondition : met (server (zone, name)).current precondition)
      (hreply : refused reply = false)
      (hcurrent : slot.current = some ⟨some etag, recordSet.properties⟩)
      (hversions : slot.versions =
        ⟨some etag, recordSet.properties⟩ :: (server (zone, name)).versions) :
      Env (.put zone name recordSet precondition) server reply
        (Function.update server (zone, name) slot)
  | deleteKept {server : Server} {zone name : DnsName} {precondition : Precondition}
      {reply : Reply Unit}
      (hreply : succeeded reply = false ∨ (server (zone, name)).current = none) :
      Env (.delete zone name precondition) server reply server
  | deleteApplied {server : Server} {zone name : DnsName} {precondition : Precondition}
      {reply : Reply Unit} {slot : Slot}
      (hprecondition : met (server (zone, name)).current precondition)
      (hreply : refused reply = false) (hcurrent : slot.current = none)
      (hversions : slot.versions = (server (zone, name)).versions) :
      Env (.delete zone name precondition) server reply
        (Function.update server (zone, name) slot)

/-- The records of the record set of a name. -/
def records (server : Server) (set : DnsName × DnsName) : List TxtRecord :=
  recordsOf (server set).current

/-- Whether an operation writes. -/
def isWrite : Op → Bool
  | .put _ _ _ _ => true
  | .delete _ _ _ => true
  | _ => false

end AzureDns

/-- The Azure DNS provider with its server. -/
def azureDnsProvider : DnsProvider where
  Op := AzureDns.Op
  Answer := AzureDns.Op.Answer
  Server := AzureDns.Server
  Record := AzureDns.TxtRecord
  decEqRecord := inferInstance
  run := AzureDns.run
  env := AzureDns.Env
  records := AzureDns.records
  record := AzureDns.record
  nameIn := AzureDns.relativeName
  writes := AzureDns.isWrite
  conflictRetries := AzureDns.conflictRetries
  operationLimit := 11

namespace AzureDns

/-- Different values have different records. -/
theorem record_injective : Function.Injective record := by
  intro v v' h
  simpa [record] using h

/-- Under the guard of a read that saw one of the versions, the server still has
what was read. -/
theorem current_of_precondition {slot : Slot} {seen : Option RecordSet}
    (hseen : ∀ rs, seen = some rs → rs ∈ slot.versions)
    (hholds : met slot.current (preconditionOf seen)) : slot.current = seen := by
  cases seen with
  | none => exact hholds
  | some rs =>
      have hrs := hseen rs rfl
      obtain ⟨etag, hetag⟩ := Option.ne_none_iff_exists'.mp (slot.etag_ne rs hrs)
      simp only [preconditionOf, hetag] at hholds
      obtain ⟨rs', hcurrent, hetag'⟩ := hholds
      rw [hcurrent, slot.etag_inj rs' (slot.current_mem rs' hcurrent) rs hrs
        (hetag'.trans hetag.symm)]

/-! ## The discipline of a call -/

/-- The merge a call makes of what it has seen. -/
def merged (s : DnsLocal (Option RecordSet)) (seen : Option RecordSet) : List TxtRecord :=
  s.call.merge record (recordsOf seen)

/-- A call writes the merge of what it read last, under the guard of that read. -/
def may (s : DnsLocal (Option RecordSet)) : Op → Prop
  | .put zone name recordSet precondition =>
      name = relativeName zone s.call.domain ∧ ∃ seen, s.seen = some ((zone, name), seen) ∧
        recordSet.properties.txtRecords = merged s seen ∧ precondition = preconditionOf seen
  | .delete zone name precondition =>
      ∃ seen, s.seen = some ((zone, name), seen) ∧ merged s seen = [] ∧
        precondition = preconditionOf seen
  | _ => True

/-- What a call knows after an answer. -/
def next (s : DnsLocal (Option RecordSet)) : (op : Op) → op.Answer → DnsLocal (Option RecordSet)
  | .get zone name, reply =>
      match readRecordSet reply with
      | .ok seen => { s with seen := some ((zone, name), seen) }
      | .error _ => s
  | .put zone name _ _, reply =>
      match putApplied reply with
      | .ok true => { s with settled := some (zone, name) }
      | _ => s
  | _, _ => s

/-- The discipline of the calls. -/
abbrev discipline : Discipline Op Op.Answer := ⟨DnsLocal (Option RecordSet), may, next⟩

variable {call : DnsCall} {s : DnsLocal (Option RecordSet)} {zone : DnsName} {onConflict : M Unit}

/-- A read that is remembered. -/
theorem obeys_getRecordSet_bind {name : DnsName} {f : Option RecordSet → M Unit}
    (h : ∀ seen, Prog.Obeys discipline call.Settles
      { s with seen := some ((zone, name), seen) } (f seen).run) :
    Prog.Obeys discipline call.Settles s (getRecordSet zone name >>= f).run := by
  apply Prog.obeys_request_bind (D := discipline)
  · exact trivial
  · intro reply seen hread
    have hrest := h seen
    simpa only [next, hread] using hrest
  · intro reply e _ hok
    cases hok

/-- One attempt to create: read, put, and again on a conflict. -/
theorem obeys_createAttempt (hcall : s.call = call) (haction : call.action = .create)
    (hconflict : ∀ s', s'.call = call → Prog.Obeys discipline call.Settles s' onConflict.run) :
    Prog.Obeys discipline call.Settles s
      (createAttempt zone (relativeName zone call.domain) call.value onConflict).run := by
  unfold createAttempt
  apply obeys_getRecordSet_bind
  intro seen
  apply Prog.obeys_request_bind (D := discipline)
  · refine ⟨by rw [hcall], seen, rfl, ?_, rfl⟩
    simp [merged, DnsCall.merge, hcall, haction]
  · intro reply applied hput
    cases applied with
    | true =>
        intro _ _
        simp [next, hput]
    | false =>
        apply hconflict
        simpa [next, hput] using hcall
  · intro reply e _ hok
    cases hok

/-- One attempt to delete: read, put or delete, and again on a conflict. -/
theorem obeys_deleteAttempt (hcall : s.call = call) (haction : call.action = .delete)
    (hconflict : ∀ s', s'.call = call → Prog.Obeys discipline call.Settles s' onConflict.run) :
    Prog.Obeys discipline call.Settles s
      (deleteAttempt zone (relativeName zone call.domain) call.value onConflict).run := by
  have hpost : ∀ (t : DnsLocal (Option RecordSet)) r, call.Settles t r := by
    intro t r _ hcreate
    rw [haction] at hcreate
    cases hcreate
  unfold deleteAttempt
  apply obeys_getRecordSet_bind
  intro seen
  cases seen with
  | none => exact hpost _ _
  | some existing =>
      have hmerged : merged s (some existing) =
          dropRecord (record call.value) existing.properties.txtRecords := by
        simp [merged, DnsCall.merge, hcall, haction, recordsOf]
      by_cases hempty : dropRecord (record call.value) existing.properties.txtRecords = []
      · simp only [hempty, if_true]
        apply Prog.obeys_request_bind (D := discipline)
        · exact ⟨some existing, rfl, hmerged.trans hempty, rfl⟩
        · intro reply applied _
          cases applied with
          | true => exact hpost _ _
          | false => exact hconflict _ hcall
        · intro reply e _
          exact hpost _ _
      · simp only [hempty, if_false]
        apply Prog.obeys_request_bind (D := discipline)
        · exact ⟨by rw [hcall], some existing, rfl, hmerged.symm, rfl⟩
        · intro reply applied hput
          cases applied with
          | true => exact hpost _ _
          | false =>
              apply hconflict
              simpa [next, hput] using hcall
        · intro reply e _
          exact hpost _ _

/-- The attempts to create, by induction on the retries. -/
theorem obeys_createLoop (haction : call.action = .create) (retries : Nat) :
    ∀ s : DnsLocal (Option RecordSet), s.call = call →
      Prog.Obeys discipline call.Settles s
        (createLoop zone call.domain call.value retries).run := by
  induction retries with
  | zero => exact fun s hcall => obeys_createAttempt hcall haction fun s' _ => DnsCall.obeys_throw
  | succ retries ih => exact fun s hcall => obeys_createAttempt hcall haction ih

/-- The attempts to delete, by induction on the retries. -/
theorem obeys_deleteLoop (haction : call.action = .delete) (retries : Nat) :
    ∀ s : DnsLocal (Option RecordSet), s.call = call →
      Prog.Obeys discipline call.Settles s
        (deleteLoop zone call.domain call.value retries).run := by
  induction retries with
  | zero => exact fun s hcall => obeys_deleteAttempt hcall haction fun s' _ => DnsCall.obeys_throw
  | succ retries ih => exact fun s hcall => obeys_deleteAttempt hcall haction ih

/-- A whole call keeps the discipline, and settles the value it creates. -/
theorem obeys_run (call : DnsCall) :
    (run call).Obeys discipline call.Settles ⟨call, none, none⟩ := by
  unfold run
  split
  · rename_i haction
    apply DnsCall.obeys_quiet_bind Op.zones trivial (fun _ => rfl)
    intro zone
    apply DnsCall.obeys_quiet_bind Op.accessToken trivial (fun _ => rfl)
    intro _
    apply Prog.Obeys.bindExcept (obeys_createLoop haction conflictRetries _ rfl)
    · intro t _ hpost
      exact ⟨trivial, fun _ _ hcreate => hpost rfl hcreate⟩
    · intro t e _ hok
      cases hok
  · rename_i haction
    apply DnsCall.obeys_quiet_bind Op.zones trivial (fun _ => rfl)
    intro zone
    apply DnsCall.obeys_quiet_bind Op.accessToken trivial (fun _ => rfl)
    intro _
    exact obeys_deleteLoop haction conflictRetries _ rfl

/-! ## How much a call does -/

section Cost

variable {cost : Op → Nat} {name : DnsName} {value : String} {read rest : Nat}

/-- A read costs `read` at most, a write and anything else one. -/
structure Costs (cost : Op → Nat) (read : Nat) : Prop where
  get : ∀ zone name, cost (.get zone name) ≤ read
  other : ∀ op, cost op ≤ 1

/-- The cost of one attempt to create. -/
theorem within_createAttempt (hcost : Costs cost read)
    (hconflict : Prog.Within cost rest onConflict.run) :
    Prog.Within cost (read + (1 + rest)) (createAttempt zone name value onConflict).run := by
  unfold createAttempt
  apply Prog.Within.bindExcept (Prog.within_request.mono (hcost.get _ _))
  intro seen
  apply Prog.Within.bindExcept (Prog.within_request.mono (hcost.other _))
  intro applied
  cases applied with
  | true => exact trivial
  | false => exact hconflict

/-- The cost of one attempt to delete. -/
theorem within_deleteAttempt (hcost : Costs cost read)
    (hconflict : Prog.Within cost rest onConflict.run) :
    Prog.Within cost (read + (1 + rest)) (deleteAttempt zone name value onConflict).run := by
  unfold deleteAttempt
  apply Prog.Within.bindExcept (Prog.within_request.mono (hcost.get _ _))
  intro seen
  cases seen with
  | none => exact trivial
  | some existing =>
      have hrest : ∀ applied, Prog.Within cost rest
          (if applied = true then pure () else onConflict : M Unit).run := by
        intro applied
        cases applied with
        | true => exact trivial
        | false => exact hconflict
      by_cases hempty : dropRecord (record value) existing.properties.txtRecords = []
      · simp only [hempty, if_true]
        exact Prog.Within.bindExcept (Prog.within_request.mono (hcost.other _)) hrest
      · simp only [hempty, if_false]
        exact Prog.Within.bindExcept (Prog.within_request.mono (hcost.other _)) hrest

/-- Failing costs nothing. -/
theorem within_throw {e : ChallengeError} : Prog.Within cost 0 (throw e : M Unit).run := trivial

/-- The cost of all attempts to create, by induction on the retries. -/
theorem within_createLoop (hcost : Costs cost read) (domain : DnsName) (retries : Nat) :
    Prog.Within cost ((retries + 1) * (read + 1)) (createLoop zone domain value retries).run := by
  induction retries with
  | zero => exact (within_createAttempt hcost within_throw).mono (by omega)
  | succ retries ih =>
      refine (within_createAttempt hcost ih).mono ?_
      rw [Nat.succ_mul (retries + 1)]
      omega

/-- The cost of all attempts to delete, by induction on the retries. -/
theorem within_deleteLoop (hcost : Costs cost read) (domain : DnsName) (retries : Nat) :
    Prog.Within cost ((retries + 1) * (read + 1)) (deleteLoop zone domain value retries).run := by
  induction retries with
  | zero => exact (within_deleteAttempt hcost within_throw).mono (by omega)
  | succ retries ih =>
      refine (within_deleteAttempt hcost ih).mono ?_
      rw [Nat.succ_mul (retries + 1)]
      omega

/-- A call pays for its two preliminary requests, its passes, and the wait. -/
theorem within_run (hcost : Costs cost read) {other : Nat} (hzones : cost .zones ≤ other)
    (htoken : cost .accessToken ≤ other) (hsleep : cost .sleep ≤ other) (call : DnsCall) :
    (run call).Within cost (3 * other + (conflictRetries + 1) * (read + 1)) := by
  unfold run
  split
  · refine Prog.Within.mono (n := other + (other +
      ((conflictRetries + 1) * (read + 1) + other))) ?_ (by omega)
    apply Prog.Within.bindExcept (Prog.within_request.mono hzones)
    intro zone
    apply Prog.Within.bindExcept (Prog.within_request.mono htoken)
    intro _
    apply Prog.Within.bindExcept (within_createLoop hcost _ _)
    intro _
    exact Prog.within_request.mono hsleep
  · refine Prog.Within.mono (n := other + (other +
      (conflictRetries + 1) * (read + 1))) ?_ (by omega)
    apply Prog.Within.bindExcept (Prog.within_request.mono hzones)
    intro zone
    apply Prog.Within.bindExcept (Prog.within_request.mono htoken)
    intro _
    exact within_deleteLoop hcost _ _

end Cost

/-! ## Runs of replicas -/

section Runs

variable {Tid : Type} {calls : Tid → DnsCall}

/-- What a call has seen was a version of its record set. -/
def SeenVersions (locals : Tid → DnsLocal (Option RecordSet)) (server : Server) : Prop :=
  ∀ i set rs, (locals i).seen = some (set, some rs) → rs ∈ (server set).versions

/-- An honest reply shows the record set of the server. -/
theorem eq_of_readRecordSet {current seen : Option RecordSet} {reply : Reply RecordSet}
    (hhonest : honest current reply) (hread : readRecordSet reply = .ok seen) :
    seen = current := by
  cases reply with
  | failed message => cases hread
  | response status text json =>
      simp only [readRecordSet] at hread
      split at hread
      · rename_i hmissing
        cases hread
        exact (hhonest.1 hmissing).symm
      · cases hparse : parseResponse dnsErr status text json with
        | error e =>
            rw [hparse] at hread
            cases hread
        | ok rs =>
            rw [hparse] at hread
            cases hread
            obtain ⟨hsuccess, hjson⟩ := isSuccess_of_parseResponse hparse
            exact (hhonest.2 hsuccess rs hjson).symm

/-- A put that is read as applied was applied. -/
theorem succeeded_of_putApplied {reply : Reply Unit} (h : putApplied reply = .ok true) :
    succeeded reply = true := by
  cases reply with
  | failed message => cases h
  | response status text json =>
      simp only [putApplied] at h
      split at h
      · cases h
      · cases hparse : parseResponse dnsErr status text json with
        | error e =>
            rw [hparse] at h
            cases h
        | ok body => exact (isSuccess_of_parseResponse hparse).1

/-- No answer changes what the call is about. -/
theorem next_call (s : DnsLocal (Option RecordSet)) (op : Op) (r : op.Answer) :
    (next s op r).call = s.call := by
  unfold next
  split
  · split
    · rfl
    · rfl
  · split
    · rfl
    · rfl
  · rfl

/-- Only a read changes what a call has seen. -/
theorem next_seen_put (s : DnsLocal (Option RecordSet)) {name : DnsName} {recordSet : RecordSet}
    {precondition : Precondition} {reply : Reply Unit} :
    (next s (.put zone name recordSet precondition) reply).seen = s.seen := by
  simp only [next]
  split
  · rfl
  · rfl

/-- Only a successful write settles a call. -/
theorem next_settled_put {name : DnsName} {recordSet : RecordSet} {precondition : Precondition}
    {reply : Reply Unit} {set : DnsName × DnsName}
    (h : (next s (.put zone name recordSet precondition) reply).settled = some set) :
    s.settled = some set ∨ (set = (zone, name) ∧ succeeded reply = true) := by
  simp only [next] at h
  split at h
  · rename_i hput
    cases h
    exact .inr ⟨rfl, succeeded_of_putApplied hput⟩
  · exact .inl h

/-- A read settles nothing. -/
theorem next_settled_get {name : DnsName} {reply : Reply RecordSet} :
    (next s (.get zone name) reply).settled = s.settled := by
  simp only [next]
  split
  · rfl
  · rfl

/-- Nothing is written. -/
theorem merges_unchanged {e : Event Tid Op Op.Answer} {server : Server} :
    azureDnsProvider.Merges calls ⟨e, server, server⟩ := fun _ => .inl rfl

/-- One record set is replaced by its merge. -/
theorem merges_update {i : Tid} {op : Op} {r : op.Answer} {server : Server}
    {set : DnsName × DnsName} {slot : Slot}
    (h : recordsOf slot.current = (calls i).merge record (records server set)) :
    azureDnsProvider.Merges calls ⟨⟨i, op, r⟩, server, Function.update server set slot⟩ := by
  intro set'
  by_cases hset : set' = set
  · subst hset
    right
    change recordsOf (Function.update server set' slot set').current = _
    rw [Function.update_self]
    exact h
  · left
    change recordsOf (Function.update server set slot set').current =
      recordsOf (server set').current
    rw [Function.update_of_ne hset]

variable [DecidableEq Tid]

/-- What the calls have read stays among the versions of the server. -/
theorem SeenVersions.mono {locals : Tid → DnsLocal (Option RecordSet)} {server server' : Server}
    (h : SeenVersions locals server) {i : Tid} {s : DnsLocal (Option RecordSet)}
    (hseen : s.seen = (locals i).seen)
    (hversions : ∀ set, ∀ rs ∈ (server set).versions, rs ∈ (server' set).versions) :
    SeenVersions (Function.update locals i s) server' := by
  intro j set rs hj
  apply hversions
  by_cases hij : j = i
  · subst hij
    rw [Function.update_self, hseen] at hj
    exact h j set rs hj
  · rw [Function.update_of_ne hij] at hj
    exact h j set rs hj

/-- A record set that is read is a version of the server. -/
theorem SeenVersions.get {locals : Tid → DnsLocal (Option RecordSet)} {server : Server}
    (h : SeenVersions locals server) {i : Tid} {name : DnsName} {reply : Reply RecordSet}
    (hhonest : honest (server (zone, name)).current reply) :
    SeenVersions (Function.update locals i (next (locals i) (.get zone name) reply)) server := by
  cases hread : readRecordSet reply with
  | error e =>
      have hnext : next (locals i) (.get zone name) reply = locals i := by simp only [next, hread]
      rw [hnext]
      exact h.mono rfl (fun _ _ hrs => hrs)
  | ok seen =>
      intro j set rs hj
      by_cases hij : j = i
      · subst hij
        simp only [Function.update_self, next, hread, Option.some.injEq, Prod.mk.injEq] at hj
        obtain ⟨rfl, rfl⟩ := hj
        exact (server _).current_mem rs (eq_of_readRecordSet hhonest hread).symm
      · rw [Function.update_of_ne hij] at hj
        exact h j set rs hj

/-- Versions are never forgotten. -/
theorem versions_update {server : Server} {set : DnsName × DnsName} {slot : Slot}
    (h : ∀ rs ∈ (server set).versions, rs ∈ slot.versions) (set' : DnsName × DnsName) :
    ∀ rs ∈ (server set').versions, rs ∈ (Function.update server set slot set').versions := by
  by_cases hset : set' = set
  · subst hset
    rw [Function.update_self]
    exact h
  · rw [Function.update_of_ne hset]
    exact fun _ hrs => hrs

/-- **One request of a replica.**  It merges the record sets for its call. -/
theorem step {locals : Tid → DnsLocal (Option RecordSet)} {server server' : Server} {i : Tid}
    {op : Op} {r : op.Answer} (hseen : SeenVersions locals server)
    (hcall : (locals i).call = calls i) (hmay : may (locals i) op)
    (henv : Env op server r server') :
    SeenVersions (Function.update locals i (next (locals i) op r)) server' ∧
      azureDnsProvider.Merges calls ⟨⟨i, op, r⟩, server, server'⟩ ∧
      ∀ set, (calls i).action = .create → (next (locals i) op r).settled = some set →
        (locals i).settled = some set ∨ azureDnsProvider.Holds (calls i) server' set := by
  cases henv with
  | zones answer =>
      exact ⟨hseen.mono rfl fun _ _ h => h, merges_unchanged, fun _ _ h => .inl h⟩
  | accessToken answer =>
      exact ⟨hseen.mono rfl fun _ _ h => h, merges_unchanged, fun _ _ h => .inl h⟩
  | sleep => exact ⟨hseen.mono rfl fun _ _ h => h, merges_unchanged, fun _ _ h => .inl h⟩
  | get hhonest =>
      refine ⟨hseen.get hhonest, merges_unchanged, ?_⟩
      intro set _ h
      rw [next_settled_get] at h
      exact .inl h
  | @putKept _ zone name recordSet precondition reply hreply =>
      refine ⟨hseen.mono (next_seen_put _) fun _ _ h => h, merges_unchanged, ?_⟩
      intro set _ h
      obtain hold | ⟨_, hsuccess⟩ := next_settled_put h
      · exact .inl hold
      · rw [hreply] at hsuccess
        cases hsuccess
  | @putApplied _ zone name recordSet precondition reply slot etag hprecondition hreply hcurrent
      hversions =>
      obtain ⟨hname, seen, hread, hrecords, rfl⟩ := hmay
      have hnow : (server (zone, name)).current = seen :=
        current_of_precondition (fun rs hrs => hseen i _ rs (by rw [hread, hrs])) hprecondition
      have hmerged : recordsOf slot.current =
          (calls i).merge record (records server (zone, name)) := by
        rw [hcurrent, records, hnow, ← hcall]
        exact hrecords
      refine ⟨hseen.mono (next_seen_put _) (versions_update ?_), merges_update hmerged, ?_⟩
      · rw [hversions]
        exact fun rs hrs => List.mem_cons_of_mem _ hrs
      · intro set hcreate h
        obtain hold | ⟨rfl, _⟩ := next_settled_put h
        · exact .inl hold
        · right
          refine ⟨by rw [hname, hcall]; rfl, ?_⟩
          change record (calls i).value ∈
            recordsOf (Function.update server (zone, name) slot (zone, name)).current
          rw [Function.update_self, hmerged, DnsCall.merge, hcreate]
          exact mem_pushRecord _ _
  | deleteKept hreply =>
      exact ⟨hseen.mono rfl fun _ _ h => h, merges_unchanged, fun _ _ h => .inl h⟩
  | @deleteApplied _ zone name precondition reply slot hprecondition hreply hcurrent hversions =>
      obtain ⟨seen, hread, hempty, rfl⟩ := hmay
      have hnow : (server (zone, name)).current = seen :=
        current_of_precondition (fun rs hrs => hseen i _ rs (by rw [hread, hrs])) hprecondition
      have hmerged : recordsOf slot.current =
          (calls i).merge record (records server (zone, name)) := by
        rw [hcurrent, records, hnow, ← hcall]
        exact hempty.symm
      refine ⟨hseen.mono rfl (versions_update ?_), merges_update hmerged, fun _ _ h => .inl h⟩
      rw [hversions]
      exact fun _ hrs => hrs

/-- Writes cost one, everything else nothing. -/
theorem costs_writes : Costs (fun op => if isWrite op then 1 else 0) 0 where
  get _ _ := le_refl 0
  other op := by
    split
    · exact le_refl 1
    · exact Nat.zero_le 1

/-- Every operation costs one. -/
theorem costs_operations : Costs (fun _ => 1) 1 where
  get _ _ := le_refl 1
  other _ := le_refl 1

/-- **Azure replicas keep each other's values.** -/
theorem keepsValues {server : Server}
    {t : List (Event Tid Op Op.Answer)} {c : azureDnsProvider.Replicas Tid}
    (hrun : azureDnsProvider.Runs (azureDnsProvider.start calls server) t c) :
    azureDnsProvider.KeepsValues calls t c := by
  apply DnsProvider.KeepsValues.of_discipline (J := SeenVersions) record_injective obeys_run
    (within_run costs_writes (le_refl 0) (le_refl 0) (le_refl 0))
    (within_run costs_operations (le_refl 1) (le_refl 1) (le_refl 1)) _ _ hrun
  · intro i set rs h
    cases h
  · intro locals server i op r server' hJ hcall hmay henv
    obtain ⟨hJ', hmerges, hsettled⟩ := step hJ hcall hmay henv
    exact ⟨hJ', hmerges, next_call _ _ _, hsettled⟩

end Runs

end AzureDns

end StatusListServer
