import StatusListServer.DnsChallenges

/-!
# The Cloudflare DNS provider

`challenge/dns01/cloudflare.rs`.  A POST adds one record under an id of its own, and
there may be several with the same name and content.  A deletion lists the records of
its name and value and deletes them by id, one request each; it removes what it has
observed and nothing else.  The zones of the account are listed page by page and kept
in a cache that the calls of a process share.

The listing loop has no bound of its own; the model gives it one and shows that the
number of pages is enough.
-/

namespace StatusListServer

open Interaction

namespace CloudflareDns

/-! ## Replies -/

/-- An error of the API. -/
structure ApiError where
  code : Int
  message : String
deriving DecidableEq, Repr

/-- Where a page stands among all pages. -/
structure ResultInfo where
  page : Nat
  totalPages : Nat
deriving DecidableEq, Repr

/-- Response envelope shared by all Cloudflare API endpoints. -/
structure ApiResponse (α : Type) where
  success : Bool
  errors : List ApiError
  result : Option α
  resultInfo : Option ResultInfo

/-- A zone of the account. -/
structure ZoneEntry where
  id : DnsName
  name : DnsName
deriving DecidableEq, Repr

/-- A record that was found. -/
structure RecordEntry where
  id : String
deriving DecidableEq, Repr

/-- An error of this provider. -/
def dnsErr (message : String) : ChallengeError := .dns "cloudflare" message

/-- The text of an error. -/
def ApiError.display (e : ApiError) : String := s!"{e.message} (code {e.code})"

/-- The envelope of a reply; whether the request succeeded stands in the envelope, not
in the status. -/
def readResponse {α : Type} : Reply (ApiResponse α) → Except ChallengeError (ApiResponse α)
  | .failed message => .error (dnsErr message)
  | .response status _ json =>
      match json with
      | .error e => .error (dnsErr s!"Invalid API response (status {status}): {e}")
      | .ok body =>
          if body.success then .ok body
          else
            let errors := "; ".intercalate (body.errors.map ApiError.display)
            .error (dnsErr s!"API request failed (status {status}): {errors}")

/-! ## Programs -/

/-- What a call asks for: the cache of its process and the API. -/
inductive Op
  | readZones
  | writeZones (zones : List ZoneInfo)
  | listZones (page : Nat)
  | findRecords (zone name : DnsName) (value : String)
  | postRecord (zone name : DnsName) (value : String) (ttl : Nat)
  | deleteRecord (zone : DnsName) (id : String)

/-- What the cache and the API answer. -/
@[reducible] def Op.Answer : Op → Type
  | .readZones => Option (List ZoneInfo)
  | .writeZones _ => Unit
  | .listZones _ => Reply (ApiResponse (List ZoneEntry))
  | .findRecords _ _ _ => Reply (ApiResponse (List RecordEntry))
  | .postRecord _ _ _ _ => Reply (ApiResponse RecordEntry)
  | .deleteRecord _ _ => Reply (ApiResponse RecordEntry)

/-- Why a call stops: with an error, at the `unwrap` of an empty cache, or because the
listing loop goes on beyond its bound. -/
inductive Stop
  | error (e : ChallengeError)
  | emptyCache
  | unfinished
deriving DecidableEq, Repr

/-- A call, which may fail or run out of fuel. -/
abbrev M := ExceptT Stop (Prog Op Op.Answer)

/-- One operation. -/
def ask (op : Op) : M op.Answer := ExceptT.lift (Prog.ask op)

/-- Read the envelope of a reply, or stop. -/
def decoded {α β : Type} (f : ApiResponse α → β) (reply : Reply (ApiResponse α)) :
    Except Stop β :=
  ((readResponse reply).map f).mapError .error

/-- `TXT_TTL`. -/
def txtTtl : Nat := 60

/-- The zones of a page. -/
def zonesOf (entries : List ZoneEntry) : List ZoneInfo :=
  entries.map fun zone => .new zone.name zone.id

/-- The page to ask for next, when there is one. -/
def nextPage (body : ApiResponse (List ZoneEntry)) : Option Nat :=
  match body.resultInfo with
  | some info => if info.page < info.totalPages then some (info.page + 1) else none
  | none => none

/-- The loop over the pages, at most `fuel` of them. -/
def listPages : Nat → Nat → List ZoneInfo → M (List ZoneInfo)
  | 0, _, _ => throw .unfinished
  | fuel + 1, page, allZones => do
      let body ← Prog.request (.listZones page) (decoded id)
      let allZones := allZones ++ zonesOf (body.result.getD [])
      match nextPage body with
      | some next => listPages fuel next allZones
      | none => return allZones

/-- Fetch the zones unless they are cached. -/
def tryCacheZones (fuel : Nat) : M Unit := do
  match ← ask .readZones with
  | some _ => return ()
  | none =>
      let allZones ← listPages fuel 1 []
      ask (.writeZones allZones)

/-- The zone of a domain among the known ones. -/
def zoneOf (domain : DnsName) (zones : List ZoneInfo) : Except ChallengeError DnsName :=
  match findBestMatch (trimEndDots domain) zones with
  | some zone => .ok zone.id
  | none => .error (.zoneNotFound (String.ofList (trimEndDots domain)))

/-- The zone that covers a domain. -/
def findZone (fuel : Nat) (domain : DnsName) : M DnsName := do
  tryCacheZones fuel
  match ← ask .readZones with
  | none => throw .emptyCache
  | some zones => ExceptT.mk (pure ((zoneOf domain zones).mapError .error))

/-- The name of the challenge record. -/
def recordName (domain : DnsName) : DnsName := acmeChallengeLabel ++ domain

/-- The ids of the listed records. -/
def listedIds (body : ApiResponse (List RecordEntry)) : List String :=
  (body.result.getD []).map RecordEntry.id

/-- The ids of the records with a name and a value. -/
def findTxtRecords (zone name : DnsName) (value : String) : M (List String) :=
  Prog.request (.findRecords zone name value) (decoded listedIds)

/-- `create_txt_record`. -/
def createTxtRecord (fuel : Nat) (domain : DnsName) (value : String) : M Unit := do
  let zone ← findZone fuel domain
  Prog.request (.postRecord zone (recordName domain) value txtTtl) (decoded fun _ => ())

/-- Delete records by their ids, one after the other. -/
def deleteAll (zone : DnsName) : List String → M Unit
  | [] => return ()
  | id :: ids => do
      Prog.request (.deleteRecord zone id) (decoded fun _ => ())
      deleteAll zone ids

/-- `delete_txt_record`: every record that is found. -/
def deleteTxtRecord (fuel : Nat) (domain : DnsName) (value : String) : M Unit := do
  let zone ← findZone fuel domain
  let ids ← findTxtRecords zone (recordName domain) value
  deleteAll zone ids

/-- The program of a call. -/
def run (fuel : Nat) (call : DnsCall) : Prog Op Op.Answer (Except Stop Unit) :=
  match call.action with
  | .create => (createTxtRecord fuel call.domain call.value).run
  | .delete => (deleteTxtRecord fuel call.domain call.value).run

/-! ## What one call does -/

/-- How far a call has come. -/
inductive Phase
  | started
  | listing (pages page : Nat) (zones : List ZoneInfo)
  | collected (zones : List ZoneInfo)
  | cached
  | placed (zone : DnsName)
  | created (zone : DnsName)
  | deleting (zone : DnsName) (ids : List String)
  | failed
  | broken

/-- A call with its phase. -/
structure Local where
  call : DnsCall
  phase : Phase

/-- The requests a call may make in its phase. -/
def may (s : Local) : Op → Prop
  | .readZones => s.phase = .started ∨ s.phase = .cached
  | .writeZones zones => s.phase = .collected zones
  | .listZones page => ∃ pages zones, s.phase = .listing pages page zones
  | .findRecords zone name value => s.phase = .placed zone ∧ s.call.action = .delete ∧
      name = recordName s.call.domain ∧ value = s.call.value
  | .postRecord zone name value _ => s.phase = .placed zone ∧ s.call.action = .create ∧
      name = recordName s.call.domain ∧ value = s.call.value
  | .deleteRecord zone id => s.call.action = .delete ∧ ∃ ids, s.phase = .deleting zone (id :: ids)

/-- The phase after a reply. -/
def nextPhase (s : Local) : (op : Op) → op.Answer → Phase
  | .readZones, answer =>
      match s.phase, answer with
      | .started, none => .listing 0 1 []
      | .started, some _ => .cached
      | _, none => .broken
      | _, some zones =>
          match zoneOf s.call.domain zones with
          | .ok zone => .placed zone
          | .error _ => .failed
  | .writeZones _, _ => .cached
  | .listZones _, reply =>
      match s.phase, readResponse reply with
      | .listing pages _ zones, .ok body =>
          match nextPage body with
          | some next => .listing (pages + 1) next (zones ++ zonesOf (body.result.getD []))
          | none => .collected (zones ++ zonesOf (body.result.getD []))
      | _, _ => .failed
  | .findRecords zone _ _, reply =>
      match readResponse reply with
      | .ok body => .deleting zone (listedIds body)
      | .error _ => .failed
  | .postRecord zone _ _ _, reply =>
      match readResponse reply with
      | .ok _ => .created zone
      | .error _ => .failed
  | .deleteRecord zone _, reply =>
      match s.phase, readResponse reply with
      | .deleting _ (_ :: ids), .ok _ => .deleting zone ids
      | _, _ => .failed

/-- The discipline of the calls. -/
@[reducible] def discipline : Discipline Op Op.Answer where
  State := Local
  may := may
  next s op reply := { s with phase := nextPhase s op reply }

/-- How a call ends: well when its record was posted or all listed records are deleted,
and otherwise with an error, except from two phases that no run reaches. -/
def Ended (fuel : Nat) (s : Local) : Except Stop Unit → Prop
  | .ok () => match s.call.action with
      | .create => ∃ zone, s.phase = .created zone
      | .delete => ∃ zone, s.phase = .deleting zone []
  | .error (.error _) => True
  | .error .emptyCache => s.phase = .broken
  | .error .unfinished => ∃ page zones, s.phase = .listing fuel page zones

/-- A reply is decoded, or ends the call. -/
theorem decoded_cases {α β : Type} (f : ApiResponse α → β) (reply : Reply (ApiResponse α)) :
    (∃ body, readResponse reply = .ok body ∧ decoded f reply = .ok (f body)) ∨
      ∃ e, readResponse reply = .error e ∧ decoded f reply = .error (.error e) := by
  unfold decoded
  cases readResponse reply with
  | ok body => exact .inl ⟨body, rfl, rfl⟩
  | error e => exact .inr ⟨e, rfl, rfl⟩

/-- A part of a call ends in a phase that fits its value, or as a call may end with an
error. -/
def Meets {α : Type} (fuel : Nat) (call : DnsCall) (Q : Phase → α → Prop) (s : Local) :
    Except Stop α → Prop
  | .ok a => s.call = call ∧ Q s.phase a
  | .error stop => Ended fuel s (.error stop)

section Obeys

variable {fuel : Nat} {call : DnsCall}

/-- One part of a call after another. -/
theorem obeys_bind {α β : Type} {Q : Phase → α → Prop} {R : Phase → β → Prop} {x : M α}
    {f : α → M β} {s : Local} (hx : Prog.Obeys discipline (Meets fuel call Q) s x.run)
    (hf : ∀ phase a, Q phase a →
      Prog.Obeys discipline (Meets fuel call R) ⟨call, phase⟩ (f a).run) :
    Prog.Obeys discipline (Meets fuel call R) s (x >>= f).run := by
  refine Prog.Obeys.bindExcept hx ?_ (fun t stop h => h)
  rintro ⟨call', phase⟩ a ⟨rfl, hQ⟩
  exact hf phase a hQ

/-- A request that goes on with a value or ends the call with an error. -/
theorem obeys_request {β : Type} {Q : Phase → β → Prop} {phase : Phase} {op : Op}
    {decode : op.Answer → Except Stop β} (hmay : may ⟨call, phase⟩ op)
    (h : ∀ reply, (∃ b, decode reply = .ok b ∧ Q (nextPhase ⟨call, phase⟩ op reply) b) ∨
      ∃ e, decode reply = .error (.error e)) :
    Prog.Obeys discipline (Meets fuel call Q) ⟨call, phase⟩ (Prog.request op decode).run := by
  refine ⟨hmay, ?_⟩
  intro reply
  change Meets fuel call Q _ (decode reply)
  rcases h reply with ⟨b, hdecode, hQ⟩ | ⟨e, hdecode⟩
  · rw [hdecode]
    exact ⟨rfl, hQ⟩
  · rw [hdecode]
    trivial

/-- The listing loop: the pages it has asked for and those it may still ask for make up
the bound. -/
theorem obeys_listPages (more : Nat) : ∀ (pages page : Nat) (zones : List ZoneInfo),
    pages + more = fuel → Prog.Obeys discipline
      (Meets fuel call fun phase allZones => phase = .collected allZones)
      ⟨call, .listing pages page zones⟩ (listPages more page zones).run := by
  induction more with
  | zero =>
      intro pages page zones hfuel
      obtain rfl : pages = fuel := by omega
      exact ⟨page, zones, rfl⟩
  | succ more ih =>
      intro pages page zones hfuel
      refine obeys_bind (Q := fun phase body => phase = match nextPage body with
        | some next => .listing (pages + 1) next (zones ++ zonesOf (body.result.getD []))
        | none => .collected (zones ++ zonesOf (body.result.getD []))) ?_ ?_
      · refine obeys_request ⟨pages, zones, rfl⟩ ?_
        intro reply
        rcases decoded_cases id reply with ⟨body, hread, hdecoded⟩ | ⟨e, _, hdecoded⟩
        · exact .inl ⟨body, hdecoded, by simp only [nextPhase, hread]⟩
        · exact .inr ⟨e, hdecoded⟩
      · rintro phase body rfl
        dsimp only
        cases nextPage body with
        | some next => exact ih (pages + 1) next _ (by omega)
        | none => exact ⟨rfl, rfl⟩

/-- Afterwards the zones are cached. -/
theorem obeys_tryCacheZones : Prog.Obeys discipline
    (Meets fuel call fun phase _ => phase = .cached) ⟨call, .started⟩ (tryCacheZones fuel).run := by
  refine ⟨.inl rfl, ?_⟩
  intro answer
  cases answer with
  | some zones => exact ⟨rfl, rfl⟩
  | none =>
      refine obeys_bind (obeys_listPages fuel 0 1 [] (by omega)) ?_
      rintro phase zones rfl
      exact ⟨rfl, fun _ => ⟨rfl, rfl⟩⟩

/-- Afterwards the zone is known. -/
theorem obeys_findZone : Prog.Obeys discipline
    (Meets fuel call fun phase zone => phase = .placed zone) ⟨call, .started⟩
    (findZone fuel call.domain).run := by
  refine obeys_bind obeys_tryCacheZones ?_
  rintro phase _ rfl
  refine ⟨.inr rfl, ?_⟩
  intro answer
  cases answer with
  | none => exact rfl
  | some zones =>
      change Meets fuel call _ _ ((zoneOf call.domain zones).mapError Stop.error)
      cases hzone : zoneOf call.domain zones with
      | error e => trivial
      | ok zone => exact ⟨rfl, by simp [nextPhase, hzone]⟩

/-- The records are deleted one by one, by induction on those that are left. -/
theorem obeys_deleteAll (hdelete : call.action = .delete) (zone : DnsName) (ids : List String) :
    Prog.Obeys discipline (Meets fuel call fun phase _ => ∃ zone, phase = .deleting zone [])
      ⟨call, .deleting zone ids⟩ (deleteAll zone ids).run := by
  induction ids with
  | nil => exact ⟨rfl, zone, rfl⟩
  | cons id ids ih =>
      refine obeys_bind (Q := fun phase _ => phase = .deleting zone ids) ?_ ?_
      · refine obeys_request ⟨hdelete, ids, rfl⟩ ?_
        intro reply
        rcases decoded_cases (fun _ => ()) reply with ⟨body, hread, hdecoded⟩ | ⟨e, _, hdecoded⟩
        · exact .inl ⟨(), hdecoded, by simp only [nextPhase, hread]⟩
        · exact .inr ⟨e, hdecoded⟩
      · rintro phase _ rfl
        exact ih

/-- **The programs of both calls keep to the discipline.** -/
theorem obeys_run (fuel : Nat) (call : DnsCall) :
    Prog.Obeys discipline (Ended fuel) ⟨call, .started⟩ (run fuel call) := by
  have hended : ∀ {Q : Phase → Unit → Prop}, (∀ phase, Q phase () →
      Ended fuel ⟨call, phase⟩ (.ok ())) → ∀ t r, Meets fuel call Q t r → Ended fuel t r := by
    rintro Q hQ ⟨call', phase⟩ (stop | ⟨⟩) h
    · exact h
    · obtain ⟨rfl, hphase⟩ := h
      exact hQ phase hphase
  unfold run
  cases haction : call.action with
  | create =>
      refine Prog.Obeys.mono ?_ (hended (Q := fun phase _ => ∃ zone, phase = .created zone) ?_)
      · refine obeys_bind obeys_findZone ?_
        rintro phase zone rfl
        refine obeys_request ⟨rfl, haction, rfl, rfl⟩ ?_
        intro reply
        rcases decoded_cases (fun _ => ()) reply with ⟨body, hread, hdecoded⟩ | ⟨e, _, hdecoded⟩
        · exact .inl ⟨(), hdecoded, zone, by simp only [nextPhase, hread]⟩
        · exact .inr ⟨e, hdecoded⟩
      · rintro phase ⟨zone, rfl⟩
        simp [Ended, haction]
  | delete =>
      refine Prog.Obeys.mono ?_ (hended (Q := fun phase _ => ∃ zone, phase = .deleting zone []) ?_)
      · refine obeys_bind obeys_findZone ?_
        rintro phase zone rfl
        refine obeys_bind (Q := fun phase ids => phase = .deleting zone ids) ?_ ?_
        · refine obeys_request ⟨rfl, haction, rfl, rfl⟩ ?_
          intro reply
          rcases decoded_cases listedIds reply with ⟨body, hread, hdecoded⟩ | ⟨e, _, hdecoded⟩
          · exact .inl ⟨_, hdecoded, by simp only [nextPhase, hread]⟩
          · exact .inr ⟨e, hdecoded⟩
        · rintro phase ids rfl
          exact obeys_deleteAll haction zone ids
      · rintro phase ⟨zone, rfl⟩
        simp [Ended, haction]

end Obeys

/-! ## The account behind the API -/

/-- A stored TXT record. -/
structure TxtRecord where
  id : String
  zone : DnsName
  name : DnsName
  content : String
deriving DecidableEq, Repr

/-- The records, the ids handed out so far, and the zone cache of every process. -/
structure DnsAccount where
  records : List TxtRecord
  issued : List String
  caches : Nat → Option (List ZoneInfo)

/-- The record a query for a name and a content in a zone is about. -/
def TxtRecord.Fits (record : TxtRecord) (zone name : DnsName) (value : String) : Prop :=
  record.zone = zone ∧ record.name = name ∧ record.content = value

instance (record : TxtRecord) (zone name : DnsName) (value : String) :
    Decidable (record.Fits zone name value) :=
  inferInstanceAs (Decidable (_ ∧ _ ∧ _))

/-- The records a query without a page number is answered with at most. -/
def recordsPerPage : Nat := 100

/-- The reply says that the request succeeded. -/
def Accepted {α : Type} (reply : Reply (ApiResponse α)) (body : ApiResponse α) : Prop :=
  readResponse reply = .ok body

/-- The reply to a request for a page of zones. -/
def TruthfulPage (pages : List (List ZoneEntry)) (page : Nat)
    (reply : Reply (ApiResponse (List ZoneEntry))) : Prop :=
  ∀ body, Accepted reply body → body.result = some (pages.getD (page - 1) []) ∧
    (body.resultInfo = some ⟨page, pages.length⟩ ∨ body.resultInfo = none ∧ pages.length ≤ 1)

/-- The reply to a query lists ids of records that fit, and all of them when they fit on
a page. -/
def TruthfulQuery (records : List TxtRecord) (zone name : DnsName) (value : String)
    (reply : Reply (ApiResponse (List RecordEntry))) : Prop :=
  ∀ body, Accepted reply body →
    (∀ id ∈ listedIds body, ∃ record ∈ records, record.id = id ∧ record.Fits zone name value) ∧
    ((records.filter (fun r => decide (r.Fits zone name value))).length ≤ recordsPerPage →
      ∀ record ∈ records, record.Fits zone name value → record.id ∈ listedIds body)

/-- How the account answers the calls of a process.  A write that is reported as done was
done; one whose reply is lost or reports an error may have been done as well. -/
def env {Tid : Type} (pages : List (List ZoneEntry)) (replica : Tid → Nat) :
    Env Tid Op Op.Answer DnsAccount
  | i, .readZones, w, zones, w' => w' = w ∧ zones = w.caches (replica i)
  | i, .writeZones zones, w, _, w' =>
      w' = { w with caches := Function.update w.caches (replica i) (some zones) }
  | _, .listZones page, w, reply, w' => w' = w ∧ TruthfulPage pages page reply
  | _, .findRecords zone name value, w, reply, w' =>
      w' = w ∧ TruthfulQuery w.records zone name value reply
  | _, .postRecord zone name value _, w, reply, w' =>
      (w' = w ∧ ∀ body, ¬ Accepted reply body) ∨ ∃ id, id ∉ w.issued ∧
        w' = { w with records := w.records ++ [⟨id, zone, name, value⟩], issued := id :: w.issued }
  | _, .deleteRecord zone id, w, reply, w' =>
      (w' = w ∧ ∀ body, ¬ Accepted reply body) ∨
        w' = { w with records := w.records.filter (fun r => ¬(r.zone = zone ∧ r.id = id)) }

/-- Every zone of the account. -/
def allZones (pages : List (List ZoneEntry)) : List ZoneInfo := zonesOf pages.flatten

/-- The pages the listing loop asks for; it asks for the first one in any case. -/
def pageCount (pages : List (List ZoneEntry)) : Nat := max 1 pages.length

/-- The record is the challenge record of a call's domain and value, in the zone that
best matches the domain. -/
def IsChallenge (pages : List (List ZoneEntry)) (call : DnsCall) (record : TxtRecord) : Prop :=
  ∃ zone, zoneOf call.domain (allZones pages) = .ok zone ∧
    record.Fits zone (recordName call.domain) call.value

/-! ## Any number of calls in any number of processes -/

section Runs

variable {Tid : Type} (pages : List (List ZoneEntry)) (replica : Tid → Nat) (calls : Tid → DnsCall)

/-- The account with a log of its requests. -/
abbrev History (Tid : Type) := Recorded Tid Op Op.Answer DnsAccount

/-- Replicas that share an account. -/
abbrev Replicas (Tid : Type) := Pool Tid Op Op.Answer (Except Stop Unit) (History Tid)

/-- The calls before their first request. -/
def start (fuel : Nat) (w : DnsAccount) : Replicas Tid := ⟨⟨w, []⟩, fun i => run fuel (calls i)⟩

/-- Ids identify records and are handed out once. -/
structure DnsAccount.WellFormed (w : DnsAccount) : Prop where
  issued : ∀ r ∈ w.records, r.id ∈ w.issued
  unique : ∀ r ∈ w.records, ∀ r' ∈ w.records, r.id = r'.id → r = r'

/-- A request of the call added its challenge record. -/
def Posted (i : Tid) (log : List (Moment Tid Op Op.Answer DnsAccount)) : Prop :=
  ∃ m ∈ log, m.event.tid = i ∧
    ∃ r, IsChallenge pages (calls i) r ∧ r ∉ m.before.records ∧ r ∈ m.after.records

/-- The call's query for its challenge records was answered, and the records it listed are
gone, except those with the given ids.  Where the challenge records fitted on a page, it
listed them all. -/
def Cleared (i : Tid) (zone : DnsName) (ids : List String) (w : History Tid) : Prop :=
  ∃ m ∈ w.log, ∃ reply body,
    m.event = ⟨i, .findRecords zone (recordName (calls i).domain) (calls i).value, reply⟩ ∧
    Accepted reply body ∧
    (∀ r ∈ m.before.records, r.id ∈ listedIds body → r.id ∈ ids ∨ r ∉ w.now.records) ∧
    ((m.before.records.filter (fun r => decide (r.Fits zone (recordName (calls i).domain)
        (calls i).value))).length ≤ recordsPerPage →
      ∀ r ∈ m.before.records, r.Fits zone (recordName (calls i).domain) (calls i).value →
        r.id ∈ listedIds body)

/-- What a phase of a call says about the account and its past. -/
def PhaseHolds (i : Tid) (w : History Tid) : Phase → Prop
  | .started => True
  | .listing n page zones => page = n + 1 ∧ n < pageCount pages ∧
      zones = zonesOf (pages.take n).flatten
  | .collected zones => zones = allZones pages
  | .cached => w.now.caches (replica i) ≠ none
  | .placed zone => zoneOf (calls i).domain (allZones pages) = .ok zone
  | .created _ => Posted pages calls i w.log
  | .deleting zone ids => zoneOf (calls i).domain (allZones pages) = .ok zone ∧
      (∀ id ∈ ids, id ∈ w.now.issued ∧ ∀ r ∈ w.now.records, r.id = id →
        r.Fits zone (recordName (calls i).domain) (calls i).value) ∧
      Cleared calls i zone ids w
  | .failed => True
  | .broken => False

/-- The invariant of all runs. -/
structure Sound (locals : Tid → Local) (w : History Tid) : Prop where
  call : ∀ i, (locals i).call = calls i
  wellFormed : w.now.WellFormed
  caches : ∀ k zones, w.now.caches k = some zones → zones = allZones pages
  phases : ∀ i, PhaseHolds pages replica calls i w (locals i).phase
  spares : ∀ m ∈ w.log, ∀ r ∈ m.before.records, r ∉ m.after.records →
    (calls m.event.tid).action = .delete ∧ IsChallenge pages (calls m.event.tid) r
  logged : ∀ m ∈ w.log, ∀ r ∈ m.before.records, r.id ∈ w.now.issued

/-- What every request does to the account: ids stay handed out, new records have new
ids, a cache that is filled stays filled. -/
structure Advances (w w' : DnsAccount) : Prop where
  issued : ∀ id ∈ w.issued, id ∈ w'.issued
  fresh : ∀ r ∈ w'.records, r ∈ w.records ∨ r.id ∉ w.issued
  filled : ∀ k, w.caches k ≠ none → w'.caches k ≠ none

/-- Nothing may happen. -/
theorem Advances.refl (w : DnsAccount) : Advances w w :=
  ⟨fun _ h => h, fun _ h => .inl h, fun _ h => h⟩

/-- A record may be added under a new id. -/
theorem Advances.post {w : DnsAccount} {r : TxtRecord} (hfresh : r.id ∉ w.issued) :
    Advances w { w with records := w.records ++ [r], issued := r.id :: w.issued } where
  issued := fun _ h => List.mem_cons_of_mem _ h
  fresh := by
    intro r' hr'
    rcases List.mem_append.mp hr' with hold | hnew
    · exact .inl hold
    · rw [List.mem_singleton.mp hnew]
      exact .inr hfresh
  filled := fun _ h => h

/-- Records may be removed. -/
theorem Advances.remove (w : DnsAccount) (p : TxtRecord → Bool) :
    Advances w { w with records := w.records.filter p } where
  issued := fun _ h => h
  fresh := fun _ h => .inl (List.mem_filter.mp h).1
  filled := fun _ h => h

/-- An added record keeps the account well formed. -/
theorem DnsAccount.WellFormed.post {w : DnsAccount} (h : w.WellFormed) {r : TxtRecord}
    (hfresh : r.id ∉ w.issued) :
    DnsAccount.WellFormed { w with records := w.records ++ [r], issued := r.id :: w.issued } where
  issued := by
    intro r' hr'
    rcases List.mem_append.mp hr' with hold | hnew
    · exact List.mem_cons_of_mem _ (h.issued r' hold)
    · rw [List.mem_singleton.mp hnew]
      exact List.mem_cons_self
  unique := by
    have hne : ∀ r' ∈ w.records, r'.id ≠ r.id := by
      intro r' hr' hid
      exact hfresh (hid ▸ h.issued r' hr')
    intro r₁ h₁ r₂ h₂ hid
    rcases List.mem_append.mp h₁ with h₁ | h₁ <;> rcases List.mem_append.mp h₂ with h₂ | h₂
    · exact h.unique r₁ h₁ r₂ h₂ hid
    · rw [List.mem_singleton.mp h₂] at hid
      exact absurd hid (hne r₁ h₁)
    · rw [List.mem_singleton.mp h₁] at hid
      exact absurd hid.symm (hne r₂ h₂)
    · rw [List.mem_singleton.mp h₁, List.mem_singleton.mp h₂]

/-- So does the removal of records. -/
theorem DnsAccount.WellFormed.remove {w : DnsAccount} (h : w.WellFormed) (p : TxtRecord → Bool) :
    DnsAccount.WellFormed { w with records := w.records.filter p } where
  issued := fun r hr => h.issued r (List.mem_filter.mp hr).1
  unique := fun r hr r' hr' => h.unique r (List.mem_filter.mp hr).1 r' (List.mem_filter.mp hr').1

variable {pages replica calls}

/-- What a phase says stays true while others make requests. -/
theorem PhaseHolds.advance {i : Tid} {w : History Tid} {w' : DnsAccount}
    {m : Moment Tid Op Op.Answer DnsAccount} {phase : Phase}
    (h : PhaseHolds pages replica calls i w phase)
    (hlogged : ∀ m ∈ w.log, ∀ r ∈ m.before.records, r.id ∈ w.now.issued)
    (hadvances : Advances w.now w') :
    PhaseHolds pages replica calls i ⟨w', w.log ++ [m]⟩ phase := by
  cases phase with
  | started => trivial
  | listing n page zones => exact h
  | collected zones => exact h
  | cached => exact hadvances.filled _ h
  | placed zone => exact h
  | created zone =>
      obtain ⟨m', hm', hposted⟩ := h
      exact ⟨m', List.mem_append_left _ hm', hposted⟩
  | deleting zone ids =>
      obtain ⟨hzone, hids, m', hm', reply, body, hquery, haccepted, hcleared, hall⟩ := h
      refine ⟨hzone, ?_, m', List.mem_append_left _ hm', reply, body, hquery, haccepted, ?_, hall⟩
      · intro id hid
        obtain ⟨hissued, hfits⟩ := hids id hid
        refine ⟨hadvances.issued id hissued, ?_⟩
        intro r hr hrid
        rcases hadvances.fresh r hr with hold | hfresh
        · exact hfits r hold hrid
        · exact absurd (hrid ▸ hissued) hfresh
      · intro r hr hlisted
        rcases hcleared r hr hlisted with hleft | hgone
        · exact .inl hleft
        · refine .inr ?_
          intro hback
          rcases hadvances.fresh r hback with hold | hfresh
          · exact hgone hold
          · exact hfresh (hlogged m' hm' r hr)
  | failed => trivial
  | broken => exact h

/-- **A page of zones.**  The listing goes on with the next page as long as there is one,
and has every zone otherwise. -/
theorem listing_next (call : DnsCall) {i : Tid} {w : History Tid} {n page : Nat}
    {zones : List ZoneInfo} {reply : Reply (ApiResponse (List ZoneEntry))}
    (h : PhaseHolds pages replica calls i w (.listing n page zones))
    (htruthful : TruthfulPage pages page reply) :
    PhaseHolds pages replica calls i w
      (nextPhase ⟨call, .listing n page zones⟩ (.listZones page) reply) := by
  obtain ⟨rfl, hn, rfl⟩ := h
  simp only [nextPhase]
  cases hread : readResponse reply with
  | error e => trivial
  | ok body =>
      obtain ⟨hresult, hinfo⟩ := htruthful body hread
      have hpage : zonesOf (pages.take n).flatten ++ zonesOf (body.result.getD []) =
          zonesOf (pages.take (n + 1)).flatten := by
        rw [hresult, List.take_add_one]
        cases hget : pages[n]? with
        | none => simp [zonesOf, hget]
        | some entries => simp [zonesOf, hget]
      have hlast : pages.length ≤ n + 1 →
          zonesOf (pages.take (n + 1)).flatten = allZones pages := by
        intro hle
        rw [List.take_of_length_le hle, allZones]
      simp only [hpage]
      obtain hinfo | ⟨hinfo, hone⟩ := hinfo
      · by_cases hmore : n + 1 < pages.length
        · have hnext : nextPage body = some (n + 1 + 1) := by simp [nextPage, hinfo, hmore]
          rw [hnext]
          exact ⟨rfl, lt_of_lt_of_le hmore (le_max_right _ _), rfl⟩
        · have hnext : nextPage body = none := by simp [nextPage, hinfo, hmore]
          rw [hnext]
          exact hlast (by omega)
      · have hnext : nextPage body = none := by simp [nextPage, hinfo]
        rw [hnext]
        exact hlast (by omega)

/-- The records a deletion by id removes are those the call has observed. -/
theorem removed_isChallenge {i : Tid} {w : History Tid} {zone : DnsName} {id : String}
    {ids : List String} (h : PhaseHolds pages replica calls i w (.deleting zone (id :: ids)))
    {r : TxtRecord} (hr : r ∈ w.now.records)
    (hgone : r ∉ w.now.records.filter (fun r => ¬(r.zone = zone ∧ r.id = id))) :
    IsChallenge pages (calls i) r := by
  obtain ⟨hzone, hids, _⟩ := h
  have hid : r.id = id := by
    by_contra hid
    exact hgone (List.mem_filter.mpr ⟨hr, by simp [hid]⟩)
  exact ⟨zone, hzone, (hids id List.mem_cons_self).2 r hr hid⟩

/-- After a deletion by id the records with the other ids are left to delete. -/
theorem deleting_next {i : Tid} {w : History Tid} {zone : DnsName} {id : String}
    {ids : List String}
    (h : PhaseHolds pages replica calls i w (.deleting zone (id :: ids)))
    {m : Moment Tid Op Op.Answer DnsAccount} :
    PhaseHolds pages replica calls i
      ⟨{ w.now with records := w.now.records.filter (fun r => ¬(r.zone = zone ∧ r.id = id)) },
        w.log ++ [m]⟩ (.deleting zone ids) := by
  obtain ⟨hzone, hids, m', hm', reply, body, hquery, haccepted, hcleared, hall⟩ := h
  refine ⟨hzone, ?_, m', List.mem_append_left _ hm', reply, body, hquery, haccepted, ?_, hall⟩
  · intro other hother
    obtain ⟨hissued, hfits⟩ := hids other (List.mem_cons_of_mem _ hother)
    exact ⟨hissued, fun r hr => hfits r (List.mem_filter.mp hr).1⟩
  · intro r hr hlisted
    rcases hcleared r hr hlisted with hleft | hgone
    · obtain rfl | hrest := List.mem_cons.mp hleft
      · refine .inr ?_
        intro hback
        obtain ⟨hback, hkept⟩ := List.mem_filter.mp hback
        have hfits := (hids r.id List.mem_cons_self).2 r hback rfl
        simp [hfits.1] at hkept
      · exact .inl hrest
    · exact .inr fun hback => hgone (List.mem_filter.mp hback).1

/-- A reading of the cached zones. -/
theorem Sound.readZones {locals : Tid → Local} {w : History Tid}
    (h : Sound pages replica calls locals w) {i : Tid} (hmay : may (locals i) .readZones) :
    PhaseHolds pages replica calls i w
      (nextPhase (locals i) .readZones (w.now.caches (replica i))) := by
  have hcall := h.call i
  have hphase := h.phases i
  generalize locals i = s at hcall hphase hmay
  obtain ⟨call, phase⟩ := s
  obtain rfl : call = calls i := hcall
  rcases hmay with hstarted | hcached
  · cases hstarted
    cases hread : w.now.caches (replica i) with
    | none => exact ⟨rfl, lt_of_lt_of_le Nat.one_pos (le_max_left _ _), rfl⟩
    | some zones =>
        change w.now.caches (replica i) ≠ none
        simp [hread]
  · cases hcached
    cases hread : w.now.caches (replica i) with
    | none => exact absurd hread hphase
    | some zones =>
        obtain rfl := h.caches _ _ hread
        simp only [nextPhase]
        cases hzone : zoneOf (calls i).domain (allZones pages) with
        | error e => trivial
        | ok zone => exact hzone

variable [DecidableEq Tid]

/-- **The rule for one request.**  Its effect on the account is one that every phase
survives, it removes only challenge records of its call, and the new phase of its call
holds. -/
theorem Sound.request {locals : Tid → Local} {w : History Tid}
    (h : Sound pages replica calls locals w) {i : Tid} {op : Op} {reply : op.Answer}
    {w' : DnsAccount} {phase : Phase} (hadvances : Advances w.now w') (hwellFormed : w'.WellFormed)
    (hcaches : ∀ k zones, w'.caches k = some zones → zones = allZones pages)
    (hremoved : ∀ r ∈ w.now.records, r ∉ w'.records →
      (calls i).action = .delete ∧ IsChallenge pages (calls i) r)
    (hphase : PhaseHolds pages replica calls i
      ⟨w', w.log ++ [⟨⟨i, op, reply⟩, w.now, w'⟩]⟩ phase) :
    Sound pages replica calls (Function.update locals i { locals i with phase := phase })
      ⟨w', w.log ++ [⟨⟨i, op, reply⟩, w.now, w'⟩]⟩ where
  call := by
    intro j
    by_cases hj : j = i
    · subst hj
      simpa using h.call j
    · simpa [hj] using h.call j
  wellFormed := hwellFormed
  caches := hcaches
  phases := by
    intro j
    by_cases hj : j = i
    · subst hj
      simpa using hphase
    · simpa [hj] using (h.phases j).advance h.logged hadvances
  spares := by
    intro m hm r hr hgone
    rcases List.mem_append.mp hm with hm | hm
    · exact h.spares m hm r hr hgone
    · obtain rfl := List.mem_singleton.mp hm
      exact hremoved r hr hgone
  logged := by
    intro m hm r hr
    rcases List.mem_append.mp hm with hm | hm
    · exact hadvances.issued _ (h.logged m hm r hr)
    · obtain rfl := List.mem_singleton.mp hm
      exact hadvances.issued _ (h.wellFormed.issued r hr)

/-- A request that leaves the account as it is. -/
theorem Sound.quiet {locals : Tid → Local} {w : History Tid}
    (h : Sound pages replica calls locals w) {i : Tid} {op : Op} {reply : op.Answer}
    {phase : Phase} (hphase : PhaseHolds pages replica calls i w phase) :
    Sound pages replica calls (Function.update locals i { locals i with phase := phase })
      ⟨w.now, w.log ++ [⟨⟨i, op, reply⟩, w.now, w.now⟩]⟩ :=
  h.request (.refl _) h.wellFormed h.caches (fun _ hr hgone => absurd hr hgone)
    (hphase.advance h.logged (.refl _))

/-- **One request of a call.** -/
theorem Sound.step {locals : Tid → Local} {w : History Tid}
    (h : Sound pages replica calls locals w) {i : Tid} {op : Op} {reply : op.Answer}
    {w' : DnsAccount} (hmay : may (locals i) op) (henv : env pages replica i op w.now reply w') :
    Sound pages replica calls
      (Function.update locals i { locals i with phase := nextPhase (locals i) op reply })
      ⟨w', w.log ++ [⟨⟨i, op, reply⟩, w.now, w'⟩]⟩ := by
  have hcall := h.call i
  have hphase := h.phases i
  cases op with
  | readZones =>
      obtain ⟨rfl, rfl⟩ := henv
      exact h.quiet (h.readZones hmay)
  | writeZones zones =>
      rw [show (locals i).phase = .collected zones from hmay] at hphase
      obtain rfl : zones = allZones pages := hphase
      obtain rfl := henv
      refine h.request ⟨fun _ hid => hid, fun _ hr => .inl hr, ?_⟩
        ⟨h.wellFormed.issued, h.wellFormed.unique⟩ ?_ (fun _ hr hgone => absurd hr hgone) ?_
      · intro k hk
        by_cases hki : k = replica i
        · simp [hki]
        · simpa [hki] using hk
      · intro k zones hk
        by_cases hki : k = replica i
        · simpa [hki, eq_comm] using hk
        · exact h.caches k zones (by simpa [hki] using hk)
      · simp [nextPhase, PhaseHolds]
  | listZones page =>
      obtain ⟨n, zones, hlisting⟩ := hmay
      obtain ⟨rfl, htruthful⟩ := henv
      rw [hlisting] at hphase
      have hnext := listing_next (locals i).call hphase htruthful
      rw [← hlisting] at hnext
      exact h.quiet hnext
  | findRecords zone name value =>
      obtain ⟨hplaced, _, rfl, rfl⟩ := hmay
      obtain ⟨rfl, htruthful⟩ := henv
      rw [hplaced] at hphase
      rw [hcall] at htruthful ⊢
      simp only [nextPhase]
      cases hread : readResponse reply with
      | error e => exact h.quiet trivial
      | ok body =>
          obtain ⟨hlisted, hall⟩ := htruthful body hread
          refine h.request (.refl _) h.wellFormed h.caches (fun _ hr hgone => absurd hr hgone)
            ⟨hphase, ?_, _, List.mem_append_right _ List.mem_cons_self, reply, body, rfl, hread,
              fun r _ hlisted => .inl hlisted, hall⟩
          · intro id hid
            obtain ⟨record, hrecord, rfl, hfits⟩ := hlisted id hid
            refine ⟨h.wellFormed.issued record hrecord, ?_⟩
            intro r hr hrid
            rw [h.wellFormed.unique r hr record hrecord hrid]
            exact hfits
  | postRecord zone name value ttl =>
      obtain ⟨hplaced, _, rfl, rfl⟩ := hmay
      rw [hplaced] at hphase
      rw [hcall] at henv ⊢
      simp only [nextPhase]
      obtain ⟨rfl, hrefused⟩ | ⟨id, hfresh, rfl⟩ := henv
      · cases hread : readResponse reply with
        | error e => exact h.quiet trivial
        | ok body => exact absurd hread (hrefused body)
      · refine h.request (.post hfresh) (h.wellFormed.post hfresh) h.caches
          (fun _ hr hgone => absurd (List.mem_append_left _ hr) hgone) ?_
        cases hread : readResponse reply with
        | error e => trivial
        | ok body =>
            refine ⟨_, List.mem_append_right _ List.mem_cons_self, rfl, _, ?_, ?_,
              List.mem_append_right _ List.mem_cons_self⟩
            · exact ⟨zone, hphase, rfl, rfl, rfl⟩
            · exact fun hold => hfresh (h.wellFormed.issued _ hold)
  | deleteRecord zone id =>
      obtain ⟨hdelete, ids, hdeleting⟩ := hmay
      rw [hdeleting] at hphase
      rw [hcall] at hdelete
      simp only [nextPhase, hdeleting]
      obtain ⟨rfl, hrefused⟩ | rfl := henv
      · cases hread : readResponse reply with
        | error e => exact h.quiet trivial
        | ok body => exact absurd hread (hrefused body)
      · refine h.request (.remove _ _) (h.wellFormed.remove _) h.caches
          (fun r hr hgone => ⟨hdelete, removed_isChallenge hphase hr hgone⟩) ?_
        cases hread : readResponse reply with
        | error e => trivial
        | ok body => exact deleting_next hphase

/-- What is known at the end of a run, of its account and of its calls. -/
theorem Sound.of_run {fuel : Nat} {w : DnsAccount} (hwellFormed : w.WellFormed)
    (hcaches : ∀ k zones, w.caches k = some zones → zones = allZones pages)
    {t : List (Event Tid Op Op.Answer)} {c : Replicas Tid}
    (h : Run (recorded (env pages replica)) (start calls fuel w) t c) :
    ∃ locals, Sound pages replica calls locals c.world ∧
      ∀ i, (c.threads i).Obeys discipline (Ended fuel) (locals i) := by
  refine Run.ledger (I := fun _ l => Sound pages replica calls l.locals l.world)
    (fun i => obeys_run fuel (calls i)) ?_ ?_ h
  · refine ⟨fun _ => rfl, hwellFormed, hcaches, fun _ => trivial, ?_, ?_⟩
    · intro m hm
      cases hm
    · intro m hm
      cases hm
  · intro t l e l' hsound hstep
    cases hstep with
    | @act i op reply w' hmay henv =>
        rw [henv.eq]
        exact hsound.step hmay henv.1

/-- Different domains have different challenge records. -/
theorem recordName_injective : Function.Injective recordName :=
  fun _ _ h => List.append_cancel_left h

/-- A record is the challenge record of one domain and value. -/
theorem IsChallenge.unique {call call' : DnsCall} {r : TxtRecord} (h : IsChallenge pages call r)
    (h' : IsChallenge pages call' r) : call.domain = call'.domain ∧ call.value = call'.value := by
  obtain ⟨zone, _, hfits⟩ := h
  obtain ⟨zone', _, hfits'⟩ := h'
  exact ⟨recordName_injective (hfits.2.1.symm.trans hfits'.2.1), hfits.2.2.symm.trans hfits'.2.2⟩

end Runs

/-! ## An account that answers -/

/-- A reply that succeeds. -/
def succeed {α : Type} (result : α) (info : Option ResultInfo) : Reply (ApiResponse α) :=
  .response ⟨200, "OK"⟩ "" (.ok ⟨true, [], some result, info⟩)

/-- Answer a request; `id` is for the record it may add. -/
def answer {Tid : Type} (pages : List (List ZoneEntry)) (replica : Tid → Nat) (id : String)
    (i : Tid) (op : Op) (w : DnsAccount) : Option (op.Answer × DnsAccount) :=
  match op with
  | .readZones => some (w.caches (replica i), w)
  | .writeZones zones =>
      some ((), { w with caches := Function.update w.caches (replica i) (some zones) })
  | .listZones page =>
      some (succeed (pages.getD (page - 1) []) (some ⟨page, pages.length⟩), w)
  | .findRecords zone name value =>
      let fitting := w.records.filter fun r => decide (r.Fits zone name value)
      some (succeed (fitting.map fun r => ⟨r.id⟩) none, w)
  | .postRecord zone name value _ =>
      if id ∈ w.issued then none
      else
        let w' : DnsAccount :=
          { w with records := w.records ++ [⟨id, zone, name, value⟩], issued := id :: w.issued }
        some (succeed ⟨id⟩ none, w')
  | .deleteRecord zone id =>
      let w' : DnsAccount :=
        { w with records := w.records.filter (fun r => ¬(r.zone = zone ∧ r.id = id)) }
      some (succeed ⟨id⟩ none, w')

/-- The body of an accepted request. -/
theorem accepted_succeed {α : Type} {result : α} {info : Option ResultInfo}
    {body : ApiResponse α} (h : Accepted (succeed result info) body) :
    body = ⟨true, [], some result, info⟩ := by
  cases h
  rfl

/-- The sample account answers as the API may. -/
theorem answer_sound {Tid : Type} {pages : List (List ZoneEntry)} {replica : Tid → Nat}
    {id : String} {i : Tid} {op : Op} {w w' : DnsAccount} {reply : op.Answer}
    (h : answer pages replica id i op w = some (reply, w')) :
    env pages replica i op w reply w' := by
  cases op with
  | readZones =>
      cases h
      exact ⟨rfl, rfl⟩
  | writeZones zones =>
      cases h
      rfl
  | listZones page =>
      cases h
      refine ⟨rfl, ?_⟩
      intro body hbody
      rw [accepted_succeed hbody]
      exact ⟨rfl, .inl rfl⟩
  | findRecords zone name value =>
      cases h
      refine ⟨rfl, ?_⟩
      intro body hbody
      rw [accepted_succeed hbody]
      constructor
      · intro id hid
        simp only [listedIds, Option.getD_some, List.map_map, List.mem_map, List.mem_filter,
          decide_eq_true_eq] at hid
        obtain ⟨record, ⟨hmem, hfits⟩, hid⟩ := hid
        exact ⟨record, hmem, hid, hfits⟩
      · intro _ record hmem hfits
        simp only [listedIds, Option.getD_some, List.map_map, List.mem_map, List.mem_filter,
          decide_eq_true_eq]
        exact ⟨record, ⟨hmem, hfits⟩, rfl⟩
  | postRecord zone name value ttl =>
      simp only [answer] at h
      split at h
      · cases h
      · rename_i hfresh
        cases h
        exact .inr ⟨id, hfresh, rfl⟩
  | deleteRecord zone id =>
      cases h
      exact .inr rfl

end CloudflareDns

open CloudflareDns

/-- **Cloudflare challenge records.**  Whatever the calls of the processes and the order of
their requests, no call finds its zone cache empty or lists zones without end; a call that
has created its record put it into the zone that best matches its domain, and the record is
still there unless a later deletion of the same domain and value removed it; a deletion
that has succeeded leaves none of the records that its query listed, which are all there
were when they fit on one page; and no request removes a record of another domain or
value. -/
theorem cloudflare_keeps_challenge_records {Tid : Type} [DecidableEq Tid]
    (pages : List (List ZoneEntry)) (replica : Tid → Nat) (calls : Tid → DnsCall) {fuel : Nat}
    (hfuel : pageCount pages ≤ fuel) {w : DnsAccount} (hwellFormed : w.WellFormed)
    (hcaches : ∀ k zones, w.caches k = some zones → zones = allZones pages)
    {t : List (Event Tid Op Op.Answer)} {c : Replicas Tid}
    (h : Run (recorded (env pages replica)) (start calls fuel w) t c) :
    (∀ i, c.threads i ≠ .ret (.error .emptyCache) ∧ c.threads i ≠ .ret (.error .unfinished)) ∧
    (∀ i, (calls i).action = .create → c.threads i = .ret (.ok ()) →
      ∃ earlier m later r, c.world.log = earlier ++ m :: later ∧ m.event.tid = i ∧
        IsChallenge pages (calls i) r ∧ r ∉ m.before.records ∧ r ∈ m.after.records ∧
        (r ∉ c.world.now.records → ∃ m' ∈ later, r ∈ m'.before.records ∧ r ∉ m'.after.records ∧
          (calls m'.event.tid).action = .delete ∧
          (calls m'.event.tid).domain = (calls i).domain ∧
          (calls m'.event.tid).value = (calls i).value)) ∧
    (∀ i, (calls i).action = .delete → c.threads i = .ret (.ok ()) →
      ∃ zone, zoneOf (calls i).domain (allZones pages) = .ok zone ∧
        Cleared calls i zone [] c.world) ∧
    ∀ m ∈ c.world.log, ∀ r ∈ m.before.records, r ∉ m.after.records →
      (calls m.event.tid).action = .delete ∧ IsChallenge pages (calls m.event.tid) r := by
  obtain ⟨locals, hsound, hobeys⟩ := Sound.of_run hwellFormed hcaches h
  have hended : ∀ i result, c.threads i = .ret result → Ended fuel (locals i) result := by
    intro i result hret
    have hi := hobeys i
    rwa [hret] at hi
  refine ⟨?_, ?_, ?_, hsound.spares⟩
  · intro i
    have hphase := hsound.phases i
    constructor
    · intro hret
      rw [show (locals i).phase = .broken from hended i _ hret] at hphase
      exact hphase
    · intro hret
      obtain ⟨page, zones, hlisting⟩ := hended i _ hret
      rw [hlisting] at hphase
      exact absurd hphase.2.1 (by omega)
  · intro i haction hret
    have hend := hended i _ hret
    simp only [Ended, hsound.call i, haction] at hend
    obtain ⟨zone, hcreated⟩ := hend
    have hphase := hsound.phases i
    rw [hcreated] at hphase
    obtain ⟨m, hm, htid, r, hchallenge, hbefore, hafter⟩ := hphase
    obtain ⟨earlier, later, hlog⟩ := List.append_of_mem hm
    refine ⟨earlier, m, later, r, hlog, htid, hchallenge, hbefore, hafter, ?_⟩
    intro hgone
    obtain ⟨m', hm', hheld, hlost⟩ :=
      h.lost_at rfl (P := fun account => r ∈ account.records) hlog hafter hgone
    have hmem : m' ∈ c.world.log := by
      rw [hlog]
      exact List.mem_append_right _ (List.mem_cons_of_mem _ hm')
    obtain ⟨hdelete, hother⟩ := hsound.spares m' hmem r hheld hlost
    obtain ⟨hdomain, hvalue⟩ := hother.unique hchallenge
    exact ⟨m', hm', hheld, hlost, hdelete, hdomain, hvalue⟩
  · intro i haction hret
    have hend := hended i _ hret
    simp only [Ended, hsound.call i, haction] at hend
    obtain ⟨zone, hdeleted⟩ := hend
    have hphase := hsound.phases i
    rw [hdeleted] at hphase
    exact ⟨zone, hphase.1, hphase.2.2⟩

/-! ## Two challenges for one domain -/

/-- Two zones on two pages. -/
def samplePages : List (List ZoneEntry) := [[⟨['1'], ['c', 'o', 'm']⟩], [⟨['2'], exampleCom⟩]]

/-- An account without records, and replicas without zones. -/
def emptyDnsAccount : DnsAccount := ⟨[], [], fun _ => none⟩

/-- Two calls that create a value each, and one that deletes the first value. -/
def sampleCloudflareCalls : Fin 3 → DnsCall
  | 0 => ⟨.create, exampleCom, "one"⟩
  | 1 => ⟨.create, exampleCom, "two"⟩
  | 2 => ⟨.delete, exampleCom, "one"⟩

/-- The creations list the zones at the same time; the deletion follows. -/
def sampleCloudflareRun :=
  Pool.drive (recordedAnswer (CloudflareDns.answer samplePages fun _ : Fin 3 => 0))
    [(0, ""), (1, ""), (0, ""), (1, ""), (0, ""), (1, ""), (0, ""), (1, ""), (0, ""), (1, ""),
      (0, "a"), (1, "b"), (2, ""), (2, ""), (2, ""), (2, "")]
    (CloudflareDns.start sampleCloudflareCalls 2 emptyDnsAccount)

/-- The sample is a run. -/
theorem sampleCloudflareRun_runs :
    Run (recorded (CloudflareDns.env samplePages fun _ : Fin 3 => 0))
      (CloudflareDns.start sampleCloudflareCalls 2 emptyDnsAccount)
      sampleCloudflareRun.1 sampleCloudflareRun.2 := by
  apply Run.drive
  intro id i op w r w' h
  refine recordedAnswer_sound ?_ h
  exact fun _ _ _ _ _ _ hanswer => CloudflareDns.answer_sound hanswer

/-- All calls have succeeded. -/
theorem sampleCloudflareRun_threads (i : Fin 3) :
    sampleCloudflareRun.2.threads i = .ret (.ok ()) := by
  apply Prog.eq_ret_of_result?
  match i with
  | 0 => rfl
  | 1 => rfl
  | 2 => rfl

/-- An account without records is well formed. -/
theorem wellFormed_emptyDnsAccount : emptyDnsAccount.WellFormed where
  issued := by
    intro r hr
    cases hr
  unique := by
    intro r hr
    cases hr

/-- All three succeed and the record of the second challenge is left. -/
theorem cloudflare_keeps_challenge_records_sample :
    sampleCloudflareRun.2.world.now.records =
      [⟨"b", ['2'], CloudflareDns.recordName exampleCom, "two"⟩] ∧
    ∃ zone, CloudflareDns.zoneOf exampleCom (allZones samplePages) = .ok zone ∧
      Cleared sampleCloudflareCalls 2 zone [] sampleCloudflareRun.2.world := by
  refine ⟨by decide +kernel, ?_⟩
  have hkeeps := cloudflare_keeps_challenge_records samplePages _ sampleCloudflareCalls
    (le_refl 2) wellFormed_emptyDnsAccount (fun _ _ h => by cases h) sampleCloudflareRun_runs
  exact hkeeps.2.2.1 2 rfl (sampleCloudflareRun_threads 2)

end StatusListServer
