import StatusListServer.ProgramLogic
import StatusListServer.RunHistory
import StatusListServer.SecretNames

/-!
# TXT records of DNS-01 challenges

What the DNS providers of `challenge/dns01` share: the choice of a zone, the name
of the challenge record, the reading of replies, and the two calls that create
and delete the TXT record of a value.

`DnsProvider` is what is known of a provider from the outside.  Its record sets
change by whole writes; `DnsCall.merge` is what a call makes of the values of a
set.  A history in which every request leaves each record set alone or merges it
keeps the values of all calls (`KeepsValues.of_merges`).
-/

namespace StatusListServer

open Interaction

/-! ## Names and zones -/

/-- A domain name or the name of a record, as text. -/
abbrev DnsName := List Char

/-- `str::trim_end_matches('.')`. -/
def trimEndDots (name : DnsName) : DnsName := (name.reverse.dropWhile (· == '.')).reverse

/-- `str::strip_suffix`. -/
def stripSuffix (suffix name : DnsName) : Option DnsName :=
  if suffix.isSuffixOf name then some (name.take (name.length - suffix.length)) else none

/-- `str::strip_prefix` with `"*."`. -/
def stripWildcard : DnsName → Option DnsName
  | '*' :: '.' :: rest => some rest
  | _ => none

/-- The number of bytes of a name. -/
def byteLength (name : DnsName) : Nat := (name.map Char.utf8Size).sum

/-- A DNS zone known to a provider. -/
structure ZoneInfo where
  name : DnsName
  id : DnsName
deriving DecidableEq, Repr

/-- `ZoneInfo::new`: without dots at the end. -/
def ZoneInfo.new (name id : DnsName) : ZoneInfo := ⟨trimEndDots name, id⟩

/-- Whether a zone covers a name. -/
def zoneMatches (lookup zoneName : DnsName) : Bool :=
  match stripWildcard zoneName with
  | some stripped =>
      match stripSuffix stripped lookup with
      | some front => front.contains '.'
      | none => false
  | none => lookup == zoneName || ('.' :: zoneName).isSuffixOf lookup

/-- The longest zone that covers a name; the first one of that length. -/
def findBestMatch (lookup : DnsName) (zones : List ZoneInfo) : Option ZoneInfo :=
  zones.foldl (fun best zone =>
    if zoneMatches lookup zone.name then
      match best with
      | none => some zone
      | some current =>
          if byteLength zone.name > byteLength current.name then some zone else best
    else best) none

/-- `"_acme-challenge."`. -/
def acmeChallengeLabel : DnsName :=
  ['_', 'a', 'c', 'm', 'e', '-', 'c', 'h', 'a', 'l', 'l', 'e', 'n', 'g', 'e', '.']

/-- `example.com`. -/
def exampleCom : DnsName := ['e', 'x', 'a', 'm', 'p', 'l', 'e', '.', 'c', 'o', 'm']

example : findBestMatch exampleCom [⟨['c', 'o', 'm'], ['1']⟩, ⟨exampleCom, ['2']⟩] =
    some ⟨exampleCom, ['2']⟩ := by decide

/-! ## Reading replies -/

/-- `parse_response`: the body of a success, or an error. -/
def parseResponse {β : Type} (dnsErr : String → ChallengeError) (status : StatusCode)
    (text : String) : Except String β → Except ChallengeError β
  | .ok body =>
      if status.isSuccess then .ok body
      else .error (dnsErr s!"API request failed (status {status}): {text}")
  | .error e =>
      if status.isSuccess then .error (dnsErr s!"Invalid API response (status {status}): {e}")
      else .error (dnsErr s!"API request failed (status {status}): {text}")

/-- Only a success has a body. -/
theorem isSuccess_of_parseResponse {β : Type} {dnsErr : String → ChallengeError}
    {status : StatusCode} {text : String} {json : Except String β} {body : β}
    (h : parseResponse dnsErr status text json = .ok body) :
    status.isSuccess = true ∧ json = .ok body := by
  unfold parseResponse at h
  split at h
  · split at h
    · rename_i hsuccess
      cases h
      exact ⟨hsuccess, rfl⟩
    · cases h
  · split at h
    · cases h
    · cases h

/-- Seconds to wait before asking again about a change; the delay doubles with
every retry, as far as a 32-bit factor goes. -/
def backoffDelay (initialDelay timeout retries : Nat) : Nat :=
  if retries < 32 then initialDelay * Nat.pow 2 retries else timeout

/-- Waiting takes time. -/
theorem backoffDelay_pos {initialDelay timeout : Nat} (hinitial : 0 < initialDelay)
    (htimeout : 0 < timeout) (retries : Nat) : 0 < backoffDelay initialDelay timeout retries := by
  unfold backoffDelay
  split
  · exact Nat.mul_pos hinitial (Nat.pow_pos (by decide))
  · exact htimeout

/-! ## Calls -/

/-- What a call does. -/
inductive DnsAction
  | create
  | delete
deriving DecidableEq, Repr

/-- A call of `create_txt_record` or `delete_txt_record`. -/
structure DnsCall where
  action : DnsAction
  domain : DnsName
  value : String
deriving DecidableEq, Repr

/-- What a call knows: the record set it read last, and the one it found or left
with its value. -/
structure DnsLocal (S : Type) where
  call : DnsCall
  seen : Option ((DnsName × DnsName) × S)
  settled : Option (DnsName × DnsName)

/-- What a call has done when it returns: a successful creation has settled its value. -/
abbrev DnsCall.Settles {S : Type} (call : DnsCall) (s : DnsLocal S)
    (r : Except ChallengeError Unit) : Prop :=
  r = .ok () → call.action = .create → s.settled ≠ none

section Settling

variable {S : Type} {Op : Type} {Res : Op → Type} {may : DnsLocal S → Op → Prop}
  {next : DnsLocal S → (op : Op) → Res op → DnsLocal S} {call : DnsCall} {s : DnsLocal S}

/-- A request whose answer the call does not remember. -/
theorem DnsCall.obeys_quiet_bind {β : Type} (op : Op) {decode : Res op → Except ChallengeError β}
    {f : β → ExceptT ChallengeError (Prog Op Res) Unit} (hmay : may s op)
    (hnext : ∀ r, next s op r = s)
    (h : ∀ b, Prog.Obeys ⟨DnsLocal S, may, next⟩ call.Settles s (f b).run) :
    Prog.Obeys ⟨DnsLocal S, may, next⟩ call.Settles s (Prog.request op decode >>= f).run :=
  Prog.obeys_quietRequest_bind (D := ⟨DnsLocal S, may, next⟩) hmay hnext h fun _ hok => by cases hok

/-- A call that fails has nothing to settle. -/
theorem DnsCall.obeys_throw {e : ChallengeError} :
    Prog.Obeys ⟨DnsLocal S, may, next⟩ call.Settles s
      (throw e : ExceptT ChallengeError (Prog Op Res) Unit).run := by
  intro hok
  cases hok

end Settling

section Records

variable {R : Type} [DecidableEq R]

/-- Add a record unless it is there. -/
def pushRecord (record : R) (records : List R) : List R :=
  if record ∈ records then records else records ++ [record]

/-- Drop a record. -/
def dropRecord (record : R) (records : List R) : List R := records.filter (· ≠ record)

/-- What a call makes of the records of a set. -/
def DnsCall.merge (record : String → R) (call : DnsCall) (records : List R) : List R :=
  match call.action with
  | .create => pushRecord (record call.value) records
  | .delete => dropRecord (record call.value) records

/-- A pushed record is there. -/
theorem mem_pushRecord (record : R) (records : List R) : record ∈ pushRecord record records := by
  unfold pushRecord
  split
  · assumption
  · simp

/-- The others stay. -/
theorem subset_pushRecord (record : R) (records : List R) :
    ∀ r ∈ records, r ∈ pushRecord record records := by
  intro r hr
  unfold pushRecord
  split
  · exact hr
  · exact List.mem_append_left _ hr

/-- A merge loses at most the record of its own value, and that only in a
deletion. -/
theorem DnsCall.mem_merge {record : String → R} {call : DnsCall} {records : List R} {r : R}
    (hr : r ∈ records) (hkeep : call.action = .delete → r ≠ record call.value) :
    r ∈ call.merge record records := by
  unfold DnsCall.merge
  split
  · exact subset_pushRecord _ _ r hr
  · rename_i haction
    exact List.mem_filter.mpr ⟨hr, by simpa using hkeep haction⟩

end Records

/-! ## Providers and what their callers rely on -/

/-- A DNS provider with the server behind it, which holds a record set for a name
in a zone. -/
structure DnsProvider where
  Op : Type
  Answer : Op → Type
  Server : Type
  Record : Type
  decEqRecord : DecidableEq Record
  /-- The program of a call. -/
  run : DnsCall → Prog Op Answer (Except ChallengeError Unit)
  /-- How the server answers a request. -/
  env : Answers Op Answer Server
  records : Server → DnsName × DnsName → List Record
  /-- The record of a value. -/
  record : String → Record
  /-- The name in a zone of the challenge record of a domain. -/
  nameIn : DnsName → DnsName → DnsName
  /-- The requests that write. -/
  writes : Op → Bool
  /-- How often a refused write is tried again. -/
  conflictRetries : Nat
  /-- How many operations a call makes at most. -/
  operationLimit : Nat

namespace DnsProvider

variable (P : DnsProvider) {Tid : Type} (calls : Tid → DnsCall)

instance : DecidableEq P.Record := P.decEqRecord

/-- The request leaves every record set alone, or merges it for its call. -/
def Merges (m : Moment Tid P.Op P.Answer P.Server) : Prop :=
  ∀ set, P.records m.after set = P.records m.before set ∨
    P.records m.after set = (calls m.event.tid).merge P.record (P.records m.before set)

variable {P calls} in
/-- A record stays unless its own call deletes it. -/
theorem Merges.kept {m : Moment Tid P.Op P.Answer P.Server} (h : P.Merges calls m)
    {set : DnsName × DnsName} {r : P.Record} (hr : r ∈ P.records m.before set)
    (hkeep : (calls m.event.tid).action = .delete → r ≠ P.record (calls m.event.tid).value) :
    r ∈ P.records m.after set := by
  obtain hsame | hmerged := h set
  · rw [hsame]
    exact hr
  · rw [hmerged]
    exact DnsCall.mem_merge hr hkeep

variable [DecidableEq Tid]

/-- The server with a log of its requests. -/
abbrev History (Tid : Type) := Recorded Tid P.Op P.Answer P.Server

/-- Replicas that share a server. -/
abbrev Replicas (Tid : Type) := Pool Tid P.Op P.Answer (Except ChallengeError Unit) (P.History Tid)

/-- The replicas before their first request. -/
def start (server : P.Server) : P.Replicas Tid := ⟨⟨server, []⟩, fun i => P.run (calls i)⟩

/-- The replicas have made some requests, in any order. -/
abbrev Runs (c₀ : P.Replicas Tid) (t : List (Event Tid P.Op P.Answer)) (c : P.Replicas Tid) :
    Prop := Run (recorded fun _ => P.env) c₀ t c

/-- **What concurrent callers rely on.**  A created value was in the record set at
a request of its call, and only a deletion of the same value removed it later; a
deletion removes no other record; and calls end, after few write requests. -/
structure KeepsValues (t : List (Event Tid P.Op P.Answer)) (c : P.Replicas Tid) : Prop where
  created : ∀ i, (calls i).action = .create → c.threads i = .ret (.ok ()) →
    ∃ (set : DnsName × DnsName) (earlier later : List (Moment Tid P.Op P.Answer P.Server))
      (m : Moment Tid P.Op P.Answer P.Server),
      set.2 = P.nameIn set.1 (calls i).domain ∧ c.world.log = earlier ++ m :: later ∧
      m.event.tid = i ∧ P.record (calls i).value ∈ P.records m.after set ∧
      ∀ m' ∈ later, P.record (calls i).value ∈ P.records m'.before set →
        P.record (calls i).value ∉ P.records m'.after set →
        (calls m'.event.tid).action = .delete ∧ (calls m'.event.tid).value = (calls i).value
  deleted : ∀ m ∈ c.world.log, (calls m.event.tid).action = .delete → ∀ set,
    ∀ r ∈ P.records m.before set, r ≠ P.record (calls m.event.tid).value →
      r ∈ P.records m.after set
  writes : ∀ i, spent (fun op => if P.writes op then 1 else 0) i t ≤ P.conflictRetries + 1
  ends : ∀ i, spent (fun _ => 1) i t ≤ P.operationLimit

variable {P calls}

/-- Histories of merges keep the values of all calls. -/
theorem KeepsValues.of_merges {t : List (Event Tid P.Op P.Answer)} {c : P.Replicas Tid}
    (hrecord : Function.Injective P.record) (hmerges : ∀ m ∈ c.world.log, P.Merges calls m)
    (hcreated : ∀ i, (calls i).action = .create → c.threads i = .ret (.ok ()) →
      ∃ set : DnsName × DnsName, set.2 = P.nameIn set.1 (calls i).domain ∧
        ∃ m ∈ c.world.log, m.event.tid = i ∧ P.record (calls i).value ∈ P.records m.after set)
    (hwrites : ∀ i, spent (fun op => if P.writes op then 1 else 0) i t ≤ P.conflictRetries + 1)
    (hends : ∀ i, spent (fun _ => 1) i t ≤ P.operationLimit) : P.KeepsValues calls t c where
  created := by
    intro i haction hret
    obtain ⟨set, hset, m, hm, htid, hmem⟩ := hcreated i haction hret
    obtain ⟨earlier, later, hlog⟩ := List.append_of_mem hm
    refine ⟨set, earlier, later, m, hset, hlog, htid, hmem, ?_⟩
    intro m' hm' hbefore hafter
    have hlogged : m' ∈ c.world.log := by
      rw [hlog]
      exact List.mem_append_right _ (List.mem_cons_of_mem _ hm')
    by_contra hother
    apply hafter
    apply (hmerges m' hlogged).kept hbefore
    intro hdelete hsame
    exact hother ⟨hdelete, (hrecord hsame).symm⟩
  deleted := by
    intro m hm _ set r hr hne
    exact (hmerges m hm).kept hr (fun _ => hne)
  writes := hwrites
  ends := hends

/-- The set is one of the call's domain and holds its value. -/
def Holds (P : DnsProvider) (call : DnsCall) (server : P.Server) (set : DnsName × DnsName) : Prop :=
  set.2 = P.nameIn set.1 call.domain ∧ P.record call.value ∈ P.records server set

/-- The log answers for what the calls have settled. -/
structure Accounted {S : Type} (P : DnsProvider) (calls : Tid → DnsCall)
    (locals : Tid → DnsLocal S) (w : P.History Tid) : Prop where
  call : ∀ i, (locals i).call = calls i
  merges : ∀ m ∈ w.log, P.Merges calls m
  settled : ∀ i set, (calls i).action = .create → (locals i).settled = some set →
    ∃ m ∈ w.log, m.event.tid = i ∧ P.Holds (calls i) m.after set

/-- One step keeps every settled value accounted for. -/
theorem Accounted.step {S : Type} {locals : Tid → DnsLocal S} {w : P.History Tid}
    (h : P.Accounted calls locals w) {e : Event Tid P.Op P.Answer} {server : P.Server}
    {s : DnsLocal S} (hmerges : P.Merges calls ⟨e, w.now, server⟩)
    (hcall : s.call = (locals e.tid).call)
    (hsettled : ∀ set, (calls e.tid).action = .create → s.settled = some set →
      (locals e.tid).settled = some set ∨ P.Holds (calls e.tid) server set) :
    P.Accounted calls (Function.update locals e.tid s)
      ⟨server, w.log ++ [⟨e, w.now, server⟩]⟩ where
  call := by
    intro i
    by_cases hi : i = e.tid
    · subst hi
      simpa [h.call] using hcall
    · simpa [hi] using h.call i
  merges := by
    intro m hm
    obtain hold | hnew := List.mem_append.mp hm
    · exact h.merges m hold
    · rw [List.mem_singleton.mp hnew]
      exact hmerges
  settled := by
    intro i set hcreate hset
    have earlier : (locals i).settled = some set → ∃ m ∈ w.log ++ [⟨e, w.now, server⟩],
        m.event.tid = i ∧ P.Holds (calls i) m.after set := by
      intro hold
      obtain ⟨m, hm, hrest⟩ := h.settled i set hcreate hold
      exact ⟨m, List.mem_append_left _ hm, hrest⟩
    by_cases hi : i = e.tid
    · subst hi
      rw [Function.update_self] at hset
      obtain hold | hnew := hsettled set hcreate hset
      · exact earlier hold
      · exact ⟨_, List.mem_append_right _ (List.mem_singleton.mpr rfl), rfl, hnew⟩
    · rw [Function.update_of_ne hi] at hset
      exact earlier hset

/-- **The rule for concurrent callers.**  If the programs of the calls keep to a
discipline whose steps merge, and a successful creation has settled its value,
then every run keeps the values. -/
theorem KeepsValues.of_discipline {S : Type} {may : DnsLocal S → P.Op → Prop}
    {next : DnsLocal S → (op : P.Op) → P.Answer op → DnsLocal S}
    (hrecord : Function.Injective P.record)
    (hobeys : ∀ call, (P.run call).Obeys ⟨DnsLocal S, may, next⟩ call.Settles ⟨call, none, none⟩)
    (hwrites : ∀ call, (P.run call).Within (fun op => if P.writes op then 1 else 0)
      (P.conflictRetries + 1))
    (hends : ∀ call, (P.run call).Within (fun _ => 1) P.operationLimit)
    {J : (Tid → DnsLocal S) → P.Server → Prop} {server : P.Server}
    (hinit : J (fun i => ⟨calls i, none, none⟩) server)
    (hstep : ∀ locals server i op r server', J locals server → (locals i).call = calls i →
      may (locals i) op → P.env op server r server' →
      J (Function.update locals i (next (locals i) op r)) server' ∧
      P.Merges calls ⟨⟨i, op, r⟩, server, server'⟩ ∧
      (next (locals i) op r).call = (locals i).call ∧
      ∀ set, (calls i).action = .create → (next (locals i) op r).settled = some set →
        (locals i).settled = some set ∨ P.Holds (calls i) server' set)
    {t : List (Event Tid P.Op P.Answer)} {c : P.Replicas Tid}
    (hrun : P.Runs (P.start calls server) t c) : P.KeepsValues calls t c := by
  have hledger := Run.ledger (D := ⟨DnsLocal S, may, next⟩)
    (I := fun _ l => J l.locals l.world.now ∧ P.Accounted calls l.locals l.world)
    (fun i => hobeys (calls i)) ?_ ?_ hrun
  · obtain ⟨locals, hI, hall⟩ := hledger
    apply KeepsValues.of_merges hrecord hI.2.merges
    · intro i hcreate hret
      have hpost := hall i
      rw [hret] at hpost
      obtain ⟨set, hset⟩ := Option.ne_none_iff_exists'.mp (hpost rfl hcreate)
      obtain ⟨m, hm, htid, hholds⟩ := hI.2.settled i set hcreate hset
      exact ⟨set, hholds.1, m, hm, htid, hholds.2⟩
    · intro i
      obtain ⟨n, hspent, _⟩ := hrun.spent_le (hwrites (calls i))
      omega
    · intro i
      obtain ⟨n, hspent, _⟩ := hrun.spent_le (hends (calls i))
      omega
  · refine ⟨hinit, fun _ => rfl, ?_, ?_⟩
    · intro m hm
      cases hm
    · intro i set _ hset
      cases hset
  · intro t l e l' hI hstep'
    cases hstep' with
    | @act i op r w hmay henv =>
        obtain ⟨henv, hlog⟩ := henv
        obtain ⟨hJ, hmerges, hcall, hsettled⟩ :=
          hstep l.locals l.world.now i op r w.now hI.1 (hI.2.call i) hmay henv
        have haccounted := hI.2.step hmerges hcall hsettled
        rw [← hlog] at haccounted
        exact ⟨hJ, haccounted⟩

end DnsProvider

end StatusListServer
