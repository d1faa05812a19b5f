import StatusListServer.AzureDns
import StatusListServer.GoogleDns

/-!
# Concurrent DNS-01 writers

Replicas that create and delete TXT values of one record name at the same time,
through Azure DNS or Google Cloud DNS, do not drop each other's values.

Both servers are also given as functions, so that a schedule of requests can be
run.
-/

namespace StatusListServer

open Interaction

/-! ## Servers that answer -/

/-- The status of an accepted request. -/
def ok : StatusCode := ⟨200, "OK"⟩

namespace AzureDns

/-- A server without record sets. -/
def emptyServer : Server := fun _ =>
  { current := none
    versions := []
    current_mem := by
      intro rs h
      cases h
    etag_ne := by
      intro rs h
      cases h
    etag_inj := by
      intro rs h
      cases h }

/-- A record set with a new version. -/
def Slot.write (slot : Slot) (etag : String) (properties : RecordSetProperties)
    (hfresh : ∀ rs ∈ slot.versions, rs.etag ≠ some etag) : Slot where
  current := some ⟨some etag, properties⟩
  versions := ⟨some etag, properties⟩ :: slot.versions
  current_mem := by
    intro rs h
    cases h
    exact List.mem_cons_self
  etag_ne := by
    intro rs h
    obtain rfl | hold := List.mem_cons.mp h
    · simp
    · exact slot.etag_ne rs hold
  etag_inj := by
    intro rs h rs' h' hetag
    obtain rfl | hold := List.mem_cons.mp h
    · obtain rfl | hold' := List.mem_cons.mp h'
      · rfl
      · exact absurd hetag.symm (hfresh rs' hold')
    · obtain rfl | hold' := List.mem_cons.mp h'
      · exact absurd hetag (hfresh rs hold)
      · exact slot.etag_inj rs hold rs' hold' hetag

/-- A record set without its present version. -/
def Slot.clear (slot : Slot) : Slot :=
  { slot with
    current := none
    current_mem := by
      intro rs h
      cases h }

/-- Whether a precondition holds of a record set. -/
def isMet (current : Option RecordSet) : Precondition → Bool
  | .ifMatch etag =>
      match current with
      | some rs => rs.etag == some etag
      | none => false
  | .ifNoneMatch => current.isNone
  | .none => true

/-- The computed precondition is the one of the API. -/
theorem met_of_isMet {current : Option RecordSet} {precondition : Precondition}
    (h : isMet current precondition = true) : met current precondition := by
  cases precondition with
  | ifMatch etag =>
      cases current with
      | none => cases h
      | some rs => exact ⟨rs, rfl, by simpa [isMet] using h⟩
  | ifNoneMatch => exact Option.isNone_iff_eq_none.mp h
  | none => exact trivial

/-- A server of the given zones that answers every request; the schedule names
the etag of the next version. -/
def answer (zones : List DnsName) (etag : String) :
    (op : Op) → Server → Option (op.Answer × Server)
  | .zones, server => some (.ok zones, server)
  | .accessToken, server => some (.ok (), server)
  | .sleep, server => some ((), server)
  | .get zone name, server =>
      match (server (zone, name)).current with
      | none => some (.response ⟨404, "Not Found"⟩ "" (.error ""), server)
      | some rs => some (.response ok "" (.ok rs), server)
  | .put zone name recordSet precondition, server =>
      if isMet (server (zone, name)).current precondition then
        if h : ∀ rs ∈ (server (zone, name)).versions, rs.etag ≠ some etag then
          some (.response ok "" (.ok ()), Function.update server (zone, name)
            ((server (zone, name)).write etag recordSet.properties h))
        else none
      else some (.response ⟨412, "Precondition Failed"⟩ "" (.ok ()), server)
  | .delete zone name precondition, server =>
      if isMet (server (zone, name)).current precondition then
        some (.response ok "" (.ok ()),
          Function.update server (zone, name) (server (zone, name)).clear)
      else some (.response ⟨412, "Precondition Failed"⟩ "" (.ok ()), server)

/-- The sample server answers as the API may. -/
theorem answer_sound {zones : List DnsName} {etag : String} {op : Op} {server server' : Server}
    {r : op.Answer} (h : answer zones etag op server = some (r, server')) :
    Env op server r server' := by
  cases op with
  | zones =>
      cases h
      exact .zones _
  | accessToken =>
      cases h
      exact .accessToken _
  | sleep =>
      cases h
      exact .sleep
  | get zone name =>
      simp only [answer] at h
      split at h
      · rename_i hcurrent
        cases h
        refine .get ⟨fun _ => hcurrent, ?_⟩
        intro hsuccess
        cases hsuccess
      · rename_i rs hcurrent
        cases h
        refine .get ⟨?_, ?_⟩
        · intro hmissing
          cases hmissing
        · intro _ rs' hjson
          cases hjson
          exact hcurrent
  | put zone name recordSet precondition =>
      simp only [answer] at h
      split at h
      · rename_i hmet
        split at h
        · cases h
          exact .putApplied (met_of_isMet hmet) rfl rfl rfl
        · cases h
      · cases h
        exact .putKept rfl
  | delete zone name precondition =>
      simp only [answer] at h
      split at h
      · rename_i hmet
        cases h
        exact .deleteApplied (met_of_isMet hmet) rfl rfl rfl
      · cases h
        exact .deleteKept (.inl rfl)

end AzureDns

namespace GoogleDns

/-- A server without record sets. -/
def emptyServer : Server := ⟨fun _ _ => none, fun _ _ _ h => by cases h⟩

/-- The server after a change. -/
def Server.change (server : Server) (zone : DnsName) (deletions additions : List RrSet) :
    Server where
  sets := Function.update server.sets zone (applyChange (server.sets zone) deletions additions)
  key_eq := by
    intro zone' key rrset h
    by_cases hzone : zone' = zone
    · subst hzone
      rw [Function.update_self] at h
      unfold applyChange at h
      split at h
      · rename_i found hfound
        cases h
        simpa using List.find?_some hfound
      · split at h
        · cases h
        · exact server.key_eq _ _ _ h
    · rw [Function.update_of_ne hzone] at h
      exact server.key_eq _ _ _ h

/-- Whether a change deletes exactly what is stored and replaces nothing else. -/
def applies (server : Server) (zone : DnsName) (deletions additions : List RrSet) : Bool :=
  deletions.all (fun rrset => server.sets zone rrset.key == some rrset) &&
    additions.all (fun rrset => (server.sets zone rrset.key).isNone ||
      deletions.any (fun deleted => deleted.key == rrset.key))

/-- A server of the given zones that answers every request and is done with a
change at once. -/
def answer (zones : List (DnsName × DnsName)) : (op : Op) → Server → Option (op.Answer × Server)
  | .zones, server => some (.ok zones, server)
  | .accessToken, server => some (.ok (), server)
  | .poll _ changeId _, server => some (some (.response ok "" (.ok ⟨changeId, "done"⟩)), server)
  | .get zone name, server =>
      some (.response ok "" (.ok (server.sets zone (name, "TXT")).toList), server)
  | .change zone deletions additions, server =>
      if applies server zone deletions additions then
        some (.response ok "" (.ok ⟨"1", "done"⟩), server.change zone deletions additions)
      else some (.response ⟨409, "Conflict"⟩ "" (.error ""), server)

/-- The sample server answers as the API may. -/
theorem answer_sound {zones : List (DnsName × DnsName)} {op : Op} {server server' : Server}
    {r : op.Answer} (h : answer zones op server = some (r, server')) :
    Env op server r server' := by
  cases op with
  | zones =>
      cases h
      exact .zones _
  | accessToken =>
      cases h
      exact .accessToken _
  | poll zone changeId delay =>
      cases h
      exact .poll _
  | get zone name =>
      cases h
      apply Env.get
      intro _ rrsets hjson
      cases hjson
      rfl
  | change zone deletions additions =>
      simp only [answer] at h
      split at h
      · rename_i happlies
        cases h
        simp only [applies, Bool.and_eq_true, List.all_eq_true, beq_iff_eq, Bool.or_eq_true,
          Option.isNone_iff_eq_none, List.any_eq_true] at happlies
        exact .changeApplied rfl happlies.1 happlies.2 rfl
      · cases h
        exact .changeKept rfl

end GoogleDns

/-- **Concurrent writers do not drop each other's TXT values.**  Whatever the
calls of the replicas and the order of their requests, both providers keep the
values of all calls. -/
theorem concurrent_writers_keep_values {Tid : Type} [DecidableEq Tid] (calls : Tid → DnsCall) :
    (∀ server t c, azureDnsProvider.Runs (azureDnsProvider.start calls server) t c →
      azureDnsProvider.KeepsValues calls t c) ∧
    (∀ server t c, googleCloudDnsProvider.Runs (googleCloudDnsProvider.start calls server) t c →
      googleCloudDnsProvider.KeepsValues calls t c) :=
  ⟨fun _ _ _ => AzureDns.keepsValues, fun _ _ _ => GoogleDns.keepsValues⟩

/-! ## Two replicas at once -/

/-- Two replicas that create a value each for one domain. -/
def sampleDnsCalls : Bool → DnsCall
  | true => ⟨.create, exampleCom, "one"⟩
  | false => ⟨.create, exampleCom, "two"⟩

/-- Both replicas read before either writes; the second write is refused. -/
def sampleRequests : List (Bool × String) :=
  [(true, ""), (false, ""), (true, ""), (false, ""), (true, ""), (false, ""), (true, "1"),
    (false, "2"), (false, ""), (false, "2"), (true, ""), (false, "")]

/-- Two creations at one name, with a conflict. -/
def sampleAzureRun :=
  Pool.drive (recordedAnswer fun etag (_ : Bool) => AzureDns.answer [exampleCom] etag)
    sampleRequests (azureDnsProvider.start sampleDnsCalls AzureDns.emptyServer)

/-- Two creations at one name, with a conflict. -/
def sampleGoogleRun :=
  Pool.drive (recordedAnswer fun (_ : String) (_ : Bool) => GoogleDns.answer [(exampleCom, ['z'])])
    sampleRequests (googleCloudDnsProvider.start sampleDnsCalls GoogleDns.emptyServer)

/-- The sample is a run. -/
theorem sampleAzureRun_runs :
    azureDnsProvider.Runs (azureDnsProvider.start sampleDnsCalls AzureDns.emptyServer)
      sampleAzureRun.1 sampleAzureRun.2 := by
  apply Run.drive
  intro etag i op w r w' h
  refine recordedAnswer_sound ?_ h
  exact fun _ _ _ _ _ _ hanswer => AzureDns.answer_sound hanswer

/-- The sample is a run. -/
theorem sampleGoogleRun_runs :
    googleCloudDnsProvider.Runs (googleCloudDnsProvider.start sampleDnsCalls GoogleDns.emptyServer)
      sampleGoogleRun.1 sampleGoogleRun.2 := by
  apply Run.drive
  intro input i op w r w' h
  refine recordedAnswer_sound ?_ h
  exact fun _ _ _ _ _ _ hanswer => GoogleDns.answer_sound hanswer

/-- Both creations have succeeded. -/
theorem sampleAzureRun_threads (i : Bool) : sampleAzureRun.2.threads i = .ret (.ok ()) := by
  apply Prog.eq_ret_of_result?
  cases i with
  | true => rfl
  | false => rfl

/-- Both creations have succeeded. -/
theorem sampleGoogleRun_threads (i : Bool) : sampleGoogleRun.2.threads i = .ret (.ok ()) := by
  apply Prog.eq_ret_of_result?
  cases i with
  | true => rfl
  | false => rfl

/-- Both replicas succeed, and both of their values are kept. -/
theorem concurrent_writers_keep_values_sample :
    (∃ t c, azureDnsProvider.Runs (azureDnsProvider.start sampleDnsCalls AzureDns.emptyServer) t c ∧
      (∀ i, c.threads i = .ret (.ok ())) ∧ azureDnsProvider.KeepsValues sampleDnsCalls t c) ∧
    (∃ t c, googleCloudDnsProvider.Runs
      (googleCloudDnsProvider.start sampleDnsCalls GoogleDns.emptyServer) t c ∧
      (∀ i, c.threads i = .ret (.ok ())) ∧
        googleCloudDnsProvider.KeepsValues sampleDnsCalls t c) := by
  obtain ⟨hazure, hgoogle⟩ := concurrent_writers_keep_values sampleDnsCalls
  exact ⟨⟨_, _, sampleAzureRun_runs, sampleAzureRun_threads, hazure _ _ _ sampleAzureRun_runs⟩,
    ⟨_, _, sampleGoogleRun_runs, sampleGoogleRun_threads, hgoogle _ _ _ sampleGoogleRun_runs⟩⟩

end StatusListServer
