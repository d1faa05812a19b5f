import Mathlib.Logic.Relation
import StatusListServer.CertFrames
import StatusListServer.SharedBackend

/-!
# Renewal checks and the chain of the active material

The renewal check of the certificate manager, and what becomes of active material
that was built before there was a certificate.  `signing_material` keeps what it
finds, a missing chain included; only a local provisioning replaces it, and a
renewal check that finds a certificate which is not yet due provisions nothing.

The world is a secrets backend that may fail and that other replicas write
between any two operations of a call; the certificate is never deleted.
-/

namespace StatusListServer

open BitStream Interaction Proc

/-- When a certificate is to be renewed. -/
inductive RenewalStrategy
  | daysBeforeExpiry (value : Option Nat)
  | percentageOfLifetime (value : Option Float32)
  | fixedInterval (value : Option Nat)

/-- Whether a certificate is due at a time.  Days default to 30 before the expiry or
to 60 from the start, and the share of the lifetime to two thirds. -/
def RenewalStrategy.shouldRenewCert (renewal : RenewalStrategy) (certData : CertificateData)
    (now : Int) : Bool :=
  let daysToSecs := fun (days : Nat) => (days : Int) * 24 * 60 * 60
  match renewal with
  | .daysBeforeExpiry value => decide (now ≥ certData.expiresAt - daysToSecs (value.getD 30))
  | .percentageOfLifetime value =>
      let lifetime := certData.expiresAt - certData.validFrom
      let elapsed := now - certData.validFrom
      decide (Float32.ofInt elapsed / Float32.ofInt lifetime ≥ value.getD (2.0 / 3.0))
  | .fixedInterval value => decide (now ≥ certData.validFrom + daysToSecs (value.getD 60))

namespace CertManager

variable (lib : Libraries) (manager : CertManager) (renewal : RenewalStrategy)

/-- Whether the strategy provisions although there is a certificate: the store
strategy always checks its sources. -/
def shouldProvisionExisting (certData : CertificateData) : CertM Bool :=
  match manager.strategy with
  | .acme _ _ => do
      return renewal.shouldRenewCert certData (← Proc.ask .nowUnixTimestamp)
  | .store _ _ => return true

/-- Renew the certificate if needed. -/
def renewCertIfNeeded : CertM Unit := do
  match ← manager.certificate lib with
  | some certData =>
      if ← manager.shouldProvisionExisting renewal certData then
        let _ ← manager.requestCertificate lib
        return ()
      else
        return ()
  | none =>
      let _ ← manager.requestCertificate lib
      return ()

end CertManager

/-! ## What keeps the certificate -/

/-- Every operation but the deletion of the certificate keeps the world safe. -/
def KeepsSafe {σ : Type} (env : Answers CertOp CertOp.Answer σ) (safe : σ → Prop)
    (certName : String) : Prop :=
  ∀ op w r w', op ≠ .delete certName → safe w → env op w r w' → safe w'

/-- Nothing but a deletion of the certificate matters. -/
theorem KeepsSafe.spares {σ : Type} {env : Answers CertOp CertOp.Answer σ} {safe : σ → Prop}
    {certName : String} (h : KeepsSafe env safe certName) :
    Spares env safe (· ≠ .delete certName) :=
  ⟨fun _ _ hkeep => hkeep certName, fun op w r w' hop => h op w r w' hop⟩

/-! ## A manager among replicas -/

/-- The times the clock shows. -/
def ShowsTime (clock : Int → Prop) : (op : CertOp) → op.Answer → Prop
  | .nowUnixTimestamp, now => clock now
  | _, _ => True

/-- The world of a manager: its backend may fail, and after every operation other
replicas may have written any secret, but none removes the certificate. -/
def AmongReplicas (lib : Libraries) (certName : String) (clock : Int → Prop) :
    Answers CertOp CertOp.Answer (Secrets Unit) := fun op b r b' =>
  ShowsTime clock op r ∧ ∃ b₁, Secrets.Env noAccount lib True op b r b₁ ∧
    (b₁.values certName ≠ none → b'.values certName ≠ none)

/-- The certificate is stored. -/
def CertificateStored (certName : String) (b : Secrets Unit) : Prop := b.values certName ≠ none

/-- The active material has no chain. -/
def ChainMissing (m : CertMemory) : Prop := ∃ keyPem, m.active = some ⟨none, keyPem⟩

/-- The certificate that a renewal check reads: the cached one, else the stored
one. -/
def certificateText (m : CertMemory) (b : Secrets Unit) (certName : String) : Option String :=
  (m.lookup .certificate certName).or (b.values certName)

section Rules

variable {lib : Libraries} {manager : CertManager} {renewal : RenewalStrategy}
  {certName : String} {clock : Int → Prop} {m : CertMemory} {b : Secrets Unit}

/-- A stored certificate is spared by everything else. -/
theorem keepsSafe_certificateStored :
    KeepsSafe (AmongReplicas lib certName clock) (CertificateStored certName) certName := by
  intro op b r b' hop hstored henv
  obtain ⟨_, b₁, hcall, hremote⟩ := henv
  apply hremote
  unfold CertificateStored at hstored
  cases hcall with
  | @store key value _ applied _ | @storeFailed key value _ _ applied _
  | @updateFailed key value _ _ applied _ =>
      by_cases hkey : certName = key
      · subst hkey
        cases applied <;> simp [Secrets.write, hstored]
      · cases applied <;> simp [Secrets.write, hkey, hstored]
  | @update key value _ =>
      by_cases hkey : certName = key
      · simp [Secrets.write, hkey]
      · simp [Secrets.write, hkey, hstored]
  | @delete key _ =>
      have hkey : certName ≠ key := fun h => hop (by rw [h])
      simpa [hkey] using hstored
  | @deleteFailed key _ e values _ hvalues =>
      have hkey : certName ≠ key := fun h => hop (by rw [h])
      obtain rfl | rfl := hvalues
      · exact hstored
      · simpa [hkey] using hstored
  | _ => exact hstored

/-- A stored certificate is found, or the call fails. -/
theorem sure_certificate_stored (hstored : CertificateStored (manager.certKey lib) b) :
    Sure (AmongReplicas lib (manager.certKey lib) clock) (CertificateStored (manager.certKey lib))
      (fun r m' b' => (m'.active = m.active ∧ CertificateStored (manager.certKey lib) b') ∧
        ∃ data text, r = some data ∧ certificateText m b (manager.certKey lib) = some text ∧
          lib.certificateDataFromJson text = .ok data)
      (fun _ m' b' => m'.active = m.active ∧ CertificateStored (manager.certKey lib) b')
      (manager.certificate lib) m b := by
  have hread : ∀ text m' b', m'.active = m.active → CertificateStored (manager.certKey lib) b' →
      certificateText m b (manager.certKey lib) = some text →
      Sure (AmongReplicas lib (manager.certKey lib) clock) (CertificateStored (manager.certKey lib))
        (fun r m' b' => (m'.active = m.active ∧ CertificateStored (manager.certKey lib) b') ∧
          ∃ data text, r = some data ∧ certificateText m b (manager.certKey lib) = some text ∧
            lib.certificateDataFromJson text = .ok data)
        (fun _ m' b' => m'.active = m.active ∧ CertificateStored (manager.certKey lib) b')
        (do let data ← orFail .serde (lib.certificateDataFromJson text)
            return some data : CertM (Option CertificateData)) m' b' := by
    intro text m' b' hactive hstored' htext
    apply sure_bind
    apply sure_orFail
    · intro data hdata
      exact ⟨⟨hactive, hstored'⟩, data, text, rfl, htext, hdata⟩
    · exact fun e _ => ⟨hactive, hstored'⟩
  apply sure_bind
  apply sure_storage
  apply sure_bind
  apply sure_bind
  apply sure_get
  cases hlookup : m.lookup .certificate (manager.certKey lib) with
  | some text =>
      apply sure_pure
      apply sure_pure
      exact hread text m b rfl hstored (by simp [certificateText, hlookup])
  | none =>
      apply sure_pure
      apply sure_bind
      apply sure_ask
      intro r b' henv
      have hstored' := keepsSafe_certificateStored _ _ _ _ (by simp) hstored henv
      refine ⟨hstored', ?_⟩
      obtain ⟨_, b₁, hcall, _⟩ := henv
      cases hcall with
      | loadFailed e _ => exact sure_bind (sure_throw ⟨rfl, hstored'⟩)
      | quiet hquiet => cases hquiet
      | load =>
          apply sure_bind
          apply sure_pure
          cases hvalue : b.values (manager.certKey lib) with
          | none => exact absurd hvalue hstored
          | some text =>
              apply sure_bind
              apply sure_modify
              apply sure_pure
              exact hread text _ b' (CertMemory.insert_active _ _ _ _) hstored'
                (by simp [certificateText, hlookup, hvalue])

/-- With a stored certificate there is a chain, or the call fails. -/
theorem sure_certChainParts_stored (hstored : CertificateStored (manager.certKey lib) b) :
    Sure (AmongReplicas lib (manager.certKey lib) clock) (CertificateStored (manager.certKey lib))
      (fun chain m' b' => chain ≠ none ∧ m'.active = m.active ∧
        CertificateStored (manager.certKey lib) b')
      (fun _ m' b' => m'.active = m.active ∧ CertificateStored (manager.certKey lib) b')
      (manager.certChainParts lib) m b := by
  apply sure_bind
  apply sure_get
  cases cached (manager.certKey lib) m.certChainCache with
  | some certs => exact sure_pure ⟨by simp, rfl, hstored⟩
  | none =>
      apply sure_bind
      apply (sure_certificate_stored hstored).mono
      · intro r m' b' h
        obtain ⟨⟨hactive, hstored'⟩, data, text, rfl, _, _⟩ := h
        apply sure_bind
        apply sure_orFail
        · intro certs _
          exact sure_bind (sure_modify (sure_pure ⟨by simp, hactive, hstored'⟩))
        · exact fun e _ => ⟨hactive, hstored'⟩
      · exact fun _ _ _ h => h

/-- Material that has a chain, or is built from a stored certificate, has a
chain. -/
theorem sure_signingMaterial_stored (hstored : CertificateStored (manager.certKey lib) b)
    (hchain : ¬ChainMissing m) :
    Sure (AmongReplicas lib (manager.certKey lib) clock) (CertificateStored (manager.certKey lib))
      (fun material m' b' => material.certificateChain ≠ none ∧ ¬ChainMissing m' ∧
        CertificateStored (manager.certKey lib) b')
      (fun _ m' b' => ¬ChainMissing m' ∧ CertificateStored (manager.certKey lib) b')
      (manager.signingMaterial lib) m b := by
  apply sure_bind
  apply sure_get
  cases hactive : m.active with
  | some material =>
      apply sure_pure
      refine ⟨?_, hchain, hstored⟩
      intro hnone
      obtain ⟨chain, keyPem⟩ := material
      cases hnone
      exact hchain ⟨keyPem, hactive⟩
  | none =>
      have hempty : ∀ m' : CertMemory, m'.active = m.active → ¬ChainMissing m' := by
        intro m' hsame hmissing
        obtain ⟨keyPem, hsome⟩ := hmissing
        rw [hsame, hactive] at hsome
        cases hsome
      apply Frame.sure_bind (frame_signingKeyPem keepsSafe_certificateStored.spares) rfl hstored
      · exact fun e m₁ b₁ hsame hstored₁ => ⟨hempty m₁ hsame, hstored₁⟩
      · intro keyPem m₁ b₁ hsame hstored₁
        apply sure_bind
        apply (sure_certChainParts_stored hstored₁).mono
        · intro chain m₂ b₂ h
          obtain ⟨hsome, _, hstored₂⟩ := h
          apply sure_bind
          apply sure_modify
          apply sure_pure
          refine ⟨hsome, ?_, hstored₂⟩
          rintro ⟨keyPem', hmissing⟩
          cases hmissing
          exact hsome rfl
        · intro e m₂ b₂ h
          exact ⟨hempty m₂ (h.1.trans hsame), h.2⟩

/-- A provisioned certificate becomes active with its chain; a failed attempt leaves
the active material as it was. -/
theorem sure_requestCertificate_active {handler : ChallengeHandler} {directoryUrl : String}
    (hstrategy : manager.strategy = .acme handler directoryUrl)
    (hstored : CertificateStored (manager.certKey lib) b) :
    Sure (AmongReplicas lib (manager.certKey lib) clock) (CertificateStored (manager.certKey lib))
      (fun _ m' b' => ¬ChainMissing m' ∧ CertificateStored (manager.certKey lib) b')
      (fun _ m' b' => m'.active = m.active ∧ CertificateStored (manager.certKey lib) b')
      (manager.requestCertificate lib) m b := by
  have hname : manager.acmeAccountId lib ≠ manager.certKey lib := acmeAccountId_ne_certKey lib _ _
  have hfailed : ∀ (e : CertError) (m' : CertMemory) (b' : Secrets Unit), m'.active = m.active →
      CertificateStored (manager.certKey lib) b' →
      m'.active = m.active ∧ CertificateStored (manager.certKey lib) b' :=
    fun _ _ _ hsame hstored' => ⟨hsame, hstored'⟩
  unfold CertManager.requestCertificate
  rw [hstrategy]
  have hops : KeepsSafe (AmongReplicas lib (manager.certKey lib) clock)
      (CertificateStored (manager.certKey lib)) (manager.certKey lib) := keepsSafe_certificateStored
  have hchallenges : ∀ op : CertOp, op.answersChallenge = true →
      op ≠ .delete (manager.certKey lib) := by
    intro op hop hdelete
    rw [hdelete] at hop
    cases hop
  apply Frame.sure_bind (frame_orderCertificate hops.spares hchallenges (by simpa using hname)) rfl
    hstored hfailed
  intro ordered m₁ b₁ hm₁ hb₁
  apply Frame.sure_bind frame_orFail hm₁ hb₁ hfailed
  intro parts m₂ b₂ hm₂ hb₂
  apply Frame.sure_bind (frame_bind (frame_plain hops.spares rfl (by simp))
    fun _ => frame_pure) hm₂ hb₂ hfailed
  intro certData m₃ b₃ hm₃ hb₃
  apply Frame.sure_bind (frame_persistCertificateData hops.spares) hm₃ hb₃ hfailed
  intro _ m₄ b₄ hm₄ hb₄
  apply Frame.sure_bind frame_cacheProvisionedChain hm₄ hb₄ hfailed
  intro _ m₅ b₅ hm₅ hb₅
  apply sure_bind
  apply sure_bind
  apply sure_orFail
  · intro certs _
    apply sure_modify
    apply sure_pure
    refine ⟨?_, hb₅⟩
    rintro ⟨keyPem, hmissing⟩
    cases hmissing
  · exact fun e _ => ⟨hm₅, hb₅⟩

/-- After a renewal check that succeeds with a stored certificate, no chain is
missing, if the certificate it reads is due whenever one is. -/
theorem sure_renewCertIfNeeded_stored {handler : ChallengeHandler} {directoryUrl : String}
    (hstrategy : manager.strategy = .acme handler directoryUrl)
    (hstored : CertificateStored (manager.certKey lib) b)
    (hdue : ChainMissing m → ∀ text data now,
      certificateText m b (manager.certKey lib) = some text →
      lib.certificateDataFromJson text = .ok data → clock now →
      renewal.shouldRenewCert data now = true) :
    Sure (AmongReplicas lib (manager.certKey lib) clock) (CertificateStored (manager.certKey lib))
      (fun _ m' b' => ¬ChainMissing m' ∧ CertificateStored (manager.certKey lib) b')
      (fun _ m' b' => m'.active = m.active ∧ CertificateStored (manager.certKey lib) b')
      (manager.renewCertIfNeeded lib renewal) m b := by
  apply sure_bind
  apply (sure_certificate_stored hstored).mono
  · intro r m₁ b₁ h
    obtain ⟨⟨hm₁, hb₁⟩, data, text, rfl, htext, hdata⟩ := h
    apply sure_bind
    unfold CertManager.shouldProvisionExisting
    rw [hstrategy]
    apply sure_bind
    apply sure_ask
    intro now b₂ henv
    have hb₂ := keepsSafe_certificateStored _ _ _ _ (by simp) hb₁ henv
    refine ⟨hb₂, sure_pure ?_⟩
    split
    · apply sure_bind
      apply (sure_requestCertificate_active hstrategy hb₂).mono
      · exact fun _ m₃ b₃ h => sure_pure h
      · exact fun e m₃ b₃ h => ⟨h.1.trans hm₁, h.2⟩
    · rename_i hnotDue
      apply sure_pure
      refine ⟨?_, hb₂⟩
      intro hmissing
      apply hnotDue
      unfold ChainMissing at hmissing
      rw [hm₁] at hmissing
      exact hdue hmissing text data now htext hdata henv.1
  · exact fun _ _ _ h => h

end Rules

/-! ## Runs -/

/-- A manager with its memory, and the backend. -/
structure ManagerState where
  memory : CertMemory
  backend : Secrets Unit

/-- The calls of a manager with their results, and writes of other replicas.  A
renewal check comes with the times the clock shows during it. -/
inductive ManagerCall
  | signingMaterial (result : Except CertError SigningMaterial)
  | requestCertificate (result : Except CertError CertificateData)
  | renewCertIfNeeded (clock : Int → Prop) (result : Except CertError Unit)
  | replicas

section Runs

variable (lib : Libraries) (manager : CertManager) (renewal : RenewalStrategy)

/-- One call runs to its end, or other replicas write. -/
inductive ManagerState.Step : ManagerState → ManagerCall → ManagerState → Prop
  | signingMaterial {s : ManagerState} {result : Except CertError SigningMaterial}
      {m : CertMemory} {b : Secrets Unit}
      (hrun : ((manager.signingMaterial lib).start s.memory).Reaches
        (AmongReplicas lib (manager.certKey lib) fun _ => True) s.backend (.ret (result, m)) b) :
      Step s (.signingMaterial result) ⟨m, b⟩
  | requestCertificate {s : ManagerState} {result : Except CertError CertificateData}
      {m : CertMemory} {b : Secrets Unit}
      (hrun : ((manager.requestCertificate lib).start s.memory).Reaches
        (AmongReplicas lib (manager.certKey lib) fun _ => True) s.backend (.ret (result, m)) b) :
      Step s (.requestCertificate result) ⟨m, b⟩
  | renewCertIfNeeded {s : ManagerState} {clock : Int → Prop} {result : Except CertError Unit}
      {m : CertMemory} {b : Secrets Unit}
      (hrun : ((manager.renewCertIfNeeded lib renewal).start s.memory).Reaches
        (AmongReplicas lib (manager.certKey lib) clock) s.backend (.ret (result, m)) b) :
      Step s (.renewCertIfNeeded clock result) ⟨m, b⟩
  | replicas {s : ManagerState} {b : Secrets Unit}
      (hkept : CertificateStored (manager.certKey lib) s.backend →
        CertificateStored (manager.certKey lib) b) :
      Step s .replicas ⟨s.memory, b⟩

/-- Any number of calls and writes. -/
abbrev ManagerState.Run : ManagerState → ManagerState → Prop :=
  Relation.ReflTransGen fun s s' => ∃ call, ManagerState.Step lib manager renewal s call s'

/-- A renewal check that is made while the active material has no chain reads a
certificate that is due at every time the clock shows during it. -/
def DueWhileMissing (s : ManagerState) (clock : Int → Prop) : Prop :=
  ChainMissing s.memory → ∀ text data now,
    certificateText s.memory s.backend (manager.certKey lib) = some text →
    lib.certificateDataFromJson text = .ok data → clock now →
    renewal.shouldRenewCert data now = true

variable {lib manager renewal} {s s' s₁ s₂ s₃ s₄ : ManagerState}
  {handler : ChallengeHandler} {directoryUrl : String}

/-- With a stored certificate and no missing chain, every call and every write
leaves it so. -/
theorem ManagerState.Step.chain_present
    (hstrategy : manager.strategy = .acme handler directoryUrl) {call : ManagerCall}
    (hstep : ManagerState.Step lib manager renewal s call s')
    (h : ¬ChainMissing s.memory ∧ CertificateStored (manager.certKey lib) s.backend) :
    ¬ChainMissing s'.memory ∧ CertificateStored (manager.certKey lib) s'.backend := by
  obtain ⟨hchain, hstored⟩ := h
  have hsame : ∀ m : CertMemory, m.active = s.memory.active → ¬ChainMissing m := by
    intro m hm hmissing
    apply hchain
    unfold ChainMissing at hmissing
    rwa [hm] at hmissing
  cases hstep with
  | @signingMaterial result m b hrun =>
      cases result with
      | ok material =>
          exact ((sure_signingMaterial_stored hstored hchain).ended hstored hrun).2
      | error e => exact (sure_signingMaterial_stored hstored hchain).failed hstored hrun
  | @requestCertificate result m b hrun =>
      cases result with
      | ok data => exact (sure_requestCertificate_active hstrategy hstored).ended hstored hrun
      | error e =>
          obtain ⟨hm, hb⟩ := (sure_requestCertificate_active hstrategy hstored).failed hstored hrun
          exact ⟨hsame m hm, hb⟩
  | @renewCertIfNeeded clock result m b hrun =>
      have hdue : DueWhileMissing lib manager renewal s clock :=
        fun hmissing => absurd hmissing hchain
      have hsure := sure_renewCertIfNeeded_stored hstrategy hstored hdue
      cases result with
      | ok _ => exact hsure.ended hstored hrun
      | error e =>
          obtain ⟨hm, hb⟩ := hsure.failed hstored hrun
          exact ⟨hsame m hm, hb⟩
  | replicas hkept => exact ⟨hchain, hkept hstored⟩

/-- A run that starts with its chain, or with a stored certificate, keeps it. -/
theorem ManagerState.Run.chain_present
    (hstrategy : manager.strategy = .acme handler directoryUrl)
    (hrun : ManagerState.Run lib manager renewal s s')
    (h : ¬ChainMissing s.memory ∧ CertificateStored (manager.certKey lib) s.backend) :
    ¬ChainMissing s'.memory ∧ CertificateStored (manager.certKey lib) s'.backend := by
  induction hrun with
  | refl => exact h
  | tail _ hstep ih =>
      obtain ⟨call, hstep⟩ := hstep
      exact hstep.chain_present hstrategy ih

/-- **A missing chain does not outlive a renewal check that could have filled it
in.**  If a renewal check of an ACME manager starts with a certificate in the shared
storage and succeeds, and is not made while the active material has no chain and
the certificate it reads is not due, then after any later calls and writes of other
replicas every material that `signing_material` returns has a chain. -/
theorem chain_present_after_renewal
    (hstrategy : manager.strategy = .acme handler directoryUrl) {clock : Int → Prop}
    (hstored : CertificateStored (manager.certKey lib) s₁.backend)
    (hdue : DueWhileMissing lib manager renewal s₁ clock)
    (hrenewed : ManagerState.Step lib manager renewal s₁ (.renewCertIfNeeded clock (.ok ())) s₂)
    (hlater : ManagerState.Run lib manager renewal s₂ s₃) {material : SigningMaterial}
    (hcalled : ManagerState.Step lib manager renewal s₃ (.signingMaterial (.ok material)) s₄) :
    ∃ chain, material.certificateChain = some chain := by
  have hafter : ¬ChainMissing s₂.memory ∧ CertificateStored (manager.certKey lib) s₂.backend := by
    cases hrenewed with
    | renewCertIfNeeded hrun =>
        exact (sure_renewCertIfNeeded_stored hstrategy hstored hdue).ended hstored hrun
  obtain ⟨hchain, hstored₃⟩ := hlater.chain_present hstrategy hafter
  cases hcalled with
  | signingMaterial hrun =>
      have hreturned := (sure_signingMaterial_stored hstored₃ hchain).ended hstored₃ hrun
      exact Option.ne_none_iff_exists'.mp hreturned.1

end Runs

section Samples

open SampleKey

/-- A manager that orders its certificate. -/
def sampleAcmeManager : CertManager :=
  { sampleManager "a.example.com" with
    strategy := .acme .dns01 "https://acme.example.com/directory" }

/-- A storage that holds the first sample key, and perhaps its certificate. -/
def withFirstKey (certificate : Option String) : Secrets Unit where
  values name :=
    if name = sampleAcmeManager.signingSecretId sampleLibraries then some firstKey.keyPem
    else if name = sampleAcmeManager.certKey sampleLibraries then certificate
    else none
  requests _ := none
  account := ()

/-- The key is stored. -/
@[simp] theorem withFirstKey_key (certificate : Option String) :
    (withFirstKey certificate).values (sampleAcmeManager.signingSecretId sampleLibraries) =
      some firstKey.keyPem := by
  simp [withFirstKey]

/-- So is the certificate, if any. -/
@[simp] theorem withFirstKey_certificate (certificate : Option String) :
    (withFirstKey certificate).values (sampleAcmeManager.certKey sampleLibraries) =
      certificate := by
  have hne : sampleAcmeManager.certKey sampleLibraries ≠
      sampleAcmeManager.signingSecretId sampleLibraries :=
    certKey_ne_signingSecretId sampleLibraries _ _
  simp [withFirstKey, hne]

/-- The sample backend answers as a shared one may. -/
theorem answer_amongReplicas {clock : Int → Prop} (hclock : clock 1794964100) (op : CertOp)
    (b : Secrets Unit) :
    AmongReplicas sampleLibraries (sampleAcmeManager.certKey sampleLibraries) clock op b
      (Secrets.answer noAccount (fun _ => .error "") none op b).1
      (Secrets.answer noAccount (fun _ => .error "") none op b).2 := by
  refine ⟨?_, _, Secrets.answer_allowed (fun _ => trivial) op b, fun h => h⟩
  cases op <;> first | exact trivial | exact hclock

/-- A memory whose active material has no chain. -/
def chainlessMemory : CertMemory := { CertMemory.empty with active := some ⟨none, firstKey.keyPem⟩ }

/-- A call of `signing_material` before there is a certificate. -/
theorem exec_signingMaterial_missing :
    (sampleAcmeManager.signingMaterial sampleLibraries).exec
      (Secrets.answer noAccount (fun _ => .error "") none) .empty (withFirstKey none) =
      ((.ok ⟨none, firstKey.keyPem⟩, chainlessMemory), withFirstKey none) := by
  have httl : sampleAcmeManager.signingKeyTtl = 0 := rfl
  have hmiss : CertMemory.empty.lookup .certificate
    (sampleAcmeManager.certKey sampleLibraries) = none := rfl
  have hactive : CertMemory.empty.active = none := rfl
  have hchain : CertMemory.empty.certChainCache = none := rfl
  simp [CertManager.signingMaterial, hactive, CertManager.signingKeyPem, exec_loadSigningKey httl,
    CertManager.certChainParts, hchain, CertManager.certificate, exec_loadCertificateData hmiss,
    chainlessMemory]

/-- A renewal check of a certificate that is not due. -/
theorem exec_renewCertIfNeeded {m : CertMemory}
    (hmiss : m.lookup .certificate (sampleAcmeManager.certKey sampleLibraries) = none) :
    (sampleAcmeManager.renewCertIfNeeded sampleLibraries (.daysBeforeExpiry none)).exec
      (Secrets.answer noAccount (fun _ => .error "") none) m (withFirstKey (some firstKey.json)) =
      ((.ok (), m.insert .certificate (sampleAcmeManager.certKey sampleLibraries) firstKey.json),
        withFirstKey (some firstKey.json)) := by
  have hk : firstKey.Known := .inl rfl
  have hdata := sampleLibraries_serdeRoundTrip _ _ hk.json_eq
  have hnow : (Secrets.answer noAccount (fun _ => .error "") none .nowUnixTimestamp
    (withFirstKey (some firstKey.json))) = (1794964100, withFirstKey (some firstKey.json)) := rfl
  have hdue : (RenewalStrategy.daysBeforeExpiry none).shouldRenewCert firstKey.data 1794964100 =
      false := by
    simp [RenewalStrategy.shouldRenewCert, SampleKey.data]
  have hstrategy : sampleAcmeManager.strategy =
    .acme .dns01 "https://acme.example.com/directory" := rfl
  simp [CertManager.renewCertIfNeeded, CertManager.certificate, exec_loadCertificateData hmiss,
    hdata, CertManager.shouldProvisionExisting, hstrategy, hnow, hdue]

/-- The order of a renewal, with one domain to authorize. -/
def sampleOrder : Order :=
  ⟨"https://acme.example.com/order/1", ["https://acme.example.com/authz/1"]⟩

/-- The value that answers its DNS-01 challenge. -/
def challengeDigest : String := "EwEiQN9lNgazX6cjbzh2Ks-MdMFVsRzEvxnPnCU2ZcI"

/-- A working world in which the ACME server issues the first certificate for its signing
request. -/
def orderAnswer : (op : CertOp) → Secrets Unit → op.Answer × Secrets Unit
  | .newOrder _ _, b => (.ok sampleOrder, b)
  | .authorization _, b => (.ok ⟨.pending, "a.example.com", some challengeDigest⟩, b)
  | .createTxtRecord _ _, b => (.ok (), b)
  | .setReady _, b => (.ok (), b)
  | .cleanUp _, b => (.ok (), b)
  | .pollReady _, b => (.ok .ready, b)
  | .finalizeCsr order csr, b =>
      (.ok (), { b with requests := Function.update b.requests order.url (some csr) })
  | .pollCertificate order, b =>
      if b.requests order.url = some firstRequest then (.ok firstKey.certificatePem, b)
      else (.error "the order has no certificate", b)
  | op, b => Secrets.answer noAccount (fun _ => .error "") none op b

/-- The first certificate is for the requested key. -/
theorem leafKey_first : leafKey sampleLibraries firstKey.certificatePem =
    sampleLibraries.requestKey firstRequest := by
  have hk : firstKey.Known := .inl rfl
  have hrequest : sampleLibraries.requestKey firstRequest = some firstKey.publicKey := by
    simp only [sampleLibraries, if_true]
  rw [hrequest, leafKey, hk.parseX509Pem_eq]
  simp only [hk.parseX509Certificate_eq]

/-- So does the backend of the order. -/
theorem orderAnswer_amongReplicas {clock : Int → Prop} (hclock : clock 1794964100) (op : CertOp)
    (b : Secrets Unit) :
    AmongReplicas sampleLibraries (sampleAcmeManager.certKey sampleLibraries) clock op b
      (orderAnswer op b).1 (orderAnswer op b).2 := by
  cases op with
  | newOrder | authorization | createTxtRecord | setReady | cleanUp | pollReady =>
      exact ⟨trivial, _, .quiet rfl _, fun h => h⟩
  | finalizeCsr => exact ⟨trivial, _, .finalizeCsr, fun h => h⟩
  | pollCertificate order =>
      simp only [orderAnswer]
      split
      · rename_i hrequest
        exact ⟨trivial, _, .pollCertificate hrequest leafKey_first, fun h => h⟩
      · exact ⟨trivial, _, .pollCertificateFailed _, fun h => h⟩
  | _ => exact answer_amongReplicas hclock _ _

/-- The backend with the signing request of the order. -/
def withRequest (b : Secrets Unit) : Secrets Unit :=
  { b with requests := Function.update b.requests sampleOrder.url (some firstRequest) }

/-- The certificate of the order. -/
theorem orderAnswer_pollCertificate (b : Secrets Unit) :
    orderAnswer (.pollCertificate sampleOrder) (withRequest b) =
      (.ok firstKey.certificatePem, withRequest b) := by
  have hrequest : (withRequest b).requests sampleOrder.url = some firstRequest := by
    simp [withRequest]
  exact if_pos hrequest

section Renewal

variable {m : CertMemory} {b : Secrets Unit}

/-- The challenge of the sample order is answered. -/
theorem exec_authorizations :
    (CertManager.processAuthorizations .dns01 sampleOrder.authorizations).exec orderAnswer m b =
      ((.ok [.deleteTxtRecord "a.example.com" challengeDigest], m), b) := rfl

/-- The sample order is ready at once. -/
theorem exec_pollOrder (manager : CertManager) (cleanups : List CleanupFuture) :
    (manager.pollOrder sampleOrder cleanups).exec orderAnswer m b = ((.ok (), m), b) := by
  have hclean : ∀ cleanups : List CleanupFuture,
      (CertManager.cleanUpAll cleanups).exec orderAnswer m b = ((.ok (), m), b) := by
    intro cleanups
    induction cleanups with
    | nil => rfl
    | cons cleanup rest ih => exact ih
  have hready : orderAnswer (.pollReady sampleOrder) b = (.ok .ready, b) := rfl
  simp [CertManager.pollOrder, hready, hclean]

/-- The request for the first key. -/
theorem generateCsr_first :
    sampleAcmeManager.generateCsr sampleLibraries firstKey.keyPem = .ok firstRequest := by
  have hserialize : sampleLibraries.serializeRequest
      ⟨["a.example.com"], "a.example.com", none, none⟩ firstKey.keyPem = .ok firstRequest := by
    simp only [sampleLibraries, and_self, if_true]
  have hparams : sampleAcmeManager.generateCsr sampleLibraries firstKey.keyPem =
      (sampleLibraries.serializeRequest ⟨["a.example.com"], "a.example.com", none, none⟩
        firstKey.keyPem).mapError .parsing := rfl
  rw [hparams, hserialize]
  rfl

/-- An order of the sample manager for its stored key. -/
theorem exec_orderCertificate {account : Account} (hclient : m.acmeClient = some account)
    (hkey : b.values (sampleAcmeManager.signingSecretId sampleLibraries) = some firstKey.keyPem) :
    (sampleAcmeManager.orderCertificate sampleLibraries .dns01
        "https://acme.example.com/directory").exec orderAnswer m b =
      ((.ok (firstKey.certificatePem, firstKey.keyPem), m), withRequest b) := by
  have httl : sampleAcmeManager.signingKeyTtl = 0 := rfl
  have horder : ∀ account identifiers,
    orderAnswer (.newOrder account identifiers) b = (.ok sampleOrder, b) := fun _ _ => rfl
  have hload : ∀ key, orderAnswer (.load key) b = (.ok (b.values key), b) := fun _ => rfl
  have hfinalize : orderAnswer (.finalizeCsr sampleOrder firstRequest) b =
    (.ok (), withRequest b) := rfl
  simp [CertManager.orderCertificate, CertManager.acmeAccount, hclient, horder,
    exec_authorizations, exec_pollOrder, CertManager.signingKeyPem, CertManager.loadSigningKey,
    CertManager.signingKeyCache, httl, loadWithCache, hload, hkey, generateCsr_first, hfinalize,
    orderAnswer_pollCertificate]

/-- The backend after a renewal. -/
def renewedBackend (b : Secrets Unit) : Secrets Unit :=
  (withRequest b).write noAccount
    ⟨sampleAcmeManager.certKey sampleLibraries, firstKey.json, true, true⟩

/-- The certificate of the sample keys is valid for 365 days. -/
theorem firstKey_due : (RenewalStrategy.daysBeforeExpiry (some 365)).shouldRenewCert firstKey.data
    1794964100 = true := by
  simp [RenewalStrategy.shouldRenewCert, SampleKey.data]

/-- A certificate is persisted over the one that was loaded. -/
theorem exec_persistIssued {k : SampleKey} (hk : k.Known)
    (hhit : m.lookup .certificate (sampleAcmeManager.certKey sampleLibraries) = some k.json) :
    (sampleAcmeManager.persistCertificateData sampleLibraries k.data).exec orderAnswer m b =
      ((.ok (), m.insert .certificate (sampleAcmeManager.certKey sampleLibraries) k.json),
        b.write noAccount ⟨sampleAcmeManager.certKey sampleLibraries, k.json, true, true⟩) := by
  have hupdate : ∀ key value b, orderAnswer (.update key value) b =
    (.ok (), b.write noAccount ⟨key, value, true, true⟩) := fun _ _ _ => rfl
  simp [CertManager.persistCertificateData, hk.json_eq, CertManager.loadCertificateData,
    loadWithCache, cacheGet, hhit, CertManager.updateCertificateData, updateMaterial,
    writeThrough, hupdate]

/-- The certificate of an order is persisted and becomes active. -/
theorem exec_requestCertificate {k : SampleKey} (hk : k.Known) {b' : Secrets Unit}
    (horder : (sampleAcmeManager.orderCertificate sampleLibraries .dns01
        "https://acme.example.com/directory").exec orderAnswer m b =
      ((.ok (k.certificatePem, k.keyPem), m), b'))
    (hhit : m.lookup .certificate (sampleAcmeManager.certKey sampleLibraries) = some k.json) :
    (sampleAcmeManager.requestCertificate sampleLibraries).exec orderAnswer m b =
      ((.ok k.data, m.activated (sampleAcmeManager.certKey sampleLibraries) k),
        b'.write noAccount ⟨sampleAcmeManager.certKey sampleLibraries, k.json, true, true⟩) := by
  have hstrategy : sampleAcmeManager.strategy =
    .acme .dns01 "https://acme.example.com/directory" := rfl
  have hissued : certificateFromPem sampleLibraries k.certificatePem =
      .ok (k.certificatePem, 1794964017, 1826500017) :=
    certificateFromPem_of_ok hk.parseX509Pem_eq k.certificate_ne_nil hk.parseX509Certificate_eq
  have hnew : (CertManager.newCertificateData k.certificatePem 1794964017 1826500017).exec
    orderAnswer m b' = ((.ok k.data, m), b') := rfl
  simp [hstrategy, CertManager.requestCertificate, CertManager.requestAcmeCertificate, horder,
    hissued, hnew, exec_persistIssued hk hhit, CertManager.cacheProvisionedChain,
    CertManager.storeActiveSigningMaterial, hk.parseCertChainParts_eq, CertMemory.activated]

/-- A renewal check of a certificate that is due. -/
theorem exec_renewCertIfNeeded_due {account : Account} (hclient : m.acmeClient = some account)
    (hmiss : m.lookup .certificate (sampleAcmeManager.certKey sampleLibraries) = none) :
    (sampleAcmeManager.renewCertIfNeeded sampleLibraries (.daysBeforeExpiry (some 365))).exec
      orderAnswer m (withFirstKey (some firstKey.json)) =
      ((.ok (), m.activated (sampleAcmeManager.certKey sampleLibraries) firstKey),
        renewedBackend (withFirstKey (some firstKey.json))) := by
  have hk : firstKey.Known := .inl rfl
  have hdata := sampleLibraries_serdeRoundTrip _ _ hk.json_eq
  have hload : ∀ key b, orderAnswer (.load key) b = (.ok (b.values key), b) := fun _ _ => rfl
  have hnow : ∀ b, orderAnswer .nowUnixTimestamp b = (1794964100, b) := fun _ => rfl
  have hstrategy : sampleAcmeManager.strategy =
    .acme .dns01 "https://acme.example.com/directory" := rfl
  have hclient' : (m.insert .certificate (sampleAcmeManager.certKey sampleLibraries)
    firstKey.json).acmeClient = some account := hclient
  have hkey : (withFirstKey (some firstKey.json)).values
    (sampleAcmeManager.signingSecretId sampleLibraries) = some firstKey.keyPem := by simp
  have hrequest := exec_requestCertificate hk (exec_orderCertificate hclient' hkey)
    (CertMemory.lookup_insert_self _ _ _ _)
  have hactivated : (m.insert .certificate (sampleAcmeManager.certKey sampleLibraries)
      firstKey.json).activated (sampleAcmeManager.certKey sampleLibraries) firstKey =
      m.activated (sampleAcmeManager.certKey sampleLibraries) firstKey := by
    simp [CertMemory.activated]
  simp [CertManager.renewCertIfNeeded, CertManager.certificate, CertManager.loadCertificateData,
    loadWithCache, cacheGet, loadThrough, hmiss, hload, hdata, CertManager.shouldProvisionExisting,
    hstrategy, hnow, firstKey_due, hrequest, hactivated, renewedBackend]

end Renewal

section Steps

variable {m m' : CertMemory} {b b' : Secrets Unit}

/-- An execution of `signing_material` is a step. -/
theorem step_of_exec_material {result : Except CertError SigningMaterial}
    (hexec : (sampleAcmeManager.signingMaterial sampleLibraries).exec
      (Secrets.answer noAccount (fun _ => .error "") none) m b = ((result, m'), b')) :
    ManagerState.Step sampleLibraries sampleAcmeManager (.daysBeforeExpiry none) ⟨m, b⟩
      (.signingMaterial result) ⟨m', b'⟩ :=
  .signingMaterial (reaches_exec (answer_amongReplicas trivial) hexec)

/-- An execution of a renewal check is a step. -/
theorem step_of_exec_renewal {renewal : RenewalStrategy}
    {handle : (op : CertOp) → Secrets Unit → op.Answer × Secrets Unit}
    (hallow : ∀ op b, AmongReplicas sampleLibraries (sampleAcmeManager.certKey sampleLibraries)
      (· = 1794964100) op b (handle op b).1 (handle op b).2) {result : Except CertError Unit}
    (hexec : (sampleAcmeManager.renewCertIfNeeded sampleLibraries renewal).exec handle m b =
      ((result, m'), b')) :
    ManagerState.Step sampleLibraries sampleAcmeManager renewal ⟨m, b⟩
      (.renewCertIfNeeded (· = 1794964100) result) ⟨m', b'⟩ :=
  .renewCertIfNeeded (reaches_exec hallow hexec)

end Steps

/-- A memory of a manager with an account, whose active material has no chain. -/
def orderingMemory : CertMemory :=
  { chainlessMemory with acmeClient := some ⟨"https://acme.example.com/account/1"⟩ }

/-- The theorem at a check that finds a certificate which is due, renews it and so replaces
material without a chain; later another replica replaces the certificate. -/
theorem chain_present_after_renewal_sample :
    ChainMissing orderingMemory ∧ ∃ s₂ s₄, ManagerState.Step sampleLibraries sampleAcmeManager
        (.daysBeforeExpiry (some 365)) ⟨orderingMemory, withFirstKey (some firstKey.json)⟩
        (.renewCertIfNeeded (· = 1794964100) (.ok ())) s₂ ∧
      ManagerState.Step sampleLibraries sampleAcmeManager (.daysBeforeExpiry (some 365)) s₂
        .replicas ⟨s₂.memory, withFirstKey (some secondKey.json)⟩ ∧
      ManagerState.Step sampleLibraries sampleAcmeManager (.daysBeforeExpiry (some 365))
        ⟨s₂.memory, withFirstKey (some secondKey.json)⟩
        (.signingMaterial (.ok ⟨some [base64Standard firstKey.certificate], firstKey.keyPem⟩)) s₄ ∧
      ∃ chain, some [base64Standard firstKey.certificate] = some chain := by
  have hk : firstKey.Known := .inl rfl
  have hmiss : orderingMemory.lookup .certificate (sampleAcmeManager.certKey sampleLibraries) =
    none := rfl
  have hstored : CertificateStored (sampleAcmeManager.certKey sampleLibraries)
      (withFirstKey (some firstKey.json)) := by
    simp [CertificateStored]
  have hdue : DueWhileMissing sampleLibraries sampleAcmeManager (.daysBeforeExpiry (some 365))
      ⟨orderingMemory, withFirstKey (some firstKey.json)⟩ (· = 1794964100) := by
    intro _ text data now htext hdata hnow
    obtain rfl : firstKey.json = text := by simpa [certificateText, hmiss] using htext
    rw [sampleLibraries_serdeRoundTrip _ _ hk.json_eq] at hdata
    cases hdata
    cases hnow
    exact firstKey_due
  have hrenewed := step_of_exec_renewal (orderAnswer_amongReplicas rfl)
    (exec_renewCertIfNeeded_due (m := orderingMemory) rfl hmiss)
  have hreplaced : CertificateStored (sampleAcmeManager.certKey sampleLibraries)
      (withFirstKey (some secondKey.json)) := by
    simp [CertificateStored]
  have hcalled : ManagerState.Step sampleLibraries sampleAcmeManager (.daysBeforeExpiry (some 365))
      ⟨orderingMemory.activated (sampleAcmeManager.certKey sampleLibraries) firstKey,
        withFirstKey (some secondKey.json)⟩
      (.signingMaterial (.ok ⟨some [base64Standard firstKey.certificate], firstKey.keyPem⟩)) _ :=
    .signingMaterial (.refl _ _)
  exact ⟨⟨_, rfl⟩, _, _, hrenewed, .replicas fun _ => hreplaced, hcalled,
    chain_present_after_renewal rfl hstored hdue hrenewed
      (.single ⟨_, .replicas fun _ => hreplaced⟩) hcalled⟩

/-- A missing chain sticks: `signing_material` is called while only the signing key
is stored, another replica stores the certificate, a renewal check finds it and
succeeds, and `signing_material` still returns no chain. -/
theorem chain_missing_despite_renewal :
    ∃ s₁ s₂ s₃ s₄, ManagerState.Step sampleLibraries sampleAcmeManager (.daysBeforeExpiry none)
        ⟨.empty, withFirstKey none⟩ (.signingMaterial (.ok ⟨none, firstKey.keyPem⟩)) s₁ ∧
      ManagerState.Step sampleLibraries sampleAcmeManager (.daysBeforeExpiry none) s₁ .replicas
        s₂ ∧
      s₂.backend = withFirstKey (some firstKey.json) ∧
      ManagerState.Step sampleLibraries sampleAcmeManager (.daysBeforeExpiry none) s₂
        (.renewCertIfNeeded (· = 1794964100) (.ok ())) s₃ ∧
      s₃.backend = withFirstKey (some firstKey.json) ∧
      sampleLibraries.certificateDataFromJson firstKey.json = .ok firstKey.data ∧
      parseCertChainParts sampleLibraries firstKey.data.certificate =
        .ok [base64Standard firstKey.certificate] ∧
      ManagerState.Step sampleLibraries sampleAcmeManager (.daysBeforeExpiry none) s₃
        (.signingMaterial (.ok ⟨none, firstKey.keyPem⟩)) s₄ := by
  have hk : firstKey.Known := .inl rfl
  have hfirst := step_of_exec_material exec_signingMaterial_missing
  have hrenewed := step_of_exec_renewal (answer_amongReplicas rfl)
    (exec_renewCertIfNeeded (m := chainlessMemory) rfl)
  have hwritten : CertificateStored (sampleAcmeManager.certKey sampleLibraries)
      (withFirstKey (some firstKey.json)) := by
    simp [CertificateStored]
  exact ⟨⟨chainlessMemory, withFirstKey none⟩, ⟨chainlessMemory, withFirstKey (some firstKey.json)⟩,
    _, _, hfirst, .replicas fun _ => hwritten, rfl, hrenewed, rfl,
    sampleLibraries_serdeRoundTrip _ _ hk.json_eq, hk.parseCertChainParts_eq,
    .signingMaterial (.refl _ _)⟩

end Samples

end StatusListServer
