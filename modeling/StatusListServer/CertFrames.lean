import StatusListServer.SecretsBackend

/-!
# What provisioning leaves alone

The procedures of the ACME strategy up to the certificate, in an environment whose
operations keep the world safe: each of them ends in a safe world and leaves the
active material as it was.
-/

namespace StatusListServer

open Interaction Proc

/-- The operations that answer the challenges of an order. -/
def CertOp.answersChallenge : CertOp → Bool
  | .authorization _ => true
  | .handleAuthorization _ => true
  | .createTxtRecord _ _ => true
  | .setReady _ => true
  | .cleanUp _ => true
  | .pollReady _ => true
  | _ => false

section Frames

variable {σ ε ε' α : Type} {env : Answers CertOp CertOp.Answer σ} {safe : σ → Prop}
  {allowed : CertOp → Prop} {lib : Libraries} {manager : CertManager}

/-- Turning a value into a result touches nothing. -/
theorem frame_orFail {g : ε → ε'} {r : Except ε α} :
    Frame env safe CertMemory.active (orFail g r) := by
  cases r with
  | ok a => exact frame_pure
  | error e => exact frame_throw

/-- A storage procedure keeps the active material as its inner procedure does. -/
theorem frame_storage {x : StorageM α} (hx : Frame env safe CertMemory.active x) :
    Frame env safe CertMemory.active (storage x) :=
  frame_bind (frame_attempt hx) fun _ => frame_orFail

/-- The allowed operations keep the world safe.  They are all operations, or all but
some deletions and some of those that answer challenges. -/
structure Spares (env : Answers CertOp CertOp.Answer σ) (safe : σ → Prop)
    (allowed : CertOp → Prop) : Prop where
  plain : ∀ op, op.answersChallenge = false → (∀ key, op ≠ .delete key) → allowed op
  keeps : ∀ op w r w', allowed op → safe w → env op w r w' → safe w'

variable (hops : Spares env safe allowed)

include hops

/-- An allowed operation answers without touching the memory. -/
theorem frame_call {op : CertOp} (hop : allowed op) :
    Frame env safe CertMemory.active (ask op : Proc _ _ _ ε _) :=
  frame_ask fun w r w' => hops.keeps op w r w' hop

/-- An operation that neither answers a challenge nor deletes a secret is allowed. -/
theorem frame_plain {op : CertOp} (hop : op.answersChallenge = false)
    (hkeep : ∀ key, op ≠ .delete key) :
    Frame env safe CertMemory.active (ask op : Proc _ _ _ ε _) :=
  frame_call hops (hops.plain op hop hkeep)

/-- Reading a cache reads only. -/
theorem frame_cacheGet {cache : MaterialCache} {key : String} :
    Frame env safe CertMemory.active (cacheGet cache key) := by
  apply frame_bind frame_get
  intro m
  split
  · exact frame_pure
  · split
    · exact frame_pure
    · apply frame_bind (frame_plain hops rfl (by simp))
      intro expired
      split
      · exact frame_bind (frame_modify fun _ => rfl) fun _ => frame_pure
      · exact frame_pure

/-- Loading a secret may fill its cache, and nothing else. -/
theorem frame_loadWithCache {key : String} {cache : Option MaterialCache} :
    Frame env safe CertMemory.active (loadWithCache key cache) := by
  cases cache with
  | none => exact frame_bind (frame_plain hops rfl (by simp)) fun _ => frame_orFail
  | some cache =>
      apply frame_bind (frame_cacheGet hops)
      intro hit
      split
      · exact frame_pure
      · apply frame_bind (frame_plain hops rfl (by simp))
        intro answer
        apply frame_bind frame_orFail
        intro loaded
        split
        · exact frame_pure
        · exact frame_bind (frame_modify fun m => m.insert_active _ _ _) fun _ => frame_pure

/-- Storing a secret fills its cache. -/
theorem frame_storeMaterial {key value : String} {cache : Option MaterialCache} :
    Frame env safe CertMemory.active (storeMaterial cache key value) := by
  apply frame_bind (frame_plain hops rfl (by simp))
  intro answer
  apply frame_bind frame_orFail
  intro _
  split
  · exact frame_pure
  · exact frame_modify fun m => m.insert_active _ _ _

/-- Overwriting a secret fills its cache. -/
theorem frame_updateMaterial {key value : String} {cache : Option MaterialCache} :
    Frame env safe CertMemory.active (updateMaterial cache key value) := by
  apply frame_bind (frame_plain hops rfl (by simp))
  intro answer
  apply frame_bind frame_orFail
  intro _
  split
  · exact frame_pure
  · exact frame_modify fun m => m.insert_active _ _ _

/-- Drawing the bytes of a key, however often it is tried. -/
theorem frame_fillSeed (attempts : Nat) :
    Frame env safe CertMemory.active (CertManager.fillSeed attempts) := by
  induction attempts with
  | zero => exact frame_bind (frame_plain hops rfl (by simp)) fun _ => frame_orFail
  | succ attempts ih =>
      apply frame_bind (frame_plain hops rfl (by simp))
      intro filled
      split
      · exact frame_pure
      · exact ih

/-- Storing a new key, by induction on the retries. -/
theorem frame_storeNewKey {secretId keyPem : String} (retries : Nat) :
    Frame env safe CertMemory.active (manager.storeNewKey secretId keyPem retries) := by
  induction retries with
  | zero =>
      exact frame_bind (frame_storage (frame_storeMaterial hops)) fun _ => frame_pure
  | succ retries ih =>
      apply frame_bind (frame_attempt (frame_storeMaterial hops))
      intro stored
      split
      · exact frame_pure
      · exact ih

/-- Coming by the signing key, stored or new. -/
theorem frame_signingKeyPem : Frame env safe CertMemory.active (manager.signingKeyPem lib) := by
  apply frame_bind (frame_storage (frame_loadWithCache hops))
  intro found
  split
  · exact frame_pure
  · apply frame_bind
    · apply frame_bind (frame_fillSeed hops 2)
      intro seed
      exact frame_bind frame_orFail fun _ => frame_orFail
    · exact fun keyPem => frame_storeNewKey hops 2

/-- Persisting a certificate does not yet make it active. -/
theorem frame_persistCertificateData {certData : CertificateData} :
    Frame env safe CertMemory.active (manager.persistCertificateData lib certData) := by
  apply frame_bind frame_orFail
  intro serialized
  apply frame_bind (frame_storage (frame_loadWithCache hops))
  intro found
  split
  · exact frame_storage (frame_updateMaterial hops)
  · exact frame_storage (frame_storeMaterial hops)

omit hops in
/-- Caching the chain of a certificate does not yet make it active. -/
theorem frame_cacheProvisionedChain {certPem : String} :
    Frame env safe CertMemory.active (manager.cacheProvisionedChain lib certPem) :=
  frame_bind frame_orFail fun _ => frame_modify fun _ => rfl

/-- Coming by the ACME account; only here may a secret be deleted. -/
theorem frame_acmeAccount {directoryUrl : String}
    (hdelete : allowed (.delete (manager.acmeAccountId lib))) :
    Frame env safe CertMemory.active (manager.acmeAccount lib directoryUrl) := by
  have hcreate : Frame env safe CertMemory.active
      (CertManager.acmeAccount.createAccount lib manager directoryUrl) := by
    apply frame_bind (frame_plain hops rfl (by simp))
    intro answer
    apply frame_bind frame_orFail
    intro created
    apply frame_bind frame_orFail
    intro json
    apply frame_bind (frame_plain hops rfl (by simp))
    intro stored
    apply frame_bind frame_orFail
    intro _
    exact frame_bind (frame_modify fun _ => rfl) fun _ => frame_pure
  apply frame_bind frame_get
  intro m
  split
  · exact frame_pure
  · apply frame_bind (frame_plain hops rfl (by simp))
    intro answer
    apply frame_bind frame_orFail
    intro loaded
    split
    · exact hcreate
    · apply frame_bind frame_orFail
      intro credentials
      apply frame_bind (frame_plain hops rfl (by simp))
      intro account
      split
      · exact frame_bind (frame_modify fun _ => rfl) fun _ => frame_pure
      · apply frame_bind (frame_call hops hdelete)
        intro deleted
        exact frame_bind frame_orFail fun _ => hcreate

variable (hchallenges : ∀ op : CertOp, op.answersChallenge = true → allowed op)

include hchallenges

/-- Answering one challenge. -/
theorem frame_handleAuthorization {authz : Authorization} {handler : ChallengeHandler} :
    Frame env safe CertMemory.active (CertManager.handleAuthorization authz handler) := by
  cases handler with
  | other => exact frame_bind (frame_call hops (hchallenges _ rfl)) fun _ => frame_orFail
  | dns01 =>
      unfold CertManager.handleAuthorization
      cases authz.dnsValue with
      | none => exact frame_throw
      | some digest =>
          apply frame_bind (frame_call hops (hchallenges _ rfl))
          intro created
          apply frame_bind frame_orFail
          intro _
          apply frame_bind (frame_call hops (hchallenges _ rfl))
          intro ready
          exact frame_bind frame_orFail fun _ => frame_pure

/-- Answering the challenges of an order, by induction on its authorizations. -/
theorem frame_processAuthorizations {handler : ChallengeHandler} (urls : List String) :
    Frame env safe CertMemory.active (CertManager.processAuthorizations handler urls) := by
  induction urls with
  | nil => exact frame_pure
  | cons url rest ih =>
      apply frame_bind (frame_call hops (hchallenges _ rfl))
      intro answer
      apply frame_bind frame_orFail
      intro authz
      split
      · exact ih
      · apply frame_bind (frame_handleAuthorization hops hchallenges)
        intro cleanup
        exact frame_bind ih fun _ => frame_pure

/-- Cleaning up after the challenges. -/
theorem frame_cleanUpAll (cleanups : List CleanupFuture) :
    Frame env safe CertMemory.active (CertManager.cleanUpAll cleanups) := by
  induction cleanups with
  | nil => exact frame_pure
  | cons cleanup rest ih => exact frame_bind (frame_call hops (hchallenges _ rfl)) fun _ => ih

/-- Waiting for the order, with the clean-up after it. -/
theorem frame_pollOrder {order : Order} {cleanups : List CleanupFuture} :
    Frame env safe CertMemory.active (manager.pollOrder order cleanups) := by
  apply frame_bind (frame_call hops (hchallenges _ rfl))
  intro answer
  apply frame_bind frame_orFail
  intro state
  apply frame_bind (frame_cleanUpAll hops hchallenges cleanups)
  intro _
  split
  · exact frame_pure
  · exact frame_throw

/-- A whole order leaves the active material alone: it becomes active only afterwards. -/
theorem frame_orderCertificate {handler : ChallengeHandler} {directoryUrl : String}
    (hdelete : allowed (.delete (manager.acmeAccountId lib))) :
    Frame env safe CertMemory.active (manager.orderCertificate lib handler directoryUrl) := by
  apply frame_bind (frame_acmeAccount hops hdelete)
  intro account
  apply frame_bind (frame_plain hops rfl (by simp))
  intro answer
  apply frame_bind frame_orFail
  intro order
  apply frame_bind (frame_processAuthorizations hops hchallenges _)
  intro cleanups
  apply frame_bind (frame_pollOrder hops hchallenges)
  intro _
  apply frame_bind (frame_signingKeyPem hops)
  intro keyPem
  apply frame_bind frame_orFail
  intro csr
  apply frame_bind (frame_plain hops rfl (by simp))
  intro finalized
  apply frame_bind frame_orFail
  intro _
  apply frame_bind (frame_plain hops rfl (by simp))
  intro polled
  exact frame_bind frame_orFail fun _ => frame_pure

end Frames

end StatusListServer
