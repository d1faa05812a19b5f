import StatusListServer.SecretsBackend

/-!
# Rules for the procedures of the certificate manager

What the procedures that both provisioning strategies share do to the manager's
memory and to the backend, one rule a procedure.  At the end two sample key pairs
are provisioned on a backend that works, or that is down for one key.
-/

namespace StatusListServer

open BitStream Interaction

section Rules

open Proc

variable {γ : Type} {note : Bookkeeping γ} {lib : Libraries} {mayFail : Prop}
  {safe : Secrets γ → Prop} {m : CertMemory} {b : Secrets γ}

/-- Overwriting a value that is there, and storing one that is not. -/
theorem sure_replace {cache : Option MaterialCache} {key value : String} (hsafe : safe b)
    (hwritten : ∀ answered applied, (answered = true → applied = true) →
      safe (b.write note ⟨key, value, answered, applied⟩))
    {Q : Unit → CertMemory → Secrets γ → Prop} {E : CertError → CertMemory → Secrets γ → Prop}
    (hok : ∀ m', Refreshed b.values m m' →
      Q () (m'.insertIn cache key value) (b.write note ⟨key, value, true, true⟩))
    (hload : ∀ e m', mayFail → Refreshed b.values m m' → E e m' b)
    (hwrite : ∀ e m' applied, mayFail → Refreshed b.values m m' →
      E e m' (b.write note ⟨key, value, false, applied⟩)) :
    Sure (Secrets.Env note lib mayFail) safe Q E
      (do match ← storage (loadWithCache key cache) with
          | some _ => storage (updateMaterial cache key value)
          | none => storage (storeMaterial cache key value)) m b := by
  refine sure_bind (sure_storage (sure_loadWithCache hsafe ?_ ?_))
  · intro r m' hloaded
    cases r with
    | some old =>
        refine sure_storage (sure_updateMaterial hwritten (hok m' hloaded.1) ?_)
        exact fun e applied hfail => hwrite _ m' applied hfail hloaded.1
    | none =>
        refine sure_storage (sure_storeMaterial ?_ ?_ ?_)
        · intro answered applied happlied
          refine hwritten answered applied fun hanswered => ?_
          exact (happlied hanswered).resolve_right (fun hpresent => hpresent hloaded.2.1)
        · rintro applied (rfl | hpresent)
          · exact hok m' hloaded.1
          · exact absurd hloaded.2.1 hpresent
        · exact fun e applied hfail => hwrite _ m' applied hfail hloaded.1
  · exact fun e m' hfail hrefreshed => hload _ m' hfail hrefreshed

variable {self : CertManager}

/-- Reading the certificate finds the cached or the stored record, or that there is none. -/
theorem sure_certificate (hsafe : safe b)
    {Q : Option CertificateData → CertMemory → Secrets γ → Prop}
    {E : CertError → CertMemory → Secrets γ → Prop}
    (hfound : ∀ data text m', Refreshed b.values m m' →
      Held b.values m (some .certificate) (self.certKey lib) text →
      lib.certificateDataFromJson text = .ok data → Q (some data) m' b)
    (hnone : ∀ m', Refreshed b.values m m' → b.values (self.certKey lib) = none → Q none m' b)
    (herr : ∀ e m', Refreshed b.values m m' → E e m' b) :
    Sure (Secrets.Env note lib mayFail) safe Q E (self.certificate lib) m b := by
  refine sure_bind (sure_storage (sure_loadWithCache hsafe ?_ ?_))
  · intro r m' hloaded
    cases r with
    | none => exact sure_pure (hnone m' hloaded.1 hloaded.2.1)
    | some text =>
        refine sure_bind (sure_orFail ?_ ?_)
        · exact fun data hdata => sure_pure (hfound data text m' hloaded.1 hloaded.2 hdata)
        · exact fun e _ => herr _ m' hloaded.1
  · exact fun e m' _ hrefreshed => herr _ m' hrefreshed

/-- Reading the signing key changes at most its cache. -/
theorem sure_signingKeyFromStorage (hsafe : safe b)
    {Q : Option String → CertMemory → Secrets γ → Prop}
    {E : CertError → CertMemory → Secrets γ → Prop}
    (hok : ∀ r m', LoadedFrom b.values m self.signingKeyCache (self.signingSecretId lib) r m' →
      Q r m' b)
    (herr : ∀ e m', Refreshed b.values m m' → E e m' b) :
    Sure (Secrets.Env note lib mayFail) safe Q E (self.signingKeyFromStorage lib) m b :=
  sure_storage (sure_loadWithCache hsafe hok fun _ m' _ hrefreshed => herr _ m' hrefreshed)

/-- The retries keep every condition that a write of the key keeps, and end with
a key in the backend. -/
theorem sure_storeNewKey {I : Secrets γ → Prop} {secretId keyPem : String}
    (hwrite : ∀ b answered applied, I b → I (b.write note ⟨secretId, keyPem, answered, applied⟩))
    (hsafe : ∀ b, I b → safe b) {Q : String → CertMemory → Secrets γ → Prop}
    {E : CertError → CertMemory → Secrets γ → Prop}
    (hok : ∀ b', I b' → b'.values secretId ≠ none →
      Q keyPem (m.insertIn self.signingKeyCache secretId keyPem) b')
    (herr : ∀ e b', mayFail → I b' → E e m b') (retries : Nat) :
    ∀ b : Secrets γ, I b →
      Sure (Secrets.Env note lib mayFail) safe Q E (self.storeNewKey secretId keyPem retries) m
        b := by
  have hstored : ∀ (b : Secrets γ) (applied : Bool),
      (applied = true ∨ b.values secretId ≠ none) →
      (b.write note ⟨secretId, keyPem, true, applied⟩).values secretId ≠ none := by
    rintro b applied (rfl | hpresent)
    · simp [Secrets.write]
    · cases applied <;> simp [Secrets.write, hpresent]
  have hstore : ∀ (b : Secrets γ), I b → ∀ answered applied,
      (answered = true → applied = true ∨ b.values secretId ≠ none) →
      safe (b.write note ⟨secretId, keyPem, answered, applied⟩) :=
    fun b hI answered applied _ => hsafe _ (hwrite b answered applied hI)
  induction retries with
  | zero =>
      intro b hI
      refine sure_bind (sure_storage (sure_storeMaterial (hstore b hI) ?_ ?_))
      · exact fun applied happlied =>
          sure_pure (hok _ (hwrite b true applied hI) (hstored b applied happlied))
      · exact fun e applied hfail => herr _ _ hfail (hwrite b false applied hI)
  | succ retries ih =>
      intro b hI
      refine sure_bind (sure_attempt (sure_storeMaterial (hstore b hI) ?_ ?_))
      · exact fun applied happlied =>
          sure_pure (hok _ (hwrite b true applied hI) (hstored b applied happlied))
      · exact fun e applied _ => ih _ (hwrite b false applied hI)

/-- Drawing the bytes of a key touches nothing, by induction on the attempts. -/
theorem sure_fillSeed (hsafe : safe b) {Q : List Byte → CertMemory → Secrets γ → Prop}
    {E : CertError → CertMemory → Secrets γ → Prop} (hok : ∀ seed, Q seed m b)
    (herr : ∀ e, E e m b) (attempts : Nat) :
    Sure (Secrets.Env note lib mayFail) safe Q E (CertManager.fillSeed attempts) m b := by
  induction attempts with
  | zero =>
      exact sure_bind (sure_quiet rfl hsafe fun r =>
        sure_orFail (fun seed _ => hok seed) (fun _ _ => herr _))
  | succ attempts ih =>
      refine sure_bind (sure_quiet rfl hsafe fun r => ?_)
      cases r with
      | ok seed => exact sure_pure (hok seed)
      | error e => exact ih

/-- The signing key is a held one, or a new one is stored because there is
none. -/
theorem sure_signingKeyPem (hsafe : safe b) {Q : String → CertMemory → Secrets γ → Prop}
    {E : CertError → CertMemory → Secrets γ → Prop}
    (hfound : ∀ keyPem m', Refreshed b.values m m' →
      Held b.values m self.signingKeyCache (self.signingSecretId lib) keyPem → Q keyPem m' b)
    (hnew : ∀ keyPem m', LoadedFrom b.values m self.signingKeyCache (self.signingSecretId lib)
      none m' → Sure (Secrets.Env note lib mayFail) safe Q E
        (self.storeNewKey (self.signingSecretId lib) keyPem 2) m' b)
    (herr : ∀ e m', Refreshed b.values m m' → E e m' b) :
    Sure (Secrets.Env note lib mayFail) safe Q E (self.signingKeyPem lib) m b := by
  refine sure_bind (sure_storage (sure_loadWithCache hsafe ?_ ?_))
  · intro r m' hloaded
    cases r with
    | some secret => exact sure_pure (hfound secret m' hloaded.1 hloaded.2)
    | none =>
        refine sure_bind (sure_bind (sure_fillSeed hsafe ?_ ?_ 2))
        · intro seed
          refine sure_bind (sure_orFail ?_ ?_)
          · intro key _
            exact sure_orFail (fun keyPem _ => hnew keyPem m' hloaded)
              (fun e _ => herr _ m' hloaded.1)
          · exact fun e _ => herr _ m' hloaded.1
        · exact fun e => herr _ m' hloaded.1
  · exact fun e m' _ hrefreshed => herr _ m' hrefreshed

/-- Reading a source, a file or a secret, touches nothing. -/
theorem sure_loadSource {label : String} {source : MaterialSource} (hsafe : safe b)
    {Q : List Byte → CertMemory → Secrets γ → Prop}
    {E : CertError → CertMemory → Secrets γ → Prop} (hok : ∀ bytes, Q bytes m b)
    (herr : ∀ e, E e m b) :
    Sure (Secrets.Env note lib mayFail) safe Q E (CertManager.loadSource lib label source) m b := by
  cases source with
  | filesystem path =>
      exact sure_bind (sure_quiet rfl hsafe fun r =>
        sure_orFail (fun bytes _ => hok bytes) (fun _ _ => herr _))
  | storage key =>
      refine sure_bind (sure_askLoad hsafe ?_ ?_)
      · refine sure_bind (sure_pure ?_)
        cases b.values key with
        | none => exact sure_throw (herr _)
        | some secret => exact sure_orFail (fun bytes _ => hok bytes) (fun _ _ => herr _)
      · exact fun e _ => sure_bind (sure_throw (herr _))

/-- Loading the source reads only, and ends with material that passed its
check. -/
theorem sure_loadValidated {certificateSource signingKeySource : MaterialSource} (hsafe : safe b)
    {Q : CertificateData × String → CertMemory → Secrets γ → Prop}
    {E : CertError → CertMemory → Secrets γ → Prop}
    (hok : ∀ data keyPem, validateSigningMaterial lib data.certificate keyPem = .ok () →
      Q (data, keyPem) m b)
    (herr : ∀ e, E e m b) :
    Sure (Secrets.Env note lib mayFail) safe Q E
      (CertManager.loadValidated lib certificateSource signingKeySource) m b := by
  refine sure_bind (sure_bind (sure_loadSource hsafe ?_ herr))
  intro certificate
  refine sure_bind (sure_loadSource hsafe ?_ herr)
  intro signingKey
  refine sure_pure (sure_bind (sure_orFail ?_ fun e _ => herr _))
  intro keyPem _
  refine sure_bind (sure_bind (sure_orFail ?_ fun e _ => herr _))
  intro parts _
  refine sure_bind (sure_quiet rfl hsafe fun now => ?_)
  refine sure_pure (sure_bind (sure_orFail ?_ fun e _ => herr _))
  intro _ hvalid
  exact sure_pure (hok _ _ hvalid)

/-- A persisted certificate is in the backend and in its cache. -/
theorem sure_persistCertificateData {certData : CertificateData} (hsafe : safe b)
    (hwritten : ∀ text answered applied, lib.certificateDataToJson certData = .ok text →
      (answered = true → applied = true) →
      safe (b.write note ⟨self.certKey lib, text, answered, applied⟩))
    {Q : Unit → CertMemory → Secrets γ → Prop} {E : CertError → CertMemory → Secrets γ → Prop}
    (hok : ∀ text m', lib.certificateDataToJson certData = .ok text → Refreshed b.values m m' →
      Q () (m'.insert .certificate (self.certKey lib) text)
        (b.write note ⟨self.certKey lib, text, true, true⟩))
    (hload : ∀ e m', Refreshed b.values m m' → E e m' b)
    (hwrite : ∀ e text m' applied, mayFail → lib.certificateDataToJson certData = .ok text →
      Refreshed b.values m m' →
      E e m' (b.write note ⟨self.certKey lib, text, false, applied⟩)) :
    Sure (Secrets.Env note lib mayFail) safe Q E (self.persistCertificateData lib certData) m
      b := by
  refine sure_bind (sure_orFail ?_ fun e _ => hload _ m (.refl _ _))
  intro text htext
  refine sure_replace hsafe (fun answered applied => hwritten text answered applied htext) ?_ ?_ ?_
  · exact fun m' hrefreshed => hok text m' htext hrefreshed
  · exact fun e m' _ hrefreshed => hload _ m' hrefreshed
  · exact fun e m' applied hfail hrefreshed => hwrite _ text m' applied hfail htext hrefreshed

/-- A persisted signing key is in the backend and in its cache. -/
theorem sure_persistSigningKey {keyPem : String} (hsafe : safe b)
    (hwritten : ∀ answered applied, (answered = true → applied = true) →
      safe (b.write note ⟨self.signingSecretId lib, keyPem, answered, applied⟩))
    {Q : Unit → CertMemory → Secrets γ → Prop} {E : CertError → CertMemory → Secrets γ → Prop}
    (hok : ∀ m', Refreshed b.values m m' →
      Q () (m'.insertIn self.signingKeyCache (self.signingSecretId lib) keyPem)
        (b.write note ⟨self.signingSecretId lib, keyPem, true, true⟩))
    (hload : ∀ e m', Refreshed b.values m m' → E e m' b)
    (hwrite : ∀ e m' applied, mayFail → Refreshed b.values m m' →
      E e m' (b.write note ⟨self.signingSecretId lib, keyPem, false, applied⟩)) :
    Sure (Secrets.Env note lib mayFail) safe Q E (self.persistSigningKey lib keyPem) m b :=
  sure_replace hsafe hwritten hok (fun e m' _ => hload e m') hwrite

/-- A chain that can be parsed is cached. -/
theorem sure_cacheProvisionedChain {certPem : String} {Q : Unit → CertMemory → Secrets γ → Prop}
    {E : CertError → CertMemory → Secrets γ → Prop}
    (hok : ∀ parts, parseCertChainParts lib certPem = .ok parts →
      Q () { m with certChainCache := some (self.certKey lib, parts) } b)
    (herr : ∀ e, E e m b) :
    Sure (Secrets.Env note lib mayFail) safe Q E (self.cacheProvisionedChain lib certPem) m b :=
  sure_bind (sure_orFail (fun parts hparts => sure_modify (hok parts hparts)) fun _ _ => herr _)

/-- A chain that has been parsed once becomes active together with its key. -/
theorem sure_storeActiveSigningMaterial {certPem keyPem : String} {parts : List String}
    (hparts : parseCertChainParts lib certPem = .ok parts)
    {Q : Unit → CertMemory → Secrets γ → Prop} {E : CertError → CertMemory → Secrets γ → Prop}
    (hok : Q () { m with active := some ⟨some parts, keyPem⟩ } b) :
    Sure (Secrets.Env note lib mayFail) safe Q E
      (CertManager.storeActiveSigningMaterial lib certPem keyPem) m b := by
  refine sure_bind (sure_orFail ?_ ?_)
  · intro parts' hparts'
    rw [hparts] at hparts'
    cases hparts'
    exact sure_modify hok
  · intro e he
    rw [hparts] at he
    cases he

end Rules

/-! ## Sample executions -/

section Executions

open Proc

/-- A world that works, except for the writes of one key. -/
def Secrets.answer {γ : Type} (note : Bookkeeping γ) (files : String → Except String (List Byte))
    (down : Option String) : (op : CertOp) → Secrets γ → op.Answer × Secrets γ
  | .load key, b => (.ok (b.values key), b)
  | .store key value, b | .update key value, b =>
      if down = some key then
        (.error (.backend "unavailable"), b.write note ⟨key, value, false, false⟩)
      else
        (.ok (), b.write note ⟨key, value, true, true⟩)
  | .delete key, b => (.ok (), { b with values := Function.update b.values key none })
  | .readFile path, b => (files path, b)
  | .nowUnixTimestamp, b => (1794964100, b)
  | .signingKeyExpired, b => (false, b)
  | .fillSeed, b | .accountFromCredentials _, b | .createAccount _ _, b | .newOrder _ _, b
  | .authorization _, b | .setReady _, b | .pollReady _, b | .finalizeCsr _ _, b
  | .pollCertificate _, b => (.error "unavailable", b)
  | .handleAuthorization _, b | .createTxtRecord _ _, b | .cleanUp _, b =>
      (.error (.other "unavailable"), b)

/-- What the sample world answers, the world may answer. -/
theorem Secrets.answer_allowed {γ : Type} {note : Bookkeeping γ} {lib : Libraries} {mayFail : Prop}
    {files : String → Except String (List Byte)} {down : Option String}
    (hdown : down ≠ none → mayFail) (op : CertOp) (b : Secrets γ) :
    Secrets.Env note lib mayFail op b (Secrets.answer note files down op b).1
      (Secrets.answer note files down op b).2 := by
  cases op with
  | load key => exact .load
  | store key value =>
      simp only [answer]
      split
      · exact .storeFailed _ false (hdown (by simp [*]))
      · exact .store true (.inl rfl)
  | update key value =>
      simp only [answer]
      split
      · exact .updateFailed _ false (hdown (by simp [*]))
      · exact .update
  | delete key => exact .delete
  | finalizeCsr order csr => exact .finalizeCsrFailed _
  | pollCertificate order => exact .pollCertificateFailed _
  | _ => exact .quiet rfl _

/-- The files of a sample key. -/
def sampleFiles (k : SampleKey) (path : String) : Except String (List Byte) :=
  if path = "tls.crt" then .ok k.certificate
  else if path = "tls.key" then .ok k.pkcs8
  else .error "No such file or directory (os error 2)"

/-- A manager for one domain that takes its material from files. -/
def sampleManager (domain : String) : CertManager where
  domains := [domain]
  email := ""
  organization := none
  eku := none
  strategy := .store (.filesystem "tls.crt") (.filesystem "tls.key")
  signingKeyTtl := 0
  domains_ne := by simp

/-- A value is passed on. -/
@[simp] theorem exec_orFail_ok {ε ε' α σ : Type} {f : ε → ε'} {a : α}
    {handle : (op : CertOp) → σ → op.Answer × σ} {m : CertMemory} {w : σ} :
    (orFail f (.ok a)).exec handle m w = ((.ok a, m), w) := rfl

/-- An error is passed on under its new name. -/
@[simp] theorem exec_orFail_error {ε ε' α σ : Type} {f : ε → ε'} {e : ε}
    {handle : (op : CertOp) → σ → op.Answer × σ} {m : CertMemory} {w : σ} :
    (orFail f (.error e : Except ε α)).exec handle m w = ((.error (f e), m), w) := rfl

/-- The libraries read and write the material of a sample key. -/
structure SampleKey.Served (lib : Libraries) (k : SampleKey) : Prop where
  key : normalizePkcs8Key lib k.pkcs8 = .ok k.keyPem
  certificate : certificateFromDerOrPem lib k.certificate =
    .ok (k.certificatePem, 1794964017, 1826500017)
  valid : validateSigningMaterial lib k.certificatePem k.keyPem = .ok ()
  chain : parseCertChainParts lib k.certificatePem = .ok [base64Standard k.certificate]
  written : lib.certificateDataToJson k.data = .ok k.json
  read : lib.certificateDataFromJson k.json = .ok k.data

/-- The sample libraries serve the sample keys. -/
theorem SampleKey.Known.served {k : SampleKey} (hk : k.Known) : k.Served sampleLibraries :=
  ⟨hk.normalizePkcs8Key_eq, hk.certificateFromDerOrPem_eq, hk.validate_eq,
    hk.parseCertChainParts_eq, hk.json_eq, sampleLibraries_serdeRoundTrip _ _ hk.json_eq⟩

variable {γ : Type} {note : Bookkeeping γ} {files : String → Except String (List Byte)}
  {down : Option String} {m : CertMemory} {b : Secrets γ} {manager : CertManager} {key : String}
  {lib : Libraries} {k : SampleKey}

/-- A storage procedure, with its errors wrapped. -/
@[simp] theorem exec_storage {σ α : Type} {x : StorageM α}
    {handle : (op : CertOp) → σ → op.Answer × σ} {m : CertMemory} {w : σ} :
    (storage x).exec handle m w =
      match x.exec handle m w with
      | ((.ok a, m'), w') => ((.ok a, m'), w')
      | ((.error e, m'), w') => ((.error (.storage e), m'), w') := by
  simp only [storage, exec_bind, exec_attempt]
  generalize x.exec handle m w = r
  obtain ⟨⟨_ | a, m'⟩, w'⟩ := r <;> rfl

/-- Without a cache the signing key is read from the backend. -/
theorem exec_loadSigningKey (httl : manager.signingKeyTtl = 0) :
    (manager.loadSigningKey key).exec (Secrets.answer note files down) m b =
      ((.ok (b.values key), m), b) := by
  simp [CertManager.loadSigningKey, CertManager.signingKeyCache, httl, loadWithCache,
    Secrets.answer]

/-- A certificate that is not cached is read from the backend, and cached. -/
theorem exec_loadCertificateData (hm : m.lookup .certificate key = none) :
    (CertManager.loadCertificateData key).exec (Secrets.answer note files down) m b =
      ((.ok (b.values key), (b.values key).elim m (m.insert .certificate key)), b) := by
  cases hvalue : b.values key <;>
    simp [CertManager.loadCertificateData, loadWithCache, cacheGet, loadThrough, Secrets.answer, hm,
      hvalue]

/-- The files of a key pass their check. -/
theorem exec_loadValidated (hk : k.Served lib) :
    (CertManager.loadValidated lib (.filesystem "tls.crt") (.filesystem "tls.key")).exec
      (Secrets.answer note (sampleFiles k) down) m b = ((.ok (k.data, k.keyPem), m), b) := by
  simp [CertManager.loadValidated, CertManager.loadMaterial, CertManager.loadSource, Secrets.answer,
    sampleFiles, hk.key, CertManager.certificateDataFromDerOrPem, hk.certificate,
    CertManager.newCertificateData, hk.valid]
  rfl

/-- The later of two insertions under one key stays. -/
@[simp] theorem insert_insert (c : MaterialCache) (key v v' : String) :
    (m.insert c key v).insert c key v' = m.insert c key v' := by
  cases c <;> rfl

/-- The certificate is written and cached, whatever was stored before. -/
theorem exec_persistCertificateData (hk : k.Served lib) (hup : down ≠ some (manager.certKey lib)) :
    (manager.persistCertificateData lib k.data).exec (Secrets.answer note files down) m b =
      ((.ok (), m.insert .certificate (manager.certKey lib) k.json),
        b.write note ⟨manager.certKey lib, k.json, true, true⟩) := by
  cases hm : m.lookup .certificate (manager.certKey lib) <;>
    cases hb : b.values (manager.certKey lib) <;>
    simp [CertManager.persistCertificateData, hk.written, CertManager.loadCertificateData,
      CertManager.updateCertificateData, CertManager.storeCertificateData, storeMaterial,
      updateMaterial, writeThrough, loadWithCache, cacheGet, loadThrough, Secrets.answer, hm, hb,
      hup]

/-- The signing key is written unless the backend is down for it. -/
theorem exec_persistSigningKey (httl : manager.signingKeyTtl = 0) {keyPem : String} :
    (manager.persistSigningKey lib keyPem).exec (Secrets.answer note files down) m b =
      if down = some (manager.signingSecretId lib) then
        ((.error (.storage (.backend "unavailable")), m),
          b.write note ⟨manager.signingSecretId lib, keyPem, false, false⟩)
      else
        ((.ok (), m), b.write note ⟨manager.signingSecretId lib, keyPem, true, true⟩) := by
  by_cases hdown : down = some (manager.signingSecretId lib) <;>
    cases hb : b.values (manager.signingSecretId lib) <;>
    simp [CertManager.persistSigningKey, exec_loadSigningKey httl, hb,
      CertManager.updateSigningKey, CertManager.storeSigningKey, CertManager.signingKeyCache, httl,
      storeMaterial, updateMaterial, writeThrough, Secrets.answer, hdown]

/-- The backend holds no certificate, or that of another sample key. -/
def OtherCertificate (k : SampleKey) (stored : Option String) : Prop :=
  stored = none ∨ ∃ k₀ : SampleKey, k₀.Known ∧ k₀.certificatePem ≠ k.certificatePem ∧
    stored = some k₀.json

/-- Reading the certificate does not change what the backend holds. -/
theorem exec_certificate_none (hm : m.lookup .certificate (manager.certKey lib) = none)
    (hb : b.values (manager.certKey lib) = none) :
    (manager.certificate lib).exec (Secrets.answer note files down) m b = ((.ok none, m), b) := by
  simp [CertManager.certificate, exec_loadCertificateData hm, hb]

/-- A stored certificate is read and cached. -/
theorem exec_certificate_stored {text : String} {data : CertificateData}
    (hm : m.lookup .certificate (manager.certKey lib) = none)
    (hb : b.values (manager.certKey lib) = some text)
    (hdata : lib.certificateDataFromJson text = .ok data) :
    (manager.certificate lib).exec (Secrets.answer note files down) m b =
      ((.ok (some data), m.insert .certificate (manager.certKey lib) text), b) := by
  simp [CertManager.certificate, exec_loadCertificateData hm, hb, hdata]

/-- A cached certificate is read without the backend. -/
theorem exec_certificate_cached {text : String} {data : CertificateData}
    (hm : m.lookup .certificate (manager.certKey lib) = some text)
    (hdata : lib.certificateDataFromJson text = .ok data) :
    (manager.certificate lib).exec (Secrets.answer note files down) m b =
      ((.ok (some data), m), b) := by
  simp [CertManager.certificate, CertManager.loadCertificateData, loadWithCache, cacheGet, hm,
    hdata]

/-- The certificate in the record of a key. -/
@[simp] theorem data_certificate (k : SampleKey) : k.data.certificate = k.certificatePem := rfl

/-- The memory of a manager that has activated a sample key. -/
def CertMemory.activated (m : CertMemory) (certKey : String) (k : SampleKey) : CertMemory :=
  { m.insert .certificate certKey k.json with
    certChainCache := some (certKey, [base64Standard k.certificate])
    active := some ⟨some [base64Standard k.certificate], k.keyPem⟩ }

/-- The certificate of an activated key is cached. -/
@[simp] theorem CertMemory.lookup_activated (m : CertMemory) (certKey : String) (k : SampleKey) :
    (m.activated certKey k).lookup .certificate certKey = some k.json := by
  simp [activated, lookup, insert]

variable {current : Option CertificateData} {m' : CertMemory}

/-- A new source is persisted and becomes active, unless its key cannot be written. -/
theorem exec_provision_new (hk : k.Served lib) (httl : manager.signingKeyTtl = 0)
    (hup : down ≠ some (manager.certKey lib))
    (hcurrent : (manager.certificate lib).exec (Secrets.answer note (sampleFiles k) down) m b =
      ((.ok current, m'), b))
    (hne : ¬∃ data, current = some data ∧ data.certificate = k.certificatePem) :
    (manager.provisionFromStore lib (.filesystem "tls.crt") (.filesystem "tls.key")).exec
        (Secrets.answer note (sampleFiles k) down) m b =
      if down = some (manager.signingSecretId lib) then
        ((.error (.storage (.backend "unavailable")),
            m'.insert .certificate (manager.certKey lib) k.json),
          (b.write note ⟨manager.certKey lib, k.json, true, true⟩).write note
            ⟨manager.signingSecretId lib, k.keyPem, false, false⟩)
      else
        ((.ok k.data, m'.activated (manager.certKey lib) k),
          (b.write note ⟨manager.certKey lib, k.json, true, true⟩).write note
            ⟨manager.signingSecretId lib, k.keyPem, true, true⟩) := by
  by_cases hdown : down = some (manager.signingSecretId lib)
  · subst hdown
    simp [CertManager.provisionFromStore, exec_loadValidated hk, hcurrent,
      CertManager.signingKeyFromStorage, exec_loadSigningKey httl, hne,
      CertManager.persistCryptoMaterial, exec_persistCertificateData hk hup,
      exec_persistSigningKey httl]
  · simp [CertManager.provisionFromStore, exec_loadValidated hk, hcurrent,
      CertManager.signingKeyFromStorage, exec_loadSigningKey httl, hne,
      CertManager.persistCryptoMaterial, exec_persistCertificateData hk hup,
      exec_persistSigningKey httl, hdown, CertManager.cacheProvisionedChain,
      CertManager.storeActiveSigningMaterial, hk.chain, CertMemory.activated]

/-- A source that the manager holds is returned, and nothing is activated. -/
theorem exec_provision_held (hk : k.Served lib) (httl : manager.signingKeyTtl = 0)
    (hm : m.lookup .certificate (manager.certKey lib) = some k.json)
    (hb : b.values (manager.signingSecretId lib) = some k.keyPem) :
    (manager.provisionFromStore lib (.filesystem "tls.crt") (.filesystem "tls.key")).exec
        (Secrets.answer note (sampleFiles k) down) m b = ((.ok k.data, m), b) := by
  simp [CertManager.provisionFromStore, exec_loadValidated hk, exec_certificate_cached hm hk.read,
    CertManager.signingKeyFromStorage, exec_loadSigningKey httl, hb]

variable (note down) in
/-- Provisioning from the files of a key that is not stored writes its certificate, and its
key unless the backend is down for it. -/
theorem exec_provision (hk : k.Known) (httl : manager.signingKeyTtl = 0)
    (hup : down ≠ some (manager.certKey sampleLibraries))
    (hm : m.lookup .certificate (manager.certKey sampleLibraries) = none)
    (hb : OtherCertificate k (b.values (manager.certKey sampleLibraries))) :
    ∃ r m', (manager.provisionFromStore sampleLibraries (.filesystem "tls.crt")
      (.filesystem "tls.key")).exec (Secrets.answer note (sampleFiles k) down) m b =
        ((r, m'), (b.write note ⟨manager.certKey sampleLibraries, k.json, true, true⟩).write note
          ⟨manager.signingSecretId sampleLibraries, k.keyPem,
            down ≠ some (manager.signingSecretId sampleLibraries),
            down ≠ some (manager.signingSecretId sampleLibraries)⟩) ∧
      (down ≠ some (manager.signingSecretId sampleLibraries) → r = .ok k.data) := by
  have hcurrent : ∃ current m', (manager.certificate sampleLibraries).exec
      (Secrets.answer note (sampleFiles k) down) m b = ((.ok current, m'), b) ∧
        ¬∃ data, current = some data ∧ data.certificate = k.certificatePem := by
    obtain hnone | ⟨k₀, hk₀, hne, hsome⟩ := hb
    · exact ⟨none, m, exec_certificate_none hm hnone, by simp⟩
    · exact ⟨some k₀.data, _, exec_certificate_stored hm hsome hk₀.served.read, by simpa using hne⟩
  obtain ⟨current, m', hcurrent, hne⟩ := hcurrent
  rw [exec_provision_new hk.served httl hup hcurrent hne]
  by_cases hdown : down = some (manager.signingSecretId sampleLibraries)
  · simp [hdown]
  · simp [hdown]

variable (note files down) in
/-- A process that has just started reads its material from the backend. -/
theorem exec_signingMaterial (hk : k.Known) (httl : manager.signingKeyTtl = 0) {keyPem : String}
    (hcert : b.values (manager.certKey sampleLibraries) = some k.json)
    (hkey : b.values (manager.signingSecretId sampleLibraries) = some keyPem) :
    ∃ m', (manager.signingMaterial sampleLibraries).exec (Secrets.answer note files down)
      .empty b = ((.ok ⟨some [base64Standard k.certificate], keyPem⟩, m'), b) := by
  have hmiss : CertMemory.empty.lookup .certificate (manager.certKey sampleLibraries) = none := rfl
  have hdata := sampleLibraries_serdeRoundTrip _ _ hk.json_eq
  have hactive : CertMemory.empty.active = none := rfl
  have hchain : CertMemory.empty.certChainCache = none := rfl
  simp [CertManager.signingMaterial, hactive, CertManager.signingKeyPem, exec_loadSigningKey httl,
    hkey, CertManager.certChainParts, hchain, CertManager.certificate,
    exec_loadCertificateData hmiss, hcert, hdata, hk.parseCertChainParts_eq]

end Executions

end StatusListServer
