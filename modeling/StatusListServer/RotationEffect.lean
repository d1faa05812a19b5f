import StatusListServer.SharedBackend

/-!
# What a successful store provisioning changes

The store strategy compares its source with the certificate and the signing key that
the manager holds, while `signing_material` answers from the active material, which is
replaced only at the end of an attempt.  An attempt that failed late leaves the source
stored and the old material active; the next attempt finds the source unchanged,
returns it, and activates nothing.

The history of a manager is any sequence of attempts, with any sources and any
failures of the backend, and of calls of `signing_material`.
-/

namespace StatusListServer

open BitStream Interaction Proc

/-! ## Sources -/

section Sources

variable (lib : Libraries) (files : String → Except String (List Byte))

/-- The file system answers with these files. -/
def ReadsFiles : (op : CertOp) → op.Answer → Prop
  | .readFile path, answer => answer = files path
  | _, _ => True

/-- The world of an attempt: the file system holds these files, and everything else
may fail. -/
def Sourced : Answers CertOp CertOp.Answer (Secrets Unit) :=
  fun op b answer b' => ReadsFiles files op answer ∧ Secrets.Env noAccount lib True op b answer b'

/-- The bytes of a source. -/
def sourceBytes (values : String → Option String) (label : String) :
    MaterialSource → Option (List Byte)
  | .filesystem path => (files path).toOption
  | .storage key => (values key).bind fun secret => (decodeTextMaterial lib secret label).toOption

/-- The signing key of the current source. -/
def sourceKey (values : String → Option String) (source : MaterialSource) : Option String :=
  (sourceBytes lib files values "signing key" source).bind fun bytes =>
    (normalizePkcs8Key lib bytes).toOption

/-- The certificate chain of the current source. -/
def sourceCertificate (values : String → Option String) (source : MaterialSource) :
    Option String :=
  (sourceBytes lib files values "certificate" source).bind fun bytes =>
    (certificateFromDerOrPem lib bytes).toOption.map Prod.fst

variable {lib files} {m : CertMemory} {b : Secrets Unit} {safe : Secrets Unit → Prop}

/-- Reading the source, when it is known what it holds. -/
theorem sure_loadSource_sourced {label : String} {source : MaterialSource} (hsafe : safe b)
    {Q : List Byte → CertMemory → Secrets Unit → Prop}
    {E : CertError → CertMemory → Secrets Unit → Prop}
    (hok : ∀ bytes, sourceBytes lib files b.values label source = some bytes → Q bytes m b)
    (herr : ∀ e, E e m b) :
    Sure (Sourced lib files) safe Q E (CertManager.loadSource lib label source) m b := by
  cases source with
  | filesystem path =>
      refine sure_bind (sure_ask fun answer b' henv => ?_)
      obtain ⟨hanswer, henv⟩ := henv
      cases henv
      refine ⟨hsafe, sure_orFail ?_ fun e _ => herr _⟩
      intro bytes hbytes
      apply hok
      rw [sourceBytes, ← show answer = files path from hanswer, hbytes]
      rfl
  | storage key =>
      refine sure_bind (sure_ask fun answer b' henv => ?_)
      cases henv.2 with
      | load =>
          refine ⟨hsafe, sure_bind (sure_pure ?_)⟩
          cases hvalue : b.values key with
          | none => exact sure_throw (herr _)
          | some secret =>
              refine sure_orFail ?_ fun e _ => herr _
              intro bytes hbytes
              apply hok
              simp [sourceBytes, hvalue, hbytes, Except.toOption]
      | loadFailed e => exact ⟨hsafe, sure_bind (sure_throw (herr _))⟩
      | quiet hquiet => cases hquiet

/-- Loaded material is that of the source, and nothing else has changed. -/
theorem sure_loadValidated_sourced {certificateSource signingKeySource : MaterialSource}
    (hsafe : safe b) {Q : CertificateData × String → CertMemory → Secrets Unit → Prop}
    {E : CertError → CertMemory → Secrets Unit → Prop}
    (hok : ∀ data keyPem,
      sourceCertificate lib files b.values certificateSource = some data.certificate →
      sourceKey lib files b.values signingKeySource = some keyPem → Q (data, keyPem) m b)
    (herr : ∀ e, E e m b) :
    Sure (Sourced lib files) safe Q E
      (CertManager.loadValidated lib certificateSource signingKeySource) m b := by
  refine sure_bind (sure_bind (sure_loadSource_sourced hsafe ?_ herr))
  intro certificate hcertificate
  refine sure_bind (sure_loadSource_sourced hsafe ?_ herr)
  intro signingKey hsigningKey
  refine sure_pure (sure_bind (sure_orFail ?_ fun e _ => herr _))
  intro keyPem hkeyPem
  refine sure_bind (sure_bind (sure_orFail ?_ fun e _ => herr _))
  intro parts hparts
  refine sure_bind (sure_ask fun now b' henv => ?_)
  cases henv.2
  refine ⟨hsafe, sure_pure (sure_bind (sure_orFail ?_ fun e _ => herr _))⟩
  intro _ _
  apply sure_pure
  apply hok
  · simp [sourceCertificate, hcertificate, hparts, Except.toOption]
  · simp [sourceKey, hsigningKey, hkeyPem, Except.toOption]

end Sources

/-! ## What an attempt leaves in memory -/

section Attempts

variable {lib : Libraries} {manager : CertManager} {m m' : CertMemory} {b : Secrets Unit}

/-- A parsed chain is cached only when there is active material. -/
def ChainActive (m : CertMemory) : Prop := m.certChainCache ≠ none → m.active ≠ none

/-- Only the active material and the cached chain matter. -/
theorem ChainActive.congr (h : ChainActive m) (hactive : m'.active = m.active)
    (hchain : m'.certChainCache = m.certChainCache) : ChainActive m' := by
  unfold ChainActive
  rw [hactive, hchain]
  exact h

/-- Material that has been persisted is active; a failure leaves the old material
active. -/
theorem sure_persist_activates {data : CertificateData} {keyPem : String} :
    Sure (Secrets.Env noAccount lib True) (fun _ => True)
      (fun _ m' _ => ∃ parts, parseCertChainParts lib data.certificate = .ok parts ∧
        m'.active = some ⟨some parts, keyPem⟩)
      (fun _ m' _ => m'.active = m.active ∧ m'.certChainCache = m.certChainCache)
      (manager.persistCryptoMaterial lib data keyPem) m b := by
  refine sure_bind (sure_persistCertificateData trivial (fun _ _ _ _ _ => trivial) ?_
    (fun _ m' hm' => ⟨hm'.active, hm'.chain⟩) fun _ _ m' _ _ _ hm' => ⟨hm'.active, hm'.chain⟩)
  intro text m₁ _ hm₁
  have hkept₁ : ∀ {values : String → Option String} {m₂ : CertMemory},
      Refreshed values (m₁.insert .certificate (manager.certKey lib) text) m₂ →
      m₂.active = m.active ∧ m₂.certChainCache = m.certChainCache := by
    intro values m₂ hm₂
    rw [hm₂.active, hm₂.chain, CertMemory.insert_active, CertMemory.insert_chain]
    exact ⟨hm₁.active, hm₁.chain⟩
  refine sure_bind (sure_persistSigningKey trivial (fun _ _ _ => trivial) ?_
    (fun _ m' hm' => hkept₁ hm') fun _ m' _ _ hm' => hkept₁ hm')
  intro m₂ hm₂
  refine sure_bind (sure_cacheProvisionedChain ?_ fun _ => by simpa using hkept₁ hm₂)
  intro parts hparts
  exact sure_storeActiveSigningMaterial hparts ⟨parts, hparts, rfl⟩

variable (lib manager) in
/-- The certificate record that the manager holds: its cache answers before the
backend. -/
def heldCertificate (m : CertMemory) (values : String → Option String) : Option String :=
  (m.lookup .certificate (manager.certKey lib)).or (values (manager.certKey lib))

variable (lib manager) in
/-- The manager holds this certificate and may come by this signing key. -/
def Holds (m : CertMemory) (values : String → Option String) (certPem keyPem : String) : Prop :=
  (∃ text data, heldCertificate lib manager m values = some text ∧
      lib.certificateDataFromJson text = .ok data ∧ data.certificate = certPem) ∧
    Held values m manager.signingKeyCache (manager.signingSecretId lib) keyPem

variable (lib manager) in
/-- How an attempt that returned a certificate has ended: its material is active, or
the manager held the source already and nothing but its caches has changed. -/
inductive Succeeded (m : CertMemory) (b : Secrets Unit) (certPem keyPem : String) :
    CertificateData → CertMemory → Secrets Unit → Prop
  | activated {cert : CertificateData} {parts : List String} {m' : CertMemory} {b' : Secrets Unit}
      (hcert : cert.certificate = certPem) (hparts : parseCertChainParts lib certPem = .ok parts)
      (hactive : m'.active = some ⟨some parts, keyPem⟩) : Succeeded m b certPem keyPem cert m' b'
  | unchanged {cert : CertificateData} {text : String} {m' : CertMemory}
      (hcert : cert.certificate = certPem) (hholds : Holds lib manager m b.values certPem keyPem)
      (hrefreshed : Refreshed b.values m m')
      (htext : m'.lookup .certificate (manager.certKey lib) = some text)
      (hdata : lib.certificateDataFromJson text = .ok cert)
      (hkeys : ∀ c, manager.signingKeyCache = some c →
        m'.lookup c (manager.signingSecretId lib) = some keyPem) :
      Succeeded m b certPem keyPem cert m' b

/-- The provisioned certificate is the one of the source. -/
theorem Succeeded.certificate {certPem keyPem : String} {cert : CertificateData} {b' : Secrets Unit}
    (h : Succeeded lib manager m b certPem keyPem cert m' b') : cert.certificate = certPem := by
  cases h with
  | activated hcert => exact hcert
  | unchanged hcert => exact hcert

/-- A successful attempt keeps the chain of the active material cached. -/
theorem Succeeded.chainActive {certPem keyPem : String} {cert : CertificateData}
    {b' : Secrets Unit} (h : Succeeded lib manager m b certPem keyPem cert m' b')
    (hm : ChainActive m) : ChainActive m' := by
  cases h with
  | activated _ _ hactive =>
      intro _
      rw [hactive]
      exact Option.some_ne_none _
  | unchanged _ _ hrefreshed => exact hm.congr hrefreshed.active hrefreshed.chain

/-- The key is never cached with the certificate. -/
theorem signingKeyCache_ne_certificate : manager.signingKeyCache ≠ some .certificate := by
  unfold CertManager.signingKeyCache
  split
  · simp
  · simp

/-- The comparison with what the manager holds, and what follows from it. -/
theorem sure_compared {data : CertificateData} {keyPem : String} :
    Sure (Secrets.Env noAccount lib True) (fun _ => True)
      (fun cert m' b' => Succeeded lib manager m b data.certificate keyPem cert m' b')
      (fun _ m' _ => m'.active = m.active ∧ m'.certChainCache = m.certChainCache)
      (do let currentCertificate ← manager.certificate lib
          let currentSigningKey ← manager.signingKeyFromStorage lib
          if currentCertificate.map (·.certificate) = some data.certificate ∧
              currentSigningKey = some keyPem then
            return currentCertificate.getD data
          else
            manager.persistCryptoMaterial lib data keyPem
            return data) m b := by
  have hpersist : ∀ m₂, Refreshed b.values m m₂ →
      Sure (Secrets.Env noAccount lib True) (fun _ => True)
        (fun cert m' b' => Succeeded lib manager m b data.certificate keyPem cert m' b')
        (fun _ m' _ => m'.active = m.active ∧ m'.certChainCache = m.certChainCache)
        (do manager.persistCryptoMaterial lib data keyPem
            return data) m₂ b := by
    intro m₂ hm₂
    refine sure_bind (sure_persist_activates.mono ?_ ?_)
    · rintro _ m' b' ⟨parts, hparts, hactive⟩
      exact sure_pure (.activated rfl hparts hactive)
    · rintro _ m' b' ⟨hactive, hchain⟩
      exact ⟨hactive.trans hm₂.active, hchain.trans hm₂.chain⟩
  refine sure_bind (sure_bind (sure_storage (sure_loadWithCache_pinned trivial ?_ ?_)))
  · intro found m₁ hloaded₁ hpinned₁
    have hfound := hpinned₁.certificate rfl
    cases found with
    | none =>
        refine sure_pure (sure_bind (sure_signingKeyFromStorage trivial ?_ ?_))
        · intro key m₂ hloaded₂
          rw [if_neg (by simp)]
          exact hpersist m₂ (hloaded₁.1.trans hloaded₂.1)
        · intro e m₂ hm₂
          exact ⟨hm₂.active.trans hloaded₁.1.active, hm₂.chain.trans hloaded₁.1.chain⟩
    | some text =>
        refine sure_bind (sure_orFail ?_ fun _ _ => ⟨hloaded₁.1.active, hloaded₁.1.chain⟩)
        intro current hcurrent
        refine sure_pure (sure_bind (sure_storage (sure_loadWithCache_pinned trivial ?_ ?_)))
        · intro key m₂ hloaded₂ hpinned₂
          have hm₂ := hloaded₁.1.trans hloaded₂.1
          split
          · rename_i hsame
            obtain ⟨hcert, rfl⟩ := hsame
            have hcert : current.certificate = data.certificate := Option.some.inj hcert
            refine sure_pure (.unchanged hcert ⟨⟨text, current, hfound.symm, hcurrent, hcert⟩, ?_⟩
              hm₂ ?_ hcurrent fun c hc => hpinned₂.cached _ c rfl hc)
            · exact hloaded₁.1.held hloaded₂.2
            · rw [hpinned₂.others _ signingKeyCache_ne_certificate]
              exact hpinned₁.cached _ _ rfl rfl
          · exact hpersist m₂ hm₂
        · intro e m₂ _ hm₂
          exact ⟨hm₂.active.trans hloaded₁.1.active, hm₂.chain.trans hloaded₁.1.chain⟩
  · intro e m₁ _ hm₁
    exact ⟨hm₁.active, hm₁.chain⟩

/-- **An attempt ends with the source active, or finds it held already.** -/
theorem sure_provisionFromStore_sourced {files : String → Except String (List Byte)}
    {certificateSource signingKeySource : MaterialSource} :
    Sure (Sourced lib files) (fun _ => True)
      (fun cert m' b' => ∃ keyPem,
        sourceCertificate lib files b.values certificateSource = some cert.certificate ∧
        sourceKey lib files b.values signingKeySource = some keyPem ∧
        Succeeded lib manager m b cert.certificate keyPem cert m' b')
      (fun _ m' _ => m'.active = m.active ∧ m'.certChainCache = m.certChainCache)
      (manager.provisionFromStore lib certificateSource signingKeySource) m b := by
  refine sure_bind (sure_loadValidated_sourced trivial ?_ fun _ => ⟨rfl, rfl⟩)
  intro data keyPem hcertificate hkey
  refine (sure_compared.restrict fun _ _ _ _ henv => henv.2).mono ?_ fun _ _ _ h => h
  intro cert m' b' hsucceeded
  have hcert := hsucceeded.certificate
  refine ⟨keyPem, ?_, hkey, ?_⟩
  · rw [hcert, hcertificate]
  · rwa [hcert]

end Attempts

/-! ## What the next call of `signing_material` answers -/

section Answers

variable {lib : Libraries} {manager : CertManager} {m m' : CertMemory} {b b' : Secrets Unit}

/-- Active material is the answer, and nothing changes. -/
theorem sure_signingMaterial_active {env : Answers CertOp CertOp.Answer (Secrets Unit)}
    {material : SigningMaterial} (hactive : m.active = some material)
    {Q : SigningMaterial → CertMemory → Secrets Unit → Prop}
    {E : CertError → CertMemory → Secrets Unit → Prop} (hQ : Q material m b) :
    Sure env (fun _ => True) Q E (manager.signingMaterial lib) m b := by
  refine sure_bind (sure_get ?_)
  rw [hactive]
  exact sure_pure hQ

/-- A failure to get the chain caches no chain. -/
theorem sure_certChainParts_failed {Q : Option (List String) → CertMemory → Secrets Unit → Prop}
    (hok : ∀ chain m' b', Q chain m' b') :
    Sure (Secrets.Env noAccount lib True) (fun _ => True) Q
      (fun _ m' _ => m'.active = m.active ∧ m'.certChainCache = m.certChainCache)
      (manager.certChainParts lib) m b := by
  refine sure_bind (sure_get ?_)
  cases cached (manager.certKey lib) m.certChainCache with
  | some certs => exact sure_pure (hok _ _ _)
  | none =>
      refine sure_bind (sure_certificate trivial ?_ ?_ ?_)
      · intro data _ m' hm' _ _
        refine sure_bind (sure_orFail ?_ fun _ _ => ⟨hm'.active, hm'.chain⟩)
        exact fun certs _ => sure_bind (sure_modify (sure_pure (hok _ _ _)))
      · exact fun m' _ _ => sure_pure (hok _ _ _)
      · exact fun e m' hm' => ⟨hm'.active, hm'.chain⟩

/-- A call of `signing_material` leaves active material wherever it caches a chain. -/
theorem sure_signingMaterial_chainActive (hm : ChainActive m) :
    Sure (Secrets.Env noAccount lib True) (fun _ => True) (fun _ m' _ => ChainActive m')
      (fun _ m' _ => ChainActive m') (manager.signingMaterial lib) m b := by
  cases hactive : m.active with
  | some material => exact sure_signingMaterial_active hactive hm
  | none =>
      have hloaded : Sure (Secrets.Env noAccount lib True) (fun _ => True)
          (fun _ m₁ _ => ChainActive m₁) (fun _ m₁ _ => ChainActive m₁)
          (manager.signingKeyPem lib) m b := by
        refine sure_signingKeyPem trivial ?_ ?_ ?_
        · exact fun keyPem m₁ hm₁ _ => hm.congr hm₁.active hm₁.chain
        · intro keyPem m₁ habsent
          have h₁ := hm.congr habsent.1.active habsent.1.chain
          refine sure_storeNewKey (I := fun _ => True) (fun _ _ _ _ => trivial)
            (fun _ _ => trivial) ?_ (fun _ _ _ _ => h₁) 2 b trivial
          exact fun b₁ _ _ => h₁.congr (by simp) (by simp)
        · exact fun e m₁ hm₁ => hm.congr hm₁.active hm₁.chain
      refine sure_bind (sure_get ?_)
      rw [hactive]
      refine sure_bind (hloaded.mono ?_ fun _ _ _ h => h)
      intro keyPem m₁ b₁ h₁
      refine sure_bind ((sure_certChainParts_failed ?_).mono (fun _ _ _ h => h) ?_)
      · exact fun chain m₂ b₂ => sure_bind (sure_modify (sure_pure fun _ => Option.some_ne_none _))
      · exact fun e m₂ b₂ h => h₁.congr h.1 h.2

/-- Without active material, the answer is loaded from what the manager holds. -/
theorem sure_signingMaterial_loaded {text keyPem : String} {data : CertificateData}
    {parts : List String} (hactive : m.active = none) (hchain : m.certChainCache = none)
    (htext : m.lookup .certificate (manager.certKey lib) = some text)
    (hdata : lib.certificateDataFromJson text = .ok data)
    (hparts : parseCertChainParts lib data.certificate = .ok parts)
    (hkey : b.values (manager.signingSecretId lib) = some keyPem)
    (hkeys : ∀ c, manager.signingKeyCache = some c →
      m.lookup c (manager.signingSecretId lib) = some keyPem) :
    Sure (WorkingEnv lib) (fun _ => True) (fun material _ _ => material = ⟨some parts, keyPem⟩)
      (fun _ _ _ => False) (manager.signingMaterial lib) m b := by
  refine sure_bind (sure_get ?_)
  rw [hactive]
  refine sure_bind (sure_bind (sure_storage (sure_loadWithCache_pinned trivial ?_
    fun _ _ hfail _ => hfail)))
  intro r m₁ hloaded hpinned
  cases r with
  | none =>
      have habsent := hloaded.2.1
      rw [hkey] at habsent
      cases habsent
  | some loaded =>
      have hloaded' : loaded = keyPem := by
        obtain ⟨c, hc, hlookup⟩ | hstored := hloaded.2
        · rw [hkeys c hc] at hlookup
          exact (Option.some.inj hlookup).symm
        · rw [hkey] at hstored
          exact (Option.some.inj hstored).symm
      subst hloaded'
      refine sure_pure (sure_bind (sure_bind (sure_get ?_)))
      rw [hloaded.1.chain, hchain]
      refine sure_bind (sure_bind (sure_storage (sure_loadWithCache_pinned trivial ?_
        fun _ _ hfail _ => hfail)))
      intro r₂ m₂ _ hpinned₂
      have hr₂ : r₂ = some text := by
        rw [hpinned₂.certificate rfl, hpinned.others _ signingKeyCache_ne_certificate, htext,
          Option.some_or]
      subst hr₂
      refine sure_bind (sure_orFail ?_ ?_)
      · intro data' hdata'
        rw [hdata] at hdata'
        cases hdata'
        refine sure_pure (sure_bind (sure_orFail ?_ ?_))
        · intro parts' hparts'
          rw [hparts] at hparts'
          cases hparts'
          exact sure_bind (sure_modify (sure_pure (sure_bind (sure_modify (sure_pure rfl)))))
        · intro e he
          rw [hparts] at he
          cases he
      · intro e he
        rw [hdata] at he
        cases he

variable (lib manager) in
/-- The next call of `signing_material`, with a backend that works, returns this
material. -/
def Returns (m : CertMemory) (b : Secrets Unit) (material : SigningMaterial) : Prop :=
  (∃ m' b', ((manager.signingMaterial lib).start m).Reaches (WorkingEnv lib) b
    (.ret (.ok material, m')) b') ∧
  ∀ outcome m' b', ((manager.signingMaterial lib).start m).Reaches (WorkingEnv lib) b
    (.ret (outcome, m')) b' → outcome = .ok material

/-- What every run of the working service returns is what is returned. -/
theorem Returns.of_sure {material : SigningMaterial}
    (h : Sure (WorkingEnv lib) (fun _ => True) (fun r _ _ => r = material) (fun _ _ _ => False)
      (manager.signingMaterial lib) m b) : Returns lib manager m b material := by
  have hall : ∀ outcome m' b', ((manager.signingMaterial lib).start m).Reaches (WorkingEnv lib) b
      (.ret (outcome, m')) b' → outcome = .ok material := by
    intro outcome m' b' hreach
    cases outcome with
    | ok r => exact congrArg Except.ok (h.ended trivial hreach)
    | error e => exact (h.failed trivial hreach).elim
  refine ⟨?_, hall⟩
  obtain ⟨⟨outcome, m'⟩, b', hreach⟩ := Prog.exists_reaches_ret
    (fun op b => ⟨_, _, answer_allowed_working (fun _ => .error "") op b⟩)
    ((manager.signingMaterial lib).start m) b
  have houtcome := hall outcome m' b' hreach
  subst houtcome
  exact ⟨m', b', hreach⟩

variable (lib manager) in
/-- If the manager holds this certificate and this key already, then they are its
active material, or nothing is active and the key is the stored one. -/
def UpToDate (m : CertMemory) (values : String → Option String) (certPem keyPem : String) : Prop :=
  Holds lib manager m values certPem keyPem →
    ∃ parts, parseCertChainParts lib certPem = .ok parts ∧
      (m.active = some ⟨some parts, keyPem⟩ ∨
        m.active = none ∧ values (manager.signingSecretId lib) = some keyPem)

/-- After a successful attempt that was up to date, the material of the attempt is
what tokens are signed with. -/
theorem Succeeded.returns {certPem keyPem : String} {cert : CertificateData}
    (h : Succeeded lib manager m b certPem keyPem cert m' b') (hm : ChainActive m)
    (hcurrent : UpToDate lib manager m b.values certPem keyPem) :
    ∃ parts, parseCertChainParts lib certPem = .ok parts ∧
      Returns lib manager m' b' ⟨some parts, keyPem⟩ := by
  cases h with
  | activated _ hparts hactive =>
      exact ⟨_, hparts, .of_sure (sure_signingMaterial_active hactive rfl)⟩
  | unchanged hcert hholds hrefreshed htext hdata hkeys =>
      obtain ⟨parts, hparts, hcase⟩ := hcurrent hholds
      refine ⟨parts, hparts, .of_sure ?_⟩
      obtain hactive | ⟨hinactive, hkey⟩ := hcase
      · exact sure_signingMaterial_active (hrefreshed.active.trans hactive) rfl
      · have hchain : m.certChainCache = none := by
          by_contra hsome
          exact hm hsome hinactive
        exact sure_signingMaterial_loaded (hrefreshed.active.trans hinactive)
          (hrefreshed.chain.trans hchain) htext hdata (by rw [hcert, hparts]) hkey hkeys

end Answers

/-! ## Histories -/

section Histories

variable (lib : Libraries) (manager : CertManager)

/-- What may have happened to a manager since its start: attempts with any source
and any outcome, calls of `signing_material`, and changes that others make to the
backend, but for the manager's certificate and signing key. -/
inductive History : CertMemory → Secrets Unit → Prop
  | start (b : Secrets Unit) : History .empty b
  | attempt {m m' : CertMemory} {b b' : Secrets Unit} {files : String → Except String (List Byte)}
      {certificateSource signingKeySource : MaterialSource}
      {outcome : Except CertError CertificateData} (h : History m b)
      (hrun : ((manager.provisionFromStore lib certificateSource signingKeySource).start m).Reaches
        (Sourced lib files) b (.ret (outcome, m')) b') : History m' b'
  | call {m m' : CertMemory} {b b' : Secrets Unit} {outcome : Except CertError SigningMaterial}
      (h : History m b)
      (hrun : ((manager.signingMaterial lib).start m).Reaches (Secrets.Env noAccount lib True) b
        (.ret (outcome, m')) b') : History m' b'
  | others {m : CertMemory} {b b' : Secrets Unit} (h : History m b)
      (hcertificate : b'.values (manager.certKey lib) = b.values (manager.certKey lib))
      (hkey : b'.values (manager.signingSecretId lib) = b.values (manager.signingSecretId lib)) :
      History m b'

variable {lib manager} {m m' : CertMemory} {b b' : Secrets Unit}

/-- After any history the cached chain is that of the active material. -/
theorem History.chainActive (h : History lib manager m b) : ChainActive m := by
  induction h with
  | start b => exact fun hsome => absurd rfl hsome
  | @attempt _ _ _ _ _ _ _ outcome _ hrun ih =>
      cases outcome with
      | ok cert =>
          obtain ⟨keyPem, _, _, hsucceeded⟩ := sure_provisionFromStore_sourced.ended trivial hrun
          exact hsucceeded.chainActive ih
      | error e =>
          obtain ⟨hactive, hchain⟩ := sure_provisionFromStore_sourced.failed trivial hrun
          exact ih.congr hactive hchain
  | @call _ _ _ _ outcome _ hrun ih =>
      cases outcome with
      | ok material => exact (sure_signingMaterial_chainActive ih).ended trivial hrun
      | error e => exact (sure_signingMaterial_chainActive ih).failed trivial hrun
  | others h _ _ ih => exact ih

/-- **A successful provisioning takes effect**, after every history, if its source
was up to date: the next call of `signing_material` returns the signing key of the
source and the parsed chain of the returned certificate. -/
theorem provisioning_takes_effect {files : String → Except String (List Byte)}
    {certificateSource signingKeySource : MaterialSource} {cert : CertificateData}
    (hhistory : History lib manager m b)
    (hrun : ((manager.provisionFromStore lib certificateSource signingKeySource).start m).Reaches
      (Sourced lib files) b (.ret (.ok cert, m')) b')
    (hcurrent : ∀ certPem keyPem,
      sourceCertificate lib files b.values certificateSource = some certPem →
      sourceKey lib files b.values signingKeySource = some keyPem →
      UpToDate lib manager m b.values certPem keyPem) :
    ∃ keyPem parts, sourceKey lib files b.values signingKeySource = some keyPem ∧
      parseCertChainParts lib cert.certificate = .ok parts ∧
      Returns lib manager m' b' ⟨some parts, keyPem⟩ := by
  obtain ⟨keyPem, hcertificate, hkey, hsucceeded⟩ :=
    sure_provisionFromStore_sourced.ended trivial hrun
  obtain ⟨parts, hparts, hreturns⟩ :=
    hsucceeded.returns hhistory.chainActive (hcurrent _ _ hcertificate hkey)
  exact ⟨keyPem, parts, hkey, hparts, hreturns⟩

end Histories

/-! ## A certificate that is signed again -/

section Samples

open SampleKey

/-- A manager's backend at the start. -/
def emptyBackend : Secrets Unit := ⟨fun _ => none, fun _ => none, ()⟩

/-- The sample service has the material of the source. -/
theorem answer_sourced {lib : Libraries} (files : String → Except String (List Byte))
    (down : Option String) (op : CertOp) (b : Secrets Unit) :
    Sourced lib files op b (Secrets.answer noAccount files down op b).1
      (Secrets.answer noAccount files down op b).2 := by
  refine ⟨?_, Secrets.answer_allowed (fun _ => trivial) op b⟩
  cases op <;> first | rfl | trivial

/-- The first key with a new signature of its certificate. -/
def renewedKey : SampleKey :=
  { firstKey with
    r := 0xc77fd9246a1a92f73c14cd7ef6c0bd94dced6f5d55238242bc9e8ea46831d2cf
    s := 0x31bceb76c0a27b49724b6581ac3fbcf9ff9cecea704d9946d8abedb93b7dd760 }

/-- The libraries, with the new certificate of the first key. -/
def renewalLibraries : Libraries :=
  { sampleLibraries with
    parseX509Pem := fun text =>
      if text = renewedKey.certificatePem then .ok ⟨"CERTIFICATE", renewedKey.certificate⟩
      else sampleLibraries.parseX509Pem text
    pemBlocks := fun text =>
      if text = renewedKey.certificatePem then [.ok ⟨"CERTIFICATE", renewedKey.certificate⟩]
      else sampleLibraries.pemBlocks text
    parseX509Certificate := fun der =>
      if der = renewedKey.certificate then
        .ok ([], ⟨renewedKey.publicKey, 1794964017, 1826500017⟩)
      else sampleLibraries.parseX509Certificate der
    certificateDataToJson := fun data =>
      if data = renewedKey.data then .ok renewedKey.json
      else sampleLibraries.certificateDataToJson data
    certificateDataFromJson := fun text =>
      if text = renewedKey.json then .ok renewedKey.data
      else sampleLibraries.certificateDataFromJson text }

/-- The renewed certificate is for the same key. -/
theorem renewedKey_pkcs8 : renewedKey.pkcs8 = firstKey.pkcs8 := rfl

/-- The PEM text of the key is the same. -/
theorem renewedKey_keyPem : renewedKey.keyPem = firstKey.keyPem := by
  unfold keyPem keyChars
  rw [renewedKey_pkcs8]

/-- The new certificate differs in everything that is made from it, and is DER. -/
theorem renewed_features : firstKey.certificate ≠ renewedKey.certificate ∧
    base64Chars firstKey.certificate ≠ base64Chars renewedKey.certificate ∧
    firstKey.certificateChars ≠ renewedKey.certificateChars ∧
    firstKey.jsonChars ≠ renewedKey.jsonChars ∧
    isPemCertificate renewedKey.certificate = false := by
  decide +kernel

/-- The certificates differ. -/
theorem renewed_certificate_ne : firstKey.certificate ≠ renewedKey.certificate :=
  renewed_features.1

/-- So do the chains of one certificate. -/
theorem renewed_chain_ne :
    base64Standard firstKey.certificate ≠ base64Standard renewedKey.certificate := by
  intro h
  unfold base64Standard at h
  exact renewed_features.2.1 (String.ofList_injective h)

/-- So do the PEM texts. -/
theorem renewed_certificatePem_ne : firstKey.certificatePem ≠ renewedKey.certificatePem := by
  intro h
  unfold certificatePem at h
  exact renewed_features.2.2.1 (String.ofList_injective h)

/-- So do the records as they are stored. -/
theorem renewed_json_ne : firstKey.json ≠ renewedKey.json := by
  intro h
  unfold json at h
  exact renewed_features.2.2.2.1 (String.ofList_injective h)

section Features

variable {k : SampleKey}

/-- The libraries know the renewed certificate besides the sample ones. -/
theorem parseX509Pem_renewal : renewalLibraries.parseX509Pem = fun text =>
    if text = renewedKey.certificatePem then .ok ⟨"CERTIFICATE", renewedKey.certificate⟩
    else sampleLibraries.parseX509Pem text := rfl

/-- The one PEM block of the renewed certificate. -/
theorem pemBlocks_renewal : renewalLibraries.pemBlocks = fun text =>
    if text = renewedKey.certificatePem then [.ok ⟨"CERTIFICATE", renewedKey.certificate⟩]
    else sampleLibraries.pemBlocks text := rfl

/-- The parsed renewed certificate. -/
theorem parseX509Certificate_renewal : renewalLibraries.parseX509Certificate = fun der =>
    if der = renewedKey.certificate then .ok ([], ⟨renewedKey.publicKey, 1794964017, 1826500017⟩)
    else sampleLibraries.parseX509Certificate der := rfl

/-- The record of the renewed certificate is serialised. -/
theorem certificateDataToJson_renewal : renewalLibraries.certificateDataToJson = fun data =>
    if data = renewedKey.data then .ok renewedKey.json
    else sampleLibraries.certificateDataToJson data := rfl

/-- The record of the renewed certificate is read back. -/
theorem certificateDataFromJson_renewal : renewalLibraries.certificateDataFromJson = fun text =>
    if text = renewedKey.json then .ok renewedKey.data
    else sampleLibraries.certificateDataFromJson text := rfl

/-- What the libraries do with keys has not changed. -/
theorem keys_renewal : renewalLibraries.utf8Error = sampleLibraries.utf8Error ∧
    renewalLibraries.fromPkcs8Pem = sampleLibraries.fromPkcs8Pem ∧
    renewalLibraries.fromPkcs8Der = sampleLibraries.fromPkcs8Der ∧
    renewalLibraries.toPkcs8Pem = sampleLibraries.toPkcs8Pem ∧
    renewalLibraries.verifyingKey = sampleLibraries.verifyingKey ∧
    renewalLibraries.fromEcPem = sampleLibraries.fromEcPem ∧
    renewalLibraries.encodeMany = sampleLibraries.encodeMany := ⟨rfl, rfl, rfl, rfl, rfl, rfl, rfl⟩

/-- A certificate that the libraries parse, for the first key. -/
theorem served_renewal (hpkcs8 : k.pkcs8 = firstKey.pkcs8) (hkeyPem : k.keyPem = firstKey.keyPem)
    (hpublic : k.publicKey = firstKey.publicKey) (hder : isPemCertificate k.certificate = false)
    (hparse : renewalLibraries.parseX509Certificate k.certificate =
      .ok ([], ⟨k.publicKey, 1794964017, 1826500017⟩))
    (hpem : renewalLibraries.parseX509Pem k.certificatePem = .ok ⟨"CERTIFICATE", k.certificate⟩)
    (hblocks : renewalLibraries.pemBlocks k.certificatePem = [.ok ⟨"CERTIFICATE", k.certificate⟩])
    (hwritten : renewalLibraries.certificateDataToJson k.data = .ok k.json)
    (hread : renewalLibraries.certificateDataFromJson k.json = .ok k.data) :
    k.Served renewalLibraries := by
  have hfirst : firstKey.Known := .inl rfl
  obtain ⟨hutf8, hpem8, hder8, htoPem, hverify, hec, hencode⟩ := keys_renewal
  refine ⟨?_, ?_, ?_, parseCertChainParts_of_single hblocks, hwritten, hread⟩
  · rw [hpkcs8, hkeyPem, ← hfirst.normalizePkcs8Key_eq]
    simp only [normalizePkcs8Key, fromUtf8, hutf8, hpem8, hder8, htoPem]
  · rw [certificateFromDerOrPem_of_single hder k.certificate_ne_nil hparse, hencode,
      encodeMany_certificate]
  · rw [hpublic, ← hfirst.verifyingKey_eq, ← hverify] at hparse
    have hsigning := hfirst.fromPkcs8Pem_eq
    rw [← hpem8] at hsigning
    rw [hkeyPem, validateSigningMaterial_of_ok hsigning hpem hparse, hec]
    exact fromEcPem_of_find (hfirst.find_eq keyPem_ne)

end Features

/-- The renewed certificate can be served with its key. -/
theorem renewedKey_served : renewedKey.Served renewalLibraries := by
  refine served_renewal renewedKey_pkcs8 renewedKey_keyPem rfl renewed_features.2.2.2.2
    ?_ ?_ ?_ ?_ ?_
  · simp only [parseX509Certificate_renewal, if_true]
  · simp only [parseX509Pem_renewal, if_true]
  · simp only [pemBlocks_renewal, if_true]
  · simp only [certificateDataToJson_renewal, if_true]
  · simp only [certificateDataFromJson_renewal, if_true]

/-- The first certificate can still be served. -/
theorem firstKey_served : firstKey.Served renewalLibraries := by
  have hfirst : firstKey.Known := .inl rfl
  have hdata : firstKey.data ≠ renewedKey.data := fun h =>
    renewed_certificatePem_ne (congrArg CertificateData.certificate h)
  refine served_renewal rfl rfl rfl hfirst.not_pem.2 ?_ ?_ ?_ ?_ ?_
  · simp only [parseX509Certificate_renewal, renewed_certificate_ne, if_false,
      hfirst.parseX509Certificate_eq]
  · simp only [parseX509Pem_renewal, renewed_certificatePem_ne, if_false, hfirst.parseX509Pem_eq]
  · simp only [pemBlocks_renewal, renewed_certificatePem_ne, if_false,
      pemBlocks_of_find (hfirst.find_eq certificatePem_ne)]
  · simp only [certificateDataToJson_renewal, hdata, if_false, hfirst.json_eq]
  · simp only [certificateDataFromJson_renewal, renewed_json_ne, if_false, hfirst.served.read]

/-- The manager of the sample history. -/
def renewalManager : CertManager := sampleManager "a.example.com"

/-- What the first attempt leaves: the first key is stored and active. -/
def firstMemory : CertMemory :=
  CertMemory.empty.activated (renewalManager.certKey renewalLibraries) firstKey

/-- The backend after the first attempt. -/
def firstBackend : Secrets Unit :=
  (emptyBackend.write noAccount
    ⟨renewalManager.certKey renewalLibraries, firstKey.json, true, true⟩).write noAccount
    ⟨renewalManager.signingSecretId renewalLibraries, firstKey.keyPem, true, true⟩

/-- What the second attempt leaves: only the new certificate is stored. -/
def secondMemory : CertMemory :=
  firstMemory.insert .certificate (renewalManager.certKey renewalLibraries) renewedKey.json

/-- The backend after the failed attempt: the new certificate, and no key written. -/
def secondBackend : Secrets Unit :=
  (firstBackend.write noAccount
    ⟨renewalManager.certKey renewalLibraries, renewedKey.json, true, true⟩).write noAccount
    ⟨renewalManager.signingSecretId renewalLibraries, renewedKey.keyPem, false, false⟩

/-- The history with the first attempt. -/
theorem history_first : History renewalLibraries renewalManager firstMemory firstBackend := by
  have hcurrent : (renewalManager.certificate renewalLibraries).exec
      (Secrets.answer noAccount (sampleFiles firstKey) none) .empty emptyBackend =
      ((.ok none, .empty), emptyBackend) := exec_certificate_none rfl rfl
  have hexec := exec_provision_new firstKey_served rfl (by simp) hcurrent (by simp)
  rw [if_neg (by simp)] at hexec
  exact .attempt (.start emptyBackend) (reaches_exec (answer_sourced _ none) hexec)

/-- The second attempt cannot write the key. -/
theorem history_second : History renewalLibraries renewalManager secondMemory secondBackend := by
  have hcached : firstMemory.lookup .certificate (renewalManager.certKey renewalLibraries) =
      some firstKey.json := CertMemory.lookup_activated _ _ _
  have hcurrent : (renewalManager.certificate renewalLibraries).exec
      (Secrets.answer noAccount (sampleFiles renewedKey)
        (some (renewalManager.signingSecretId renewalLibraries))) firstMemory firstBackend =
      ((.ok (some firstKey.data), firstMemory), firstBackend) :=
    exec_certificate_cached hcached firstKey_served.read
  have hup : some (renewalManager.signingSecretId renewalLibraries) ≠
      some (renewalManager.certKey renewalLibraries) :=
    fun h => certKey_ne_signingSecretId _ _ _ (Option.some.inj h).symm
  have hexec := exec_provision_new renewedKey_served rfl hup hcurrent
    (by simpa using renewed_certificatePem_ne)
  rw [if_pos rfl] at hexec
  exact .attempt history_first (reaches_exec (answer_sourced _ _) hexec)

/-- What the third attempt leaves, whose source is the first key again. -/
def thirdMemory : CertMemory :=
  secondMemory.activated (renewalManager.certKey renewalLibraries) firstKey

/-- The backend after the third attempt. -/
def thirdBackend : Secrets Unit :=
  (secondBackend.write noAccount
    ⟨renewalManager.certKey renewalLibraries, firstKey.json, true, true⟩).write noAccount
    ⟨renewalManager.signingSecretId renewalLibraries, firstKey.keyPem, true, true⟩

/-- The history with all three attempts. -/
theorem history_third : History renewalLibraries renewalManager thirdMemory thirdBackend := by
  have hcached : secondMemory.lookup .certificate (renewalManager.certKey renewalLibraries) =
      some renewedKey.json := CertMemory.lookup_insert_self _ _ _ _
  have hcurrent : (renewalManager.certificate renewalLibraries).exec
      (Secrets.answer noAccount (sampleFiles firstKey) none) secondMemory secondBackend =
      ((.ok (some renewedKey.data), secondMemory), secondBackend) :=
    exec_certificate_cached hcached renewedKey_served.read
  have hexec := exec_provision_new firstKey_served rfl (by simp) hcurrent
    (by simpa using renewed_certificatePem_ne.symm)
  rw [if_neg (by simp)] at hexec
  exact .attempt history_second (reaches_exec (answer_sourced _ none) hexec)

/-- The theorem after an attempt that failed and one that succeeded, at an attempt that finds
its source unchanged. -/
theorem provisioning_takes_effect_sample :
    History renewalLibraries renewalManager thirdMemory thirdBackend ∧
    Holds renewalLibraries renewalManager thirdMemory thirdBackend.values firstKey.certificatePem
      firstKey.keyPem ∧
    ∃ keyPem parts,
      sourceKey renewalLibraries (sampleFiles firstKey) thirdBackend.values
        (.filesystem "tls.key") = some keyPem ∧
      parseCertChainParts renewalLibraries firstKey.data.certificate = .ok parts ∧
      Returns renewalLibraries renewalManager thirdMemory thirdBackend ⟨some parts, keyPem⟩ := by
  have hcached : thirdMemory.lookup .certificate (renewalManager.certKey renewalLibraries) =
      some firstKey.json := CertMemory.lookup_activated _ _ _
  have hkey : thirdBackend.values (renewalManager.signingSecretId renewalLibraries) =
      some firstKey.keyPem := by
    simp [thirdBackend, Secrets.write]
  refine ⟨history_third, ?_, provisioning_takes_effect history_third (reaches_exec
    (answer_sourced _ none) (exec_provision_held firstKey_served rfl hcached hkey)) ?_⟩
  · have hheld : heldCertificate renewalLibraries renewalManager thirdMemory thirdBackend.values =
        some firstKey.json := by
      simp [heldCertificate, hcached]
    exact ⟨⟨_, _, hheld, firstKey_served.read, rfl⟩, .inr hkey⟩
  · intro certPem keyPem hcertificate hsource _
    have hcert : sourceBytes renewalLibraries (sampleFiles firstKey) thirdBackend.values
        "certificate" (.filesystem "tls.crt") = some firstKey.certificate := rfl
    have hfile : sourceBytes renewalLibraries (sampleFiles firstKey) thirdBackend.values
        "signing key" (.filesystem "tls.key") = some firstKey.pkcs8 := rfl
    simp only [sourceCertificate, hcert, Option.bind_some, firstKey_served.certificate,
      Except.toOption, Option.map_some, Option.some.injEq] at hcertificate
    simp only [sourceKey, hfile, Option.bind_some, firstKey_served.key, Except.toOption,
      Option.some.injEq] at hsource
    subst hcertificate hsource
    exact ⟨_, firstKey_served.chain, .inl rfl⟩

/-- **A renewed certificate that is reported but not used.**  The first key is
provisioned.  Its certificate is signed again, and the next attempt stores it but
cannot write the key, which has not changed.  The attempt after that finds the new
certificate and the key stored, returns the new certificate, and leaves the old one
active. -/
theorem renewed_certificate_not_used :
    History renewalLibraries renewalManager secondMemory secondBackend ∧
    ((renewalManager.provisionFromStore renewalLibraries (.filesystem "tls.crt")
      (.filesystem "tls.key")).start secondMemory).Reaches
        (Sourced renewalLibraries (sampleFiles renewedKey)) secondBackend
        (.ret (.ok renewedKey.data, secondMemory)) secondBackend ∧
    ¬∃ keyPem parts,
      sourceKey renewalLibraries (sampleFiles renewedKey) secondBackend.values
        (.filesystem "tls.key") = some keyPem ∧
      parseCertChainParts renewalLibraries renewedKey.data.certificate = .ok parts ∧
      Returns renewalLibraries renewalManager secondMemory secondBackend
        ⟨some parts, keyPem⟩ := by
  have hcached : secondMemory.lookup .certificate (renewalManager.certKey renewalLibraries) =
      some renewedKey.json := CertMemory.lookup_insert_self _ _ _ _
  have hkey : secondBackend.values (renewalManager.signingSecretId renewalLibraries) =
      some renewedKey.keyPem := by
    rw [renewedKey_keyPem]
    have hne := certKey_ne_signingSecretId renewalLibraries renewalManager.domains
      renewalManager.domains
    simp [secondBackend, firstBackend, Secrets.write, CertManager.signingSecretId,
      CertManager.certKey, hne.symm]
  refine ⟨history_second, reaches_exec (answer_sourced _ none)
    (exec_provision_held renewedKey_served rfl hcached hkey), ?_⟩
  rintro ⟨keyPem, parts, _, hparts, hreturns⟩
  rw [data_certificate, renewedKey_served.chain] at hparts
  cases hparts
  have hactive : secondMemory.active =
      some ⟨some [base64Standard firstKey.certificate], firstKey.keyPem⟩ := rfl
  have hanswer : Sure (WorkingEnv renewalLibraries) (fun _ => True)
      (fun material _ _ => some material = secondMemory.active) (fun _ _ _ => True)
      (renewalManager.signingMaterial renewalLibraries) secondMemory secondBackend :=
    sure_signingMaterial_active hactive hactive.symm
  obtain ⟨m', b', hreach⟩ := hreturns.1
  have hsame := hanswer.ended trivial hreach
  rw [hactive] at hsame
  simp only [Option.some.injEq, SigningMaterial.mk.injEq, List.cons.injEq, and_true] at hsame
  exact renewed_chain_ne hsame.1.symm

end Samples

end StatusListServer
