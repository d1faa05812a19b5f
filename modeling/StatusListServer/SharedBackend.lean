import StatusListServer.SigningPairs

/-!
# Managers that share a secrets backend

Any number of managers over one secrets backend whose operations succeed, each
with its own memory, provisioning one at a time by the store or the ACME
strategy, with calls of `signing_material` and restarts in between.

A manager names its certificate by the registrable domain of its first domain
and its signing key by all of its domains, so the domain lists decide whether
the managers keep out of each other's way.  Lists whose first registrable
domains read the same must read the same as a whole; and a list that reads as
that of a manager with the store strategy, which overwrites the key, must have
the same registrable domain.  Under these conditions a shared certificate comes
with a shared key, and every manager that has provisioned gets a matching pair
back after a restart.
-/

namespace StatusListServer

open BitStream Interaction Proc

/-- The provisioning strategy is the store strategy. -/
def CertManager.usesStore (manager : CertManager) : Bool :=
  match manager.strategy with
  | .store _ _ => true
  | .acme _ _ => false

/-- A signing request is for the public key it is signed with. -/
def Libraries.RequestsOwnKey (lib : Libraries) : Prop :=
  ∀ params keyPem csr, lib.serializeRequest params keyPem = .ok csr →
    lib.requestKey csr = publicKeyOf lib keyPem

/-- No account is kept. -/
def noAccount : Bookkeeping Unit := fun _ _ _ => ()

/-- The world of the managers: the secrets backend does not fail. -/
abbrev WorkingEnv (lib : Libraries) : Answers CertOp CertOp.Answer (Secrets Unit) :=
  Secrets.Env noAccount lib False

section Fleet

variable {ι : Type} (lib : Libraries) (fleet : ι → CertManager)

/-- Managers whose domain lists do not mix their material. -/
structure Compatible : Prop where
  /-- Where the first registrable domains read the same, so do the joined lists. -/
  certificate : ∀ i j, SameRegistrable lib (fleet i).domains (fleet j).domains →
    SameJoined lib (fleet i).domains (fleet j).domains
  /-- A list that reads as that of a store strategy has its registrable domain. -/
  key : ∀ i j, (fleet i).usesStore = true →
    SameJoined lib (fleet i).domains (fleet j).domains →
    SameRegistrable lib (fleet i).domains (fleet j).domains
  /-- An ACME manager with the list of a store strategy does not cache its key. -/
  cache : ∀ i j, (fleet i).usesStore = true → (fleet j).usesStore = false →
    SameJoined lib (fleet i).domains (fleet j).domains → (fleet j).signingKeyTtl = 0

/-- A stored certificate can be read back and is for the stored key. -/
def StoredPair (manager : CertManager) (values : String → Option String) (text : String) : Prop :=
  ∃ data parts pk keyPem, lib.certificateDataFromJson text = .ok data ∧
    parseCertChainParts lib data.certificate = .ok parts ∧
    leafKey lib data.certificate = some pk ∧
    values (manager.signingSecretId lib) = some keyPem ∧ publicKeyOf lib keyPem = some pk

/-- The invariant of the fleet, with the managers `P` that have provisioned. -/
structure Consistent (P : ι → Prop) (memories : ι → CertMemory)
    (values : String → Option String) : Prop where
  stored : ∀ i, P i → values ((fleet i).certKey lib) ≠ none
  pair : ∀ i text, values ((fleet i).certKey lib) = some text →
    StoredPair lib (fleet i) values text
  certificates : ∀ i text,
    (memories i).lookup .certificate ((fleet i).certKey lib) = some text →
    values ((fleet i).certKey lib) ≠ none
  keys : ∀ i keyPem c, (fleet i).usesStore = false → (fleet i).signingKeyCache = some c →
    (memories i).lookup c ((fleet i).signingSecretId lib) = some keyPem →
    values ((fleet i).signingSecretId lib) = some keyPem

variable {lib fleet} {P : ι → Prop} {memories : ι → CertMemory}
  {values : String → Option String}

/-- A shared certificate comes with a shared key. -/
theorem Compatible.signingSecretId_eq (h : Compatible lib fleet) {i j : ι}
    (hcert : (fleet i).certKey lib = (fleet j).certKey lib) :
    (fleet i).signingSecretId lib = (fleet j).signingSecretId lib :=
  (signingSecretId_eq_iff lib _ _).mpr (h.certificate i j ((certKey_eq_iff lib _ _).mp hcert))

/-- A key that the store strategy writes is for one certificate. -/
theorem Compatible.certKey_eq (h : Compatible lib fleet) {i j : ι}
    (hstore : (fleet i).usesStore = true)
    (hkey : (fleet i).signingSecretId lib = (fleet j).signingSecretId lib) :
    (fleet i).certKey lib = (fleet j).certKey lib :=
  (certKey_eq_iff lib _ _).mpr (h.key i j hstore ((signingSecretId_eq_iff lib _ _).mp hkey))

/-- A key that the store strategy writes is not cached by an ACME manager. -/
theorem Compatible.uncached (h : Compatible lib fleet) {i j : ι}
    (hstore : (fleet i).usesStore = true) (hacme : (fleet j).usesStore = false)
    (hkey : (fleet i).signingSecretId lib = (fleet j).signingSecretId lib) :
    (fleet j).signingKeyTtl = 0 :=
  h.cache i j hstore hacme ((signingSecretId_eq_iff lib _ _).mp hkey)

/-- Only the names of the fleet matter. -/
theorem Consistent.congr (h : Consistent lib fleet P memories values)
    {values' : String → Option String}
    (hcert : ∀ j, values' ((fleet j).certKey lib) = values ((fleet j).certKey lib))
    (hkey : ∀ j, values' ((fleet j).signingSecretId lib) =
      values ((fleet j).signingSecretId lib)) :
    Consistent lib fleet P memories values' where
  stored j hj := by
    rw [hcert]
    exact h.stored j hj
  pair j text hstored := by
    rw [hcert] at hstored
    obtain ⟨data, parts, pk, keyPem, hdata, hparts, hleaf, hkeyPem, hpk⟩ := h.pair j text hstored
    exact ⟨data, parts, pk, keyPem, hdata, hparts, hleaf, (hkey j).trans hkeyPem, hpk⟩
  certificates j text hlookup := by
    rw [hcert]
    exact h.certificates j text hlookup
  keys j keyPem c hstore hcache hlookup := by
    rw [hkey]
    exact h.keys j keyPem c hstore hcache hlookup

/-- No certificate is stored under the name of a key. -/
theorem fleet_names_ne (j k : ι) : (fleet j).certKey lib ≠ (fleet k).signingSecretId lib :=
  certKey_ne_signingSecretId lib _ _

variable [DecidableEq ι] {i : ι} {m m' : CertMemory}

/-- A manager's memory may lose its entries, and gain entries for stored values. -/
structure Gains (lib : Libraries) (manager : CertManager) (values : String → Option String)
    (m m' : CertMemory) : Prop where
  certificate : ∀ text, m'.lookup .certificate (manager.certKey lib) = some text →
    m.lookup .certificate (manager.certKey lib) = some text ∨ values (manager.certKey lib) ≠ none
  key : manager.usesStore = false → ∀ c keyPem,
    m'.lookup c (manager.signingSecretId lib) = some keyPem →
    m.lookup c (manager.signingSecretId lib) = some keyPem ∨
      values (manager.signingSecretId lib) = some keyPem

/-- A memory gains the entries that it had or that are stored. -/
theorem Gains.of_entries {manager : CertManager}
    (h : ∀ c key value, m'.lookup c key = some value →
      m.lookup c key = some value ∨ values key = some value) :
    Gains lib manager values m m' where
  certificate text hlookup := (h _ _ _ hlookup).imp_right fun hstored => by simp [hstored]
  key _ c keyPem hlookup := h c _ keyPem hlookup

/-- One memory gains what is stored. -/
theorem Consistent.memory (h : Consistent lib fleet P (Function.update memories i m) values)
    (hm : Gains lib (fleet i) values m m') :
    Consistent lib fleet P (Function.update memories i m') values where
  stored := h.stored
  pair := h.pair
  certificates j text hlookup := by
    have hj := h.certificates j text
    by_cases hij : j = i
    · subst hij
      rw [Function.update_self] at hlookup hj
      exact (hm.certificate text hlookup).elim hj id
    · rw [Function.update_of_ne hij] at hlookup hj
      exact hj hlookup
  keys j keyPem c hstore hcache hlookup := by
    have hj := h.keys j keyPem c hstore hcache
    by_cases hij : j = i
    · subst hij
      rw [Function.update_self] at hlookup hj
      exact (hm.key hstore c keyPem hlookup).elim hj id
    · rw [Function.update_of_ne hij] at hlookup hj
      exact hj hlookup

/-- A restarted manager has nothing in memory. -/
theorem Consistent.restarted (h : Consistent lib fleet P memories values) :
    Consistent lib fleet P (Function.update memories i .empty) values := by
  have h' : Consistent lib fleet P (Function.update memories i (memories i)) values := by
    rwa [Function.update_eq_self]
  refine h'.memory (.of_entries fun c key value hlookup => ?_)
  cases c <;> cases hlookup

/-- A key that is stored where there is none does not disturb a pair. -/
theorem Consistent.newKey (h : Consistent lib fleet P (Function.update memories i m) values)
    {keyPem : String} (habsent : values ((fleet i).signingSecretId lib) = none) :
    Consistent lib fleet P (Function.update memories i
        (m.insertIn (fleet i).signingKeyCache ((fleet i).signingSecretId lib) keyPem))
      (Function.update values ((fleet i).signingSecretId lib) (some keyPem)) := by
  have hcert : ∀ j, Function.update values ((fleet i).signingSecretId lib) (some keyPem)
      ((fleet j).certKey lib) = values ((fleet j).certKey lib) :=
    fun j => Function.update_of_ne (fleet_names_ne j i) _ _
  have hstored : Consistent lib fleet P (Function.update memories i m)
      (Function.update values ((fleet i).signingSecretId lib) (some keyPem)) := by
    constructor
    · intro j hj
      rw [hcert]
      exact h.stored j hj
    · intro j text htext
      rw [hcert] at htext
      obtain ⟨data, parts, pk, key, hdata, hparts, hleaf, hkey, hpk⟩ := h.pair j text htext
      refine ⟨data, parts, pk, key, hdata, hparts, hleaf, ?_, hpk⟩
      rw [Function.update_of_ne, hkey]
      intro hsame
      rw [hsame, habsent] at hkey
      cases hkey
    · intro j text hlookup
      rw [hcert]
      exact h.certificates j text hlookup
    · intro j key c hstore hcache hlookup
      have hkey := h.keys j key c hstore hcache hlookup
      rw [Function.update_of_ne, hkey]
      intro hsame
      rw [hsame, habsent] at hkey
      cases hkey
  refine hstored.memory (.of_entries fun c key value hlookup => ?_)
  cases hcache : (fleet i).signingKeyCache with
  | none =>
      rw [hcache] at hlookup
      exact .inl hlookup
  | some cache =>
      rw [hcache] at hlookup
      obtain ⟨_, rfl, rfl⟩ | ⟨_, hold⟩ := CertMemory.lookup_insert hlookup
      · exact .inr (Function.update_self ..)
      · exact .inl hold

/-- **A manager that writes a matching pair disturbs no other manager** of a
compatible fleet: with the store strategy it writes the key too, with the ACME
strategy the key is the stored one. -/
theorem Consistent.writePair (hcompat : Compatible lib fleet)
    (h : Consistent lib fleet P (Function.update memories i m) values) {text keyPem : String}
    {data : CertificateData} {parts : List String} {pk : List Byte}
    (hdata : lib.certificateDataFromJson text = .ok data)
    (hparts : parseCertChainParts lib data.certificate = .ok parts)
    (hleaf : leafKey lib data.certificate = some pk) (hpk : publicKeyOf lib keyPem = some pk)
    (hkey : (fleet i).usesStore = true ∨
      (fleet i).usesStore = false ∧ values ((fleet i).signingSecretId lib) = some keyPem)
    {values' : String → Option String}
    (hvalues : values' = Function.update (Function.update values ((fleet i).certKey lib)
      (some text)) ((fleet i).signingSecretId lib) (some keyPem))
    (hm : Gains lib (fleet i) values' m m') :
    Consistent lib fleet P (Function.update memories i m') values' := by
  have hcert_same : ∀ j, (fleet j).certKey lib = (fleet i).certKey lib →
      values' ((fleet j).certKey lib) = some text := by
    intro j hsame
    rw [hvalues, Function.update_of_ne (fleet_names_ne j i), hsame, Function.update_self]
  have hcert_other : ∀ j, (fleet j).certKey lib ≠ (fleet i).certKey lib →
      values' ((fleet j).certKey lib) = values ((fleet j).certKey lib) := by
    intro j hother
    rw [hvalues, Function.update_of_ne (fleet_names_ne j i), Function.update_of_ne hother]
  have hkey_same : ∀ j, (fleet j).signingSecretId lib = (fleet i).signingSecretId lib →
      values' ((fleet j).signingSecretId lib) = some keyPem := by
    intro j hsame
    rw [hvalues, hsame, Function.update_self]
  have hkey_other : ∀ j, (fleet j).signingSecretId lib ≠ (fleet i).signingSecretId lib →
      values' ((fleet j).signingSecretId lib) = values ((fleet j).signingSecretId lib) := by
    intro j hother
    rw [hvalues, Function.update_of_ne hother, Function.update_of_ne (fleet_names_ne i j).symm]
  have hkept : ∀ j, values ((fleet j).certKey lib) ≠ none →
      values' ((fleet j).certKey lib) ≠ none := by
    intro j hj
    by_cases hsame : (fleet j).certKey lib = (fleet i).certKey lib
    · simp [hcert_same j hsame]
    · rwa [hcert_other j hsame]
  have hwritten : Consistent lib fleet P (Function.update memories i m) values' := by
    constructor
    · exact fun j hj => hkept j (h.stored j hj)
    · intro j text' htext'
      by_cases hsame : (fleet j).certKey lib = (fleet i).certKey lib
      · rw [hcert_same j hsame] at htext'
        cases htext'
        exact ⟨data, parts, pk, keyPem, hdata, hparts, hleaf,
          hkey_same j (hcompat.signingSecretId_eq hsame), hpk⟩
      · rw [hcert_other j hsame] at htext'
        obtain ⟨data', parts', pk', key', hd, hp, hl, hk, hpk'⟩ := h.pair j text' htext'
        refine ⟨data', parts', pk', key', hd, hp, hl, ?_, hpk'⟩
        by_cases hid : (fleet j).signingSecretId lib = (fleet i).signingSecretId lib
        · obtain hstore | ⟨_, hstored⟩ := hkey
          · exact absurd (hcompat.certKey_eq hstore hid.symm).symm hsame
          · rw [hkey_same j hid, ← hk, hid, hstored]
        · rw [hkey_other j hid, hk]
    · exact fun j text' hlookup => hkept j (h.certificates j text' hlookup)
    · intro j key' c hstore hcache hlookup
      have hj := h.keys j key' c hstore hcache hlookup
      by_cases hid : (fleet j).signingSecretId lib = (fleet i).signingSecretId lib
      · obtain hwrites | ⟨_, hstored⟩ := hkey
        · have hdisabled := hcompat.uncached hwrites hstore hid.symm
          simp [CertManager.signingKeyCache, hdisabled] at hcache
        · rw [hkey_same j hid, ← hj, hid, hstored]
      · rw [hkey_other j hid, hj]
  exact hwritten.memory hm

end Fleet

section Procedures

variable {ι : Type} [DecidableEq ι] {lib : Libraries} {fleet : ι → CertManager}
  {P : ι → Prop} {memories : ι → CertMemory} {i : ι} {m : CertMemory} {b : Secrets Unit}

/-- The fleet is consistent with the running manager's memory and the backend. -/
def Keeps (lib : Libraries) (fleet : ι → CertManager) (P : ι → Prop) (memories : ι → CertMemory)
    (i : ι) (m : CertMemory) (b : Secrets Unit) : Prop :=
  Consistent lib fleet P (Function.update memories i m) b.values

/-- What is shown of a procedure that the manager `i` runs to its end. -/
abbrev Ends (lib : Libraries) {α : Type} (Q : α → CertMemory → Secrets Unit → Prop)
    (x : CertM α) (m : CertMemory) (b : Secrets Unit) : Prop :=
  Sure (WorkingEnv lib) (fun _ => True) Q (fun _ _ _ => True) x m b

/-- A refreshed memory keeps what was kept. -/
theorem Keeps.refreshed {m' : CertMemory} (h : Keeps lib fleet P memories i m b)
    (hm : Refreshed b.values m m') : Keeps lib fleet P memories i m' b :=
  Consistent.memory h (.of_entries hm.entries)

/-- The secret of the ACME account is nobody's certificate and nobody's key. -/
theorem Keeps.account {b' : Secrets Unit} (h : Keeps lib fleet P memories i m b)
    (hvalues : ∀ name, name ≠ (fleet i).acmeAccountId lib → b'.values name = b.values name) :
    Keeps lib fleet P memories i m b' :=
  Consistent.congr h (fun _ => hvalues _ (acmeAccountId_ne_certKey lib _ _).symm)
    (fun _ => hvalues _ (acmeAccountId_ne_signingSecretId lib _ _).symm)

/-- The account is loaded or created. -/
theorem ends_acmeAccount {directoryUrl : String} (h : Keeps lib fleet P memories i m b) :
    Ends lib (fun _ m' b' => Keeps lib fleet P memories i m' b')
      ((fleet i).acmeAccount lib directoryUrl) m b := by
  have hcreate : ∀ b : Secrets Unit, Keeps lib fleet P memories i m b →
      Ends lib (fun _ m' b' => Keeps lib fleet P memories i m' b')
        (CertManager.acmeAccount.createAccount lib (fleet i) directoryUrl) m b := by
    intro b h
    refine sure_bind (sure_quiet rfl trivial fun r => ?_)
    refine sure_bind (sure_orFail ?_ fun _ _ => trivial)
    intro created _
    refine sure_bind (sure_orFail ?_ fun _ _ => trivial)
    intro json _
    refine sure_bind (sure_ask fun r b' henv => ⟨trivial, ?_⟩)
    refine sure_bind (sure_orFail ?_ fun _ _ => trivial)
    intro _ _
    refine sure_bind (sure_modify (sure_pure ?_))
    have h' : Keeps lib fleet P memories i m b' := by
      refine h.account fun name hname => ?_
      cases henv with
      | store applied _ => cases applied <;> simp [Secrets.write, hname]
      | storeFailed _ _ hfail => exact hfail.elim
      | quiet hquiet => cases hquiet
    exact Consistent.memory h' (.of_entries fun c key value hlookup =>
      .inl (by cases c <;> exact hlookup))
  refine sure_bind (sure_get ?_)
  cases m.acmeClient with
  | some account => exact sure_pure h
  | none =>
      refine sure_bind (sure_askLoad trivial ?_ fun e hfail => hfail.elim)
      refine sure_bind (sure_pure ?_)
      cases b.values ((fleet i).acmeAccountId lib) with
      | none => exact hcreate b h
      | some json =>
          refine sure_bind (sure_orFail ?_ fun _ _ => trivial)
          intro credentials _
          refine sure_bind (sure_quiet rfl trivial fun loaded => ?_)
          cases loaded with
          | ok account =>
              refine sure_bind (sure_modify (sure_pure ?_))
              exact Consistent.memory h (.of_entries fun c key value hlookup =>
                .inl (by cases c <;> exact hlookup))
          | error e =>
              refine sure_bind (sure_ask fun r b' henv => ⟨trivial, ?_⟩)
              refine sure_bind (sure_orFail ?_ fun _ _ => trivial)
              intro _ _
              refine hcreate b' (h.account fun name hname => ?_)
              cases henv with
              | delete => simp [hname]
              | deleteFailed _ _ hfail => exact hfail.elim
              | quiet hquiet => cases hquiet

/-- A challenge is answered without the backend. -/
theorem ends_handleAuthorization {authz : Authorization} {handler : ChallengeHandler}
    {Q : CleanupFuture → CertMemory → Secrets Unit → Prop} (hQ : ∀ cleanup, Q cleanup m b) :
    Ends lib Q (CertManager.handleAuthorization authz handler) m b := by
  cases handler with
  | other =>
      exact sure_bind (sure_quiet rfl trivial fun r =>
        sure_orFail (fun cleanup _ => hQ cleanup) fun _ _ => trivial)
  | dns01 =>
      unfold CertManager.handleAuthorization
      cases authz.dnsValue with
      | none => exact sure_throw trivial
      | some digest =>
          refine sure_bind (sure_quiet rfl trivial fun r => ?_)
          refine sure_bind (sure_orFail ?_ fun _ _ => trivial)
          intro _ _
          refine sure_bind (sure_quiet rfl trivial fun r => ?_)
          refine sure_bind (sure_orFail ?_ fun _ _ => trivial)
          exact fun _ _ => sure_pure (hQ _)

/-- The challenges of an order touch neither the memory nor the backend. -/
theorem ends_processAuthorizations {handler : ChallengeHandler} (urls : List String) :
    ∀ {Q : List CleanupFuture → CertMemory → Secrets Unit → Prop},
      (∀ cleanups, Q cleanups m b) →
      Ends lib Q (CertManager.processAuthorizations handler urls) m b := by
  induction urls with
  | nil => exact fun hQ => sure_pure (hQ [])
  | cons url rest ih =>
      intro Q hQ
      refine sure_bind (sure_quiet rfl trivial fun r => ?_)
      refine sure_bind (sure_orFail ?_ fun _ _ => trivial)
      intro authz _
      split
      · exact ih hQ
      · refine sure_bind (ends_handleAuthorization fun cleanup => ?_)
        exact sure_bind (ih fun cleanups => sure_pure (hQ _))

/-- So is an order polled. -/
theorem ends_pollOrder {manager : CertManager} {order : Order} {cleanups : List CleanupFuture}
    {Q : Unit → CertMemory → Secrets Unit → Prop} (hQ : Q () m b) :
    Ends lib Q (manager.pollOrder order cleanups) m b := by
  refine sure_bind (sure_quiet rfl trivial fun r => ?_)
  refine sure_bind (sure_orFail ?_ fun _ _ => trivial)
  intro state _
  have hclean : ∀ cleanups {Q : Unit → CertMemory → Secrets Unit → Prop}, Q () m b →
      Ends lib Q (CertManager.cleanUpAll cleanups) m b := by
    intro cleanups
    induction cleanups with
    | nil => exact fun hQ => sure_pure hQ
    | cons cleanup rest ih => exact fun hQ => sure_bind (sure_quiet rfl trivial fun _ => ih hQ)
  refine sure_bind (hclean cleanups ?_)
  split
  · exact sure_pure hQ
  · exact sure_throw trivial

/-- The signing key of an ACME manager is the stored one. -/
theorem ends_signingKeyPem (h : Keeps lib fleet P memories i m b) :
    Ends lib (fun keyPem m' b' => Keeps lib fleet P memories i m' b' ∧
        ((fleet i).usesStore = false → b'.values ((fleet i).signingSecretId lib) = some keyPem))
      ((fleet i).signingKeyPem lib) m b := by
  refine sure_signingKeyPem trivial ?_ ?_ fun _ _ _ => trivial
  · intro keyPem m' hm' hheld
    refine ⟨h.refreshed hm', fun hacme => ?_⟩
    obtain ⟨c, hc, hlookup⟩ | hstored := hheld
    · exact Consistent.keys h i keyPem c hacme hc (by rwa [Function.update_self])
    · exact hstored
  · intro keyPem m' hloaded
    obtain ⟨hm', habsent, _⟩ := hloaded
    refine sure_storeNewKey (I := fun b' => b'.values = b.values ∨ b'.values =
      Function.update b.values ((fleet i).signingSecretId lib) (some keyPem)) ?_
      (fun _ _ => trivial) ?_ (fun _ _ hfail _ => hfail.elim) 2 b (.inl rfl)
    · intro b' answered applied hI
      cases applied with
      | false => simpa [Secrets.write] using hI
      | true =>
          refine .inr ?_
          obtain hsame | hset := hI
          · simp [Secrets.write, hsame]
          · simp [Secrets.write, hset]
    · intro b' hI hpresent
      obtain hsame | hset := hI
      · rw [hsame, habsent] at hpresent
        exact absurd rfl hpresent
      · refine ⟨?_, fun _ => by rw [hset, Function.update_self]⟩
        unfold Keeps
        rw [hset]
        exact Consistent.newKey (h.refreshed hm') habsent

/-- An ordered certificate is for the stored signing key. -/
theorem ends_orderCertificate (hrequest : lib.RequestsOwnKey) {handler : ChallengeHandler}
    {directoryUrl : String} (hacme : (fleet i).usesStore = false)
    (h : Keeps lib fleet P memories i m b) :
    Ends lib (fun (ordered : String × String) m' b' => Keeps lib fleet P memories i m' b' ∧
        b'.values ((fleet i).signingSecretId lib) = some ordered.2 ∧
        leafKey lib ordered.1 = publicKeyOf lib ordered.2)
      ((fleet i).orderCertificate lib handler directoryUrl) m b := by
  refine sure_bind ((ends_acmeAccount h).mono ?_ fun _ _ _ h => h)
  intro account m₁ b₁ h₁
  refine sure_bind (sure_quiet rfl trivial fun r => ?_)
  refine sure_bind (sure_orFail ?_ fun _ _ => trivial)
  intro order _
  refine sure_bind (ends_processAuthorizations order.authorizations fun cleanups => ?_)
  refine sure_bind (ends_pollOrder ?_)
  refine sure_bind ((ends_signingKeyPem h₁).mono ?_ fun _ _ _ h => h)
  intro keyPem m₂ b₂ ⟨h₂, hstored⟩
  refine sure_bind (sure_orFail ?_ fun _ _ => trivial)
  intro csr hcsr
  have hown := hrequest _ _ _ (CheckedEval.mapError_eq_ok hcsr)
  refine sure_bind (sure_ask fun r b₃ hfinalize => ⟨trivial, ?_⟩)
  refine sure_bind (sure_orFail ?_ fun _ _ => trivial)
  intro _ hr
  refine sure_bind (sure_ask fun r' b₄ hpoll => ⟨trivial, ?_⟩)
  refine sure_bind (sure_orFail ?_ fun _ _ => trivial)
  intro chain hr'
  subst hr'
  cases hfinalize with
  | finalizeCsr =>
      cases hpoll with
      | pollCertificate hreceived hissued =>
          simp only [Function.update_self, Option.some.injEq] at hreceived
          refine sure_pure ⟨h₂, hstored hacme, ?_⟩
          rw [hissued, ← hreceived, hown]
      | quiet hquiet => cases hquiet
  | finalizeCsrFailed => cases hr
  | quiet hquiet => cases hquiet

/-- The certificate that `certificateFromPem` accepts has a leaf key. -/
theorem leafKey_of_certificateFromPem {certPem : String} {parts : String × Int × Int}
    (h : certificateFromPem lib certPem = .ok parts) :
    parts.1 = certPem ∧ ∃ pk, leafKey lib certPem = some pk := by
  obtain ⟨pem, hpem, hrest⟩ := CheckedEval.bind_eq_ok h
  obtain ⟨parsed, hparsed, hdone⟩ := CheckedEval.bind_eq_ok hrest
  cases hdone
  refine ⟨rfl, parsed.2.publicKey, ?_⟩
  unfold parseCertPem at hpem
  split at hpem
  · cases hpem
  · rename_i pem' hfirst
    split at hpem
    · cases hpem
    · cases hpem
      simp [leafKey, hfirst, CheckedEval.mapError_eq_ok hparsed]

/-- The end of a successful provisioning. -/
def Provisioned (lib : Libraries) (fleet : ι → CertManager) (P : ι → Prop)
    (memories : ι → CertMemory) (i : ι) (m : CertMemory) (b : Secrets Unit) : Prop :=
  Keeps lib fleet P memories i m b ∧ b.values ((fleet i).certKey lib) ≠ none

/-- An order ends with a pair that belongs together, or with an error. -/
theorem ends_requestAcmeCertificate (hserde : lib.SerdeRoundTrip) (hrequest : lib.RequestsOwnKey)
    (hcompat : Compatible lib fleet) {handler : ChallengeHandler} {directoryUrl : String}
    (hacme : (fleet i).usesStore = false) (h : Keeps lib fleet P memories i m b) :
    Ends lib (fun _ m' b' => Provisioned lib fleet P memories i m' b')
      ((fleet i).requestAcmeCertificate lib handler directoryUrl) m b := by
  refine sure_bind ((ends_orderCertificate hrequest hacme h).mono ?_ fun _ _ _ h => h)
  intro ordered m₁ b₁ ⟨h₁, hkey, hleaf⟩
  refine sure_bind (sure_orFail ?_ fun _ _ => trivial)
  intro parts hparts
  obtain ⟨hpem, pk, hpk⟩ := leafKey_of_certificateFromPem hparts
  refine sure_bind (sure_bind (sure_quiet rfl trivial fun now => sure_pure ?_))
  refine sure_bind (sure_persistCertificateData trivial (fun _ _ _ _ _ => trivial) ?_
    (fun _ _ _ => trivial) fun _ _ _ _ hfail _ _ => hfail.elim)
  intro text m₂ htext hm₂
  refine sure_bind (sure_cacheProvisionedChain ?_ fun _ => trivial)
  intro chain hchain
  refine sure_bind (sure_storeActiveSigningMaterial hchain (sure_pure ⟨?_, ?_⟩))
  · have hdata := hserde _ _ htext
    rw [hpem] at hchain hdata
    refine Consistent.writePair hcompat (h₁.refreshed hm₂) hdata hchain hpk (hleaf ▸ hpk)
      (.inr ⟨hacme, hkey⟩) ?_ ?_
    · have hsame : Function.update b₁.values ((fleet i).certKey lib) (some text)
          ((fleet i).signingSecretId lib) = some ordered.2 := by
        rw [Function.update_of_ne (fleet_names_ne i i).symm, hkey]
      rw [← hsame, Function.update_eq_self]
      simp [Secrets.write]
    · refine ⟨fun _ _ => .inr (by simp [Secrets.write]), fun _ c keyPem hlookup => .inl ?_⟩
      have hinserted : (m₂.insert .certificate ((fleet i).certKey lib) text).lookup c
          ((fleet i).signingSecretId lib) = some keyPem := by
        cases c <;> exact hlookup
      obtain ⟨_, hname, _⟩ | ⟨_, hold⟩ := CertMemory.lookup_insert hinserted
      · exact absurd hname (fleet_names_ne i i).symm
      · exact hold
  · simp [Secrets.write]

/-- A provisioning from the store writes its whole pair, or finds it there. -/
theorem ends_provisionFromStore (hserde : lib.SerdeRoundTrip) (hcompat : Compatible lib fleet)
    {certificateSource signingKeySource : MaterialSource} (hstore : (fleet i).usesStore = true)
    (h : Keeps lib fleet P memories i m b) :
    Ends lib (fun _ m' b' => Provisioned lib fleet P memories i m' b')
      ((fleet i).provisionFromStore lib certificateSource signingKeySource) m b := by
  refine sure_bind (sure_loadValidated trivial ?_ fun _ => trivial)
  intro data keyPem hvalid
  obtain ⟨pk, hleaf, hpk⟩ := leafKey_of_validate hvalid
  have hpersist : ∀ m', Refreshed b.values m m' →
      Ends lib (fun _ m'' b'' => Provisioned lib fleet P memories i m'' b'')
        (do (fleet i).persistCryptoMaterial lib data keyPem
            return data) m' b := by
    intro m' hm'
    refine sure_bind (sure_bind (sure_persistCertificateData trivial (fun _ _ _ _ _ => trivial) ?_
      (fun _ _ _ => trivial) fun _ _ _ _ hfail _ _ => hfail.elim))
    intro text m₁ htext hm₁
    refine sure_bind (sure_persistSigningKey trivial (fun _ _ _ => trivial) ?_
      (fun _ _ _ => trivial) fun _ _ _ hfail _ => hfail.elim)
    intro m₂ hm₂
    refine sure_bind (sure_cacheProvisionedChain ?_ fun _ => trivial)
    intro parts hparts
    refine sure_storeActiveSigningMaterial hparts (sure_pure ⟨?_, ?_⟩)
    · refine Consistent.writePair hcompat ((h.refreshed hm').refreshed hm₁) (hserde _ _ htext)
        hparts hleaf hpk (.inl hstore) ?_ ?_
      · simp [Secrets.write]
      · refine ⟨fun _ _ => .inr (by simp [Secrets.write, fleet_names_ne i i]), ?_⟩
        intro hacme
        rw [hstore] at hacme
        cases hacme
    · simp [Secrets.write, fleet_names_ne i i]
  have hrest : ∀ current m', Refreshed b.values m m' →
      (current ≠ none → b.values ((fleet i).certKey lib) ≠ none) →
      Ends lib (fun _ m'' b'' => Provisioned lib fleet P memories i m'' b'')
        (do let currentSigningKey ← (fleet i).signingKeyFromStorage lib
            if Option.map (·.certificate) current = some data.certificate ∧
                currentSigningKey = some keyPem then
              return current.getD data
            else
              (fleet i).persistCryptoMaterial lib data keyPem
              return data) m' b := by
    intro current m' hm' hcurrent
    refine sure_bind (sure_signingKeyFromStorage trivial ?_ fun _ _ _ => trivial)
    intro currentKey m'' hloaded
    have hm'' := hm'.trans hloaded.1
    split
    · rename_i hsame
      refine sure_pure ⟨h.refreshed hm'', hcurrent ?_⟩
      intro hnone
      simp [hnone] at hsame
    · exact hpersist m'' hm''
  refine sure_bind (sure_certificate trivial ?_ ?_ fun _ _ _ => trivial)
  · intro current text m' hm' hheld _
    refine hrest (some current) m' hm' fun _ => ?_
    obtain ⟨c, hc, hlookup⟩ | hstored := hheld
    · cases hc
      exact Consistent.certificates h i text (by rwa [Function.update_self])
    · simp [hstored]
  · exact fun m' hm' _ => hrest none m' hm' fun hne => absurd rfl hne

/-- Both strategies. -/
theorem ends_requestCertificate (hserde : lib.SerdeRoundTrip) (hrequest : lib.RequestsOwnKey)
    (hcompat : Compatible lib fleet) (h : Keeps lib fleet P memories i m b) :
    Ends lib (fun _ m' b' => Provisioned lib fleet P memories i m' b')
      ((fleet i).requestCertificate lib) m b := by
  unfold CertManager.requestCertificate
  cases hstrategy : (fleet i).strategy with
  | acme handler directoryUrl =>
      exact ends_requestAcmeCertificate hserde hrequest hcompat
        (by simp [CertManager.usesStore, hstrategy]) h
  | store certificateSource signingKeySource =>
      exact ends_provisionFromStore hserde hcompat (by simp [CertManager.usesStore, hstrategy]) h

/-- The chain is read. -/
theorem ends_certChainParts (h : Keeps lib fleet P memories i m b) :
    Ends lib (fun _ m' b' => Keeps lib fleet P memories i m' b')
      ((fleet i).certChainParts lib) m b := by
  refine sure_bind (sure_get ?_)
  cases cached ((fleet i).certKey lib) m.certChainCache with
  | some certs => exact sure_pure h
  | none =>
      refine sure_bind (sure_certificate trivial ?_ ?_ fun _ _ _ => trivial)
      · intro data _ m' hm' _ _
        refine sure_bind (sure_orFail ?_ fun _ _ => trivial)
        intro parts _
        refine sure_bind (sure_modify (sure_pure ?_))
        exact Consistent.memory (h.refreshed hm') (.of_entries fun c key value hlookup =>
          .inl (by cases c <;> exact hlookup))
      · exact fun m' hm' _ => sure_pure (h.refreshed hm')

/-- A call of `signing_material` disturbs no manager. -/
theorem ends_signingMaterial (h : Keeps lib fleet P memories i m b) :
    Ends lib (fun _ m' b' => Keeps lib fleet P memories i m' b')
      ((fleet i).signingMaterial lib) m b := by
  refine sure_bind (sure_get ?_)
  cases m.active with
  | some material => exact sure_pure h
  | none =>
      refine sure_bind ((ends_signingKeyPem h).mono ?_ fun _ _ _ h => h)
      intro keyPem m₁ b₁ ⟨h₁, _⟩
      refine sure_bind ((ends_certChainParts h₁).mono ?_ fun _ _ _ h => h)
      intro chain m₂ b₂ h₂
      refine sure_bind (sure_modify (sure_pure ?_))
      exact Consistent.memory h₂ (.of_entries fun c key value hlookup =>
        .inl (by cases c <;> exact hlookup))

/-- An empty memory holds only what is stored. -/
theorem stored_of_held_empty {values : String → Option String} {cache : Option MaterialCache}
    {key value : String} (h : Held values .empty cache key value) : values key = some value := by
  obtain ⟨c, _, hlookup⟩ | hstored := h
  · cases c <;> cases hlookup
  · exact hstored

/-- A process that has just started reads the stored pair back. -/
theorem sure_readBack {manager : CertManager} {text : String} (hpem : lib.PemIteration)
    (hstored : b.values (manager.certKey lib) = some text)
    (hpair : StoredPair lib manager b.values text) :
    Sure (WorkingEnv lib) (fun _ => True)
      (fun material _ _ => ∃ chain, material.certificateChain = some chain ∧
        MatchingPair lib chain material.signingKeyPem)
      (fun _ _ _ => False) (manager.signingMaterial lib) .empty b := by
  obtain ⟨data, parts, pk, keyPem, hdata, hparts, hleaf, hkey, hpk⟩ := hpair
  refine sure_bind (sure_get (sure_bind (sure_bind (sure_storage
    (sure_loadWithCache trivial ?_ fun _ _ hfail _ => hfail.elim)))))
  intro r m₁ hloaded
  cases r with
  | none =>
      cases hkey.symm.trans hloaded.2.1
  | some secret =>
      have hsecret : secret = keyPem := by
        have hvalue := stored_of_held_empty hloaded.2
        rw [hkey] at hvalue
        exact (Option.some.inj hvalue).symm
      subst hsecret
      have hempty : m₁.certChainCache = none := hloaded.1.chain
      refine sure_pure (sure_bind (sure_bind (sure_get ?_)))
      rw [hempty, cached_none]
      refine sure_bind (sure_bind (sure_storage
        (sure_loadWithCache trivial ?_ fun _ _ hfail _ => hfail.elim)))
      intro r m₂ hfound
      cases r with
      | none =>
          cases hstored.symm.trans hfound.2.1
      | some text' =>
          have htext : text' = text := by
            have hvalue := stored_of_held_empty (hloaded.1.held hfound.2)
            rw [hstored] at hvalue
            exact (Option.some.inj hvalue).symm
          subst htext
          refine sure_bind (sure_orFail ?_ ?_)
          · intro data' hdata'
            rw [hdata] at hdata'
            cases hdata'
            refine sure_pure (sure_bind (sure_orFail ?_ ?_))
            · intro parts' hparts'
              rw [hparts] at hparts'
              cases hparts'
              refine sure_bind (sure_modify (sure_pure (sure_bind (sure_modify (sure_pure ?_)))))
              exact ⟨parts, rfl, matchingPair_of_leafKey hpem hparts hleaf hpk⟩
            · intro e he
              rw [hparts] at he
              cases he
          · intro e he
            rw [hdata] at he
            cases he

end Procedures

/-! ## Runs of a fleet -/

/-- The memory of every manager, and the backend they share. -/
structure Fleet (ι : Type) where
  memories : ι → CertMemory
  backend : Secrets Unit

section Runs

variable {ι : Type} [DecidableEq ι] (lib : Libraries) (fleet : ι → CertManager)

/-- One manager provisions a certificate, signs or restarts, or a secret under
another name changes.  The step names the manager that has provisioned. -/
inductive Fleet.Step : Fleet ι → Option ι → Fleet ι → Prop
  | provisioned {s : Fleet ι} {i : ι} {data : CertificateData} {m : CertMemory} {b : Secrets Unit}
      (hrun : (((fleet i).requestCertificate lib).start (s.memories i)).Reaches (WorkingEnv lib)
        s.backend (.ret (.ok data, m)) b) :
      Step s (some i) ⟨Function.update s.memories i m, b⟩
  | signed {s : Fleet ι} {i : ι} {material : SigningMaterial} {m : CertMemory} {b : Secrets Unit}
      (hrun : (((fleet i).signingMaterial lib).start (s.memories i)).Reaches (WorkingEnv lib)
        s.backend (.ret (.ok material, m)) b) :
      Step s none ⟨Function.update s.memories i m, b⟩
  | restart {s : Fleet ι} {i : ι} :
      Step s none ⟨Function.update s.memories i .empty, s.backend⟩
  | outside {s : Fleet ι} {values : String → Option String}
      (hcertificate : ∀ i, values ((fleet i).certKey lib) =
        s.backend.values ((fleet i).certKey lib))
      (hkey : ∀ i, values ((fleet i).signingSecretId lib) =
        s.backend.values ((fleet i).signingSecretId lib)) :
      Step s none ⟨s.memories, { s.backend with values := values }⟩

/-- Any number of steps, with the managers that have provisioned. -/
inductive Fleet.Run (s₀ : Fleet ι) : List ι → Fleet ι → Prop
  | nil : Run s₀ [] s₀
  | snoc {ps : List ι} {s s' : Fleet ι} {p : Option ι} (hrun : Run s₀ ps s)
      (hstep : Fleet.Step lib fleet s p s') : Run s₀ (ps ++ p.toList) s'

/-- All managers have just started, and no certificate is stored. -/
structure Fleet.Fresh (s : Fleet ι) : Prop where
  memories : ∀ i, s.memories i = .empty
  certificates : ∀ i, s.backend.values ((fleet i).certKey lib) = none

variable {lib fleet} {s₀ s : Fleet ι}

/-- One step keeps the invariant, with the manager that has provisioned added. -/
theorem Fleet.Step.consistent (hserde : lib.SerdeRoundTrip) (hrequest : lib.RequestsOwnKey)
    (hcompat : Compatible lib fleet) {p : Option ι} {s' : Fleet ι} {P : ι → Prop}
    (hstep : Fleet.Step lib fleet s p s')
    (h : Consistent lib fleet P s.memories s.backend.values) :
    Consistent lib fleet (fun i => P i ∨ p = some i) s'.memories s'.backend.values := by
  have hkeeps : ∀ i, Keeps lib fleet P s.memories i (s.memories i) s.backend := by
    intro i
    unfold Keeps
    rwa [Function.update_eq_self]
  have hadd : ∀ memories values, Consistent lib fleet P memories values →
      (∀ i, p = some i → values ((fleet i).certKey lib) ≠ none) →
      Consistent lib fleet (fun i => P i ∨ p = some i) memories values :=
    fun _ _ h' hp => { h' with stored := fun i hi => hi.elim (h'.stored i) (hp i) }
  cases hstep with
  | @provisioned i data m b hrun =>
      obtain ⟨hconsistent, hstored⟩ :=
        (ends_requestCertificate hserde hrequest hcompat (hkeeps i)).ended trivial hrun
      refine hadd _ _ hconsistent fun j hj => ?_
      cases hj
      exact hstored
  | @signed i material m b hrun =>
      exact hadd _ _ ((ends_signingMaterial (hkeeps i)).ended trivial hrun) nofun
  | restart => exact hadd _ _ h.restarted nofun
  | outside hcertificate hkey => exact hadd _ _ (h.congr hcertificate hkey) nofun

/-- Every run of a compatible fleet is consistent. -/
theorem Fleet.Run.consistent (hserde : lib.SerdeRoundTrip) (hrequest : lib.RequestsOwnKey)
    (hcompat : Compatible lib fleet) (hfresh : s₀.Fresh lib fleet) {ps : List ι}
    (hrun : Fleet.Run lib fleet s₀ ps s) :
    Consistent lib fleet (· ∈ ps) s.memories s.backend.values := by
  induction hrun with
  | nil =>
      constructor
      · simp
      · intro i text htext
        rw [hfresh.certificates] at htext
        cases htext
      · intro i text hlookup
        rw [hfresh.memories] at hlookup
        cases hlookup
      · intro i keyPem c _ _ hlookup
        rw [hfresh.memories] at hlookup
        cases c <;> cases hlookup
  | snoc _ hstep ih => simpa [Option.mem_toList] using hstep.consistent hserde hrequest hcompat ih

/-- Answering every operation is allowed. -/
theorem answer_allowed_working (files : String → Except String (List Byte)) (op : CertOp)
    (b : Secrets Unit) :
    WorkingEnv lib op b (Secrets.answer noAccount files none op b).1
      (Secrets.answer noAccount files none op b).2 :=
  Secrets.answer_allowed (fun hne => hne rfl) op b

/-- **Managers with compatible domains do not mix their material.**  In every run of
provisionings, calls and restarts, a manager that has provisioned and restarts
gets a chain from `signing_material`, and its leaf certificate is for the signing
key it gets with it. -/
theorem matching_pair_after_restart (hpem : lib.PemIteration) (hserde : lib.SerdeRoundTrip)
    (hrequest : lib.RequestsOwnKey) (hcompat : Compatible lib fleet)
    (hfresh : s₀.Fresh lib fleet) {ps : List ι} (hrun : Fleet.Run lib fleet s₀ ps s) {i : ι}
    (hi : i ∈ ps) :
    (∃ r m b, (((fleet i).signingMaterial lib).start .empty).Reaches (WorkingEnv lib) s.backend
      (.ret (r, m)) b) ∧
    ∀ r m b, (((fleet i).signingMaterial lib).start .empty).Reaches (WorkingEnv lib) s.backend
      (.ret (r, m)) b → ∃ chain keyPem, r = .ok ⟨some chain, keyPem⟩ ∧
        MatchingPair lib chain keyPem := by
  have h := hrun.consistent hserde hrequest hcompat hfresh
  obtain ⟨text, hstored⟩ := Option.ne_none_iff_exists'.mp (h.stored i hi)
  have hsure := sure_readBack hpem hstored (h.pair i text hstored)
  have htotal : ∀ op (b : Secrets Unit), ∃ r b', WorkingEnv lib op b r b' := fun op b =>
    ⟨_, _, answer_allowed_working (fun _ => .error "") op b⟩
  constructor
  · obtain ⟨⟨r, m⟩, b, hreach⟩ := Prog.exists_reaches_ret htotal
      (((fleet i).signingMaterial lib).start .empty) s.backend
    exact ⟨r, m, b, hreach⟩
  · rintro (e | material) m b hreach
    · exact (hsure.failed trivial hreach).elim
    · obtain ⟨chain, hchain, hmatching⟩ := hsure.ended trivial hreach
      obtain ⟨certificateChain, keyPem⟩ := material
      cases hchain
      exact ⟨chain, keyPem, rfl, hmatching⟩

end Runs

section Samples

open SampleKey

/-- The managers of two subdomains. -/
def sampleFleet : Bool → CertManager
  | false => sampleManager "a.example.com"
  | true => sampleManager "b.example.com"

/-- Both managers have just started over an empty backend. -/
def emptyFleet : Fleet Bool := ⟨fun _ => .empty, ⟨fun _ => none, fun _ => none, ()⟩⟩

/-- The backend after a manager has provisioned a key. -/
def provisionedBy (manager : CertManager) (k : SampleKey) (b : Secrets Unit) : Secrets Unit :=
  (b.write noAccount ⟨manager.certKey sampleLibraries, k.json, true, true⟩).write noAccount
    ⟨manager.signingSecretId sampleLibraries, k.keyPem, true, true⟩

/-- The sample requests are for their own keys. -/
theorem sampleLibraries_requestsOwnKey : sampleLibraries.RequestsOwnKey := by
  intro params keyPem csr hcsr
  have hk : firstKey.Known := .inl rfl
  simp only [sampleLibraries] at hcsr
  split at hcsr
  · rename_i hfirst
    cases hcsr
    rw [hfirst.2, hk.publicKeyOf_eq]
    simp only [sampleLibraries, if_true]
  · cases hcsr

/-- Both managers use one certificate name. -/
theorem sampleFleet_certKey (i j : Bool) :
    (sampleFleet i).certKey sampleLibraries = (sampleFleet j).certKey sampleLibraries := by
  cases i <;> cases j <;> rfl

/-- They use two key names. -/
theorem sampleFleet_signingSecretId_ne :
    (sampleFleet false).signingSecretId sampleLibraries ≠
      (sampleFleet true).signingSecretId sampleLibraries := by
  decide +kernel

/-- A manager that has just started provisions a key from its files. -/
theorem fleet_provision_step {ι : Type} [DecidableEq ι] (fleet : ι → CertManager) {k : SampleKey}
    (hk : k.Known) {i : ι} {domain : String} (hi : fleet i = sampleManager domain) {s : Fleet ι}
    (hm : s.memories i = .empty)
    (hb : OtherCertificate k (s.backend.values ((fleet i).certKey sampleLibraries))) :
    ∃ m, Fleet.Step sampleLibraries fleet s (some i)
      ⟨Function.update s.memories i m, provisionedBy (fleet i) k s.backend⟩ := by
  rw [hi] at hb
  obtain ⟨r, m, hexec, hr⟩ := exec_provision (m := .empty) noAccount none hk rfl (by simp) rfl hb
  obtain rfl := hr (by simp)
  have hrun : (((fleet i).requestCertificate sampleLibraries).start (s.memories i)).Reaches
      (WorkingEnv sampleLibraries) s.backend (.ret (.ok k.data, m))
      (provisionedBy (fleet i) k s.backend) := by
    rw [hi, hm]
    refine reaches_exec (answer_allowed_working (sampleFiles k)) ?_
    simpa [provisionedBy, CertManager.requestCertificate, sampleManager] using hexec
  exact ⟨m, .provisioned hrun⟩

/-- A manager that has just started reads its material back. -/
theorem fleet_signingMaterial {k : SampleKey} (hk : k.Known) (domain : String) {keyPem : String}
    {b : Secrets Unit}
    (hcert : b.values ((sampleManager domain).certKey sampleLibraries) = some k.json)
    (hkey : b.values ((sampleManager domain).signingSecretId sampleLibraries) = some keyPem) :
    ∃ m, (((sampleManager domain).signingMaterial sampleLibraries).start .empty).Reaches
      (WorkingEnv sampleLibraries) b
      (.ret (.ok ⟨some [base64Standard k.certificate], keyPem⟩, m)) b := by
  obtain ⟨m, hexec⟩ := exec_signingMaterial noAccount (sampleFiles k) none hk rfl hcert hkey
  exact ⟨m, reaches_exec (answer_allowed_working _) hexec⟩

/-- The managers of two domains that share no name. -/
def apartFleet : Bool → CertManager
  | false => sampleManager "a.example.com"
  | true => sampleManager "c.example.org"

/-- These managers use two certificate names. -/
theorem apartFleet_certKey_ne :
    (apartFleet false).certKey sampleLibraries ≠ (apartFleet true).certKey sampleLibraries := by
  decide +kernel

/-- They use two key names as well. -/
theorem apartFleet_signingSecretId_ne :
    (apartFleet false).signingSecretId sampleLibraries ≠
      (apartFleet true).signingSecretId sampleLibraries := by
  decide +kernel

/-- So they are compatible. -/
theorem apartFleet_compatible : Compatible sampleLibraries apartFleet where
  certificate i j hsame := by
    have hcert := (certKey_eq_iff sampleLibraries _ _).mpr hsame
    cases i <;> cases j
    · exact (signingSecretId_eq_iff sampleLibraries _ _).mp rfl
    · exact absurd hcert apartFleet_certKey_ne
    · exact absurd hcert apartFleet_certKey_ne.symm
    · exact (signingSecretId_eq_iff sampleLibraries _ _).mp rfl
  key i j _ hsame := by
    have hkey := (signingSecretId_eq_iff sampleLibraries _ _).mpr hsame
    cases i <;> cases j
    · exact (certKey_eq_iff sampleLibraries _ _).mp rfl
    · exact absurd hkey apartFleet_signingSecretId_ne
    · exact absurd hkey apartFleet_signingSecretId_ne.symm
    · exact (certKey_eq_iff sampleLibraries _ _).mp rfl
  cache i j _ hacme _ := by
    cases j <;> cases hacme

/-- The theorem at two managers that provision one after the other. -/
theorem matching_pair_after_restart_sample :
    ∃ s, Fleet.Run sampleLibraries apartFleet emptyFleet [false, true] s ∧
      ∀ r m b, (((apartFleet false).signingMaterial sampleLibraries).start .empty).Reaches
        (WorkingEnv sampleLibraries) s.backend (.ret (r, m)) b →
          ∃ chain keyPem, r = .ok ⟨some chain, keyPem⟩ ∧
            MatchingPair sampleLibraries chain keyPem := by
  have hfresh : emptyFleet.Fresh sampleLibraries apartFleet := ⟨fun _ => rfl, fun _ => rfl⟩
  have hstart : Fleet.Run sampleLibraries apartFleet emptyFleet [] emptyFleet := .nil
  have hnames : ∀ i j : Bool, (apartFleet i).certKey sampleLibraries ≠
      (apartFleet j).signingSecretId sampleLibraries := fleet_names_ne
  obtain ⟨m₁, hfirst⟩ := fleet_provision_step apartFleet (k := firstKey) (.inl rfl)
    (i := false) rfl (s := emptyFleet) rfl (.inl rfl)
  have habsent : (provisionedBy (apartFleet false) firstKey emptyFleet.backend).values
      ((apartFleet true).certKey sampleLibraries) = none := by
    simp [provisionedBy, Secrets.write, hnames, apartFleet_certKey_ne.symm, emptyFleet]
  obtain ⟨m₂, hsecond⟩ := fleet_provision_step apartFleet (k := secondKey) (.inr rfl)
    (i := true) rfl (s := ⟨Function.update emptyFleet.memories false m₁,
      provisionedBy (apartFleet false) firstKey emptyFleet.backend⟩) rfl (.inl habsent)
  have hrun := (hstart.snoc hfirst).snoc hsecond
  exact ⟨_, hrun, (matching_pair_after_restart sampleLibraries_pemIteration
    sampleLibraries_serdeRoundTrip sampleLibraries_requestsOwnKey apartFleet_compatible hfresh
    hrun (i := false) (by simp)).2⟩

/-- Two subdomains share the name of their certificate and not that of their key:
after both have provisioned, the first one restarts and gets the second one's
certificate with its own key. -/
theorem certificate_of_other_manager_returned :
    sampleLibraries.PemIteration ∧ sampleLibraries.SerdeRoundTrip ∧
    sampleLibraries.RequestsOwnKey ∧ emptyFleet.Fresh sampleLibraries sampleFleet ∧
    (sampleFleet false).certKey sampleLibraries = (sampleFleet true).certKey sampleLibraries ∧
    (sampleFleet false).signingSecretId sampleLibraries ≠
      (sampleFleet true).signingSecretId sampleLibraries ∧
    ∃ s m, Fleet.Run sampleLibraries sampleFleet emptyFleet [false, true] s ∧
      (((sampleFleet false).signingMaterial sampleLibraries).start .empty).Reaches
        (WorkingEnv sampleLibraries) s.backend
        (.ret (.ok ⟨some [base64Standard secondKey.certificate], firstKey.keyPem⟩, m)) s.backend ∧
      ¬MatchingPair sampleLibraries [base64Standard secondKey.certificate] firstKey.keyPem := by
  refine ⟨sampleLibraries_pemIteration, sampleLibraries_serdeRoundTrip,
    sampleLibraries_requestsOwnKey, ⟨fun _ => rfl, fun _ => rfl⟩, sampleFleet_certKey _ _,
    sampleFleet_signingSecretId_ne, ?_⟩
  have hstart : Fleet.Run sampleLibraries sampleFleet emptyFleet [] emptyFleet := .nil
  have hnames : ∀ i j : Bool, (sampleFleet i).certKey sampleLibraries ≠
      (sampleFleet j).signingSecretId sampleLibraries := fleet_names_ne
  obtain ⟨m₁, hfirst⟩ := fleet_provision_step sampleFleet (k := firstKey) (.inl rfl)
    (i := false) rfl (s := emptyFleet) rfl (.inl rfl)
  have hother : OtherCertificate secondKey ((provisionedBy (sampleFleet false) firstKey
      emptyFleet.backend).values ((sampleFleet true).certKey sampleLibraries)) := by
    refine .inr ⟨firstKey, .inl rfl, certificatePem_ne.symm, ?_⟩
    rw [sampleFleet_certKey true false]
    simp [provisionedBy, Secrets.write, hnames]
  obtain ⟨m₂, hsecond⟩ := fleet_provision_step sampleFleet (k := secondKey) (.inr rfl)
    (i := true) rfl (s := ⟨Function.update emptyFleet.memories false m₁,
      provisionedBy (sampleFleet false) firstKey emptyFleet.backend⟩) rfl hother
  have hcert : (provisionedBy (sampleFleet true) secondKey (provisionedBy (sampleFleet false)
      firstKey emptyFleet.backend)).values ((sampleFleet false).certKey sampleLibraries) =
        some secondKey.json := by
    rw [sampleFleet_certKey false true]
    simp [provisionedBy, Secrets.write, hnames]
  have hkey : (provisionedBy (sampleFleet true) secondKey (provisionedBy (sampleFleet false)
      firstKey emptyFleet.backend)).values ((sampleFleet false).signingSecretId sampleLibraries) =
        some firstKey.keyPem := by
    simp [provisionedBy, Secrets.write, sampleFleet_signingSecretId_ne, (hnames _ _).symm]
  obtain ⟨m₃, hread⟩ := fleet_signingMaterial (.inr rfl) "a.example.com" hcert hkey
  exact ⟨_, m₃, (hstart.snoc hfirst).snoc hsecond, hread, not_matchingPair_second⟩

end Samples

end StatusListServer
