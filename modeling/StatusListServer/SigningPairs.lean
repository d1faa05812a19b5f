import StatusListServer.ProvisioningRules

/-!
# The pair of certificate and signing key across failures and restarts

One manager with the store strategy over one secrets backend.  Its provisioning
writes the certificate and then the signing key, by two separate writes; either
may fail, and a failed one may have taken effect.  The process may be stopped
between any two operations, which loses its memory.

An attempt *tears* the pair when its certificate takes effect while the stored
signing key is not the one of that certificate; the next signing-key write that
is answered with success mends it.  As long as no torn pair is read back, that is
as long as `signing_material` finds active material in memory or an untorn pair
in the backend, every chain it returns goes with the key it returns.
-/

namespace StatusListServer

open BitStream Interaction Proc

section Pairs

variable (lib : Libraries) (manager : CertManager)

/-- The public key that a stored certificate record certifies. -/
def certifiedKey (text : String) : Option (List Byte) :=
  match lib.certificateDataFromJson text with
  | .ok data => leafKey lib data.certificate
  | .error _ => none

/-- A certificate record is for the public key of a stored signing key. -/
def goesWith (text : String) : Option String → Bool
  | none => false
  | some keyPem =>
      (certifiedKey lib text).isSome && certifiedKey lib text == publicKeyOf lib keyPem

/-- The account of a run: whether the pair is torn. -/
def tearing : Bookkeeping Bool := fun values x torn =>
  if x.key = manager.certKey lib then
    torn || (x.applied && !goesWith lib x.value (values (manager.signingSecretId lib)))
  else if x.key = manager.signingSecretId lib then
    torn && !x.answered
  else
    torn

/-- The world of the manager: everything may fail. -/
abbrev FailingEnv := Secrets.Env (tearing lib manager) lib True

/-- All certificates and keys the manager may come by are for one public key,
and there is no certificate without a stored key. -/
structure OneKey (m : CertMemory) (b : Secrets Bool) (pk : Option (List Byte)) : Prop where
  certificates : ∀ text, Held b.values m (some .certificate) (manager.certKey lib) text →
    certifiedKey lib text = pk ∧ pk ≠ none ∧ b.values (manager.signingSecretId lib) ≠ none
  keys : ∀ keyPem, Held b.values m manager.signingKeyCache (manager.signingSecretId lib) keyPem →
    publicKeyOf lib keyPem = pk

/-- An untorn pair is for one key. -/
def Whole (m : CertMemory) (b : Secrets Bool) : Prop :=
  b.account = false → ∃ pk, OneKey lib manager m b pk

/-- The invariant of a manager between two calls. -/
structure Sound (m : CertMemory) (b : Secrets Bool) : Prop where
  active : ∀ material chain, m.active = some material → material.certificateChain = some chain →
    MatchingPair lib chain material.signingKeyPem
  chain : m.certChainCache ≠ none → m.active ≠ none
  whole : Whole lib manager m b

/-- What holds whenever the process may be stopped. -/
def Kept (b : Secrets Bool) : Prop := Whole lib manager .empty b

variable {lib manager} {m m' : CertMemory} {b : Secrets Bool} {pk : Option (List Byte)}

/-- A refreshed memory has no other key. -/
theorem OneKey.refreshed (h : OneKey lib manager m b pk) (hm : Refreshed b.values m m') :
    OneKey lib manager m' b pk where
  certificates text hheld := h.certificates text (hm.held hheld)
  keys keyPem hheld := h.keys keyPem (hm.held hheld)

/-- Only the stored values of the backend matter. -/
theorem OneKey.congr {b' : Secrets Bool} (h : OneKey lib manager m b pk)
    (hvalues : b'.values = b.values) : OneKey lib manager m b' pk := by
  obtain ⟨hcertificates, hkeys⟩ := h
  constructor
  · rw [hvalues]
    exact hcertificates
  · rw [hvalues]
    exact hkeys

/-- An empty memory holds only what is stored. -/
theorem held_of_empty {values : String → Option String} {cache : Option MaterialCache}
    {key value : String} (h : Held values .empty cache key value) :
    Held values m cache key value := by
  obtain ⟨c, _, hlookup⟩ | hstored := h
  · cases c <;> simp [CertMemory.lookup, CertMemory.empty] at hlookup
  · exact .inr hstored

/-- A refreshed memory keeps the pair whole. -/
theorem Whole.refreshed (h : Whole lib manager m b) (hm : Refreshed b.values m m') :
    Whole lib manager m' b := by
  intro hwhole
  obtain ⟨pk, hone⟩ := h hwhole
  exact ⟨pk, hone.refreshed hm⟩

/-- A process that loses its memory keeps the invariant. -/
theorem Whole.kept (h : Whole lib manager m b) : Kept lib manager b := by
  intro hwhole
  obtain ⟨pk, hone⟩ := h hwhole
  exact ⟨pk, ⟨fun text hheld => hone.certificates text (held_of_empty hheld),
    fun keyPem hheld => hone.keys keyPem (held_of_empty hheld)⟩⟩

/-- After a restart the state is sound. -/
theorem Kept.sound (h : Kept lib manager b) : Sound lib manager .empty b where
  active _ _ hactive _ := by cases hactive
  chain hchain := absurd rfl hchain
  whole := h

/-- A refreshed memory keeps the state sound. -/
theorem Sound.refreshed (h : Sound lib manager m b) (hm : Refreshed b.values m m') :
    Sound lib manager m' b where
  active material chain hactive := h.active material chain (hm.active ▸ hactive)
  chain hchain := by
    rw [hm.active]
    exact h.chain (hm.chain ▸ hchain)
  whole := h.whole.refreshed hm

/-- The invariant depends on the backend through the stored pair only. -/
theorem Sound.whole_of (h : Sound lib manager m b) {b' : Secrets Bool}
    (hstep : Whole lib manager m b') : Sound lib manager m b' := ⟨h.active, h.chain, hstep⟩

end Pairs

section Writes

variable {lib : Libraries} {manager : CertManager} {m : CertMemory} {b : Secrets Bool}
  {text keyPem : String} {p : List Byte} {answered applied : Bool}

/-- The key and the certificate have two names. -/
theorem names_ne : manager.signingSecretId lib ≠ manager.certKey lib :=
  (certKey_ne_signingSecretId lib manager.domains manager.domains).symm

/-- A certificate that takes effect leaves the pair untorn only if it goes with
the stored key. -/
theorem Whole.writeCertificate (h : Whole lib manager m b)
    (htext : certifiedKey lib text = some p) :
    Whole lib manager m
      (b.write (tearing lib manager) ⟨manager.certKey lib, text, answered, applied⟩) := by
  intro hwhole
  obtain ⟨hbefore, hfits⟩ : b.account = false ∧
      (applied = true → goesWith lib text (b.values (manager.signingSecretId lib)) = true) := by
    simpa [Secrets.write, tearing] using hwhole
  obtain ⟨pk, hone⟩ := h hbefore
  refine ⟨pk, ?_⟩
  cases applied with
  | false => exact hone.congr (by simp [Secrets.write])
  | true =>
      obtain ⟨keyPem, hstored, hpk⟩ : ∃ keyPem,
          b.values (manager.signingSecretId lib) = some keyPem ∧
            publicKeyOf lib keyPem = some p := by
        have hgoes := hfits rfl
        cases hstored : b.values (manager.signingSecretId lib) with
        | none => simp [goesWith, hstored] at hgoes
        | some keyPem =>
            refine ⟨keyPem, rfl, ?_⟩
            rw [hstored, goesWith, htext, Option.isSome_some, Bool.true_and, beq_iff_eq] at hgoes
            exact hgoes.symm
      have hp : pk = some p := (hone.keys keyPem (.inr hstored)).symm.trans hpk
      have hkey : (b.write (tearing lib manager)
          ⟨manager.certKey lib, text, answered, true⟩).values (manager.signingSecretId lib) =
            some keyPem := by
        simp [Secrets.write, names_ne, hstored]
      constructor
      · rintro text' (⟨c, hc, hlookup⟩ | hvalue)
        · obtain ⟨hcert, hne, _⟩ := hone.certificates text' (.inl ⟨c, hc, hlookup⟩)
          exact ⟨hcert, hne, by simp [hkey]⟩
        · have htext' : text' = text := by simpa [Secrets.write, eq_comm] using hvalue
          subst htext'
          exact ⟨htext.trans hp.symm, by simp [hp], by simp [hkey]⟩
      · rintro key (⟨c, hc, hlookup⟩ | hvalue)
        · exact hone.keys key (.inl ⟨c, hc, hlookup⟩)
        · rw [hkey, ← hstored] at hvalue
          exact hone.keys key (.inr hvalue)

/-- Caching the stored certificate. -/
theorem Whole.cacheCertificate (h : Whole lib manager m b)
    (hstored : b.values (manager.certKey lib) = some text) :
    Whole lib manager (m.insert .certificate (manager.certKey lib) text) b :=
  h.refreshed (.insert hstored)

/-- The certificate of the running attempt is the only one around. -/
structure Attempting (lib : Libraries) (manager : CertManager) (text : String) (m : CertMemory)
    (b : Secrets Bool) : Prop where
  stored : b.values (manager.certKey lib) = some text
  only : ∀ text', Held b.values m (some .certificate) (manager.certKey lib) text' → text' = text

/-- An attempt whose certificate write was answered is under way. -/
theorem Attempting.start (m : CertMemory) (b : Secrets Bool) (text : String) :
    Attempting lib manager text (m.insert .certificate (manager.certKey lib) text)
      (b.write (tearing lib manager) ⟨manager.certKey lib, text, true, true⟩) where
  stored := by simp [Secrets.write]
  only text' hheld := by
    obtain ⟨c, hc, hlookup⟩ | hvalue := hheld
    · cases hc
      simpa [eq_comm] using hlookup
    · simpa [Secrets.write, eq_comm] using hvalue

/-- A refreshed memory does not disturb an attempt. -/
theorem Attempting.refreshed {m' : CertMemory} (h : Attempting lib manager text m b)
    (hm : Refreshed b.values m m') : Attempting lib manager text m' b :=
  ⟨h.stored, fun text' hheld => h.only text' (hm.held hheld)⟩

/-- A key write that fails does not tear the pair, whether or not it took
effect. -/
theorem Whole.writeKeyFailed (h : Whole lib manager m b)
    (hattempt : Attempting lib manager text m b)
    (htext : certifiedKey lib text = some p) (hkey : publicKeyOf lib keyPem = some p) :
    Whole lib manager m
      (b.write (tearing lib manager) ⟨manager.signingSecretId lib, keyPem, false, applied⟩) := by
  intro hwhole
  have hbefore : b.account = false := by simpa [Secrets.write, tearing, names_ne] using hwhole
  obtain ⟨pk, hone⟩ := h hbefore
  refine ⟨pk, ?_⟩
  cases applied with
  | false => exact hone.congr (by simp [Secrets.write])
  | true =>
      have hp : pk = some p := (hone.certificates text (.inr hattempt.stored)).1.symm.trans htext
      constructor
      · rintro text' hheld
        have hheld' : Held b.values m (some .certificate) (manager.certKey lib) text' := by
          simpa [Held, Secrets.write, names_ne.symm] using hheld
        obtain ⟨hcert, hne, _⟩ := hone.certificates text' hheld'
        exact ⟨hcert, hne, by simp [Secrets.write]⟩
      · rintro key (⟨c, hc, hlookup⟩ | hvalue)
        · exact hone.keys key (.inl ⟨c, hc, hlookup⟩)
        · have hvalue' : key = keyPem := by simpa [Secrets.write, eq_comm] using hvalue
          subst hvalue'
          exact hkey.trans hp.symm

/-- A key write answered with success mends the pair. -/
theorem Attempting.mended (hattempt : Attempting lib manager text m b)
    (htext : certifiedKey lib text = some p) (hkey : publicKeyOf lib keyPem = some p) :
    OneKey lib manager (m.insertIn manager.signingKeyCache (manager.signingSecretId lib) keyPem)
      (b.write (tearing lib manager) ⟨manager.signingSecretId lib, keyPem, true, true⟩)
      (some p) := by
  constructor
  · intro text' hheld
    have hheld' : Held b.values m (some .certificate) (manager.certKey lib) text' := by
      obtain ⟨c, hc, hlookup⟩ | hvalue := hheld
      · refine .inl ⟨c, hc, ?_⟩
        cases hc
        exact CertMemory.lookup_insertIn_of_ne names_ne.symm hlookup
      · exact .inr (by simpa [Secrets.write, names_ne.symm] using hvalue)
    rw [hattempt.only text' hheld']
    exact ⟨htext, by simp, by simp [Secrets.write]⟩
  · intro key hheld
    have hsame : key = keyPem := by
      obtain ⟨c, hc, hlookup⟩ | hvalue := hheld
      · simp only [hc, CertMemory.insertIn, CertMemory.lookup_insert_self] at hlookup
        exact (Option.some.inj hlookup).symm
      · simpa [Secrets.write, eq_comm] using hvalue
    rw [hsame]
    exact hkey

end Writes

section Procedures

variable {lib : Libraries} {manager : CertManager} {m : CertMemory} {b : Secrets Bool}

/-- What serde writes of a certificate certifies the key of its leaf. -/
theorem certifiedKey_of_json (hserde : lib.SerdeRoundTrip) {data : CertificateData} {text : String}
    (htext : lib.certificateDataToJson data = .ok text) :
    certifiedKey lib text = leafKey lib data.certificate := by
  unfold certifiedKey
  rw [hserde data text htext]

/-- Activating material whose leaf has the public key of its signing key. -/
theorem Sound.activate (hpem : lib.PemIteration) {certPem keyPem : String} {parts : List String}
    {p : List Byte} (hparts : parseCertChainParts lib certPem = .ok parts)
    (hleaf : leafKey lib certPem = some p) (hkey : publicKeyOf lib keyPem = some p)
    (h : Whole lib manager m b) :
    Sound lib manager { m with
      certChainCache := some (manager.certKey lib, parts)
      active := some ⟨some parts, keyPem⟩ } b where
  active material chain hactive hchain := by
    cases hactive
    cases hchain
    exact matchingPair_of_leafKey hpem hparts hleaf hkey
  chain _ := by simp
  whole hwhole := by
    obtain ⟨pk, hone⟩ := h hwhole
    exact ⟨pk, ⟨hone.certificates, hone.keys⟩⟩

/-- The second half of an attempt: its key is persisted and its material becomes
the active one. -/
theorem sure_persistKey_activate (hpem : lib.PemIteration) {certPem text keyPem : String}
    {p : List Byte} (hleaf : leafKey lib certPem = some p) (hkey : publicKeyOf lib keyPem = some p)
    (htext : certifiedKey lib text = some p) (h : Sound lib manager m b)
    (hattempt : Attempting lib manager text m b) :
    Sure (FailingEnv lib manager) (Kept lib manager) (fun _ m' b' => Sound lib manager m' b')
      (fun _ m' b' => Sound lib manager m' b')
      (do manager.persistSigningKey lib keyPem
          manager.cacheProvisionedChain lib certPem
          CertManager.storeActiveSigningMaterial lib certPem keyPem) m b := by
  have hmended : ∀ m', Refreshed b.values m m' → OneKey lib manager
      (m'.insertIn manager.signingKeyCache (manager.signingSecretId lib) keyPem)
      (b.write (tearing lib manager) ⟨manager.signingSecretId lib, keyPem, true, true⟩) (some p) :=
    fun m' hm' => (hattempt.refreshed hm').mended htext hkey
  refine sure_bind (sure_persistSigningKey h.whole.kept ?_ ?_ ?_ ?_)
  · intro answered applied happlied
    cases answered with
    | false => exact (h.whole.writeKeyFailed hattempt htext hkey).kept
    | true =>
        rw [happlied rfl]
        exact Whole.kept fun _ => ⟨some p, hmended m (.refl _ _)⟩
  · intro m' hm'
    have h' := h.refreshed hm'
    have hstep : Whole lib manager
        (m'.insertIn manager.signingKeyCache (manager.signingSecretId lib) keyPem)
        (b.write (tearing lib manager) ⟨manager.signingSecretId lib, keyPem, true, true⟩) :=
      fun _ => ⟨some p, hmended m' hm'⟩
    refine sure_bind (sure_cacheProvisionedChain ?_ ?_)
    · intro parts hparts
      have hactivated := Sound.activate hpem hparts hleaf hkey hstep
      exact sure_storeActiveSigningMaterial hparts hactivated
    · intro e
      refine ⟨?_, ?_, hstep⟩
      · simpa using h'.active
      · simpa using h'.chain
  · exact fun e m' hm' => h.refreshed hm'
  · intro e m' applied _ hm'
    have h' := h.refreshed hm'
    exact h'.whole_of (h'.whole.writeKeyFailed (hattempt.refreshed hm') htext hkey)

/-- Persisting validated material keeps the invariant, wherever it stops. -/
theorem sure_persistCryptoMaterial (hpem : lib.PemIteration) (hserde : lib.SerdeRoundTrip)
    {data : CertificateData} {keyPem : String}
    (hvalid : validateSigningMaterial lib data.certificate keyPem = .ok ())
    (h : Sound lib manager m b) :
    Sure (FailingEnv lib manager) (Kept lib manager) (fun _ m' b' => Sound lib manager m' b')
      (fun _ m' b' => Sound lib manager m' b') (manager.persistCryptoMaterial lib data keyPem)
      m b := by
  obtain ⟨p, hleaf, hkey⟩ := leafKey_of_validate hvalid
  have hcertified : ∀ text, lib.certificateDataToJson data = .ok text →
      certifiedKey lib text = some p :=
    fun text htext => (certifiedKey_of_json hserde htext).trans hleaf
  refine sure_bind (sure_persistCertificateData h.whole.kept ?_ ?_ ?_ ?_)
  · intro text answered applied htext _
    exact (h.whole.writeCertificate (hcertified text htext)).kept
  · intro text m' htext hm'
    have h' := h.refreshed hm'
    refine sure_persistKey_activate hpem hleaf hkey (hcertified text htext) ?_ (.start m' b text)
    refine ⟨?_, ?_, ?_⟩
    · simpa using h'.active
    · simpa using h'.chain
    · exact (h'.whole.writeCertificate (hcertified text htext)).cacheCertificate
        (by simp [Secrets.write])
  · exact fun e m' hm' => h.refreshed hm'
  · intro e text m' applied _ htext hm'
    have h' := h.refreshed hm'
    exact h'.whole_of (h'.whole.writeCertificate (hcertified text htext))

/-- **A provisioning attempt keeps the invariant**, whether it succeeds, fails or
is stopped. -/
theorem sure_provisionFromStore (hpem : lib.PemIteration) (hserde : lib.SerdeRoundTrip)
    {certificateSource signingKeySource : MaterialSource} (h : Sound lib manager m b) :
    Sure (FailingEnv lib manager) (Kept lib manager) (fun _ m' b' => Sound lib manager m' b')
      (fun _ m' b' => Sound lib manager m' b')
      (manager.provisionFromStore lib certificateSource signingKeySource) m b := by
  have hkept := h.whole.kept
  refine sure_bind (sure_loadValidated hkept ?_ (fun e => h))
  intro data keyPem hvalid
  have hrest : ∀ current m', Refreshed b.values m m' →
      Sure (FailingEnv lib manager) (Kept lib manager) (fun _ m' b' => Sound lib manager m' b')
        (fun _ m' b' => Sound lib manager m' b')
        (do let currentSigningKey ← manager.signingKeyFromStorage lib
            if Option.map (·.certificate) current = some data.certificate ∧
                currentSigningKey = some keyPem then
              return current.getD data
            else
              manager.persistCryptoMaterial lib data keyPem
              return data) m' b := by
    intro current m' hm'
    refine sure_bind (sure_signingKeyFromStorage hkept ?_ ?_)
    · intro currentKey m'' hloaded
      have h'' := (h.refreshed hm').refreshed hloaded.1
      split
      · exact sure_pure h''
      · refine sure_bind ((sure_persistCryptoMaterial hpem hserde hvalid h'').mono ?_ ?_)
        · exact fun _ _ _ hsound => sure_pure hsound
        · exact fun _ _ _ hsound => hsound
    · exact fun e m'' hm'' => (h.refreshed hm').refreshed hm''
  refine sure_bind (sure_certificate hkept ?_ ?_ ?_)
  · exact fun current _ m' hm' _ _ => hrest (some current) m' hm'
  · exact fun m' hm' _ => hrest none m' hm'
  · exact fun e m' hm' => h.refreshed hm'

/-- The backend while a generated key is being stored. -/
structure StoringKey (lib : Libraries) (manager : CertManager) (keyPem : String)
    (b b' : Secrets Bool) : Prop where
  values : b'.values = b.values ∨
    b'.values = Function.update b.values (manager.signingSecretId lib) (some keyPem)
  whole : b'.account = false

/-- The write of the key, whether or not it is applied and answered. -/
theorem StoringKey.write {keyPem : String} {b' : Secrets Bool}
    (h : StoringKey lib manager keyPem b b') (answered applied : Bool) :
    StoringKey lib manager keyPem b (b'.write (tearing lib manager)
      ⟨manager.signingSecretId lib, keyPem, answered, applied⟩) where
  values := by
    cases applied with
    | false => simpa [Secrets.write] using h.values
    | true =>
        refine .inr ?_
        obtain hsame | hset := h.values
        · simp [Secrets.write, hsame]
        · simp [Secrets.write, hset]
  whole := by simp [Secrets.write, tearing, names_ne, h.whole]

/-- A generated key is the only one around, and there is no certificate. -/
theorem StoringKey.oneKey {keyPem : String} {b' : Secrets Bool} {m' m'' : CertMemory}
    {pk : Option (List Byte)} (h : StoringKey lib manager keyPem b b')
    (hone : OneKey lib manager m b pk)
    (hloaded : LoadedFrom b.values m manager.signingKeyCache (manager.signingSecretId lib) none m')
    (hm'' : m'' = m' ∨
      m'' = m'.insertIn manager.signingKeyCache (manager.signingSecretId lib) keyPem) :
    OneKey lib manager m'' b' (publicKeyOf lib keyPem) := by
  obtain ⟨hrefreshed, habsent, hmiss⟩ := hloaded
  have hcert : b'.values (manager.certKey lib) = b.values (manager.certKey lib) := by
    obtain hsame | hset := h.values
    · rw [hsame]
    · rw [hset, Function.update_of_ne names_ne.symm]
  constructor
  · intro text hheld
    have hheld' : Held b.values m' (some .certificate) (manager.certKey lib) text := by
      obtain ⟨c, hc, hlookup⟩ | hvalue := hheld
      · refine .inl ⟨c, hc, ?_⟩
        cases hc
        obtain rfl | rfl := hm''
        · exact hlookup
        · exact CertMemory.lookup_insertIn_of_ne names_ne.symm hlookup
      · exact .inr (hcert ▸ hvalue)
    exact absurd habsent (hone.certificates text (hrefreshed.held hheld')).2.2
  · intro key hheld
    suffices hsame : key = keyPem by rw [hsame]
    obtain ⟨c, hc, hlookup⟩ | hvalue := hheld
    · obtain rfl | rfl := hm''
      · rw [hmiss c hc] at hlookup
        cases hlookup
      · simp only [hc, CertMemory.insertIn, CertMemory.lookup_insert_self] at hlookup
        exact (Option.some.inj hlookup).symm
    · obtain hsame | hset := h.values
      · rw [hsame, habsent] at hvalue
        cases hvalue
      · rw [hset, Function.update_self] at hvalue
        exact (Option.some.inj hvalue).symm

/-- What `signing_material` ends with. -/
def GoodMaterial (lib : Libraries) (manager : CertManager) (material : SigningMaterial)
    (m : CertMemory) (b : Secrets Bool) : Prop :=
  Sound lib manager m b ∧ ∀ chain, material.certificateChain = some chain →
    MatchingPair lib chain material.signingKeyPem

/-- The second half of `signing_material`: the chain is read back and joined with
the key. -/
theorem sure_joinChain (hpem : lib.PemIteration) {keyPem : String} {pk : Option (List Byte)}
    (h : Sound lib manager m b) (hactive : m.active = none)
    (hone : OneKey lib manager m b pk) (hkey : publicKeyOf lib keyPem = pk) :
    Sure (FailingEnv lib manager) (Kept lib manager) (GoodMaterial lib manager)
      (fun _ m' b' => Sound lib manager m' b')
      (do let chain ← manager.certChainParts lib
          modify fun m => { m with active := some ⟨chain, keyPem⟩ }
          return ⟨chain, keyPem⟩) m b := by
  have hempty : m.certChainCache = none := by
    by_contra hne
    exact h.chain hne hactive
  refine sure_bind (sure_bind (sure_get ?_))
  rw [hempty, cached_none]
  refine sure_bind (sure_certificate h.whole.kept ?_ ?_ ?_)
  · intro data text m' hm' hheld hdata
    refine sure_bind (sure_orFail ?_ fun e _ => h.refreshed hm')
    intro parts hparts
    refine sure_bind (sure_modify (sure_pure (sure_bind (sure_modify (sure_pure ?_)))))
    obtain ⟨hcertified, hne, _⟩ := hone.certificates text hheld
    obtain ⟨p, rfl⟩ := Option.ne_none_iff_exists'.mp hne
    have hleaf : leafKey lib data.certificate = some p := by
      rw [certifiedKey, hdata] at hcertified
      exact hcertified
    have hactivated := Sound.activate hpem hparts hleaf hkey (h.refreshed hm').whole
    refine ⟨hactivated, ?_⟩
    intro chain hchain
    cases hchain
    exact matchingPair_of_leafKey hpem hparts hleaf hkey
  · intro m' hm' _
    refine sure_pure (sure_bind (sure_modify (sure_pure ⟨⟨?_, ?_, ?_⟩, fun chain hchain => ?_⟩)))
    · intro material chain hmaterial hchain
      cases hmaterial
      cases hchain
    · simp
    · intro _
      have hone' := hone.refreshed hm'
      exact ⟨pk, ⟨hone'.certificates, hone'.keys⟩⟩
    · cases hchain
  · exact fun e m' hm' => h.refreshed hm'

/-- **`signing_material` returns matching pairs** and keeps the invariant, if it
finds active material or an untorn pair. -/
theorem sure_signingMaterial (hpem : lib.PemIteration) (h : Sound lib manager m b)
    (hready : m.active = none → b.account = false) :
    Sure (FailingEnv lib manager) (Kept lib manager) (GoodMaterial lib manager)
      (fun _ m' b' => Sound lib manager m' b') (manager.signingMaterial lib) m b := by
  refine sure_bind (sure_get ?_)
  cases hactive : m.active with
  | some material =>
      exact sure_pure ⟨h, fun chain hchain => h.active material chain hactive hchain⟩
  | none =>
      obtain ⟨pk, hone⟩ := h.whole (hready hactive)
      refine sure_bind (sure_signingKeyPem h.whole.kept ?_ ?_ fun e m' hm' => h.refreshed hm')
      · intro keyPem m' hm' hheld
        exact sure_joinChain hpem (h.refreshed hm') (hm'.active.trans hactive)
          (hone.refreshed hm') (hone.keys keyPem hheld)
      · intro keyPem m' hloaded
        have hm' := hloaded.1
        have hsound : ∀ m'' b', StoringKey lib manager keyPem b b' → m''.active = m'.active →
            m''.certChainCache = m'.certChainCache → OneKey lib manager m'' b'
              (publicKeyOf lib keyPem) → Sound lib manager m'' b' := by
          intro m'' b' hstoring ha hc hone''
          have h' := h.refreshed hm'
          refine ⟨?_, ?_, fun _ => ⟨_, hone''⟩⟩
          · rw [ha]
            exact h'.active
          · rw [ha, hc]
            exact h'.chain
        refine sure_storeNewKey (I := StoringKey lib manager keyPem b)
          (fun b' answered applied hI => hI.write answered applied) ?_ ?_ ?_ 2 b
          ⟨.inl rfl, hready hactive⟩
        · exact fun b' hI => Whole.kept fun _ => ⟨_, hI.oneKey hone hloaded (.inl rfl)⟩
        · intro b' hI _
          have hone'' := hI.oneKey hone hloaded (.inr rfl)
          exact sure_joinChain hpem (hsound _ b' hI (by simp) (by simp) hone'')
            (by simp [hm'.active, hactive]) hone'' rfl
        · exact fun e b' _ hI => hsound m' b' hI rfl rfl (hI.oneKey hone hloaded (.inl rfl))

end Procedures

/-! ## Runs of one manager -/

/-- A manager's process and the world behind it. -/
structure Process where
  memory : CertMemory
  backend : Secrets Bool

/-- What happens to a process: a provisioning attempt, a call of
`signing_material` with the material it returned, a restart, or a change of other
secrets from outside. -/
inductive Occurrence
  | provision
  | signingMaterial (returned : Option SigningMaterial)
  | restart
  | outside
deriving DecidableEq, Repr

section Runs

variable (lib : Libraries) (manager : CertManager)

/-- One occurrence.  An attempt may take its material from any sources, and the
process may be stopped within a call, which loses its memory. -/
inductive Process.Step : Process → Occurrence → Process → Prop
  | provisioned {s : Process} {certificateSource signingKeySource : MaterialSource}
      {r : Except CertError CertificateData} {m : CertMemory} {b : Secrets Bool}
      (hrun : ((manager.provisionFromStore lib certificateSource signingKeySource).start
        s.memory).Reaches (FailingEnv lib manager) s.backend (.ret (r, m)) b) :
      Step s .provision ⟨m, b⟩
  | provisionStopped {s : Process} {certificateSource signingKeySource : MaterialSource}
      {p : Prog CertOp CertOp.Answer (Except CertError CertificateData × CertMemory)}
      {b : Secrets Bool}
      (hrun : ((manager.provisionFromStore lib certificateSource signingKeySource).start
        s.memory).Reaches (FailingEnv lib manager) s.backend p b) :
      Step s .provision ⟨.empty, b⟩
  | returned {s : Process} {material : SigningMaterial} {m : CertMemory} {b : Secrets Bool}
      (hrun : ((manager.signingMaterial lib).start s.memory).Reaches (FailingEnv lib manager)
        s.backend (.ret (.ok material, m)) b) :
      Step s (.signingMaterial (some material)) ⟨m, b⟩
  | refused {s : Process} {e : CertError} {m : CertMemory} {b : Secrets Bool}
      (hrun : ((manager.signingMaterial lib).start s.memory).Reaches (FailingEnv lib manager)
        s.backend (.ret (.error e, m)) b) :
      Step s (.signingMaterial none) ⟨m, b⟩
  | materialStopped {s : Process}
      {p : Prog CertOp CertOp.Answer (Except CertError SigningMaterial × CertMemory)}
      {b : Secrets Bool}
      (hrun : ((manager.signingMaterial lib).start s.memory).Reaches (FailingEnv lib manager)
        s.backend p b) :
      Step s (.signingMaterial none) ⟨.empty, b⟩
  | restart {s : Process} : Step s .restart ⟨.empty, s.backend⟩
  | outside {s : Process} {values : String → Option String}
      (hcertificate : values (manager.certKey lib) = s.backend.values (manager.certKey lib))
      (hkey : values (manager.signingSecretId lib) =
        s.backend.values (manager.signingSecretId lib)) :
      Step s .outside ⟨s.memory, { s.backend with values := values }⟩

/-- Any number of occurrences, each of which is allowed where it happens. -/
inductive Process.Run (may : Process → Occurrence → Prop) (s₀ : Process) :
    List Occurrence → Process → Prop
  | nil : Run may s₀ [] s₀
  | snoc {es : List Occurrence} {s s' : Process} {e : Occurrence} (hrun : Run may s₀ es s)
      (hmay : may s e) (hstep : Process.Step lib manager s e s') : Run may s₀ (es ++ [e]) s'

/-- A process has just started over a backend that holds no certificate, or one
that goes with the stored key. -/
structure Process.Fresh (s : Process) : Prop where
  memory : s.memory = .empty
  whole : s.backend.account = false
  pair : ∀ text, s.backend.values (manager.certKey lib) = some text →
    goesWith lib text (s.backend.values (manager.signingSecretId lib)) = true

/-- No torn pair is read back: a call of `signing_material` finds active material,
or the last certificate that took effect with a new key was followed by a
signing-key write that was answered with success. -/
def NoTornRead (s : Process) : Occurrence → Prop
  | .signingMaterial _ => s.memory.active = none → s.backend.account = false
  | _ => True

variable {lib manager} {s s' s₀ : Process} {e : Occurrence}

/-- A fresh process is sound. -/
theorem Process.Fresh.sound (h : s.Fresh lib manager) : Sound lib manager s.memory s.backend := by
  have hone : OneKey lib manager .empty s.backend
      ((s.backend.values (manager.signingSecretId lib)).bind (publicKeyOf lib)) := by
    constructor
    · intro text hheld
      obtain ⟨c, _, hlookup⟩ | hstored := hheld
      · cases c <;> simp [CertMemory.lookup, CertMemory.empty] at hlookup
      · have hpair := h.pair text hstored
        cases hkey : s.backend.values (manager.signingSecretId lib) with
        | none => simp [goesWith, hkey] at hpair
        | some keyPem =>
            simp only [goesWith, hkey, Bool.and_eq_true, beq_iff_eq] at hpair
            refine ⟨hpair.2, ?_, by simp⟩
            rw [Option.bind_some, ← hpair.2]
            exact Option.isSome_iff_ne_none.mp hpair.1
    · intro keyPem hheld
      obtain ⟨c, _, hlookup⟩ | hstored := hheld
      · cases c <;> simp [CertMemory.lookup, CertMemory.empty] at hlookup
      · simp [hstored]
  rw [h.memory]
  exact Kept.sound fun _ => ⟨_, hone⟩

/-- One occurrence that reads no torn pair keeps the invariant and returns
matching material only. -/
theorem Process.Step.sound (hpem : lib.PemIteration) (hserde : lib.SerdeRoundTrip)
    (hstep : Process.Step lib manager s e s') (hmay : NoTornRead s e)
    (h : Sound lib manager s.memory s.backend) :
    Sound lib manager s'.memory s'.backend ∧
      ∀ material chain, e = .signingMaterial (some material) →
        material.certificateChain = some chain → MatchingPair lib chain material.signingKeyPem := by
  have hkept := h.whole.kept
  cases hstep with
  | @provisioned _ _ r m b hrun =>
      refine ⟨?_, nofun⟩
      cases r with
      | ok data => exact (sure_provisionFromStore hpem hserde h).ended hkept hrun
      | error e => exact (sure_provisionFromStore hpem hserde h).failed hkept hrun
  | provisionStopped hrun =>
      refine ⟨?_, nofun⟩
      exact (Prog.Sure.reaches hrun (sure_provisionFromStore hpem hserde h) hkept).1.sound
  | returned hrun =>
      obtain ⟨hsound, hmatching⟩ := (sure_signingMaterial hpem h hmay).ended hkept hrun
      refine ⟨hsound, ?_⟩
      intro material chain heq
      cases heq
      exact hmatching chain
  | refused hrun => exact ⟨(sure_signingMaterial hpem h hmay).failed hkept hrun, nofun⟩
  | materialStopped hrun =>
      exact ⟨(Prog.Sure.reaches hrun (sure_signingMaterial hpem h hmay) hkept).1.sound, nofun⟩
  | restart => exact ⟨hkept.sound, nofun⟩
  | outside hcertificate hkey =>
      refine ⟨⟨h.active, h.chain, fun hwhole => ?_⟩, nofun⟩
      obtain ⟨pk, hone⟩ := h.whole hwhole
      refine ⟨pk, ?_, ?_⟩
      · simpa only [Held, hcertificate, hkey] using hone.certificates
      · simpa only [Held, hkey] using hone.keys

/-- Every run that reads no torn pair keeps the invariant. -/
theorem Process.Run.sound (hpem : lib.PemIteration) (hserde : lib.SerdeRoundTrip)
    (hfresh : s₀.Fresh lib manager) {es : List Occurrence}
    (hrun : Process.Run lib manager NoTornRead s₀ es s) :
    Sound lib manager s.memory s.backend ∧
      ∀ material chain, .signingMaterial (some material) ∈ es →
        material.certificateChain = some chain →
          MatchingPair lib chain material.signingKeyPem := by
  induction hrun with
  | nil => exact ⟨hfresh.sound, by simp⟩
  | @snoc es s s' e _ hmay hstep ih =>
      obtain ⟨hsound, hearlier⟩ := ih
      obtain ⟨hsound', hnow⟩ := hstep.sound hpem hserde hmay hsound
      refine ⟨hsound', fun material chain hmem hchain => ?_⟩
      obtain hold | hlast := List.mem_append.mp hmem
      · exact hearlier material chain hold hchain
      · exact hnow material chain (List.mem_singleton.mp hlast).symm hchain

/-- **Signing material is a matching pair unless a torn pair is read back.**  In
every run of attempts, failures, restarts and calls from a fresh start, if every
call of `signing_material` that finds no active material comes when the last
key-changing certificate write has been followed by a successful key write, every
chain it returns has a leaf certificate for the key it returns. -/
theorem matching_pair_without_torn_reads (hpem : lib.PemIteration) (hserde : lib.SerdeRoundTrip)
    (hfresh : s₀.Fresh lib manager) {es : List Occurrence}
    (hrun : Process.Run lib manager NoTornRead s₀ es s) {material : SigningMaterial}
    (hreturned : .signingMaterial (some material) ∈ es) {chain : List String}
    (hchain : material.certificateChain = some chain) :
    MatchingPair lib chain material.signingKeyPem :=
  (hrun.sound hpem hserde hfresh).2 material chain hreturned hchain

end Runs

section Samples

open SampleKey

/-- A process over an empty backend. -/
def emptyProcess : Process := ⟨.empty, ⟨fun _ => none, fun _ => none, false⟩⟩

/-- The backend after an attempt, with or without its key. -/
def provisioned (k : SampleKey) (complete : Bool) (b : Secrets Bool) : Secrets Bool :=
  (b.write (tearing sampleLibraries (sampleManager "a.example.com"))
    ⟨(sampleManager "a.example.com").certKey sampleLibraries, k.json, true, true⟩).write
    (tearing sampleLibraries (sampleManager "a.example.com"))
    ⟨(sampleManager "a.example.com").signingSecretId sampleLibraries, k.keyPem, complete, complete⟩

/-- The certificate that was provisioned. -/
theorem provisioned_certificate (k : SampleKey) (complete : Bool) (b : Secrets Bool) :
    (provisioned k complete b).values ((sampleManager "a.example.com").certKey sampleLibraries) =
      some k.json := by
  cases complete <;> simp [provisioned, Secrets.write, names_ne.symm]

/-- An attempt of a process that has just started. -/
theorem provision_step {k : SampleKey} (hk : k.Known) (complete : Bool) {b : Secrets Bool}
    (hb : OtherCertificate k (b.values ((sampleManager "a.example.com").certKey sampleLibraries))) :
    ∃ m, Process.Step sampleLibraries (sampleManager "a.example.com") ⟨.empty, b⟩ .provision
      ⟨m, provisioned k complete b⟩ := by
  cases complete with
  | true =>
      obtain ⟨r, m, hexec, _⟩ := exec_provision (m := .empty)
        (tearing sampleLibraries (sampleManager "a.example.com")) none hk rfl (by simp) rfl hb
      exact ⟨m, .provisioned (r := r) (reaches_exec (Secrets.answer_allowed fun _ => trivial)
        (by simpa [provisioned] using hexec))⟩
  | false =>
      obtain ⟨r, m, hexec, _⟩ := exec_provision (m := .empty)
        (tearing sampleLibraries (sampleManager "a.example.com"))
        (some ((sampleManager "a.example.com").signingSecretId sampleLibraries)) hk rfl
        (by simpa using names_ne) rfl hb
      exact ⟨m, .provisioned (r := r) (reaches_exec (Secrets.answer_allowed fun _ => trivial)
        (by simpa [provisioned] using hexec))⟩

/-- A call of a process that has just started. -/
theorem material_step {k : SampleKey} (hk : k.Known) {keyPem : String} {b : Secrets Bool}
    (hcert : b.values ((sampleManager "a.example.com").certKey sampleLibraries) = some k.json)
    (hkey : b.values ((sampleManager "a.example.com").signingSecretId sampleLibraries) =
      some keyPem) :
    ∃ m, Process.Step sampleLibraries (sampleManager "a.example.com") ⟨.empty, b⟩
      (.signingMaterial (some ⟨some [base64Standard k.certificate], keyPem⟩)) ⟨m, b⟩ := by
  obtain ⟨m, hexec⟩ := exec_signingMaterial
    (tearing sampleLibraries (sampleManager "a.example.com")) (sampleFiles k) none hk rfl hcert hkey
  exact ⟨m, .returned (reaches_exec (Secrets.answer_allowed (fun _ => trivial)) hexec)⟩

/-- The theorem at a process that was restarted. -/
theorem matching_pair_without_torn_reads_sample :
    ∃ es s,
      Process.Run sampleLibraries (sampleManager "a.example.com") NoTornRead emptyProcess es s ∧
      .signingMaterial (some ⟨some [base64Standard firstKey.certificate], firstKey.keyPem⟩) ∈ es ∧
      MatchingPair sampleLibraries [base64Standard firstKey.certificate] firstKey.keyPem := by
  have hk : firstKey.Known := .inl rfl
  have hfresh : emptyProcess.Fresh sampleLibraries (sampleManager "a.example.com") :=
    ⟨rfl, rfl, nofun⟩
  have hstart : Process.Run sampleLibraries (sampleManager "a.example.com") NoTornRead
      emptyProcess [] emptyProcess := .nil
  obtain ⟨m, hprovision⟩ := provision_step hk true (b := emptyProcess.backend) (.inl rfl)
  have hkey : (provisioned firstKey true emptyProcess.backend).values
      ((sampleManager "a.example.com").signingSecretId sampleLibraries) = some firstKey.keyPem := by
    simp [provisioned, Secrets.write]
  have hwhole : (provisioned firstKey true emptyProcess.backend).account = false := by
    simp [provisioned, Secrets.write, tearing, names_ne]
  obtain ⟨m', hmaterial⟩ := material_step hk (provisioned_certificate _ _ _) hkey
  have hrun := ((hstart.snoc (e := .provision) trivial hprovision).snoc (e := .restart) trivial
    .restart).snoc (e := .signingMaterial _) (fun _ => hwhole) hmaterial
  have hlast := List.mem_append_right ([] ++ [Occurrence.provision] ++ [Occurrence.restart])
    (List.mem_singleton.mpr (rfl : Occurrence.signingMaterial
      (some ⟨some [base64Standard firstKey.certificate], firstKey.keyPem⟩) = _))
  exact ⟨_, _, hrun, hlast, matching_pair_without_torn_reads sampleLibraries_pemIteration
    sampleLibraries_serdeRoundTrip hfresh hrun hlast rfl⟩

/-- The second certificate is not for the first key. -/
theorem not_matchingPair_second :
    ¬MatchingPair sampleLibraries [base64Standard secondKey.certificate] firstKey.keyPem := by
  rintro ⟨der, rest, x509, tail, hchain, hparse, hkey⟩
  have hfirst : firstKey.Known := .inl rfl
  have htext : base64Chars secondKey.certificate = base64Chars der :=
    String.ofList_injective (List.cons.inj hchain).1
  simp only [sampleLibraries] at hparse
  split at hparse
  · rename_i k hk
    obtain ⟨_, hx509⟩ := Prod.mk.inj (Except.ok.inj hparse)
    rw [hfirst.publicKeyOf_eq, ← hx509] at hkey
    have hpublic := Option.some.inj hkey
    rw [eq_of_find hk] at htext
    obtain rfl | rfl := known_of_find hk
    · exact absurd htext (by decide +kernel)
    · exact absurd hpublic (by decide +kernel)
  · cases hparse

/-- A certificate whose key did not get stored is returned with the old key: the
first pair is provisioned, the rotation to the second one stops at a failed
signing-key write, and the process restarts. -/
theorem torn_pair_returned :
    sampleLibraries.PemIteration ∧ sampleLibraries.SerdeRoundTrip ∧
    emptyProcess.Fresh sampleLibraries (sampleManager "a.example.com") ∧
    ∃ es s,
      Process.Run sampleLibraries (sampleManager "a.example.com") (fun _ _ => True) emptyProcess
        es s ∧
      .signingMaterial (some ⟨some [base64Standard secondKey.certificate], firstKey.keyPem⟩) ∈ es ∧
      ¬MatchingPair sampleLibraries [base64Standard secondKey.certificate] firstKey.keyPem := by
  refine ⟨sampleLibraries_pemIteration, sampleLibraries_serdeRoundTrip, ⟨rfl, rfl, nofun⟩, ?_⟩
  have hstart : Process.Run sampleLibraries (sampleManager "a.example.com") (fun _ _ => True)
      emptyProcess [] emptyProcess := .nil
  obtain ⟨m₁, hfirst⟩ := provision_step (.inl rfl) true (b := emptyProcess.backend) (.inl rfl)
  obtain ⟨m₂, hsecond⟩ := provision_step (.inr rfl) false
    (b := provisioned firstKey true emptyProcess.backend)
    (.inr ⟨firstKey, .inl rfl, certificatePem_ne.symm, provisioned_certificate _ _ _⟩)
  have hkey : (provisioned secondKey false (provisioned firstKey true emptyProcess.backend)).values
      ((sampleManager "a.example.com").signingSecretId sampleLibraries) = some firstKey.keyPem := by
    simp [provisioned, Secrets.write, names_ne]
  obtain ⟨m₃, hmaterial⟩ :=
    material_step (.inr rfl) (provisioned_certificate secondKey false _) hkey
  have hrun := ((((hstart.snoc (e := .provision) trivial hfirst).snoc (e := .restart) trivial
    .restart).snoc (e := .provision) trivial hsecond).snoc (e := .restart) trivial
    .restart).snoc (e := .signingMaterial _) trivial hmaterial
  exact ⟨_, _, hrun, List.mem_append_right _ (List.mem_singleton.mpr rfl), not_matchingPair_second⟩

end Samples

end StatusListServer
