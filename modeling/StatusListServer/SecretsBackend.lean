import StatusListServer.CertManager

/-!
# A secrets backend behind a certificate manager

The world of one or more certificate managers: the values of the secrets backend
and the signing requests the ACME server has received.  A backend that may fail
can fail any operation, and a failed write may or may not have taken effect; one
that answers is honest, and `store` may keep a value that is already there.  An
account of every write is kept on the side for statements about whole runs.

The rules below say once what each storage procedure of the manager does to its
memory and to the backend.
-/

namespace StatusListServer

open BitStream Interaction

/-- A write of the backend: whether it was answered with success, and whether it
took effect. -/
structure Write where
  key : String
  value : String
  answered : Bool
  applied : Bool
deriving DecidableEq, Repr

/-- The stored values, the signing requests received for each order, and an
account of the writes. -/
structure Secrets (γ : Type) where
  values : String → Option String
  requests : String → Option (List Byte)
  account : γ

/-- How an account is kept: from the values before a write, the write, and the
account so far. -/
abbrev Bookkeeping (γ : Type) := (String → Option String) → Write → γ → γ

section Secrets

variable {γ : Type} (note : Bookkeeping γ)

/-- The backend after a write. -/
def Secrets.write (b : Secrets γ) (x : Write) : Secrets γ :=
  { b with
    values := if x.applied then Function.update b.values x.key (some x.value) else b.values
    account := note b.values x b.account }

/-- The operations that leave the backend and the ACME server's requests alone,
and may answer anything. -/
def CertOp.quiet : CertOp → Bool
  | .store _ _ | .load _ | .update _ _ | .delete _ | .finalizeCsr _ _ | .pollCertificate _ => false
  | _ => true

variable (lib : Libraries) (mayFail : Prop)

/-- What the world can answer.  The ACME server issues a certificate for the
public key of the signing request it got for the order. -/
inductive Secrets.Env : (op : CertOp) → Secrets γ → op.Answer → Secrets γ → Prop
  | load {key : String} {b : Secrets γ} : Env (.load key) b (.ok (b.values key)) b
  | loadFailed {key : String} {b : Secrets γ} (e : StorageError) (hfail : mayFail) :
      Env (.load key) b (.error e) b
  | store {key value : String} {b : Secrets γ} (applied : Bool)
      (hstore : applied = true ∨ b.values key ≠ none) :
      Env (.store key value) b (.ok ()) (b.write note ⟨key, value, true, applied⟩)
  | storeFailed {key value : String} {b : Secrets γ} (e : StorageError) (applied : Bool)
      (hfail : mayFail) :
      Env (.store key value) b (.error e) (b.write note ⟨key, value, false, applied⟩)
  | update {key value : String} {b : Secrets γ} :
      Env (.update key value) b (.ok ()) (b.write note ⟨key, value, true, true⟩)
  | updateFailed {key value : String} {b : Secrets γ} (e : StorageError) (applied : Bool)
      (hfail : mayFail) :
      Env (.update key value) b (.error e) (b.write note ⟨key, value, false, applied⟩)
  | delete {key : String} {b : Secrets γ} :
      Env (.delete key) b (.ok ()) { b with values := Function.update b.values key none }
  | deleteFailed {key : String} {b : Secrets γ} (e : StorageError) (values : String → Option String)
      (hfail : mayFail) (hvalues : values = b.values ∨ values = Function.update b.values key none) :
      Env (.delete key) b (.error e) { b with values := values }
  | finalizeCsr {order : Order} {csr : List Byte} {b : Secrets γ} :
      Env (.finalizeCsr order csr) b (.ok ())
        { b with requests := Function.update b.requests order.url (some csr) }
  | finalizeCsrFailed {order : Order} {csr : List Byte} {b : Secrets γ} (e : String) :
      Env (.finalizeCsr order csr) b (.error e) b
  | pollCertificate {order : Order} {b : Secrets γ} {chain : String} {csr : List Byte}
      (hrequest : b.requests order.url = some csr)
      (hissued : leafKey lib chain = lib.requestKey csr) :
      Env (.pollCertificate order) b (.ok chain) b
  | pollCertificateFailed {order : Order} {b : Secrets γ} (e : String) :
      Env (.pollCertificate order) b (.error e) b
  | quiet {op : CertOp} (hquiet : op.quiet = true) {b : Secrets γ} (r : op.Answer) : Env op b r b

end Secrets

/-! ## What a manager holds -/

/-- Write a cache that may be disabled. -/
def CertMemory.insertIn (m : CertMemory) (cache : Option MaterialCache) (key value : String) :
    CertMemory :=
  match cache with
  | none => m
  | some cache => m.insert cache key value

/-- A value a manager may come by when it loads a key: the cached one, or the
stored one. -/
def Held (values : String → Option String) (m : CertMemory) (cache : Option MaterialCache)
    (key value : String) : Prop :=
  (∃ c, cache = some c ∧ m.lookup c key = some value) ∨ values key = some value

/-- Only the material caches have changed, by entries that are stored. -/
structure Refreshed (values : String → Option String) (m m' : CertMemory) : Prop where
  active : m'.active = m.active
  chain : m'.certChainCache = m.certChainCache
  entries : ∀ c key value, m'.lookup c key = some value →
    m.lookup c key = some value ∨ values key = some value

/-- Nothing may be cached anew. -/
theorem Refreshed.refl (values : String → Option String) (m : CertMemory) :
    Refreshed values m m := ⟨rfl, rfl, fun _ _ _ h => .inl h⟩

/-- Memories that are refreshed twice. -/
theorem Refreshed.trans {values : String → Option String} {m m' m'' : CertMemory}
    (h : Refreshed values m m') (h' : Refreshed values m' m'') : Refreshed values m m'' where
  active := h'.active.trans h.active
  chain := h'.chain.trans h.chain
  entries c key value hentry := by
    obtain hold | hstored := h'.entries c key value hentry
    · exact h.entries c key value hold
    · exact .inr hstored

/-- A refreshed memory holds no values that were not held before. -/
theorem Refreshed.held {values : String → Option String} {m m' : CertMemory}
    (h : Refreshed values m m') {cache : Option MaterialCache} {key value : String}
    (hheld : Held values m' cache key value) : Held values m cache key value := by
  obtain ⟨c, hc, hlookup⟩ | hstored := hheld
  · obtain hold | hstored := h.entries c key value hlookup
    · exact .inl ⟨c, hc, hold⟩
    · exact .inr hstored
  · exact .inr hstored

/-- A lookup after an insertion finds the new entry, or was there before. -/
theorem CertMemory.lookup_insert {m : CertMemory} {c c' : MaterialCache}
    {key key' value value' : String}
    (h : (m.insert c key value).lookup c' key' = some value') :
    (c' = c ∧ key' = key ∧ value' = value) ∨ (c' ≠ c ∧ m.lookup c' key' = some value') := by
  cases c <;> cases c' <;> simp only [insert, lookup, cached] at h ⊢
  · split at h <;> simp_all
  · simpa using h
  · simpa using h
  · split at h <;> simp_all

/-- What is put into a cache is found there. -/
@[simp] theorem CertMemory.lookup_insert_self (m : CertMemory) (c : MaterialCache)
    (key value : String) : (m.insert c key value).lookup c key = some value := by
  cases c <;> simp [insert, lookup]

/-- An insertion leaves the other cache alone. -/
theorem CertMemory.lookup_insert_of_ne {m : CertMemory} {c c' : MaterialCache} {key value : String}
    (hne : c' ≠ c) : (m.insert c key value).lookup c' = m.lookup c' := by
  cases c with
  | certificate =>
      cases c' with
      | certificate => exact absurd rfl hne
      | signingKey => rfl
  | signingKey =>
      cases c' with
      | certificate => rfl
      | signingKey => exact absurd rfl hne

/-- The caches are not the active material. -/
@[simp] theorem CertMemory.insert_active (m : CertMemory) (c : MaterialCache)
    (key value : String) : (m.insert c key value).active = m.active := by
  cases c <;> rfl

/-- The caches are not the cached chain. -/
@[simp] theorem CertMemory.insert_chain (m : CertMemory) (c : MaterialCache)
    (key value : String) : (m.insert c key value).certChainCache = m.certChainCache := by
  cases c <;> rfl

/-- The same where the cache may be disabled. -/
@[simp] theorem CertMemory.insertIn_active (m : CertMemory) (cache : Option MaterialCache)
    (key value : String) : (m.insertIn cache key value).active = m.active := by
  cases cache <;> simp [insertIn]

/-- The same for the chain. -/
@[simp] theorem CertMemory.insertIn_chain (m : CertMemory) (cache : Option MaterialCache)
    (key value : String) :
    (m.insertIn cache key value).certChainCache = m.certChainCache := by
  cases cache <;> simp [insertIn]

/-- An insertion under another name is not found. -/
theorem CertMemory.lookup_insertIn_of_ne {m : CertMemory} {cache : Option MaterialCache}
    {c : MaterialCache} {key key' value value' : String} (hne : key' ≠ key)
    (h : (m.insertIn cache key value).lookup c key' = some value') :
    m.lookup c key' = some value' := by
  cases cache with
  | none => exact h
  | some cache =>
      obtain ⟨_, hname, _⟩ | ⟨_, hold⟩ := lookup_insert h
      · exact absurd hname hne
      · exact hold

/-- A stored value may be cached. -/
theorem Refreshed.insert {values : String → Option String} {m : CertMemory} {c : MaterialCache}
    {key value : String} (h : values key = some value) :
    Refreshed values m (m.insert c key value) where
  active := by simp
  chain := by simp
  entries c' key' value' hentry := by
    obtain ⟨_, rfl, rfl⟩ | ⟨_, hold⟩ := CertMemory.lookup_insert hentry
    · exact .inr h
    · exact .inl hold

/-- The memory without its cached signing key. -/
theorem Refreshed.dropKey (values : String → Option String) (m : CertMemory) :
    Refreshed values m { m with signingKeyCache := none } where
  active := rfl
  chain := rfl
  entries c key value hentry := by
    cases c with
    | certificate => exact .inl hentry
    | signingKey => simp [CertMemory.lookup] at hentry

/-! ## Rules for the storage procedures -/

section Conversions

open Proc

variable {σ ε ε' α : Type} {env : Answers CertOp CertOp.Answer σ} {safe : σ → Prop}
  {m : CertMemory} {w : σ}

/-- The `?` operator on a result. -/
theorem sure_orFail {f : ε → ε'} {r : Except ε α} {Q : α → CertMemory → σ → Prop}
    {E : ε' → CertMemory → σ → Prop} (hok : ∀ a, r = .ok a → Q a m w)
    (herr : ∀ e, r = .error e → E (f e) m w) : Sure env safe Q E (orFail f r) m w := by
  cases r with
  | ok a => exact hok a rfl
  | error e => exact herr e rfl

/-- The `?` operator on a storage call. -/
theorem sure_storage {x : StorageM α} {Q : α → CertMemory → σ → Prop}
    {E : CertError → CertMemory → σ → Prop}
    (h : Sure env safe Q (fun e m w => E (.storage e) m w) x m w) :
    Sure env safe Q E (storage x) m w := by
  refine sure_bind (sure_attempt (h.mono ?_ ?_))
  · exact fun a m w hQ => sure_pure hQ
  · exact fun e m w hE => sure_throw hE

end Conversions

section Rules

open Proc

variable {γ : Type} {note : Bookkeeping γ} {lib : Libraries} {mayFail : Prop}
  {safe : Secrets γ → Prop} {m : CertMemory} {b : Secrets γ} {ε : Type}

/-- An operation that leaves the world alone. -/
theorem sure_quiet {op : CertOp} (hquiet : op.quiet = true) (hsafe : safe b)
    {Q : op.Answer → CertMemory → Secrets γ → Prop} {E : ε → CertMemory → Secrets γ → Prop}
    (h : ∀ r, Q r m b) :
    Sure (Secrets.Env note lib mayFail) safe Q E (ask op : Proc _ _ _ ε _) m b := by
  refine sure_ask fun r b' henv => ?_
  cases henv <;> first | exact ⟨hsafe, h _⟩ | cases hquiet

/-- A load answers with the stored value or fails. -/
theorem sure_askLoad {key : String} (hsafe : safe b)
    {Q : Except StorageError (Option String) → CertMemory → Secrets γ → Prop}
    {E : ε → CertMemory → Secrets γ → Prop} (hok : Q (.ok (b.values key)) m b)
    (herr : ∀ e, mayFail → Q (.error e) m b) :
    Sure (Secrets.Env note lib mayFail) safe Q E (ask (CertOp.load key) : Proc _ _ _ ε _) m b := by
  refine sure_ask fun r b' henv => ?_
  cases henv with
  | load => exact ⟨hsafe, hok⟩
  | loadFailed e hfail => exact ⟨hsafe, herr e hfail⟩
  | quiet hquiet => cases hquiet

/-- What a load through a cache may return. -/
def LoadedFrom (values : String → Option String) (m : CertMemory) (cache : Option MaterialCache)
    (key : String) (r : Option String) (m' : CertMemory) : Prop :=
  Refreshed values m m' ∧
    match r with
    | some value => Held values m cache key value
    | none => values key = none ∧ ∀ c, cache = some c → m'.lookup c key = none

/-- A cache answers with what it holds, or with nothing. -/
theorem sure_cacheGet {cache : MaterialCache} {key : String} (hsafe : safe b)
    {Q : Option String → CertMemory → Secrets γ → Prop}
    {E : StorageError → CertMemory → Secrets γ → Prop}
    (hhit : ∀ value, m.lookup cache key = some value → Q (some value) m b)
    (hmiss : ∀ m', Refreshed b.values m m' → m'.lookup cache key = none →
      (cache = .certificate → m' = m) → (∀ c, c ≠ cache → m'.lookup c = m.lookup c) → Q none m' b) :
    Sure (Secrets.Env note lib mayFail) safe Q E (cacheGet cache key) m b := by
  refine sure_bind (sure_get ?_)
  cases hlookup : m.lookup cache key with
  | none => exact sure_pure (hmiss m (.refl _ _) hlookup (fun _ => rfl) fun _ _ => rfl)
  | some value =>
      cases cache with
      | certificate => exact sure_pure (hhit value hlookup)
      | signingKey =>
          refine sure_bind (sure_quiet rfl hsafe fun expired => ?_)
          cases expired with
          | false => exact sure_pure (hhit value hlookup)
          | true =>
              refine sure_bind (sure_modify (sure_pure (hmiss _ (.dropKey _ _) rfl ?_ ?_)))
              · exact fun hcache => by cases hcache
              · intro c hc
                cases c with
                | certificate => rfl
                | signingKey => exact absurd rfl hc

/-- What a load through a cache leaves in the caches: the certificate cache answers
before the backend, the loaded value is cached, and other caches are left alone. -/
structure Pinned (values : String → Option String) (m : CertMemory) (cache : Option MaterialCache)
    (key : String) (r : Option String) (m' : CertMemory) : Prop where
  certificate : cache = some .certificate → r = (m.lookup .certificate key).or (values key)
  cached : ∀ value c, r = some value → cache = some c → m'.lookup c key = some value
  others : ∀ c, cache ≠ some c → m'.lookup c = m.lookup c

/-- A load of a secret whose value is known. -/
theorem sure_loadWithCache_pinned {cache : Option MaterialCache} {key : String} (hsafe : safe b)
    {Q : Option String → CertMemory → Secrets γ → Prop}
    {E : StorageError → CertMemory → Secrets γ → Prop}
    (hok : ∀ r m', LoadedFrom b.values m cache key r m' → Pinned b.values m cache key r m' →
      Q r m' b)
    (herr : ∀ e m', mayFail → Refreshed b.values m m' → E e m' b) :
    Sure (Secrets.Env note lib mayFail) safe Q E (loadWithCache key cache) m b := by
  cases cache with
  | none =>
      refine sure_bind (sure_askLoad hsafe (sure_pure ?_) (fun e hf => sure_throw ?_))
      · refine hok _ _ ⟨.refl _ _, ?_⟩ ⟨by simp, by simp, fun _ _ => rfl⟩
        cases hvalue : b.values key with
        | none => exact ⟨rfl, fun c hc => by cases hc⟩
        | some value => exact .inr hvalue
      · exact herr e m hf (.refl _ _)
  | some cache =>
      refine sure_bind (sure_cacheGet hsafe ?_ ?_)
      · intro value hhit
        refine sure_pure (hok _ _ ⟨.refl _ _, .inl ⟨cache, rfl, hhit⟩⟩ ⟨?_, ?_, fun _ _ => rfl⟩)
        · intro hcache
          rw [← Option.some.inj hcache, hhit, Option.some_or]
        · intro value' c hvalue' hc
          rw [← Option.some.inj hc, hhit, hvalue']
      · intro m' hrefreshed hmiss hcertificate hothers
        have hempty : some cache = some .certificate → m.lookup .certificate key = none := by
          intro hcache
          cases hcache
          rw [← hcertificate rfl]
          exact hmiss
        refine sure_bind (sure_askLoad hsafe ?_ ?_)
        · refine sure_bind (sure_pure ?_)
          cases hvalue : b.values key with
          | none =>
              refine sure_pure (hok _ _ ⟨hrefreshed, hvalue, ?_⟩ ⟨?_, by simp, ?_⟩)
              · intro c hc
                cases hc
                exact hmiss
              · intro hcache
                rw [hempty hcache, hvalue, Option.none_or]
              · exact fun c hc => hothers c fun heq => hc (congrArg some heq.symm)
          | some value =>
              refine sure_bind (sure_modify (sure_pure (hok _ _ ⟨?_, .inr hvalue⟩ ⟨?_, ?_, ?_⟩)))
              · exact hrefreshed.trans (.insert hvalue)
              · intro hcache
                rw [hempty hcache, hvalue, Option.none_or]
              · intro value' c hvalue' hc
                cases hc
                cases hvalue'
                exact CertMemory.lookup_insert_self _ _ _ _
              · intro c hc
                have hne : c ≠ cache := fun heq => hc (congrArg some heq.symm)
                rw [← hothers c hne, CertMemory.lookup_insert_of_ne hne]
        · exact fun e hf => sure_bind (sure_throw (herr e m' hf hrefreshed))

/-- A load of any secret. -/
theorem sure_loadWithCache {cache : Option MaterialCache} {key : String} (hsafe : safe b)
    {Q : Option String → CertMemory → Secrets γ → Prop}
    {E : StorageError → CertMemory → Secrets γ → Prop}
    (hok : ∀ r m', LoadedFrom b.values m cache key r m' → Q r m' b)
    (herr : ∀ e m', mayFail → Refreshed b.values m m' → E e m' b) :
    Sure (Secrets.Env note lib mayFail) safe Q E (loadWithCache key cache) m b :=
  sure_loadWithCache_pinned hsafe (fun r m' hloaded _ => hok r m' hloaded) herr

/-- A store takes effect unless it fails or finds a value. -/
theorem sure_storeMaterial {cache : Option MaterialCache} {key value : String}
    (hsafe : ∀ answered applied, (answered = true → applied = true ∨ b.values key ≠ none) →
      safe (b.write note ⟨key, value, answered, applied⟩))
    {Q : Unit → CertMemory → Secrets γ → Prop} {E : StorageError → CertMemory → Secrets γ → Prop}
    (hok : ∀ applied, (applied = true ∨ b.values key ≠ none) →
      Q () (m.insertIn cache key value) (b.write note ⟨key, value, true, applied⟩))
    (herr : ∀ e applied, mayFail → E e m (b.write note ⟨key, value, false, applied⟩)) :
    Sure (Secrets.Env note lib mayFail) safe Q E (storeMaterial cache key value) m b := by
  refine sure_bind (sure_ask fun r b' henv => ?_)
  cases henv with
  | store applied hstore =>
      refine ⟨hsafe _ _ fun _ => hstore, sure_bind (sure_pure ?_)⟩
      cases cache with
      | none => exact sure_pure (hok applied hstore)
      | some cache => exact sure_modify (hok applied hstore)
  | storeFailed e applied hfail =>
      exact ⟨hsafe _ _ nofun, sure_bind (sure_throw (herr e applied hfail))⟩
  | quiet hquiet => cases hquiet

/-- An update takes effect unless it fails. -/
theorem sure_updateMaterial {cache : Option MaterialCache} {key value : String}
    (hsafe : ∀ answered applied, (answered = true → applied = true) →
      safe (b.write note ⟨key, value, answered, applied⟩))
    {Q : Unit → CertMemory → Secrets γ → Prop} {E : StorageError → CertMemory → Secrets γ → Prop}
    (hok : Q () (m.insertIn cache key value) (b.write note ⟨key, value, true, true⟩))
    (herr : ∀ e applied, mayFail → E e m (b.write note ⟨key, value, false, applied⟩)) :
    Sure (Secrets.Env note lib mayFail) safe Q E (updateMaterial cache key value) m b := by
  refine sure_bind (sure_ask fun r b' henv => ?_)
  cases henv with
  | update =>
      refine ⟨hsafe _ _ fun h => h, sure_bind (sure_pure ?_)⟩
      cases cache with
      | none => exact sure_pure hok
      | some cache => exact sure_modify hok
  | updateFailed e applied hfail =>
      exact ⟨hsafe _ _ nofun, sure_bind (sure_throw (herr e applied hfail))⟩
  | quiet hquiet => cases hquiet

end Rules

end StatusListServer
