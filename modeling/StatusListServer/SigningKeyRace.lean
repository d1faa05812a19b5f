import StatusListServer.SharedBackend

/-!
# Replicas that create their signing key

Any number of replicas of one certificate manager, each calling `signing_key_pem`
as often as it likes, over one storage that holds no signing key at first.  A
replica that finds none generates one, stores it and returns it; a storage that
overwrites and a storage that skips an existing secret both answer the store with
success.

An automaton per replica says where it stands between its load and the end of its
store, and which keys it has returned or cached.  As long as no replica finds the
storage without a key while another one is about to store one, all keys are the
stored one.
-/

namespace StatusListServer

open Interaction Proc

/-- How a storage answers a store of a secret that exists: Vault writes a new
version, AWS Secrets Manager skips it. -/
inductive StorePolicy
  | overwrites
  | skipsExisting
deriving DecidableEq, Repr

/-- What a policy asks of a store that is answered. -/
def StorePolicy.Allows (policy : StorePolicy) (before after : String → Option String) :
    (op : CertOp) → op.Answer → Prop
  | .store key value, r =>
      match policy with
      | .overwrites => r = .ok () → after key = some value
      | .skipsExisting => before key ≠ none → after key = before key
  | _, _ => True

/-- The secrets of the storage, and what the client of each replica caches of
them. -/
structure SharedStorage (ι : Type) where
  secrets : Secrets Unit
  cache : ι → String → Option String

/-- A load may be answered from the replica's client; every other call goes to the
secrets, and the client may then cache what is stored. -/
inductive SharedStorage.Env {ι : Type} (lib : Libraries) (policy : StorePolicy) :
    Interaction.Env ι CertOp CertOp.Answer (SharedStorage ι)
  | hit {i : ι} {key value : String} {w : SharedStorage ι} (hcached : w.cache i key = some value) :
      Env lib policy i (.load key) w (.ok (some value)) w
  | call {i : ι} {op : CertOp} {w : SharedStorage ι} {r : op.Answer} {b : Secrets Unit}
      {cache : ι → String → Option String}
      (henv : Secrets.Env noAccount lib True op w.secrets r b)
      (hpolicy : policy.Allows w.secrets.values b.values op r)
      (hcache : ∀ j key value, cache j key = some value →
        w.cache j key = some value ∨ b.values key = some value) :
      Env lib policy i op w r ⟨b, cache⟩

/-- A replica that calls `signing_key_pem` a number of times, one call after the
other: the provisioning lock of a manager is held around each. -/
def CertManager.signingKeyCalls (lib : Libraries) (manager : CertManager) :
    Nat → CertMemory → Prog CertOp CertOp.Answer (List (Except CertError String))
  | 0, _ => .ret []
  | calls + 1, m =>
      (manager.signingKeyPem lib).start m >>= fun r =>
        manager.signingKeyCalls lib calls r.2 >>= fun results => .ret (r.1 :: results)

/-! ## The automaton of a replica -/

/-- Where a replica stands in a call. -/
inductive KeyPhase
  | idle
  | generating
  | storing (keyPem : String)
deriving DecidableEq, Repr

/-- A replica: where it stands, and the keys it has found or stored. -/
structure Replica where
  phase : KeyPhase
  known : List String

/-- The calls a replica makes, with what it learns from the answers. -/
inductive Replica.Move (secretId : String) : Replica → (op : CertOp) → op.Answer → Replica → Prop
  | expiry {known : List String} {expired : Bool} :
      Move secretId ⟨.idle, known⟩ .signingKeyExpired expired ⟨.idle, known⟩
  | found {known : List String} {keyPem : String} :
      Move secretId ⟨.idle, known⟩ (.load secretId) (.ok (some keyPem)) ⟨.idle, keyPem :: known⟩
  | missing {known : List String} :
      Move secretId ⟨.idle, known⟩ (.load secretId) (.ok none) ⟨.generating, known⟩
  | loadFailed {known : List String} {e : StorageError} :
      Move secretId ⟨.idle, known⟩ (.load secretId) (.error e) ⟨.idle, known⟩
  | seed {known : List String} {r : Except String (List BitStream.Byte)} (phase : KeyPhase) :
      Move secretId ⟨.generating, known⟩ .fillSeed r ⟨phase, known⟩
  | stored {known : List String} {keyPem : String} :
      Move secretId ⟨.storing keyPem, known⟩ (.store secretId keyPem) (.ok ())
        ⟨.idle, keyPem :: known⟩
  | storeFailed {known : List String} {keyPem : String} {e : StorageError} (phase : KeyPhase)
      (hphase : phase = .storing keyPem ∨ phase = .idle) :
      Move secretId ⟨.storing keyPem, known⟩ (.store secretId keyPem) (.error e) ⟨phase, known⟩

/-- The replica is between two calls, and knows the key it caches. -/
structure Replica.Ready (secretId : String) (s : Replica) (m : CertMemory) : Prop where
  idle : s.phase = .idle
  cached : ∀ keyPem, m.lookup .signingKey secretId = some keyPem → keyPem ∈ s.known

section Automaton

variable {lib : Libraries} {manager : CertManager} {secretId : String} {known : List String}
  {m : CertMemory} {ε ε' α : Type}

/-- The `?` operator on a storage call. -/
theorem follows_storage {x : StorageM α} {s : Replica} {Q : Replica → α → CertMemory → Prop}
    {E : Replica → CertError → CertMemory → Prop}
    (h : Follows (Replica.Move secretId) Q (fun s e m => E s (.storage e) m) x s m) :
    Follows (Replica.Move secretId) Q E (storage x) s m := by
  apply follows_bind
  apply follows_attempt
  apply h.mono
  · exact fun s a m hQ => follows_pure hQ
  · exact fun s e m hE => follows_throw hE

/-- A load from the backend finds a key, or starts the generation of one. -/
theorem follows_askLoad {Q : Replica → Except StorageError (Option String) → CertMemory → Prop}
    {E : Replica → ε → CertMemory → Prop}
    (hfound : ∀ keyPem, Q ⟨.idle, keyPem :: known⟩ (.ok (some keyPem)) m)
    (hmissing : Q ⟨.generating, known⟩ (.ok none) m)
    (hfailed : ∀ e, Q ⟨.idle, known⟩ (.error e) m) :
    Follows (Replica.Move secretId) Q E (ask (CertOp.load secretId) : Proc _ _ _ ε _)
      ⟨.idle, known⟩ m := by
  apply follows_ask
  intro r
  match r with
  | .ok (some keyPem) => exact ⟨_, .found, hfound keyPem⟩
  | .ok none => exact ⟨_, .missing, hmissing⟩
  | .error e => exact ⟨_, .loadFailed, hfailed e⟩

/-- Reading the cache, which holds a known key if any. -/
theorem follows_cacheGet {Q : Replica → Option String → CertMemory → Prop}
    {E : Replica → StorageError → CertMemory → Prop}
    (hready : Replica.Ready secretId ⟨.idle, known⟩ m)
    (hhit : ∀ keyPem ∈ known, Q ⟨.idle, known⟩ (some keyPem) m)
    (hmiss : ∀ m', Replica.Ready secretId ⟨.idle, known⟩ m' → Q ⟨.idle, known⟩ none m') :
    Follows (Replica.Move secretId) Q E (cacheGet .signingKey secretId) ⟨.idle, known⟩ m := by
  apply follows_bind
  apply follows_get
  cases hlookup : m.lookup .signingKey secretId with
  | none => exact follows_pure (hmiss m hready)
  | some keyPem =>
      have hknown : keyPem ∈ known := hready.cached keyPem hlookup
      apply follows_bind
      apply follows_ask
      intro expired
      refine ⟨_, .expiry, ?_⟩
      cases expired with
      | false => exact follows_pure (hhit keyPem hknown)
      | true =>
          apply follows_bind
          apply follows_modify
          apply follows_pure
          apply hmiss
          constructor
          · rfl
          · intro keyPem' hlookup'
            simp [CertMemory.lookup] at hlookup'

/-- What a replica knows after it has looked for its key. -/
theorem follows_loadSigningKey {Q : Replica → Option String → CertMemory → Prop}
    {E : Replica → StorageError → CertMemory → Prop}
    (hready : Replica.Ready secretId ⟨.idle, known⟩ m)
    (hfound : ∀ s m' keyPem, Replica.Ready secretId s m' → known ⊆ s.known → keyPem ∈ s.known →
      Q s (some keyPem) m')
    (hmissing : ∀ m', Replica.Ready secretId ⟨.idle, known⟩ m' →
      Q ⟨.generating, known⟩ none m')
    (hfailed : ∀ e m', Replica.Ready secretId ⟨.idle, known⟩ m' → E ⟨.idle, known⟩ e m') :
    Follows (Replica.Move secretId) Q E (manager.loadSigningKey secretId) ⟨.idle, known⟩ m := by
  have hgrown : ∀ (keyPem : String) (m' : CertMemory),
      Replica.Ready secretId ⟨.idle, known⟩ m' →
      Replica.Ready secretId ⟨.idle, keyPem :: known⟩ m' := by
    intro keyPem m' h
    exact ⟨rfl, fun keyPem' hlookup => List.mem_cons_of_mem _ (h.cached keyPem' hlookup)⟩
  unfold CertManager.loadSigningKey CertManager.signingKeyCache
  split
  · apply follows_bind
    apply follows_askLoad
    · intro keyPem
      exact follows_pure (hfound _ _ _ (hgrown keyPem m hready) (List.subset_cons_self _ _)
        List.mem_cons_self)
    · exact follows_pure (hmissing m hready)
    · exact fun e => follows_throw (hfailed e m hready)
  · apply follows_bind
    apply follows_cacheGet hready
    · intro keyPem hknown
      exact follows_pure (hfound _ _ _ hready (List.Subset.refl _) hknown)
    · intro m' hready'
      apply follows_bind
      apply follows_askLoad
      · intro keyPem
        apply follows_bind
        apply follows_pure
        apply follows_bind
        apply follows_modify
        apply follows_pure
        apply hfound
        · constructor
          · rfl
          · intro keyPem' hlookup
            rw [CertMemory.lookup_insert_self] at hlookup
            cases hlookup
            exact List.mem_cons_self
        · exact List.subset_cons_self _ _
        · exact List.mem_cons_self
      · apply follows_bind
        apply follows_pure
        exact follows_pure (hmissing m' hready')
      · intro e
        apply follows_bind
        exact follows_throw (hfailed e m' hready')

/-- Drawing the seed. -/
theorem follows_fillSeed {Q : Replica → List BitStream.Byte → CertMemory → Prop}
    {E : Replica → CertError → CertMemory → Prop}
    (hok : ∀ seed, ∃ phase, Q ⟨phase, known⟩ seed m) (herr : ∀ e, E ⟨.idle, known⟩ e m)
    (attempts : Nat) :
    Follows (Replica.Move secretId) Q E (CertManager.fillSeed attempts) ⟨.generating, known⟩ m := by
  induction attempts with
  | zero =>
      apply follows_bind
      apply follows_ask
      intro r
      cases r with
      | error e => exact ⟨_, .seed .idle, follows_throw (herr _)⟩
      | ok seed =>
          obtain ⟨phase, hseed⟩ := hok seed
          exact ⟨_, .seed phase, follows_pure hseed⟩
  | succ attempts ih =>
      apply follows_bind
      apply follows_ask
      intro r
      cases r with
      | error e => exact ⟨_, .seed .generating, ih⟩
      | ok seed =>
          obtain ⟨phase, hseed⟩ := hok seed
          exact ⟨_, .seed phase, follows_pure hseed⟩

/-- A generated key is the one the replica goes on to store. -/
theorem follows_generateKey {Q : Replica → String → CertMemory → Prop}
    {E : Replica → CertError → CertMemory → Prop}
    (hok : ∀ keyPem, Q ⟨.storing keyPem, known⟩ keyPem m) (herr : ∀ e, E ⟨.idle, known⟩ e m) :
    Follows (Replica.Move secretId) Q E (CertManager.generateKey lib) ⟨.generating, known⟩ m := by
  apply follows_bind
  apply follows_fillSeed
  · intro seed
    cases hkey : lib.fromSlice seed with
    | error e => exact ⟨.idle, follows_bind (follows_throw (herr _))⟩
    | ok key =>
        cases hpem : lib.toPkcs8Pem key with
        | error e =>
            refine ⟨.idle, follows_bind (follows_pure ?_)⟩
            rw [hpem]
            exact follows_throw (herr _)
        | ok keyPem =>
            refine ⟨.storing keyPem, follows_bind (follows_pure ?_)⟩
            rw [hpem]
            exact follows_pure (hok keyPem)
  · exact herr

/-- The store of a generated key. -/
theorem follows_storeSigningKey {keyPem : String} {Q : Replica → Unit → CertMemory → Prop}
    {E : Replica → StorageError → CertMemory → Prop} (phase : KeyPhase)
    (hphase : phase = .storing keyPem ∨ phase = .idle)
    (hready : Replica.Ready secretId ⟨.idle, known⟩ m)
    (hok : ∀ m', Replica.Ready secretId ⟨.idle, keyPem :: known⟩ m' →
      Q ⟨.idle, keyPem :: known⟩ () m')
    (herr : ∀ e, E ⟨phase, known⟩ e m) :
    Follows (Replica.Move secretId) Q E (manager.storeSigningKey secretId keyPem)
      ⟨.storing keyPem, known⟩ m := by
  apply follows_bind
  apply follows_ask
  intro r
  cases r with
  | error e => exact ⟨_, .storeFailed phase hphase, follows_bind (follows_throw (herr e))⟩
  | ok _ =>
      refine ⟨_, .stored, follows_bind (follows_pure ?_)⟩
      unfold CertManager.signingKeyCache
      by_cases httl : manager.signingKeyTtl = 0
      · rw [if_pos httl]
        apply follows_pure
        apply hok
        exact ⟨rfl, fun keyPem' hlookup => List.mem_cons_of_mem _ (hready.cached keyPem' hlookup)⟩
      · rw [if_neg httl]
        apply follows_modify
        apply hok
        constructor
        · rfl
        · intro keyPem' hlookup
          rw [CertMemory.lookup_insert_self] at hlookup
          cases hlookup
          exact List.mem_cons_self

/-- The store of a new key, by induction on the retries. -/
theorem follows_storeNewKey {keyPem : String} {Q : Replica → String → CertMemory → Prop}
    {E : Replica → CertError → CertMemory → Prop}
    (hready : Replica.Ready secretId ⟨.idle, known⟩ m)
    (hok : ∀ m', Replica.Ready secretId ⟨.idle, keyPem :: known⟩ m' →
      Q ⟨.idle, keyPem :: known⟩ keyPem m')
    (herr : ∀ e, E ⟨.idle, known⟩ e m) (retries : Nat) :
    Follows (Replica.Move secretId) Q E (manager.storeNewKey secretId keyPem retries)
      ⟨.storing keyPem, known⟩ m := by
  induction retries with
  | zero =>
      apply follows_bind
      apply follows_storage
      apply follows_storeSigningKey .idle (.inr rfl) hready
      · exact fun m' hready' => follows_pure (hok m' hready')
      · exact fun e => herr _
  | succ retries ih =>
      apply follows_bind
      apply follows_attempt
      apply follows_storeSigningKey (.storing keyPem) (.inl rfl) hready
      · exact fun m' hready' => follows_pure (hok m' hready')
      · exact fun e => ih

/-- What a replica knows after a call of `signing_key_pem`: the key it returned, and
everything it knew before. -/
theorem follows_signingKeyPem (hname : manager.signingSecretId lib = secretId)
    (hready : Replica.Ready secretId ⟨.idle, known⟩ m) :
    Follows (Replica.Move secretId)
      (fun s keyPem m' => Replica.Ready secretId s m' ∧ known ⊆ s.known ∧ keyPem ∈ s.known)
      (fun s _ m' => Replica.Ready secretId s m' ∧ known ⊆ s.known)
      (manager.signingKeyPem lib) ⟨.idle, known⟩ m := by
  subst hname
  apply follows_bind
  apply follows_storage
  apply follows_loadSigningKey hready
  · intro s m' keyPem hready' hsubset hknown
    exact follows_pure ⟨hready', hsubset, hknown⟩
  · intro m' hready'
    apply follows_bind
    apply follows_generateKey
    · intro keyPem
      apply follows_storeNewKey hready'
      · intro m'' hready''
        exact ⟨hready'', List.subset_cons_self _ _, List.mem_cons_self⟩
      · intro e
        exact ⟨hready', List.Subset.refl _⟩
    · intro e
      exact ⟨hready', List.Subset.refl _⟩
  · intro e m' hready'
    exact ⟨hready', List.Subset.refl _⟩

/-- What a replica has when its calls have ended. -/
def Replica.Finished (known : List String) (s : Replica)
    (results : List (Except CertError String)) : Prop :=
  s.phase = .idle ∧ known ⊆ s.known ∧ ∀ keyPem, .ok keyPem ∈ results → keyPem ∈ s.known

/-- All the calls of a replica, by induction on those that are left. -/
theorem follows_signingKeyCalls (hname : manager.signingSecretId lib = secretId) (calls : Nat) :
    ∀ {known : List String} {m : CertMemory}, Replica.Ready secretId ⟨.idle, known⟩ m →
      (manager.signingKeyCalls lib calls m).Follows (Replica.Move secretId)
        (Replica.Finished known) ⟨.idle, known⟩ := by
  induction calls with
  | zero =>
      intro known m _
      exact ⟨rfl, List.Subset.refl _, by simp⟩
  | succ calls ih =>
      intro known m hready
      refine Prog.Follows.bind ?_ (follows_signingKeyPem hname hready)
      rintro s ⟨r, m'⟩ hcall
      have hend : Replica.Ready secretId s m' ∧ known ⊆ s.known ∧
          ∀ keyPem, r = .ok keyPem → keyPem ∈ s.known := by
        cases r with
        | error e => exact ⟨hcall.1, hcall.2, by simp⟩
        | ok keyPem =>
            refine ⟨hcall.1, hcall.2.1, fun keyPem' heq => ?_⟩
            cases heq
            exact hcall.2.2
      obtain ⟨hready', hsubset, hknown⟩ := hend
      obtain ⟨phase, known'⟩ := s
      obtain rfl : phase = .idle := hready'.idle
      refine Prog.Follows.bind ?_ (ih hready')
      rintro s' results ⟨hidle, hsubset', hresults⟩
      refine ⟨hidle, List.Subset.trans hsubset hsubset', fun keyPem hmem => ?_⟩
      obtain hnow | hlater := List.mem_cons.mp hmem
      · exact hsubset' (hknown keyPem hnow.symm)
      · exact hresults keyPem hlater

end Automaton

/-! ## Runs of the replicas -/

section Runs

variable {ι : Type}

/-- The replica is about to draw or to store a new key. -/
def creatingKey : Prog CertOp CertOp.Answer (List (Except CertError String)) → Bool
  | .call .fillSeed _ => true
  | .call (.store _ _) _ => true
  | _ => false

/-- No replica looks into a storage without a key while another one is about to
store one. -/
def LoadsAlone (secretId : String)
    (c : Pool ι CertOp CertOp.Answer (List (Except CertError String)) (SharedStorage ι))
    (e : Event ι CertOp CertOp.Answer) : Prop :=
  e.op = .load secretId → c.world.secrets.values secretId = none →
    ∀ j, j ≠ e.tid → creatingKey (c.threads j) = false

/-- The known and the cached keys are the stored one, and at most one replica is
creating a key. -/
structure OneSigningKey (secretId : String) (w : SharedStorage ι) (replicas : ι → Replica) :
    Prop where
  known : ∀ i, ∀ keyPem ∈ (replicas i).known, w.secrets.values secretId = some keyPem
  cached : ∀ i keyPem, w.cache i secretId = some keyPem →
    w.secrets.values secretId = some keyPem
  generating : ∀ i, (replicas i).phase = .generating → w.secrets.values secretId = none
  storing : ∀ i keyPem, (replicas i).phase = .storing keyPem →
    w.secrets.values secretId = none ∨ w.secrets.values secretId = some keyPem
  alone : ∀ i j, (replicas i).phase ≠ .idle → (replicas j).phase ≠ .idle → i = j

variable {lib : Libraries} {policy : StorePolicy} {secretId : String}

/-- Every operation can be answered. -/
theorem CertOp.nonempty_answer (op : CertOp) : Nonempty op.Answer := by
  cases op with
  | nowUnixTimestamp => exact ⟨(0 : Int)⟩
  | signingKeyExpired => exact ⟨false⟩
  | store | load | update | delete => exact ⟨.error (.backend "")⟩
  | handleAuthorization | createTxtRecord | cleanUp => exact ⟨.error (.other "")⟩
  | _ => exact ⟨.error ""⟩

/-- A replica that is not idle is about to draw or to store a key. -/
theorem creatingKey_of_follows {known : List String} {s : Replica}
    {p : Prog CertOp CertOp.Answer (List (Except CertError String))}
    (h : p.Follows (Replica.Move secretId) (Replica.Finished known) s) (hphase : s.phase ≠ .idle) :
    creatingKey p = true := by
  cases p with
  | ret results => exact absurd h.1 hphase
  | call op k =>
      obtain ⟨r⟩ := op.nonempty_answer
      obtain ⟨s', hmove, _⟩ := h r
      cases hmove with
      | expiry | found | missing | loadFailed => exact absurd rfl hphase
      | seed | stored | storeFailed => rfl

/-- A client caches what it cached before, or what is stored. -/
theorem SharedStorage.Env.cached {w w' : SharedStorage ι} {i : ι} {op : CertOp} {r : op.Answer}
    (henv : SharedStorage.Env lib policy i op w r w') {j : ι} {key value : String}
    (hcache : w'.cache j key = some value) :
    w.cache j key = some value ∨ w'.secrets.values key = some value := by
  cases henv with
  | hit => exact .inl hcache
  | call _ _ hafter => exact hafter j key value hcache

/-- A load changes no secret, and answers with a cached or the stored value. -/
theorem SharedStorage.Env.load {w w' : SharedStorage ι} {i : ι} {key : String}
    {r : Except StorageError (Option String)}
    (henv : SharedStorage.Env lib policy i (.load key) w r w') :
    w'.secrets = w.secrets ∧
      ((∃ value, r = .ok (some value) ∧ w.cache i key = some value) ∨
        r = .ok (w.secrets.values key) ∨ ∃ e, r = .error e) := by
  cases henv with
  | hit hcached => exact ⟨rfl, .inl ⟨_, rfl, hcached⟩⟩
  | call hcall _ _ =>
      cases hcall with
      | load => exact ⟨rfl, .inr (.inl rfl)⟩
      | loadFailed e _ => exact ⟨rfl, .inr (.inr ⟨e, rfl⟩)⟩
      | quiet hquiet => cases hquiet

/-- A store leaves the old value or the new one, and one that is answered leaves
some value. -/
theorem SharedStorage.Env.store {w w' : SharedStorage ι} {i : ι} {key value : String}
    {r : Except StorageError Unit}
    (henv : SharedStorage.Env lib policy i (.store key value) w r w') :
    (w'.secrets.values key = w.secrets.values key ∨ w'.secrets.values key = some value) ∧
      (r = .ok () → w'.secrets.values key ≠ none) := by
  cases henv with
  | call hcall _ _ =>
      cases hcall with
      | store applied hstore =>
          cases applied with
          | true => simp [Secrets.write]
          | false => simpa [Secrets.write] using hstore
      | storeFailed e applied _ =>
          cases applied with
          | true => simp [Secrets.write]
          | false => simp [Secrets.write]
      | quiet hquiet => cases hquiet

/-- The random number generator and the cache's clock are not the storage's. -/
theorem SharedStorage.Env.local {w w' : SharedStorage ι} {i : ι} {op : CertOp} {r : op.Answer}
    (henv : SharedStorage.Env lib policy i op w r w') (hquiet : op.quiet = true) :
    w'.secrets = w.secrets := by
  cases henv with
  | hit => rfl
  | call hcall _ _ => cases hcall <;> first | rfl | cases hquiet

section Step

variable {w w' : SharedStorage ι} {replicas : ι → Replica} {i : ι} {s : Replica}

/-- The others are idle while a replica creates a key. -/
theorem OneSigningKey.others_idle (h : OneSigningKey secretId w replicas)
    (hphase : (replicas i).phase ≠ .idle) : ∀ j, j ≠ i → (replicas j).phase = .idle := by
  intro j hj
  by_contra hbusy
  exact hj (h.alone j i hbusy hphase)

variable [DecidableEq ι]

/-- One replica moves on while the others stand still. -/
theorem OneSigningKey.update (h : OneSigningKey secretId w replicas)
    (hkept : ∀ keyPem, w.secrets.values secretId = some keyPem →
      w'.secrets.values secretId = some keyPem)
    (hcached : ∀ j keyPem, w'.cache j secretId = some keyPem →
      w.cache j secretId = some keyPem ∨ w'.secrets.values secretId = some keyPem)
    (hothers : w'.secrets.values secretId = w.secrets.values secretId ∨
      ∀ j, j ≠ i → (replicas j).phase = .idle)
    (hknown : ∀ keyPem ∈ s.known, w'.secrets.values secretId = some keyPem)
    (hgenerating : s.phase = .generating → w'.secrets.values secretId = none)
    (hstoring : ∀ keyPem, s.phase = .storing keyPem →
      w'.secrets.values secretId = none ∨ w'.secrets.values secretId = some keyPem)
    (halone : s.phase ≠ .idle → ∀ j, j ≠ i → (replicas j).phase = .idle) :
    OneSigningKey secretId w' (Function.update replicas i s) where
  known j keyPem hmem := by
    by_cases hj : j = i
    · subst hj
      rw [Function.update_self] at hmem
      exact hknown keyPem hmem
    · rw [Function.update_of_ne hj] at hmem
      exact hkept keyPem (h.known j keyPem hmem)
  cached j keyPem hcache := by
    obtain hold | hnew := hcached j keyPem hcache
    · exact hkept keyPem (h.cached j keyPem hold)
    · exact hnew
  generating j hphase := by
    by_cases hj : j = i
    · subst hj
      rw [Function.update_self] at hphase
      exact hgenerating hphase
    · rw [Function.update_of_ne hj] at hphase
      obtain hsame | hidle := hothers
      · rw [hsame]
        exact h.generating j hphase
      · rw [hidle j hj] at hphase
        cases hphase
  storing j keyPem hphase := by
    by_cases hj : j = i
    · subst hj
      rw [Function.update_self] at hphase
      exact hstoring keyPem hphase
    · rw [Function.update_of_ne hj] at hphase
      obtain hsame | hidle := hothers
      · rw [hsame]
        exact h.storing j keyPem hphase
      · rw [hidle j hj] at hphase
        cases hphase
  alone j k hj hk := by
    by_cases hji : j = i
    · by_cases hki : k = i
      · exact hji.trans hki.symm
      · subst hji
        rw [Function.update_self] at hj
        rw [Function.update_of_ne hki] at hk
        exact absurd (halone hj k hki) hk
    · rw [Function.update_of_ne hji] at hj
      by_cases hki : k = i
      · subst hki
        rw [Function.update_self] at hk
        exact absurd (halone hk j hji) hj
      · rw [Function.update_of_ne hki] at hk
        exact h.alone j k hj hk

/-- A replica moves on without a change of the secrets. -/
theorem OneSigningKey.unchanged (h : OneSigningKey secretId w replicas)
    (hsame : w'.secrets = w.secrets)
    (hcached : ∀ j keyPem, w'.cache j secretId = some keyPem →
      w.cache j secretId = some keyPem ∨ w'.secrets.values secretId = some keyPem)
    (hknown : ∀ keyPem ∈ s.known, w.secrets.values secretId = some keyPem)
    (hmissing : s.phase ≠ .idle → w.secrets.values secretId = none)
    (halone : s.phase ≠ .idle → ∀ j, j ≠ i → (replicas j).phase = .idle) :
    OneSigningKey secretId w' (Function.update replicas i s) := by
  rw [← hsame] at hknown hmissing
  apply h.update
  · intro keyPem hstored
    rwa [hsame]
  · exact hcached
  · exact .inl (by rw [hsame])
  · exact hknown
  · exact fun hphase => hmissing (by simp [hphase])
  · exact fun keyPem hphase => .inl (hmissing (by simp [hphase]))
  · exact halone

/-- A replica that was storing a key has tried to store it. -/
theorem OneSigningKey.written {known : List String} {keyPem : String}
    {r : Except StorageError Unit} (h : OneSigningKey secretId w replicas)
    (hreplica : replicas i = ⟨.storing keyPem, known⟩)
    (henv : SharedStorage.Env lib policy i (.store secretId keyPem) w r w')
    (hphase : s.phase = .storing keyPem ∨ s.phase = .idle)
    (hknown : ∀ keyPem' ∈ s.known, keyPem' ∈ known ∨ (r = .ok () ∧ keyPem' = keyPem)) :
    OneSigningKey secretId w' (Function.update replicas i s) := by
  obtain ⟨hvalue, hpresent⟩ := henv.store
  have hbefore := h.storing i keyPem (by rw [hreplica])
  have hidle := h.others_idle (i := i) (by rw [hreplica]; simp)
  have hkept : ∀ keyPem', w.secrets.values secretId = some keyPem' →
      w'.secrets.values secretId = some keyPem' := by
    grind
  have hafter : w'.secrets.values secretId = none ∨ w'.secrets.values secretId = some keyPem := by
    grind
  apply h.update hkept
  · exact fun j keyPem' => henv.cached
  · exact .inr hidle
  · intro keyPem' hmem
    obtain hold | ⟨hok, rfl⟩ := hknown keyPem' hmem
    · exact hkept keyPem' (h.known i keyPem' (by rwa [hreplica]))
    · exact hafter.resolve_left (hpresent hok)
  · intro hgenerating
    rw [hgenerating] at hphase
    simp at hphase
  · intro keyPem' hstoring
    rw [hstoring] at hphase
    obtain hsame | hidle := hphase
    · cases hsame
      exact hafter
    · cases hidle
  · exact fun _ => hidle

/-- One call of a replica that looks for its key alone keeps the invariant. -/
theorem OneSigningKey.step {op : CertOp} {r : op.Answer} (h : OneSigningKey secretId w replicas)
    (halone : op = .load secretId → w.secrets.values secretId = none →
      ∀ j, j ≠ i → (replicas j).phase = .idle)
    (hmove : Replica.Move secretId (replicas i) op r s)
    (henv : SharedStorage.Env lib policy i op w r w') :
    OneSigningKey secretId w' (Function.update replicas i s) := by
  have hcached : ∀ j keyPem, w'.cache j secretId = some keyPem →
      w.cache j secretId = some keyPem ∨ w'.secrets.values secretId = some keyPem :=
    fun j keyPem => henv.cached
  have hbefore := h.known i
  generalize hreplica : replicas i = before at hmove hbefore
  cases hmove with
  | expiry =>
      apply h.unchanged (henv.local rfl) hcached hbefore
      · exact fun hphase => absurd rfl hphase
      · exact fun hphase => absurd rfl hphase
  | @found known keyPem =>
      obtain ⟨hsame, hanswer⟩ := henv.load
      have hstored : w.secrets.values secretId = some keyPem := by
        obtain ⟨value, hvalue, hhit⟩ | hvalue | ⟨e, hvalue⟩ := hanswer
        · cases hvalue
          exact h.cached i keyPem hhit
        · exact (Except.ok.inj hvalue).symm
        · cases hvalue
      apply h.unchanged hsame hcached
      · intro keyPem' hmem
        obtain rfl | hold := List.mem_cons.mp hmem
        · exact hstored
        · exact hbefore keyPem' hold
      · exact fun hphase => absurd rfl hphase
      · exact fun hphase => absurd rfl hphase
  | missing =>
      obtain ⟨hsame, hanswer⟩ := henv.load
      have hmissing : w.secrets.values secretId = none := by
        obtain ⟨value, hvalue, _⟩ | hvalue | ⟨e, hvalue⟩ := hanswer
        · cases hvalue
        · exact (Except.ok.inj hvalue).symm
        · cases hvalue
      apply h.unchanged hsame hcached
      · exact hbefore
      · exact fun _ => hmissing
      · exact fun _ => halone rfl hmissing
  | loadFailed =>
      apply h.unchanged henv.load.1 hcached hbefore
      · exact fun hphase => absurd rfl hphase
      · exact fun hphase => absurd rfl hphase
  | seed phase =>
      apply h.unchanged (henv.local rfl) hcached
      · exact hbefore
      · exact fun _ => h.generating i (by rw [hreplica])
      · exact fun _ => h.others_idle (by rw [hreplica]; simp)
  | @stored known keyPem =>
      apply h.written hreplica henv (.inr rfl)
      intro keyPem' hmem
      obtain rfl | hold := List.mem_cons.mp hmem
      · exact .inr ⟨rfl, rfl⟩
      · exact .inl hold
  | storeFailed phase hphase =>
      apply h.written hreplica henv hphase
      exact fun keyPem' hmem => .inl hmem

end Step

variable [DecidableEq ι]

/-- **Replicas agree on the signing key when none looks for it while another one
creates it.**  For any number of replicas with the same domains that start without
a signing key, and any interleaving of their calls of `signing_key_pem`, if no
replica loads from a storage without a key while another one is about to draw or
store one, every key returned by a replica that has made its calls is the stored
one. -/
theorem replicas_agree_on_signing_key {managers : ι → CertManager} {domains : List String}
    (hdomains : ∀ i, (managers i).domains = domains) {calls : ι → Nat}
    {c₀ c : Pool ι CertOp CertOp.Answer (List (Except CertError String)) (SharedStorage ι)}
    (hthreads : ∀ i, c₀.threads i = (managers i).signingKeyCalls lib (calls i) .empty)
    (hcached : ∀ i keyPem, c₀.world.cache i (signingSecretId lib domains) = some keyPem →
      c₀.world.secrets.values (signingSecretId lib domains) = some keyPem)
    {t : List (Event ι CertOp CertOp.Answer)}
    (hrun : RunWhere (SharedStorage.Env lib policy) (LoadsAlone (signingSecretId lib domains)) c₀ t
      c)
    {i : ι} {results : List (Except CertError String)} (hended : c.threads i = .ret results)
    {keyPem : String} (hreturned : .ok keyPem ∈ results) :
    c.world.secrets.values (signingSecretId lib domains) = some keyPem := by
  have hname : ∀ i, (managers i).signingSecretId lib = signingSecretId lib domains := by
    intro i
    rw [CertManager.signingSecretId, hdomains]
  have hfollows : ∀ i, (c₀.threads i).Follows (Replica.Move (signingSecretId lib domains))
      (Replica.Finished []) ⟨.idle, []⟩ := by
    intro i
    rw [hthreads]
    exact follows_signingKeyCalls (hname i) (calls i) ⟨rfl, nofun⟩
  have hinit : OneSigningKey (signingSecretId lib domains) c₀.world fun _ => ⟨.idle, []⟩ := by
    constructor
    · simp
    · exact hcached
    · simp
    · simp
    · simp
  obtain ⟨replicas, hinv, hall⟩ := hrun.followed hfollows hinit (by
    intro c replicas i op r w' s hfollow hmay hinv hmove henv
    apply hinv.step _ hmove henv
    intro hop hnone j hj
    by_contra hbusy
    have hcreating := creatingKey_of_follows (hfollow j) hbusy
    rw [hmay hop hnone j hj] at hcreating
    cases hcreating)
  have hend := hall i
  rw [hended] at hend
  exact hinv.known i keyPem (hend.2.2 keyPem hreturned)

end Runs

section Samples

open SampleKey

/-- A value for each of two replicas. -/
def pairOf {α : Type} (a b : α) : Bool → α
  | false => a
  | true => b

/-- The first of two is replaced. -/
@[simp] theorem update_pairOf_false {α : Type} (a b x : α) :
    Function.update (pairOf a b) false x = pairOf x b := by
  funext i
  cases i <;> simp [pairOf]

/-- The second of two is replaced. -/
@[simp] theorem update_pairOf_true {α : Type} (a b x : α) :
    Function.update (pairOf a b) true x = pairOf a x := by
  funext i
  cases i <;> simp [pairOf]

/-- The name of the signing key of two sample replicas. -/
def sampleSecretId : String := signingSecretId sampleLibraries ["a.example.com"]

/-- The call that a sample replica makes. -/
def sampleKeyCall : Prog CertOp CertOp.Answer (List (Except CertError String)) :=
  (sampleManager "a.example.com").signingKeyCalls sampleLibraries 1 .empty

/-- The scalar of a sample key is read back. -/
theorem fromSlice_scalar {k : SampleKey} (hk : k.Known) :
    sampleLibraries.fromSlice k.signingKey.scalar = .ok k.signingKey := by
  have hne : secondKey.signingKey.scalar ≠ firstKey.signingKey.scalar := by
    decide +kernel
  have hfind : SampleKey.find (fun k => k.signingKey.scalar) k.signingKey.scalar = some k :=
    hk.find_eq hne
  simp only [sampleLibraries]
  rw [hfind]

/-- The calls of a sample replica, up to what it returns. -/
theorem sampleKeyCall_eq : ∃ afterLoad, sampleKeyCall = .call (.load sampleSecretId) afterLoad ∧
    (∀ keyPem, afterLoad (.ok (some keyPem)) = .ret [.ok keyPem]) ∧
    ∃ afterSeed, afterLoad (.ok none) = .call .fillSeed afterSeed ∧
      ∀ k : SampleKey, k.Known → ∃ afterStore,
        afterSeed (.ok k.signingKey.scalar) = .call (.store sampleSecretId k.keyPem) afterStore ∧
        afterStore (.ok ()) = .ret [.ok k.keyPem] := by
  refine ⟨_, rfl, fun _ => rfl, _, rfl, fun k hk => ?_⟩
  have hkey := fromSlice_scalar hk
  have hpem := hk.toPkcs8Pem_eq
  change ∃ afterStore, ((orFail (fun e => .keyOp (.parsing e))
    (sampleLibraries.fromSlice k.signingKey.scalar) >>= fun key =>
      orFail (fun e => .keyOp (.parsing e)) (sampleLibraries.toPkcs8Pem key)) >>= fun keyPem =>
        (sampleManager "a.example.com").storeNewKey sampleSecretId keyPem 2 : CertM String).start
      .empty >>= (fun r => Prog.ret [r.1]) = _ ∧ _
  rw [hkey]
  change ∃ afterStore, (orFail (fun e => .keyOp (.parsing e))
    (sampleLibraries.toPkcs8Pem k.signingKey) >>= fun keyPem =>
      (sampleManager "a.example.com").storeNewKey sampleSecretId keyPem 2 : CertM String).start
      .empty >>= (fun r => Prog.ret [r.1]) = _ ∧ _
  rw [hpem]
  exact ⟨_, rfl, rfl⟩

/-- A storage whose clients cache nothing. -/
def uncached (b : Secrets Unit) : SharedStorage Bool := ⟨b, fun _ _ => none⟩

/-- A storage without secrets. -/
def noSecrets : Secrets Unit := ⟨fun _ => none, fun _ => none, ()⟩

/-- A storage that has been asked to store a key. -/
def StorePolicy.storeKey (policy : StorePolicy) (b : Secrets Unit) (keyPem : String) :
    Secrets Unit :=
  b.write noAccount ⟨sampleSecretId, keyPem, true,
    match policy with
    | .overwrites => true
    | .skipsExisting => (b.values sampleSecretId).isNone⟩

variable {policy : StorePolicy} {b : Secrets Unit} {i : Bool}

/-- A load of what is stored. -/
theorem load_allowed {value : Option String} (hvalue : b.values sampleSecretId = value) :
    SharedStorage.Env sampleLibraries policy i (.load sampleSecretId) (uncached b) (.ok value)
      (uncached b) := by
  subst hvalue
  exact .call .load trivial (fun _ _ _ h => .inl h)

/-- Any seed may be drawn. -/
theorem fillSeed_allowed (seed : List BitStream.Byte) :
    SharedStorage.Env sampleLibraries policy i .fillSeed (uncached b) (.ok seed) (uncached b) :=
  .call (.quiet rfl _) trivial (fun _ _ _ h => .inl h)

/-- A store by the policy. -/
theorem store_allowed (keyPem : String) :
    SharedStorage.Env sampleLibraries policy i (.store sampleSecretId keyPem) (uncached b) (.ok ())
      (uncached (policy.storeKey b keyPem)) := by
  have hvalue : (b.values sampleSecretId).isNone = true ∨ b.values sampleSecretId ≠ none := by
    cases b.values sampleSecretId <;> simp
  apply SharedStorage.Env.call
  · apply Secrets.Env.store
    cases policy with
    | overwrites => exact .inl rfl
    | skipsExisting => exact hvalue
  · cases policy with
    | overwrites => simp [StorePolicy.Allows, StorePolicy.storeKey, Secrets.write]
    | skipsExisting =>
        intro hpresent
        have hskip : (b.values sampleSecretId).isNone = false := by
          rw [Option.isNone_eq_false_iff, Option.isSome_iff_ne_none]
          exact hpresent
        simp [StorePolicy.storeKey, Secrets.write, uncached, hskip]
  · exact fun _ _ _ h => .inl h

variable {p p' q : Prog CertOp CertOp.Answer (List (Except CertError String))} {op : CertOp}
  {r : op.Answer} {k : op.Answer → Prog CertOp CertOp.Answer (List (Except CertError String))}
  {w w' : SharedStorage Bool}

/-- A step of the first replica. -/
theorem first_step (hp : p = .call op k) (hp' : k r = p')
    (henv : SharedStorage.Env sampleLibraries policy false op w r w') :
    Step (SharedStorage.Env sampleLibraries policy) ⟨w, pairOf p q⟩ ⟨false, op, r⟩
      ⟨w', pairOf p' q⟩ := by
  have hstep : Step (SharedStorage.Env sampleLibraries policy) ⟨w, pairOf p q⟩ ⟨false, op, r⟩
      ⟨w', Function.update (pairOf p q) false (k r)⟩ := .call hp henv
  rwa [update_pairOf_false, hp'] at hstep

/-- A step of the second replica. -/
theorem second_step (hq : q = .call op k) (hp' : k r = p')
    (henv : SharedStorage.Env sampleLibraries policy true op w r w') :
    Step (SharedStorage.Env sampleLibraries policy) ⟨w, pairOf p q⟩ ⟨true, op, r⟩
      ⟨w', pairOf p p'⟩ := by
  have hstep : Step (SharedStorage.Env sampleLibraries policy) ⟨w, pairOf p q⟩ ⟨true, op, r⟩
      ⟨w', Function.update (pairOf p q) true (k r)⟩ := .call hq henv
  rwa [update_pairOf_true, hp'] at hstep

/-- The theorem where the second replica starts after the first has stored its key. -/
theorem replicas_agree_on_signing_key_sample :
    ∃ t c, RunWhere (SharedStorage.Env sampleLibraries .skipsExisting) (LoadsAlone sampleSecretId)
        ⟨uncached noSecrets, pairOf sampleKeyCall sampleKeyCall⟩ t c ∧
      (∀ i, c.threads i = .ret [.ok firstKey.keyPem]) ∧
      c.world.secrets.values sampleSecretId = some firstKey.keyPem := by
  obtain ⟨afterLoad, hcall, hfound, afterSeed, hmissing, hseed⟩ := sampleKeyCall_eq
  obtain ⟨afterStore, hstore, hstored⟩ := hseed firstKey (.inl rfl)
  have hvalue : (StorePolicy.skipsExisting.storeKey noSecrets firstKey.keyPem).values
      sampleSecretId = some firstKey.keyPem := by
    simp [StorePolicy.storeKey, Secrets.write, noSecrets]
  have hidle : creatingKey sampleKeyCall = false := by
    rw [hcall]
    rfl
  obtain ⟨t, hrun⟩ : ∃ t, RunWhere (SharedStorage.Env sampleLibraries .skipsExisting)
      (LoadsAlone sampleSecretId) ⟨uncached noSecrets, pairOf sampleKeyCall sampleKeyCall⟩ t
      ⟨uncached (StorePolicy.skipsExisting.storeKey noSecrets firstKey.keyPem),
        pairOf (.ret [.ok firstKey.keyPem]) (.ret [.ok firstKey.keyPem])⟩ := by
    refine ⟨_, RunWhere.snoc (RunWhere.snoc (RunWhere.snoc (RunWhere.snoc .nil ?_
      (first_step hcall hmissing (load_allowed rfl))) ?_
      (first_step rfl hstore (fillSeed_allowed _))) ?_
      (first_step rfl hstored (store_allowed _))) ?_
      (second_step hcall (hfound _) (load_allowed hvalue))⟩
    · intro _ _ j hj
      cases j with
      | false => exact absurd rfl hj
      | true => exact hidle
    · exact fun hop => by cases hop
    · exact fun hop => by cases hop
    · intro _ hnone
      have hsome : some firstKey.keyPem = none := hvalue.symm.trans hnone
      cases hsome
  have hdomains : ∀ _ : Bool, (sampleManager "a.example.com").domains = ["a.example.com"] :=
    fun _ => rfl
  have hthreads : ∀ i, pairOf sampleKeyCall sampleKeyCall i =
      (sampleManager "a.example.com").signingKeyCalls sampleLibraries 1 .empty := by
    intro i
    cases i <;> rfl
  refine ⟨t, _, hrun, ?_, ?_⟩
  · intro i
    cases i <;> rfl
  · exact replicas_agree_on_signing_key hdomains hthreads (fun _ _ h => by cases h) hrun
      (i := true) rfl List.mem_cons_self

/-- Two replicas that both find no key store one each. -/
theorem racing_run (policy : StorePolicy) :
    ∃ t, Run (SharedStorage.Env sampleLibraries policy)
      ⟨uncached noSecrets, pairOf sampleKeyCall sampleKeyCall⟩ t
      ⟨uncached (policy.storeKey (policy.storeKey noSecrets firstKey.keyPem) secondKey.keyPem),
        pairOf (.ret [.ok firstKey.keyPem]) (.ret [.ok secondKey.keyPem])⟩ := by
  obtain ⟨afterLoad, hcall, _, afterSeed, hmissing, hseed⟩ := sampleKeyCall_eq
  obtain ⟨afterFirst, hfirst, hstored⟩ := hseed firstKey (.inl rfl)
  obtain ⟨afterSecond, hsecond, hstored'⟩ := hseed secondKey (.inr rfl)
  exact ⟨_, Run.snoc (Run.snoc (Run.snoc (Run.snoc (Run.snoc (Run.snoc .nil
    (first_step hcall hmissing (load_allowed rfl)))
    (second_step hcall hmissing (load_allowed rfl)))
    (first_step rfl hfirst (fillSeed_allowed _)))
    (second_step rfl hsecond (fillSeed_allowed _)))
    (first_step rfl hstored (store_allowed _)))
    (second_step rfl hstored' (store_allowed _))⟩

/-- Both replicas of a race are answered with success, and one of them returns a
key that is not stored: the first one where a store overwrites, the second one
where it skips an existing secret. -/
theorem racing_replicas_disagree :
    (∃ t c, Run (SharedStorage.Env sampleLibraries .overwrites)
        ⟨uncached noSecrets, pairOf sampleKeyCall sampleKeyCall⟩ t c ∧
      c.threads false = .ret [.ok firstKey.keyPem] ∧
      c.threads true = .ret [.ok secondKey.keyPem] ∧
      c.world.secrets.values sampleSecretId = some secondKey.keyPem) ∧
    (∃ t c, Run (SharedStorage.Env sampleLibraries .skipsExisting)
        ⟨uncached noSecrets, pairOf sampleKeyCall sampleKeyCall⟩ t c ∧
      c.threads false = .ret [.ok firstKey.keyPem] ∧
      c.threads true = .ret [.ok secondKey.keyPem] ∧
      c.world.secrets.values sampleSecretId = some firstKey.keyPem) ∧
    secondKey.keyPem ≠ firstKey.keyPem := by
  refine ⟨?_, ?_, keyPem_ne⟩
  · obtain ⟨t, hrun⟩ := racing_run .overwrites
    refine ⟨t, _, hrun, rfl, rfl, ?_⟩
    simp [uncached, StorePolicy.storeKey, Secrets.write]
  · obtain ⟨t, hrun⟩ := racing_run .skipsExisting
    refine ⟨t, _, hrun, rfl, rfl, ?_⟩
    simp [uncached, StorePolicy.storeKey, Secrets.write, noSecrets]

end Samples

end StatusListServer
