import StatusListServer.CertMaterial
import StatusListServer.ProgramLogic

/-!
# The certificate manager

The operations of `utils/cert_manager.rs` with its two provisioning strategies,
written over the secrets backend, the file system, the clock, the random number
generator and the ACME server: each call of one of them is one operation of a
program, in the order of the source.  What a manager keeps in memory (the caches
of `CryptoStorage`, the parsed chain, the active material, the ACME account) is
the private memory of its procedures; an error keeps what they have cached.

A manager is one the builder has built: it has at least one domain, its secrets
backend is set, and with the ACME strategy so is its challenge handler.  The
provisioning lock lets one call at a time past the check for active material, so
a procedure runs without another one of the same manager in between.
-/

namespace StatusListServer

open BitStream Interaction

/-- Where certificate or key material is loaded from. -/
inductive MaterialSource
  | filesystem (path : String)
  | storage (key : String)
deriving DecidableEq, Repr

/-- The implementations of the challenge handler: DNS-01, and any other one. -/
inductive ChallengeHandler
  | dns01
  | other
deriving DecidableEq, Repr

/-- The provisioning strategies. -/
inductive ProvisioningStrategy
  | acme (handler : ChallengeHandler) (directoryUrl : String)
  | store (certificateSource signingKeySource : MaterialSource)
deriving DecidableEq, Repr

/-- The configuration of a certificate manager. -/
structure CertManager where
  domains : List String
  email : String
  organization : Option String
  eku : Option (List Nat)
  strategy : ProvisioningStrategy
  /-- The cache policy for private keys; zero disables the cache. -/
  signingKeyTtl : Nat
  domains_ne : domains ≠ []

/-- A loaded ACME account. -/
structure Account where
  id : String
deriving DecidableEq, Repr

/-- An ACME order with the locations of its authorizations. -/
structure Order where
  url : String
  authorizations : List String
deriving DecidableEq, Repr

/-- The status of an authorization. -/
inductive AuthorizationStatus
  | pending
  | valid
  | invalid
  | revoked
  | expired
  | deactivated
deriving DecidableEq, Repr

/-- The status of an order. -/
inductive OrderStatus
  | pending
  | ready
  | processing
  | valid
  | invalid
deriving DecidableEq, Repr

/-- A fetched authorization; `dnsValue` is the digest of its DNS-01 challenge. -/
structure Authorization where
  status : AuthorizationStatus
  identifier : String
  dnsValue : Option String
deriving DecidableEq, Repr

/-- What is left to clean up after a challenge. -/
inductive CleanupFuture
  | deleteTxtRecord (domain value : String)
  | other (id : Nat)
deriving DecidableEq, Repr

/-- Everything a certificate manager calls. -/
inductive CertOp
  | store (key value : String)
  | load (key : String)
  | update (key value : String)
  | delete (key : String)
  | readFile (path : String)
  | nowUnixTimestamp
  | fillSeed
  | signingKeyExpired
  | accountFromCredentials (credentials : AccountCredentials)
  | createAccount (contact directoryUrl : String)
  | newOrder (account : Account) (identifiers : List String)
  | authorization (url : String)
  | handleAuthorization (authorization : Authorization)
  | createTxtRecord (domain value : String)
  | setReady (identifier : String)
  | cleanUp (cleanup : CleanupFuture)
  | pollReady (order : Order)
  | finalizeCsr (order : Order) (csr : List Byte)
  | pollCertificate (order : Order)

/-- What the world answers. -/
@[reducible] def CertOp.Answer : CertOp → Type
  | .store _ _ => Except StorageError Unit
  | .load _ => Except StorageError (Option String)
  | .update _ _ => Except StorageError Unit
  | .delete _ => Except StorageError Unit
  | .readFile _ => Except String (List Byte)
  | .nowUnixTimestamp => Int
  | .fillSeed => Except String (List Byte)
  | .signingKeyExpired => Bool
  | .accountFromCredentials _ => Except String Account
  | .createAccount _ _ => Except String (Account × AccountCredentials)
  | .newOrder _ _ => Except String Order
  | .authorization _ => Except String Authorization
  | .handleAuthorization _ => Except ChallengeError CleanupFuture
  | .createTxtRecord _ _ => Except ChallengeError Unit
  | .setReady _ => Except String Unit
  | .cleanUp _ => Except ChallengeError Unit
  | .pollReady _ => Except String OrderStatus
  | .finalizeCsr _ _ => Except String Unit
  | .pollCertificate _ => Except String String

/-- The two caches of `CryptoStorage`. -/
inductive MaterialCache
  | certificate
  | signingKey
deriving DecidableEq, Repr

/-- What a manager keeps in memory.  Each cache has room for one entry, and a
manager uses each with one key only. -/
structure CertMemory where
  certificateCache : Option (String × String)
  signingKeyCache : Option (String × String)
  certChainCache : Option (String × List String)
  active : Option SigningMaterial
  acmeClient : Option Account
deriving DecidableEq, Repr

/-- The memory of a process that has just started. -/
def CertMemory.empty : CertMemory := ⟨none, none, none, none, none⟩

/-- The value of a one-entry cache under a key. -/
def cached {α : Type} (key : String) : Option (String × α) → Option α
  | none => none
  | some (k, value) => if k = key then some value else none

/-- An empty cache has nothing. -/
@[simp] theorem cached_none {α : Type} (key : String) :
    cached key (none : Option (String × α)) = none := rfl

/-- A cache has what it holds under its key. -/
@[simp] theorem cached_some {α : Type} (key : String) (value : α) :
    cached key (some (key, value)) = some value := if_pos rfl

/-- Look a secret up in one of the caches. -/
def CertMemory.lookup (m : CertMemory) (cache : MaterialCache) (key : String) : Option String :=
  match cache with
  | .certificate => cached key m.certificateCache
  | .signingKey => cached key m.signingKeyCache

/-- Put a secret into one of the caches. -/
def CertMemory.insert (m : CertMemory) (cache : MaterialCache) (key value : String) : CertMemory :=
  match cache with
  | .certificate => { m with certificateCache := some (key, value) }
  | .signingKey => { m with signingKeyCache := some (key, value) }

/-- Procedures of `CryptoStorage`. -/
abbrev StorageM := Proc CertOp CertOp.Answer CertMemory StorageError

/-- Procedures of `CertManager`. -/
abbrev CertM := Proc CertOp CertOp.Answer CertMemory CertError

/-- The `?` operator on a result, with the conversion of its error. -/
def orFail {ε ε' α : Type} (f : ε → ε') : Except ε α → Proc CertOp CertOp.Answer CertMemory ε' α
  | .ok a => pure a
  | .error e => throw (f e)

/-- The `?` operator on a storage call. -/
def storage {α : Type} (x : StorageM α) : CertM α := do
  orFail .storage (← Proc.attempt x)

/-! ## The storage with its caches -/

/-- Read a cache.  An entry of the key cache may have outlived its time. -/
def cacheGet (cache : MaterialCache) (key : String) : StorageM (Option String) := do
  match (← get).lookup cache key with
  | none => return none
  | some value =>
      match cache with
      | .certificate => return some value
      | .signingKey =>
          if ← Proc.ask .signingKeyExpired then
            modify fun m => { m with signingKeyCache := none }
            return none
          else
            return some value

/-- Load from the backend and remember what was found. -/
def loadThrough (key : String) (cache : MaterialCache) : StorageM (Option String) := do
  match ← orFail id (← Proc.ask (.load key)) with
  | none => return none
  | some value =>
      modify fun m => m.insert cache key value
      return some value

/-- `load_with_cache`, unless the cache is disabled. -/
def loadWithCache (key : String) (cache : Option MaterialCache) : StorageM (Option String) := do
  match cache with
  | none => orFail id (← Proc.ask (.load key))
  | some cache =>
      match ← cacheGet cache key with
      | some value => return some value
      | none => loadThrough key cache

/-- Write to the backend, then to the cache. -/
def writeThrough (answer : Except StorageError Unit) (cache : Option MaterialCache)
    (key value : String) : StorageM Unit := do
  orFail id answer
  match cache with
  | none => return ()
  | some cache => modify fun m => m.insert cache key value

/-- Store a secret, and cache it. -/
def storeMaterial (cache : Option MaterialCache) (key value : String) : StorageM Unit := do
  writeThrough (← Proc.ask (.store key value)) cache key value

/-- Overwrite a secret, and cache it. -/
def updateMaterial (cache : Option MaterialCache) (key value : String) : StorageM Unit := do
  writeThrough (← Proc.ask (.update key value)) cache key value

namespace CertManager

variable (lib : Libraries) (self : CertManager)

/-- The name of the manager's certificate. -/
def certKey : String := StatusListServer.certKey lib self.domains

/-- `acme_account_id`. -/
def acmeAccountId : String := StatusListServer.acmeAccountId lib self.domains

/-- `signing_secret_id`. -/
def signingSecretId : String := StatusListServer.signingSecretId lib self.domains

/-- The private-key cache exists only under a policy with a lifetime. -/
def signingKeyCache : Option MaterialCache :=
  if self.signingKeyTtl = 0 then none else some .signingKey

/-- `load_certificate_data`. -/
def loadCertificateData (key : String) : StorageM (Option String) :=
  loadWithCache key (some .certificate)

/-- `store_certificate_data`. -/
def storeCertificateData (key value : String) : StorageM Unit :=
  storeMaterial (some .certificate) key value

/-- `update_certificate_data`. -/
def updateCertificateData (key value : String) : StorageM Unit :=
  updateMaterial (some .certificate) key value

/-- `load_signing_key`; a cached key may have expired. -/
def loadSigningKey (key : String) : StorageM (Option String) :=
  loadWithCache key self.signingKeyCache

/-- `store_signing_key`. -/
def storeSigningKey (key value : String) : StorageM Unit :=
  storeMaterial self.signingKeyCache key value

/-- `update_signing_key`. -/
def updateSigningKey (key value : String) : StorageM Unit :=
  updateMaterial self.signingKeyCache key value

/-! ## Keys and certificates -/

/-- Draw the seed of a key, with some further attempts. -/
def fillSeed : Nat → CertM (List Byte)
  | 0 => do orFail (fun e => .keyOp (.keyGen e)) (← Proc.ask .fillSeed)
  | attempts + 1 => do
      let filled : Except String (List Byte) ← Proc.ask CertOp.fillSeed
      match filled with
      | .ok seed => return seed
      | .error _ => fillSeed attempts

/-- The PEM text of a new random key. -/
def generateKey : CertM String := do
  let seed ← fillSeed 2
  let key ← orFail (fun e => .keyOp (.parsing e)) (lib.fromSlice seed)
  orFail (fun e => .keyOp (.parsing e)) (lib.toPkcs8Pem key)

/-- Store a new key, with some retries. -/
def storeNewKey (secretId keyPem : String) : Nat → CertM String
  | 0 => do
      storage (self.storeSigningKey secretId keyPem)
      return keyPem
  | retries + 1 => do
      match ← Proc.attempt (self.storeSigningKey secretId keyPem) with
      | .ok _ => return keyPem
      | .error _ => storeNewKey secretId keyPem retries

/-- The stored signing key; a missing one is generated and stored, in at most
three attempts. -/
def signingKeyPem : CertM String := do
  match ← storage (self.loadSigningKey (self.signingSecretId lib)) with
  | some secret => return secret
  | none =>
      let keyPem ← generateKey lib
      self.storeNewKey (self.signingSecretId lib) keyPem 2

/-- The stored certificate. -/
def certificate : CertM (Option CertificateData) := do
  match ← storage (loadCertificateData (self.certKey lib)) with
  | some certData =>
      let data ← orFail .serde (lib.certificateDataFromJson certData)
      return some data
  | none => return none

/-- The parsed chain, from its cache or from the stored certificate. -/
def certChainParts : CertM (Option (List String)) := do
  match cached (self.certKey lib) (← get).certChainCache with
  | some certs => return some certs
  | none =>
      match ← self.certificate lib with
      | none => return none
      | some certData =>
          let certs ← orFail id (parseCertChainParts lib certData.certificate)
          modify fun m => { m with certChainCache := some (self.certKey lib, certs) }
          return some certs

/-- Certificate chain and signing key from the active snapshot. -/
def signingMaterial : CertM SigningMaterial := do
  match (← get).active with
  | some material => return material
  | none =>
      let keyPem ← self.signingKeyPem lib
      let chain ← self.certChainParts lib
      modify fun m => { m with active := some ⟨chain, keyPem⟩ }
      return ⟨chain, keyPem⟩

/-- `signing_key_from_storage`. -/
def signingKeyFromStorage : CertM (Option String) :=
  storage (self.loadSigningKey (self.signingSecretId lib))

/-- `persist_certificate_data`: overwrite what is there, else store. -/
def persistCertificateData (certData : CertificateData) : CertM Unit := do
  let serialized ← orFail .serde (lib.certificateDataToJson certData)
  match ← storage (loadCertificateData (self.certKey lib)) with
  | some _ => storage (updateCertificateData (self.certKey lib) serialized)
  | none => storage (storeCertificateData (self.certKey lib) serialized)

/-- `persist_signing_key`: overwrite what is there, else store. -/
def persistSigningKey (signingKey : String) : CertM Unit := do
  match ← storage (self.loadSigningKey (self.signingSecretId lib)) with
  | some _ => storage (self.updateSigningKey (self.signingSecretId lib) signingKey)
  | none => storage (self.storeSigningKey (self.signingSecretId lib) signingKey)

/-- `cache_provisioned_chain`. -/
def cacheProvisionedChain (certPem : String) : CertM Unit := do
  let parts ← orFail id (parseCertChainParts lib certPem)
  modify fun m => { m with certChainCache := some (self.certKey lib, parts) }

/-- `store_active_signing_material`. -/
def storeActiveSigningMaterial (certPem keyPem : String) : CertM Unit := do
  let certs ← orFail id (parseCertChainParts lib certPem)
  modify fun m => { m with active := some ⟨some certs, keyPem⟩ }

/-- `persist_crypto_material`: the certificate, the key, the chain and the active material. -/
def persistCryptoMaterial (certData : CertificateData) (signingKey : String) : CertM Unit := do
  self.persistCertificateData lib certData
  self.persistSigningKey lib signingKey
  self.cacheProvisionedChain lib certData.certificate
  storeActiveSigningMaterial lib certData.certificate signingKey

/-- The record of a certificate, stamped with the current time. -/
def newCertificateData (certificate : String) (validFrom expiresAt : Int) :
    CertM CertificateData := do
  return ⟨certificate, validFrom, expiresAt, ← Proc.ask .nowUnixTimestamp⟩

/-- `certificate_data_from_der_or_pem`. -/
def certificateDataFromDerOrPem (certificate : List Byte) : CertM CertificateData := do
  let (certificatePem, validFrom, expiresAt) ← orFail id (certificateFromDerOrPem lib certificate)
  newCertificateData certificatePem validFrom expiresAt

/-! ## The store strategy -/

/-- `load_source`: a file or a stored secret. -/
def loadSource (label : String) : MaterialSource → CertM (List Byte)
  | .filesystem path => do
      orFail (fun e => .validation
        ("failed to read " ++ label ++ " file '" ++ path ++ "': " ++ e))
        (← Proc.ask (.readFile path))
  | .storage key => do
      match ← orFail .storage (← Proc.ask (.load key)) with
      | none => throw (.validation ("store " ++ label ++ " key '" ++ key ++ "' was not found"))
      | some secret => orFail id (decodeTextMaterial lib secret label)

/-- `load_material`: the certificate and the key of the source. -/
def loadMaterial (certificateSource signingKeySource : MaterialSource) :
    CertM (List Byte × List Byte) := do
  let certificate ← loadSource lib "certificate" certificateSource
  let signingKey ← loadSource lib "signing key" signingKeySource
  return (certificate, signingKey)

/-- The certificate and key of the source, parsed and checked against each
other. -/
def loadValidated (certificateSource signingKeySource : MaterialSource) :
    CertM (CertificateData × String) := do
  let (certificate, signingKey) ← loadMaterial lib certificateSource signingKeySource
  let keyPem ← orFail id (normalizePkcs8Key lib signingKey)
  let certificateData ← certificateDataFromDerOrPem lib certificate
  orFail (fun e => .validation ("storage error: " ++ e))
    (validateSigningMaterial lib certificateData.certificate keyPem)
  return (certificateData, keyPem)

/-- `StoreProvisioningStrategy::provision`. -/
def provisionFromStore (certificateSource signingKeySource : MaterialSource) :
    CertM CertificateData := do
  let (certificateData, keyPem) ← loadValidated lib certificateSource signingKeySource
  let currentCertificate ← self.certificate lib
  let currentSigningKey ← self.signingKeyFromStorage lib
  if currentCertificate.map (·.certificate) = some certificateData.certificate ∧
      currentSigningKey = some keyPem then
    return currentCertificate.getD certificateData
  else
    self.persistCryptoMaterial lib certificateData keyPem
    return certificateData

/-! ## The ACME strategy -/

/-- Load the ACME account, or create one and store its credentials. -/
def acmeAccount (directoryUrl : String) : CertM Account := do
  match (← get).acmeClient with
  | some account => return account
  | none =>
      match ← orFail .storage (← Proc.ask (.load (self.acmeAccountId lib))) with
      | none => createAccount
      | some json =>
          let credentials ← orFail .serde (lib.credentialsFromJson json)
          let loaded : Except String Account ←
            Proc.ask (CertOp.accountFromCredentials credentials)
          match loaded with
          | .ok account =>
              modify fun m => { m with acmeClient := some account }
              return account
          | .error _ =>
              orFail .storage (← Proc.ask (.delete (self.acmeAccountId lib)))
              createAccount
where
  createAccount : CertM Account := do
    let (account, credentials) ← orFail .acme
      (← Proc.ask (.createAccount ("mailto:" ++ self.email) directoryUrl))
    let json ← orFail .serde (lib.credentialsToJson credentials)
    orFail .storage (← Proc.ask (.store (self.acmeAccountId lib) json))
    modify fun m => { m with acmeClient := some account }
    return account

/-- Answer one challenge, and say what is to be cleaned up after it. -/
def handleAuthorization (authz : Authorization) : ChallengeHandler → CertM CleanupFuture
  | .other => do orFail .challenge (← Proc.ask (.handleAuthorization authz))
  | .dns01 => do
      match authz.dnsValue with
      | none => throw (.challenge (.other "No DNS-01 challenge found"))
      | some digest =>
          orFail .challenge (← Proc.ask (.createTxtRecord authz.identifier digest))
          orFail (fun e => .challenge (.other e)) (← Proc.ask (.setReady authz.identifier))
          return .deleteTxtRecord authz.identifier digest

/-- Answer the challenges of an order; valid authorizations are skipped. -/
def processAuthorizations (handler : ChallengeHandler) : List String → CertM (List CleanupFuture)
  | [] => return []
  | url :: rest => do
      let authz ← orFail .acme (← Proc.ask (.authorization url))
      if authz.status = .valid then
        processAuthorizations handler rest
      else
        let cleanup ← handleAuthorization authz handler
        let cleanups ← processAuthorizations handler rest
        return cleanup :: cleanups

/-- Run every cleanup, whether or not one of them fails. -/
def cleanUpAll : List CleanupFuture → CertM Unit
  | [] => return ()
  | cleanup :: rest => do
      let _ ← Proc.ask (.cleanUp cleanup)
      cleanUpAll rest

/-- `poll_order`: clean up once the order is settled. -/
def pollOrder (order : Order) (cleanups : List CleanupFuture) : CertM Unit := do
  let state ← orFail .acme (← Proc.ask (.pollReady order))
  cleanUpAll cleanups
  if state = .ready then
    return ()
  else
    throw (.other ("Order with url " ++ order.url ++ " for domains [" ++
      ", ".intercalate (self.domains.map String.quote) ++ "] has been invalidated"))

/-- `generate_csr`. -/
def generateCsr (keyPem : String) : Except CertError (List Byte) :=
  (lib.serializeRequest
    ⟨self.domains, self.domains.head self.domains_ne, self.organization, self.eku⟩ keyPem).mapError
    .parsing

/-- Order a certificate for the manager's signing key. -/
def orderCertificate (handler : ChallengeHandler) (directoryUrl : String) :
    CertM (String × String) := do
  let account ← self.acmeAccount lib directoryUrl
  let order ← orFail .acme (← Proc.ask (.newOrder account self.domains))
  let cleanups ← processAuthorizations handler order.authorizations
  self.pollOrder order cleanups
  let keyPem ← self.signingKeyPem lib
  let csr ← orFail id (self.generateCsr lib keyPem)
  orFail .acme (← Proc.ask (.finalizeCsr order csr))
  let certChainPem ← orFail .acme (← Proc.ask (.pollCertificate order))
  return (certChainPem, keyPem)

/-- `request_acme_certificate`. -/
def requestAcmeCertificate (handler : ChallengeHandler) (directoryUrl : String) :
    CertM CertificateData := do
  let (certChainPem, keyPem) ← self.orderCertificate lib handler directoryUrl
  let (certificate, notBefore, notAfter) ← orFail id (certificateFromPem lib certChainPem)
  let certData ← newCertificateData certificate notBefore notAfter
  self.persistCertificateData lib certData
  self.cacheProvisionedChain lib certData.certificate
  storeActiveSigningMaterial lib certData.certificate keyPem
  return certData

/-- Provision a certificate with the configured strategy. -/
def requestCertificate : CertM CertificateData :=
  match self.strategy with
  | .acme handler directoryUrl => self.requestAcmeCertificate lib handler directoryUrl
  | .store certificateSource signingKeySource =>
      self.provisionFromStore lib certificateSource signingKeySource

end CertManager

end StatusListServer
