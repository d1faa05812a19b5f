import StatusListServer.Service

/-!
# The management interface

The authentication middleware of `server/auth/mod.rs`, the handlers behind it,
and the requests a server can be working on.  The JWT library, the UUID parser
and the JSON parser are parameters; `JwtLibrary.Sound` is what the middleware
relies on.
-/

namespace StatusListServer

open BitStream CheckedEval Interaction

/-- What an authentication can fail with. -/
inductive AuthenticationError
  | issuerNotFound
  | internalServer
  | invalidAuthorizationHeader
  | invalidClaims
  | jwtError (message : String)
  | unsupportedAlgorithm
deriving DecidableEq, Repr

/-- The claims a management token must carry. -/
structure ManagementClaims where
  iss : String
  iat : Nat
  nbf : Option Nat
  exp : Nat
deriving DecidableEq, Repr

/-- JWT policy for protected management endpoints. -/
structure ManagementAuthConfig where
  leewaySecs : Nat
  maxTokenLifetimeSecs : Nat
  audiences : List String
deriving DecidableEq, Repr

/-- The validation options handed to the JWT library. -/
structure Validation where
  alg : String
  leeway : Nat
  validateNbf : Bool
  issuers : List String
  requiredSpecClaims : List String
  audiences : Option (List String)
deriving DecidableEq, Repr

/-- The JWT and JWK functions the middleware calls. -/
structure JwtLibrary where
  Jwk : Type
  DecodingKey : Type
  decodeHeader : String → Except String String
  insecureDecode : String → Except String String
  parseJwk : List Byte → Except String Jwk
  fromJwk : Jwk → Except String DecodingKey
  decode : String → DecodingKey → Validation → Except String ManagementClaims

/-- `decode` returns claims only when the signature verifies under the given key
and the `iss` claim is one of the issuers of the validation. -/
structure JwtLibrary.Sound (jwt : JwtLibrary) (Verifies : String → jwt.DecodingKey → Prop) :
    Prop where
  signature : ∀ token key validation claims,
    jwt.decode token key validation = .ok claims → Verifies token key
  issuer : ∀ token key validation claims,
    jwt.decode token key validation = .ok claims → claims.iss ∈ validation.issuers

/-- `u64::saturating_add`. -/
def saturatingAdd (a b : Nat) : Nat := min (a + b) (2 ^ 64 - 1)

/-- `validate_policy`. -/
def ManagementClaims.validatePolicy (self : ManagementClaims)
    (now leewaySecs maxTokenLifetimeSecs : Nat) : Except AuthenticationError Unit :=
  if self.exp ≤ self.iat then .error .invalidClaims
  else if saturatingAdd now leewaySecs < self.iat then .error .invalidClaims
  else
    match self.nbf.filter (fun nbf => decide (saturatingAdd now leewaySecs < nbf)) with
    | some _ => .error .invalidClaims
    | none =>
        if maxTokenLifetimeSecs < self.exp - self.iat then .error .invalidClaims else .ok ()

/-- `str::strip_prefix`. -/
def stripLeading (lead text : String) : Option String :=
  if lead.toList.isPrefixOf text.toList then
    some (String.ofList (text.toList.drop lead.length))
  else
    none

/-- The validation for a token: the issuer of the credential that was found,
and the audience only when one is configured. -/
def validationFor (config : ManagementAuthConfig) (alg : String) (credential : Credential) :
    Validation where
  alg := alg
  leeway := config.leewaySecs
  validateNbf := true
  issuers := [credential.issuer.name]
  requiredSpecClaims :=
    if config.audiences.isEmpty then ["iss", "exp"] else ["iss", "exp", "aud"]
  audiences := if config.audiences.isEmpty then none else some config.audiences

/-- The part of the middleware between the credential lookup and the clock:
build the key from the credential and decode the token under it. -/
def decodeClaims (jwt : JwtLibrary) (config : ManagementAuthConfig) (token alg : String)
    (credential : Credential) : Except AuthenticationError ManagementClaims := do
  let publicKey ← (jwt.parseJwk credential.publicKey.bytes).mapError
    (fun _ => AuthenticationError.internalServer)
  let decodingKey ← (jwt.fromJwk publicKey).mapError AuthenticationError.jwtError
  (jwt.decode token decodingKey (validationFor config alg credential)).mapError
    AuthenticationError.jwtError

/-- Middleware steps end with a value or an authentication error. -/
abbrev AuthM := ExceptT AuthenticationError PortProg

/-- The middleware: an unverified `iss` selects the credential, the verified one
becomes the principal. -/
def auth (jwt : JwtLibrary) (config : ManagementAuthConfig) (authorization : Option String) :
    AuthM Issuer := do
  let token ← ExceptT.mk (pure (match authorization.bind (stripLeading "Bearer ") with
    | some token => .ok token
    | none => .error .invalidAuthorizationHeader))
  let alg ← ExceptT.mk (pure ((jwt.decodeHeader token).mapError AuthenticationError.jwtError))
  let issuer ← ExceptT.mk (pure ((jwt.insecureDecode token).mapError
    AuthenticationError.jwtError))
  let answer ← ExceptT.lift (Service.findCredential issuer)
  let credential ← ExceptT.mk (pure (match answer with
    | .error _ => .error AuthenticationError.internalServer
    | .ok none => .error .issuerNotFound
    | .ok (some credential) => .ok credential))
  let claims ← ExceptT.mk (pure (decodeClaims jwt config token alg credential))
  let clock ← ExceptT.lift (Prog.ask Port.systemTime)
  let now ← ExceptT.mk (pure (clock.mapError (fun _ => AuthenticationError.internalServer)))
  ExceptT.mk (pure (claims.validatePolicy now config.leewaySecs config.maxTokenLifetimeSecs))
  return ⟨claims.iss⟩

/-- The state shared by the handlers. -/
structure AppState where
  service : Service
  serverDomain : String
  limits : Limits
  managementAuth : ManagementAuthConfig
  jwt : JwtLibrary
  uuidTryParse : String → Except String Unit
  jsonObject : List Byte → Except String Unit

/-- Why a request was answered with an error, or not at all because its process was
stopped. -/
inductive Failure
  | badRequest (code message : String)
  | authentication (e : AuthenticationError)
  | statusList (fault : Fault StatusListError)
  | credential (e : CredentialError)
  | stopped
deriving DecidableEq, Repr

/-- What a request is answered with. -/
inductive Value
  | record (record : StatusListRecord)
  | uris (uris : List String)
  | snapshot (snapshot : StatusListSnapshot)
  | deleted (count : Nat)
  | accepted
deriving DecidableEq, Repr

/-- Handlers end with a value or a failure. -/
abbrev Handler := ExceptT Failure PortProg

/-- Run a service function inside a handler. -/
def Handler.ofService {α : Type} (x : ServiceM α) : Handler α :=
  ExceptT.mk (do
    let result ← x.run
    return result.mapError Failure.statusList)

/-- Run the middleware inside a handler. -/
def Handler.ofAuth {α : Type} (x : AuthM α) : Handler α :=
  ExceptT.mk (do
    let result ← x.run
    return result.mapError Failure.authentication)

/-- The path parameter must be a UUID. -/
def checkListId (app : AppState) (listId : String) : Except Failure Unit :=
  (app.uuidTryParse listId).mapError (fun e =>
    .badRequest "invalid_list_id" ("Invalid list_id format: " ++ e))

/-- The URI a list is published under. -/
def subOf (app : AppState) (listId : String) : String :=
  "https://" ++ app.serverDomain ++ "/api/v1/status-lists/" ++ listId

/-- `publish_status`. -/
def publishStatus (app : AppState) (principal : Issuer) (listId : String)
    (statuses : List StatusEntry) : Handler Value := do
  ExceptT.mk (pure (checkListId app listId))
  let _ ← Handler.ofService
    (app.service.publishStatusList listId principal (subOf app listId) statuses app.limits)
  return .accepted

/-- `update_status`. -/
def updateStatus (app : AppState) (principal : Issuer) (listId : String)
    (statuses : List StatusEntry) : Handler Value := do
  ExceptT.mk (pure (checkListId app listId))
  let _ ← Handler.ofService
    (app.service.updateStatuses principal listId statuses app.limits)
  return .accepted

/-- `credential_handler`; the route has no authentication layer. -/
def credentialHandler (app : AppState) (issuer : String) (publicKey : List Byte) :
    Handler Value := do
  ExceptT.mk (pure ((app.jsonObject publicKey).mapError
    (fun e => Failure.credential (.invalidPublicJwk e))))
  let answer ← ExceptT.lift (Service.publishCredential ⟨⟨issuer⟩, ⟨publicKey⟩⟩)
  ExceptT.mk (pure (answer.mapError Failure.credential))
  return .accepted

/-- What one thread of a server is working on: a call of the service by trusted
code, or a request that came in over HTTP. -/
inductive Task
  | publish (issuer : Issuer) (listId sub : String) (statuses : List StatusEntry)
      (limits : Limits)
  | update (issuer : Issuer) (listId : String) (statuses : List StatusEntry) (limits : Limits)
  | get (listId : String)
  | listUris
  | snapshotAt (listId : String) (time : Int)
  | cleanup (cutoff : Int)
  | putStatuses (authorization : Option String) (listId : String)
      (statuses : List StatusEntry)
  | patchStatuses (authorization : Option String) (listId : String)
      (statuses : List StatusEntry)
  | postCredential (issuer : String) (publicKey : List Byte)
deriving DecidableEq

/-- The program of a task. -/
def Task.serve (app : AppState) : Task → PortProg (Except Failure Value)
  | .publish issuer listId sub statuses limits => (do
      let record ← Handler.ofService
        (app.service.publishStatusList listId issuer sub statuses limits)
      return .record record : Handler Value).run
  | .update issuer listId statuses limits => (do
      let record ← Handler.ofService
        (app.service.updateStatuses issuer listId statuses limits)
      return .record record : Handler Value).run
  | .get listId => (do
      let record ← Handler.ofService (app.service.getStatusList listId)
      return .record record : Handler Value).run
  | .listUris => (do
      let uris ← Handler.ofService app.service.listUris
      return .uris uris : Handler Value).run
  | .snapshotAt listId time => (do
      let snapshot ← Handler.ofService (app.service.getSnapshotAt listId time)
      return .snapshot snapshot : Handler Value).run
  | .cleanup cutoff => (do
      let count ← Handler.ofService (app.service.cleanupSnapshots cutoff)
      return .deleted count : Handler Value).run
  | .putStatuses authorization listId statuses => (do
      let principal ← Handler.ofAuth (auth app.jwt app.managementAuth authorization)
      publishStatus app principal listId statuses : Handler Value).run
  | .patchStatuses authorization listId statuses => (do
      let principal ← Handler.ofAuth (auth app.jwt app.managementAuth authorization)
      updateStatus app principal listId statuses : Handler Value).run
  | .postCredential issuer publicKey => (credentialHandler app issuer publicKey).run

end StatusListServer
