import StatusListServer.RunHistory
import StatusListServer.SecretNames
import StatusListServer.TextTrimming

/-!
# The Vault token manager

`TokenManager` of `outbound/vault.rs`: callers make sure that the token is inside
80% of its lease, renewing it or logging in again if it is not, and then read it.
Token, issue time, lease and renewability are four fields with a lock each; every
read and every write of one of them is an operation of its own, and so are
sending a request and receiving its answer.  Renewals are serialised by a mutex.

Times are in nanoseconds.
-/

namespace StatusListServer

open Interaction TextTrimming

namespace VaultToken

/-- The data of a login or renewal. -/
structure AuthData where
  clientToken : String
  leaseDuration : Nat
  renewable : Bool
deriving DecidableEq, Repr

/-- Authentication backend configuration. -/
inductive AuthBackend
  | appRole (roleId secretId authMount : String)
  | kubernetes (role tokenPath authMount : String)
deriving DecidableEq, Repr

/-- The body of a login. -/
inductive LoginBody
  | appRole (roleId secretId : String)
  | kubernetes (role jwt : String)
deriving DecidableEq, Repr

/-- What the token manager calls.  `elapsed` reads the issue time and the clock
under one read lock. -/
inductive Op
  | elapsed
  | readLease
  | lock
  | unlock
  | readLastFailure
  | readRenewable
  | readToken
  | now
  | sendRenew (token : String)
  | renewReply
  | readServiceToken (path : String)
  | sendLogin (authMount : String) (body : LoginBody)
  | loginReply
  | writeToken (token : String)
  | writeIssuedAt (time : Nat)
  | writeLease (lease : Nat)
  | writeRenewable (renewable : Bool)
  | writeLastFailure (time : Option Nat)

/-- What the fields, the clock and Vault answer. -/
@[reducible] def Op.Answer : Op → Type
  | .elapsed => Nat
  | .readLease => Nat
  | .readLastFailure => Option Nat
  | .readRenewable => Bool
  | .readToken => String
  | .now => Nat
  | .renewReply => Reply AuthData
  | .readServiceToken _ => Except String String
  | .loginReply => Reply AuthData
  | _ => Unit

/-- A call, which may fail. -/
abbrev M := ExceptT StorageError (Prog Op Op.Answer)

/-- The part of a lease after which a token is renewed. -/
def safeWindow (ttl : Nat) : Nat := ttl * 800000000

/-- Cooldown window after an auth failure before retrying. -/
def failureCooldown : Nat := 5000000000

/-- Call one operation that cannot fail. -/
def ask (op : Op) : M op.Answer := Prog.request op .ok

/-! ## Logging in -/

/-- The name of the method in an error. -/
def AuthBackend.label : AuthBackend → String
  | .appRole _ _ _ => "AppRole"
  | .kubernetes _ _ _ => "Kubernetes"

/-- The reply to a renewal. -/
def readRenew : Reply AuthData → Except StorageError AuthData
  | .failed message => .error (.backend message)
  | .response status text json =>
      if status.isSuccess then
        match json with
        | .ok auth => .ok auth
        | .error message => .error (.backend message)
      else .error (.backend s!"token renewal failed: HTTP {status}: {text}")

/-- The reply to a login. -/
def readLogin (backend : AuthBackend) : Reply AuthData → Except StorageError AuthData
  | .failed message => .error (.backend message)
  | .response status text json =>
      if status.isSuccess then
        match json with
        | .ok auth => .ok auth
        | .error message => .error (.backend message)
      else if status.code = 403 then
        .error (.backend s!"vault {backend.label} login denied (HTTP 403)")
      else .error (.backend s!"vault {backend.label} login failed: HTTP {status}: {text}")

/-- The service account token of a Kubernetes login. -/
def readJwt (path : String) : Except String String → Except StorageError String
  | .error e => .error (.backend
      s!"failed to read Kubernetes service account token from \"{path}\": {e}")
  | .ok content =>
      if trimText content = "" then
        .error (.backend s!"Kubernetes service account token in \"{path}\" is empty")
      else .ok (trimText content)

/-- Send the login POST and handle the response. -/
def performLogin (backend : AuthBackend) (authMount : String) (body : LoginBody) :
    M AuthData := do
  ask (.sendLogin authMount body)
  Prog.request .loginReply (readLogin backend)

/-- Both kinds of login. -/
def AuthBackend.login (backend : AuthBackend) : M AuthData := do
  match backend with
  | .appRole roleId secretId authMount =>
      performLogin backend authMount (.appRole roleId secretId)
  | .kubernetes role tokenPath authMount =>
      let jwt ← Prog.request (.readServiceToken tokenPath) (readJwt tokenPath)
      performLogin backend authMount (.kubernetes role jwt)

/-! ## The token manager -/

/-- Write the four fields; the issue time is the time before its lock is taken. -/
def install (auth : AuthData) : M Unit := do
  ask (.writeToken auth.clientToken)
  let time ← ask .now
  ask (.writeIssuedAt time)
  ask (.writeLease auth.leaseDuration)
  ask (.writeRenewable auth.renewable)

/-- Renew the current token. -/
def tryRenew : M Unit := do
  let token ← ask .readToken
  ask (.sendRenew token)
  let auth ← Prog.request .renewReply readRenew
  install auth

/-- Perform a full re-login. -/
def reLogin (backend : AuthBackend) : M Unit := do
  let auth ← backend.login
  install auth

/-- Run a procedure and return how it ended. -/
def attempt {α : Type} (x : M α) : M (Except StorageError α) :=
  ExceptT.mk (x.run >>= fun r => .ret (.ok r))

/-- Whether a token is still inside its safe window. -/
def isSafe (elapsed ttl : Nat) : Bool := ttl == 0 || elapsed < safeWindow ttl

/-- Whether the token is inside its safe window. -/
def checkSafe : M Bool := do
  let elapsed ← ask .elapsed
  let ttl ← ask .readLease
  return isSafe elapsed ttl

/-- Whether the last failure is recent enough to wait. -/
def checkCooldown : M Bool := do
  let lastFailure : Option Nat ← ask .readLastFailure
  match lastFailure with
  | none => return false
  | some time =>
      let now : Nat ← ask .now
      return now - time < failureCooldown

/-- A re-login, with a failure recorded. -/
def loginAgain (backend : AuthBackend) : M Unit := do
  match ← attempt (reLogin backend) with
  | .ok _ => ask (.writeLastFailure none)
  | .error e =>
      let time ← ask .now
      ask (.writeLastFailure (some time))
      throw e

/-- Renew or log in, with the renewal lock held. -/
def renewLocked (backend : AuthBackend) : M Unit := do
  if ← checkSafe then
    return ()
  else if ← checkCooldown then
    throw (.backend "vault authentication in cooldown backoff after recent failure")
  else if ← ask .readRenewable then
    match ← attempt tryRenew with
    | .ok _ => ask (.writeLastFailure none)
    | .error _ => loginAgain backend
  else
    loginAgain backend

/-- Ensure the current token is still valid, renewing or re-authenticating as
needed. -/
def ensureValid (backend : AuthBackend) : M Unit := do
  if ← checkSafe then
    return ()
  else
    ask .lock
    let result ← attempt (renewLocked backend)
    ask .unlock
    ExceptT.mk (pure result)

/-- Ensure the token is valid, then read it. -/
def addAuthHeaders (backend : AuthBackend) : M String := do
  ensureValid backend
  ask .readToken

/-! ## The world of the callers -/

/-- The fields of the token manager, its mutex and clock, and the callers whose
request is unanswered.  `generation` counts the tokens that were written, and
`installing` is set until all fields of the last one are. -/
structure World (Tid : Type) where
  now : Nat
  token : String
  issuedAt : Nat
  lease : Nat
  renewable : Bool
  lastFailure : Option Nat
  lockedBy : Option Tid
  inFlight : List Tid
  generation : Nat
  installing : Bool

section World

variable {Tid : Type} [DecidableEq Tid]

/-- Some time passes. -/
def World.pass (w : World Tid) (delay : Nat) : World Tid := { w with now := w.now + delay }

/-- What an operation of a caller does. -/
def World.apply (w : World Tid) (i : Tid) : Op → World Tid
  | .lock => { w with lockedBy := some i }
  | .unlock => { w with lockedBy := none }
  | .sendRenew _ => { w with inFlight := i :: w.inFlight }
  | .sendLogin _ _ => { w with inFlight := i :: w.inFlight }
  | .renewReply => { w with inFlight := w.inFlight.erase i }
  | .loginReply => { w with inFlight := w.inFlight.erase i }
  | .writeToken token =>
      { w with token := token, generation := w.generation + 1, installing := true }
  | .writeIssuedAt time => { w with issuedAt := time }
  | .writeLease lease => { w with lease := lease }
  | .writeRenewable renewable => { w with renewable := renewable, installing := false }
  | .writeLastFailure time => { w with lastFailure := time }
  | _ => w

/-- What an operation can answer; a server and a file can answer anything. -/
def World.answers (w : World Tid) : (op : Op) → op.Answer → Prop
  | .elapsed, r => r = w.now - w.issuedAt
  | .readLease, r => r = w.lease
  | .readLastFailure, r => r = w.lastFailure
  | .readRenewable, r => r = w.renewable
  | .readToken, r => r = w.token
  | .now, r => r = w.now
  | .lock, _ => w.lockedBy = none
  | _, _ => True

/-- Time passes, then a caller performs its next operation; the lock can be taken
when it is free. -/
def Env : Interaction.Env Tid Op Op.Answer (World Tid) :=
  fun i op w r w' => ∃ delay, (w.pass delay).answers op r ∧ w' = (w.pass delay).apply i op

end World

/-- The requests to the server. -/
def isRequest : Op → Bool
  | .sendRenew _ => true
  | .sendLogin _ _ => true
  | _ => false

end VaultToken

end StatusListServer
