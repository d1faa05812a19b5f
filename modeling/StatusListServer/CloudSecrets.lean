import StatusListServer.StorageLaws

/-!
# The secret stores of Google and Azure

Two more adapters of the `Storage` interface.  `GcpSecretManagerClient`
(`outbound/gcp_secret.rs`) adds a version to a secret and creates the secret when there is
none.  `AzureKeyVaultClient` (`outbound/azure_kv.rs`) sets a secret; where an earlier one of
its name is soft-deleted, it recovers that one first and tries again, ten times at most.

Both overwrite, so they return the latest values as Vault does.  That is on a backend that
is truthful, which a service that keeps all versions of its secrets is.
-/

namespace StatusListServer

open Interaction CachedMap BitStream

/-! ## Google Secret Manager -/

/-- A client of the secret manager of one project. -/
structure GcpSecretManagerClient where
  projectId : String

namespace GcpSecretManagerClient

/-- The status of a failed call. -/
structure RpcStatus where
  code : Nat
  name : String
deriving DecidableEq, Repr

/-- An error of the client library. -/
structure GcpError where
  httpStatusCode : Option Nat
  status : Option RpcStatus
  message : String
deriving DecidableEq, Repr

/-- The error has a status, over HTTP or as a code of the API. -/
def GcpError.reports (http code : Nat) (name : String) (e : GcpError) : Bool :=
  e.httpStatusCode == some http ||
    e.status.any fun status => status.code == code || status.name == name

/-- `is_not_found`. -/
def isNotFound : GcpError → Bool := GcpError.reports 404 5 "NOT_FOUND"

/-- `is_already_exists`. -/
def isAlreadyExists : GcpError → Bool := GcpError.reports 409 6 "ALREADY_EXISTS"

/-- The requests, by the name of the resource. -/
inductive Op
  | addSecretVersion (parent : String) (payload : List Byte)
  | createSecret (parent secretId : String)
  | accessSecretVersion (name : String)
  | deleteSecret (name : String)
deriving DecidableEq, Repr

/-- A version may come without its payload. -/
@[reducible] def Op.Answer : Op → Type
  | .addSecretVersion _ _ => Except GcpError Unit
  | .createSecret _ _ => Except GcpError Unit
  | .accessSecretVersion _ => Except GcpError (Option (List Byte))
  | .deleteSecret _ => Except GcpError Unit

/-- A call, with the secret cache of the client. -/
abbrev M := Proc Op Op.Answer SecretCache StorageError

variable (client : GcpSecretManagerClient) (lib : Libraries)

/-- `qualify_key`. -/
def qualifyKey (key : String) : String := normalizeKey lib key

/-- `project_parent`. -/
def projectParent : String := "projects/" ++ client.projectId

/-- The name of the secret with an id in a project. -/
def resourceName (parent secretId : String) : String := parent ++ ("/secrets/" ++ secretId)

/-- `secret_name`. -/
def secretName (key : String) : String := resourceName client.projectParent (qualifyKey lib key)

/-- The name of a version of a secret. -/
def versionName (secret version : String) : String := secret ++ ("/versions/" ++ version)

/-- `secret_version_name`. -/
def secretVersionName (key version : String) : String :=
  versionName (client.secretName lib key) version

/-- Whether the version was added; a secret that is missing is no error yet. -/
def readAdded : Except GcpError Unit → Except StorageError Bool
  | .ok _ => .ok true
  | .error e => if isNotFound e then .ok false else .error (.backend e.message)

/-- Created now or by someone else. -/
def readCreated : Except GcpError Unit → Except StorageError Unit
  | .ok _ => .ok ()
  | .error e => if isAlreadyExists e then .ok () else .error (.backend e.message)

/-- Any error of the service is one of the backend. -/
def orBackend : Except GcpError Unit → Except StorageError Unit
  | .ok _ => .ok ()
  | .error e => .error (.backend e.message)

/-- Ensure the secret container exists and add a new version with payload. -/
def ensureSecretAndAddVersion (key value : String) : M Unit := do
  let payload := utf8 value
  let added ← Proc.request (.addSecretVersion (client.secretName lib key) payload) readAdded
  if added then
    modify fun cache => cache.insert key value
  else
    Proc.request (.createSecret client.projectParent (qualifyKey lib key)) readCreated
    Proc.request (.addSecretVersion (client.secretName lib key) payload) orBackend
    modify fun cache => cache.insert key value

/-- The data of a version; a secret that is not found is no error. -/
def readAccessed (key : String) :
    Except GcpError (Option (List Byte)) → Except StorageError (Option String)
  | .ok (some data) =>
      match fromUtf8 lib data with
      | .ok secretStr => .ok (some secretStr)
      | .error e => .error (.invalidData e)
  | .ok none => .error (.invalidData "missing payload in GCP secret response")
  | .error e =>
      if isNotFound e then .ok none
      else .error (.backend s!"GCP secret load failed for key '{key}': {e.message}")

/-- A request for the latest version, which then fills the cache. -/
def fetch (key : String) : M (Option String) := do
  match ← Proc.request (.accessSecretVersion (client.secretVersionName lib key "latest"))
      (readAccessed lib key) with
  | some secretStr => do
      modify fun cache => cache.insert key secretStr
      return some secretStr
  | none => return none

/-- `load`: from the cache, else from the service. -/
def load (key : String) : M (Option String) := do
  match (← get).get key with
  | some value => return some value
  | none => client.fetch lib key

/-- A secret that is gone counts as deleted. -/
def readDeleted (key : String) : Except GcpError Unit → Except StorageError Unit
  | .ok _ => .ok ()
  | .error e =>
      if isNotFound e then .ok ()
      else .error (.backend s!"GCP secret delete failed for key '{key}': {e.message}")

/-- `delete`, which also empties the cache of the key. -/
def delete (key : String) : M Unit := do
  Proc.request (.deleteSecret (client.secretName lib key)) (readDeleted key)
  modify fun cache => cache.invalidate key

/-- The client as a secret store; a store and an update both add a version. -/
def storage : Storage Op Op.Answer where
  store := client.ensureSecretAndAddVersion lib
  load := client.load lib
  update := client.ensureSecretAndAddVersion lib
  delete := client.delete lib

/-- A truthful backend, by what the latest versions hold. -/
def Truthful : Answers Op Op.Answer (String → Option String)
  | .addSecretVersion parent payload, values, result, values' =>
      match result with
      | .ok _ =>
          ∀ value, payload = utf8 value → values' = Function.update values parent (some value)
      | .error e => isNotFound e → values' = values
  | .createSecret _ _, values, _, values' => values' = values
  | .accessSecretVersion name, values, result, values' =>
      values' = values ∧ ∀ secret, name = versionName secret "latest" →
        match result with
        | .ok payload => ∀ data value, payload = some data → fromUtf8 lib data = .ok value →
            values secret = some value
        | .error e => isNotFound e → values secret = none
  | .deleteSecret name, values, result, values' =>
      match result with
      | .ok _ => values' = Function.update values name none
      | .error e => isNotFound e → values' = values ∧ values name = none

/-! ### Its calls are the accesses they stand for -/

open Proc

variable {client : GcpSecretManagerClient} {lib : Libraries} {enabled : Bool}
  {history : List (Access String String)} {cache : SecretCache} {values : String → Option String}

/-- Adding a version, with or without creating its secret, writes the value. -/
theorem sure_ensureSecretAndAddVersion
    (h : Backed (client.secretName lib) enabled history cache values) (key value : String) :
    Sure (Truthful lib) (fun _ => True)
      (fun _ => Backed (client.secretName lib) enabled (history ++ [.write key value]))
      (fun _ _ _ => True) (client.ensureSecretAndAddVersion lib key value) cache values := by
  have hwritten := h.write key value
  refine sure_bind (sure_request_ok fun result values' added henv hread => ?_)
  cases result with
  | ok _ =>
      cases hread
      refine sure_modify ?_
      rw [henv value rfl]
      exact hwritten
  | error e =>
      simp only [readAdded] at hread
      split at hread
      · rename_i hmissing
        cases hread
        obtain rfl := henv hmissing
        refine sure_bind (sure_request_ok fun created values₁ _ hkept _ => ?_)
        obtain rfl := hkept
        refine sure_bind (sure_request_ok fun result values₂ _ henv hread => sure_modify ?_)
        cases result with
        | ok _ =>
            rw [henv value rfl]
            exact hwritten
        | error e => cases hread
      · cases hread

/-- A load that misses the cache reads the latest version. -/
theorem sure_fetch (h : Backed (client.secretName lib) enabled history cache values)
    (key : String) (hmiss : cache.get key = none) :
    Sure (Truthful lib) (fun _ => True) (Loaded (client.secretName lib) enabled history key)
      (fun _ _ _ => True) (client.fetch lib key) cache values := by
  refine sure_bind (sure_request_ok fun result values' answer henv hread => ?_)
  obtain ⟨rfl, henv⟩ := henv
  have henv := henv (client.secretName lib key) rfl
  cases result with
  | ok payload =>
      cases payload with
      | none => cases hread
      | some data =>
          simp only [readAccessed] at hread
          split at hread
          · rename_i secretStr hdecoded
            cases hread
            have hvalue := henv data secretStr rfl hdecoded
            exact sure_bind (sure_modify (sure_pure (.of_found h hmiss hvalue)))
          · cases hread
  | error e =>
      simp only [readAccessed] at hread
      split at hread
      · rename_i hmissing
        cases hread
        exact sure_pure (.of_missing h hmiss (henv hmissing))
      · cases hread

/-- A deletion removes the value. -/
theorem sure_delete (h : Backed (client.secretName lib) enabled history cache values)
    (key : String) :
    Sure (Truthful lib) (fun _ => True)
      (fun _ => Backed (client.secretName lib) enabled (history ++ [.remove key]))
      (fun _ _ _ => True) (client.delete lib key) cache values := by
  refine sure_bind (sure_request_ok fun result values' _ henv hread => sure_modify ?_)
  have hremoved := h.remove key
  cases result with
  | ok _ =>
      rw [henv]
      exact hremoved
  | error e =>
      simp only [readDeleted] at hread
      split at hread
      · rename_i hmissing
        obtain ⟨rfl, habsent⟩ := henv hmissing
        rwa [Function.update_eq_self_iff.mpr habsent.symm] at hremoved
      · cases hread

/-- All calls keep the cache backed. -/
theorem keeps (client : GcpSecretManagerClient) (lib : Libraries) :
    (client.storage lib).Keeps (Truthful lib) (client.secretName lib) false where
  store := sure_ensureSecretAndAddVersion
  load h key := sure_cachedOr h (sure_fetch h key)
  update := sure_ensureSecretAndAddVersion
  delete := sure_delete

/-- Different keys have different resource names. -/
theorem resourceName_injective (parent : String) : Function.Injective (resourceName parent) := by
  intro id id' h
  simpa [resourceName] using h

/-! ### The service

It keeps the versions of every secret; a secret may be there and have none.
-/

/-- The secrets by name, with the data of their versions, the latest one first. -/
abbrev SecretVersions := String → Option (List (List Byte))

/-- The data of the latest version. -/
def latestData (w : SecretVersions) (name : String) : Option (List Byte) := (w name).bind List.head?

/-- A version was added to a secret that was there. -/
def Added (w : SecretVersions) (name : String) (payload : List Byte) (w' : SecretVersions) : Prop :=
  ∃ versions, w name = some versions ∧ w' = Function.update w name (some (payload :: versions))

/-- A secret without versions was added. -/
def Created (w : SecretVersions) (name : String) (w' : SecretVersions) : Prop :=
  w name = none ∧ w' = Function.update w name (some [])

/-- A secret was removed with its versions. -/
def Removed (w : SecretVersions) (name : String) (w' : SecretVersions) : Prop :=
  w name ≠ none ∧ w' = Function.update w name none

/-- A change that may or may not have been made: an error that explains itself means it
was not, any other leaves it open. -/
def Changed (made : Prop) (unmade : Prop) (explains : GcpError → Bool) (why : Prop) :
    Except GcpError Unit → Prop
  | .ok _ => made
  | .error e => (unmade ∧ (explains e → why)) ∨ (explains e = false ∧ made)

/-- How the service answers. -/
def Service : Answers Op Op.Answer SecretVersions
  | .addSecretVersion parent payload, w, result, w' =>
      Changed (Added w parent payload w') (w' = w) isNotFound (w parent = none) result
  | .createSecret parent secretId, w, result, w' =>
      Changed (Created w (resourceName parent secretId) w') (w' = w) isAlreadyExists
        (w (resourceName parent secretId) ≠ none) result
  | .accessSecretVersion name, w, result, w' =>
      w' = w ∧ ∀ secret, name = versionName secret "latest" →
        match result with
        | .ok payload => ∀ data, payload = some data → latestData w secret = some data
        | .error e => isNotFound e → latestData w secret = none
  | .deleteSecret name, w, result, w' =>
      Changed (Removed w name w') (w' = w) isNotFound (w name = none) result

/-- An added version is the latest. -/
theorem latestData_added {w w' : SecretVersions} {name : String} {payload : List Byte}
    (h : Added w name payload w') :
    latestData w' = Function.update (latestData w) name (some payload) := by
  obtain ⟨versions, _, rfl⟩ := h
  funext other
  by_cases hother : other = name
  · subst hother
    simp [latestData]
  · simp [latestData, hother]

/-- A created secret has no data. -/
theorem latestData_created {w w' : SecretVersions} {name : String} (h : Created w name w') :
    latestData w' = latestData w := by
  obtain ⟨habsent, rfl⟩ := h
  funext other
  by_cases hother : other = name
  · subst hother
    simp [latestData, habsent]
  · simp [latestData, hother]

/-- A removed secret has no data. -/
theorem latestData_removed {w w' : SecretVersions} {name : String} (h : Removed w name w') :
    latestData w' = Function.update (latestData w) name none := by
  obtain ⟨_, rfl⟩ := h
  funext other
  by_cases hother : other = name
  · subst hother
    simp [latestData]
  · simp [latestData, hother]

/-- What the latest versions hold, where they are texts. -/
def latestTexts (lib : Libraries) (w : SecretVersions) (name : String) : Option String :=
  (latestData w name).bind fun data => (fromUtf8 lib data).toOption

/-- A change of the latest data of one secret changes its text only. -/
theorem latestTexts_update (lib : Libraries) {w w' : SecretVersions} {name : String}
    {data : Option (List Byte)} (h : latestData w' = Function.update (latestData w) name data) :
    latestTexts lib w' = Function.update (latestTexts lib w) name
      (data.bind fun bytes => (fromUtf8 lib bytes).toOption) := by
  funext other
  unfold latestTexts
  rw [h]
  by_cases hother : other = name
  · subst hother
    simp
  · simp [hother]

/-- **The service is a truthful backend.** -/
theorem truthful_of_service (lib : Libraries) {op : Op} {w w' : SecretVersions} {result : op.Answer}
    (h : Service op w result w') :
    Truthful lib op (latestTexts lib w) result (latestTexts lib w') := by
  cases op with
  | addSecretVersion parent payload =>
      cases result with
      | ok _ =>
          rintro value rfl
          rw [latestTexts_update lib (latestData_added h), Option.bind_some, fromUtf8_utf8]
          rfl
      | error e =>
          intro hmissing
          rcases h with ⟨rfl, -⟩ | ⟨hother, -⟩
          · rfl
          · rw [hmissing] at hother
            cases hother
  | createSecret parent secretId =>
      have hkept : latestData w' = latestData w := by
        cases result with
        | ok _ => exact latestData_created h
        | error e =>
            rcases h with ⟨rfl, -⟩ | ⟨-, hcreated⟩
            · rfl
            · exact latestData_created hcreated
      funext name
      simp only [latestTexts, hkept]
  | accessSecretVersion name =>
      obtain ⟨rfl, hread⟩ := h
      refine ⟨rfl, ?_⟩
      intro secret hname
      have hsecret := hread secret hname
      cases result with
      | ok payload =>
          intro data value hpayload htext
          rw [latestTexts, hsecret data hpayload, Option.bind_some, htext]
          rfl
      | error e =>
          intro hmissing
          rw [latestTexts, hsecret hmissing, Option.bind_none]
  | deleteSecret name =>
      cases result with
      | ok _ => exact latestTexts_update lib (latestData_removed h)
      | error e =>
          intro hmissing
          rcases h with ⟨rfl, hwhy⟩ | ⟨hother, -⟩
          · refine ⟨rfl, ?_⟩
            simp [latestTexts, latestData, hwhy hmissing]
          · rw [hmissing] at hother
            cases hother

/-- The secret of a name that ends in `/versions/latest`. -/
def secretOf (name : String) : String :=
  String.ofList (name.toList.take (name.toList.length - "/versions/latest".toList.length))

/-- The secret of a version name. -/
theorem secretOf_versionName (secret : String) :
    secretOf (versionName secret "latest") = secret := by
  have hsuffix : "/versions/" ++ "latest" = "/versions/latest" := by decide
  simp [secretOf, versionName, hsuffix]

/-- A service that is up. -/
def answer : (op : Op) → SecretVersions → op.Answer × SecretVersions
  | .addSecretVersion parent payload, w =>
      match w parent with
      | some versions => (.ok (), Function.update w parent (some (payload :: versions)))
      | none => (.error ⟨some 404, none, "not found"⟩, w)
  | .createSecret parent secretId, w =>
      match w (resourceName parent secretId) with
      | some _ => (.error ⟨some 409, none, "already exists"⟩, w)
      | none => (.ok (), Function.update w (resourceName parent secretId) (some []))
  | .accessSecretVersion name, w =>
      match latestData w (secretOf name) with
      | some data => (.ok (some data), w)
      | none => (.error ⟨none, some ⟨5, "NOT_FOUND"⟩, "not found"⟩, w)
  | .deleteSecret name, w =>
      match w name with
      | some _ => (.ok (), Function.update w name none)
      | none => (.error ⟨some 404, none, "not found"⟩, w)

/-- The sample service behaves as the service does. -/
theorem service_answer (op : Op) (w : SecretVersions) :
    Service op w (answer op w).1 (answer op w).2 := by
  cases op with
  | addSecretVersion parent payload =>
      cases hsecret : w parent with
      | some versions =>
          simp only [answer, hsecret]
          exact ⟨versions, hsecret, rfl⟩
      | none =>
          simp only [answer, hsecret]
          exact .inl ⟨rfl, fun _ => hsecret⟩
  | createSecret parent secretId =>
      cases hsecret : w (resourceName parent secretId) with
      | some versions =>
          simp only [answer, hsecret]
          exact .inl ⟨rfl, fun _ => by simp [hsecret]⟩
      | none =>
          simp only [answer, hsecret]
          exact ⟨hsecret, rfl⟩
  | accessSecretVersion name =>
      cases hdata : latestData w (secretOf name) with
      | some data =>
          simp only [answer, hdata]
          refine ⟨rfl, ?_⟩
          rintro secret rfl data' hpayload
          cases hpayload
          rwa [secretOf_versionName] at hdata
      | none =>
          simp only [answer, hdata]
          refine ⟨rfl, ?_⟩
          rintro secret rfl _
          rwa [secretOf_versionName] at hdata
  | deleteSecret name =>
      cases hsecret : w name with
      | some versions =>
          simp only [answer, hsecret]
          exact ⟨by simp [hsecret], rfl⟩
      | none =>
          simp only [answer, hsecret]
          exact .inl ⟨rfl, fun _ => hsecret⟩

end GcpSecretManagerClient

/-! ## Azure Key Vault -/

namespace AzureKeyVaultClient

/-- An error of the client library. -/
structure AzureError where
  httpStatus : Option Nat
  message : String
deriving DecidableEq, Repr

/-- Whether a secret of the name is soft-deleted. -/
def isConflict (e : AzureError) : Bool := e.httpStatus == some 409

/-- Whether there is no such secret. -/
def isNotFound (e : AzureError) : Bool := e.httpStatus == some 404

/-- The requests, by the name of the secret, and the pauses between them. -/
inductive Op
  | setSecret (name value : String)
  | recoverDeletedSecret (name : String)
  | sleep (millis : Nat)
  | getSecret (name : String)
  | deleteSecret (name : String)
  | purgeDeletedSecret (name : String)
deriving DecidableEq, Repr

/-- A secret may have no value, and its model may not parse. -/
@[reducible] def Op.Answer : Op → Type
  | .setSecret _ _ => Except AzureError Unit
  | .recoverDeletedSecret _ => Except AzureError Unit
  | .sleep _ => Unit
  | .getSecret _ => Except AzureError (Except String (Option String))
  | .deleteSecret _ => Except AzureError Unit
  | .purgeDeletedSecret _ => Except AzureError Unit

/-- A call, with the secret cache of the client. -/
abbrev M := Proc Op Op.Answer SecretCache StorageError

variable (lib : Libraries)

/-- `qualify_key`. -/
def qualifyKey (key : String) : String := normalizeKey lib key

/-- Whether the secret was set; a conflict is no error yet. -/
def readSet (context : String) : Except AzureError Unit → Except StorageError Bool
  | .ok _ => .ok true
  | .error e =>
      if isConflict e then .ok false else .error (.backend s!"{context}: {e.message}")

/-- The start of a recovery. -/
def readRecovery (key : String) : Except AzureError Unit → Except StorageError Unit
  | .ok _ => .ok ()
  | .error e => .error (.backend
      s!"failed to initiate recovery of soft-deleted Azure secret '{key}': {e.message}")

/-- Try again at growing intervals, until the secret is set. -/
def awaitRecovery (key value : String) : List Nat → M Bool
  | [] => return false
  | attempt :: attempts => do
      let _ ← Proc.ask (Op.sleep (attempt * 200))
      if ← Proc.request (.setSecret (qualifyKey lib key) value)
          (readSet s!"failed to set Azure secret '{key}' after recovery") then
        return true
      else awaitRecovery key value attempts

/-- Recover a soft-deleted secret, and set it again. -/
def recoverAndSet (key value : String) : M Unit := do
  Proc.request (.recoverDeletedSecret (qualifyKey lib key)) (readRecovery key)
  if ← awaitRecovery lib key value (List.range' 1 10) then return ()
  else throw (.backend s!"timeout waiting for Azure secret '{key}' recovery to complete")

/-- `store`: set the secret, after a recovery if its name is soft-deleted. -/
def store (key value : String) : M Unit := do
  if ← Proc.request (.setSecret (qualifyKey lib key) value)
      (readSet s!"failed to set Azure secret '{key}'") then
    modify fun cache => cache.insert key value
  else
    recoverAndSet lib key value
    modify fun cache => cache.insert key value

/-- The value of a secret; one that is not found is no error. -/
def readModel (key : String) :
    Except AzureError (Except String (Option String)) → Except StorageError (Option String)
  | .ok (.ok value) => .ok value
  | .ok (.error e) => .error (.backend
      s!"failed to parse Azure secret response model for '{key}': {e}")
  | .error e =>
      if isNotFound e then .ok none
      else .error (.backend s!"Azure secret load failed for key '{key}': {e.message}")

/-- A request for the value, which then fills the cache. -/
def fetch (key : String) : M (Option String) := do
  match ← Proc.request (.getSecret (qualifyKey lib key)) (readModel key) with
  | some value => do
      modify fun cache => cache.insert key value
      return some value
  | none => return none

/-- `load`: from the cache, else from the vault. -/
def load (key : String) : M (Option String) := do
  match (← get).get key with
  | some value => return some value
  | none => fetch lib key

/-- Whether there was a secret to delete. -/
def readDeleted (key : String) : Except AzureError Unit → Except StorageError Bool
  | .ok _ => .ok true
  | .error e =>
      if isNotFound e then .ok false
      else .error (.backend s!"Azure secret delete failed for key '{key}': {e.message}")

/-- A secret that was deleted is purged, where the vault allows it. -/
def delete (key : String) : M Unit := do
  let deleted ← Proc.request (.deleteSecret (qualifyKey lib key)) (readDeleted key)
  modify fun cache => cache.invalidate key
  if deleted then Proc.request (.purgeDeletedSecret (qualifyKey lib key)) fun _ => .ok ()

/-- The client as a secret store; a store and an update are the same call. -/
def storage : Storage Op Op.Answer where
  store := store lib
  load := load lib
  delete := delete lib

/-- A truthful backend, by the values of the secrets that are not deleted.  A conflict and
a recovery may bring back the old value of their secret. -/
def Truthful : Answers Op Op.Answer (String → Option String)
  | .setSecret name value, values, result, values' =>
      match result with
      | .ok _ => values' = Function.update values name (some value)
      | .error e => isConflict e → ∀ other, other ≠ name → values' other = values other
  | .recoverDeletedSecret name, values, _, values' =>
      ∀ other, other ≠ name → values' other = values other
  | .sleep _, values, _, values' => values' = values
  | .getSecret name, values, result, values' =>
      values' = values ∧
      match result with
      | .ok model => ∀ value, model = .ok value → values name = value
      | .error e => isNotFound e → values name = none
  | .deleteSecret name, values, result, values' =>
      match result with
      | .ok _ => values' = Function.update values name none
      | .error e => isNotFound e → values' = values ∧ values name = none
  | .purgeDeletedSecret _, values, _, values' => values' = values

/-! ### Its calls are the accesses they stand for -/

open Proc

variable {lib : Libraries} {enabled : Bool} {history : List (Access String String)}
  {cache : SecretCache} {values : String → Option String}

/-- The values of all other secrets are the same. -/
def OthersKept (name : String) (values values' : String → Option String) : Prop :=
  ∀ other, other ≠ name → values' other = values other

/-- With the others kept, the value of one name says all. -/
theorem OthersKept.update_eq {name : String} {values' : String → Option String}
    (h : OthersKept name values values') (value : Option String) :
    Function.update values' name value = Function.update values name value := by
  funext other
  by_cases hother : other = name
  · subst hother
    simp
  · simp [hother, h other hother]

/-- A set request after others on the same secret. -/
theorem sure_setSecret {name value context : String} {values' : String → Option String}
    (h : OthersKept name values values') :
    Sure Truthful (fun _ => True) (fun set cache' now => cache' = cache ∧
        if set then now = Function.update values name (some value)
        else OthersKept name values now)
      (fun _ _ _ => True) (request (.setSecret name value) (readSet context)) cache values' := by
  refine sure_request_ok fun result now set henv hread => ⟨rfl, ?_⟩
  cases result with
  | ok _ =>
      cases hread
      exact henv.trans (h.update_eq _)
  | error e =>
      simp only [readSet] at hread
      split at hread
      · rename_i hconflict
        cases hread
        intro other hother
        rw [henv hconflict other hother, h other hother]
      · cases hread

/-- The attempts after a recovery, by induction on those that are left. -/
theorem sure_awaitRecovery (key value : String) (attempts : List Nat) :
    ∀ values', OthersKept (qualifyKey lib key) values values' →
      Sure Truthful (fun _ => True) (fun set cache' now => cache' = cache ∧ (set = true →
          now = Function.update values (qualifyKey lib key) (some value)))
        (fun _ _ _ => True) (awaitRecovery lib key value attempts) cache values' := by
  induction attempts with
  | nil =>
      intro values' _
      exact sure_pure ⟨rfl, fun h => by cases h⟩
  | cons attempt attempts ih =>
      intro values' h
      refine sure_bind (sure_ask fun _ now hslept => ⟨trivial, ?_⟩)
      obtain rfl := hslept
      refine sure_bind ((sure_setSecret h).mono ?_ fun _ _ _ _ => trivial)
      rintro (_ | _) cache' now ⟨rfl, hset⟩
      · exact ih now hset
      · exact sure_pure ⟨rfl, fun _ => hset⟩

/-- Setting a secret, with or without a recovery, writes the value. -/
theorem sure_store (h : Backed (qualifyKey lib) enabled history cache values)
    (key value : String) :
    Sure Truthful (fun _ => True)
      (fun _ => Backed (qualifyKey lib) enabled (history ++ [.write key value]))
      (fun _ _ _ => True) (store lib key value) cache values := by
  have hwritten := h.write key value
  refine sure_bind ((sure_setSecret fun _ _ => rfl).mono ?_ fun _ _ _ _ => trivial)
  rintro (_ | _) cache' values' ⟨rfl, hset⟩
  · refine sure_bind (sure_bind (sure_request_ok fun result recovering _ hrecovered _ => ?_))
    have hkept : OthersKept (qualifyKey lib key) values recovering := by
      intro other hother
      rw [hrecovered other hother, hset other hother]
    refine sure_bind ((sure_awaitRecovery key value _ recovering hkept).mono ?_
      fun _ _ _ _ => trivial)
    rintro (_ | _) cache'' now ⟨rfl, hset⟩
    · exact sure_throw trivial
    · rw [hset rfl]
      exact sure_pure (sure_modify hwritten)
  · rw [hset]
    exact sure_modify hwritten

/-- A load that misses the cache reads the value of the active secret. -/
theorem sure_fetch (h : Backed (qualifyKey lib) enabled history cache values) (key : String)
    (hmiss : cache.get key = none) :
    Sure Truthful (fun _ => True) (Loaded (qualifyKey lib) enabled history key)
      (fun _ _ _ => True) (fetch lib key) cache values := by
  refine sure_bind (sure_request_ok fun result values' answer henv hread => ?_)
  obtain ⟨rfl, henv⟩ := henv
  have hvalue : values' (qualifyKey lib key) = answer := by
    rcases result with e | (e | value)
    · simp only [readModel] at hread
      split at hread
      · rename_i hmissing
        cases hread
        exact henv hmissing
      · cases hread
    · cases hread
    · cases hread
      exact henv answer rfl
  cases answer with
  | some value => exact sure_bind (sure_modify (sure_pure (.of_found h hmiss hvalue)))
  | none => exact sure_pure (.of_missing h hmiss hvalue)

/-- A deletion removes the value. -/
theorem sure_delete (h : Backed (qualifyKey lib) enabled history cache values) (key : String) :
    Sure Truthful (fun _ => True)
      (fun _ => Backed (qualifyKey lib) enabled (history ++ [.remove key]))
      (fun _ _ _ => True) (delete lib key) cache values := by
  have hremoved := h.remove key
  refine sure_bind (sure_request_ok fun result values' deleted henv hread => ?_)
  refine sure_bind (sure_modify ?_)
  cases result with
  | ok _ =>
      cases hread
      obtain rfl := henv
      refine sure_request_ok fun _ now _ hpurged _ => ?_
      obtain rfl := hpurged
      exact hremoved
  | error e =>
      simp only [readDeleted] at hread
      split at hread
      · rename_i hmissing
        cases hread
        obtain ⟨rfl, habsent⟩ := henv hmissing
        rw [Function.update_eq_self_iff.mpr habsent.symm] at hremoved
        exact sure_pure hremoved
      · cases hread

/-- All calls keep the cache backed. -/
theorem keeps (lib : Libraries) : (storage lib).Keeps Truthful (qualifyKey lib) false where
  store := sure_store
  load h key := sure_cachedOr h (sure_fetch h key)
  update := sure_store
  delete := sure_delete

end AzureKeyVaultClient

/-! ## The law of both adapters -/

/-- **Loads return the latest values from Google and Azure as well.**  For all keys when
the cache is disabled, and otherwise for every key that is current; also when a secret had
to be created, or recovered from its deletion, before its value could be set. -/
theorem cloud_adapters_load_latest (lib : Libraries) :
    (∀ (client : GcpSecretManagerClient) (cacheEnabled : Bool) events s,
      ((client.storage lib).adapter (GcpSecretManagerClient.Truthful lib)).Sequence
        (emptyCache cacheEnabled, fun _ => none) events s →
      LoadsCached lib false cacheEnabled events ∧ LoadsLatest lib false
        (fun done key => cacheEnabled = false ∨ KeyCurrent lib false done key) events) ∧
    (∀ (cacheEnabled : Bool) events s,
      ((AzureKeyVaultClient.storage lib).adapter AzureKeyVaultClient.Truthful).Sequence
        (emptyCache cacheEnabled, fun _ => none) events s →
      LoadsCached lib false cacheEnabled events ∧ LoadsLatest lib false
        (fun done key => cacheEnabled = false ∨ KeyCurrent lib false done key) events) := by
  constructor
  · intro client cacheEnabled events s h
    have hencode := GcpSecretManagerClient.resourceName_injective client.projectParent
    have hloads := (client.keeps lib).loadsCached hencode h
    exact ⟨hloads, hloads.loadsLatest⟩
  · intro cacheEnabled events s h
    have hloads := (AzureKeyVaultClient.keeps lib).loadsCached Function.injective_id h
    exact ⟨hloads, hloads.loadsLatest⟩

namespace AzureKeyVaultClient

/-! ### A Key Vault -/

/-- A secret of the vault.  After its deletion it is kept until it is recovered, which takes
until so many more requests have been refused. -/
inductive SecretState
  | absent
  | active (value : String)
  | softDeleted (value : String)
  | recovering (value : String) (refusals : Nat)
deriving DecidableEq, Repr

/-- The secrets that are not deleted. -/
def activeValues (vault : String → SecretState) (name : String) : Option String :=
  match vault name with
  | .active value => some value
  | _ => none

/-- A change of one secret changes its value only. -/
theorem activeValues_update (vault : String → SecretState) (name : String) (state : SecretState) :
    activeValues (Function.update vault name state) =
      Function.update (activeValues vault) name (activeValues (fun _ => state) name) := by
  funext other
  by_cases hother : other = name
  · subst hother
    simp [activeValues]
  · simp [activeValues, hother]

/-- A vault that is up and does not allow to purge.  It refuses to set a secret that is
soft-deleted, and twice more while it recovers. -/
def answer : (op : Op) → (String → SecretState) → op.Answer × (String → SecretState)
  | .setSecret name value, vault =>
      match vault name with
      | .softDeleted _ => (.error ⟨some 409, "soft-deleted"⟩, vault)
      | .recovering old (refusals + 1) =>
          (.error ⟨some 409, "being recovered"⟩,
            Function.update vault name (.recovering old refusals))
      | _ => (.ok (), Function.update vault name (.active value))
  | .recoverDeletedSecret name, vault =>
      match vault name with
      | .softDeleted old => (.ok (), Function.update vault name (.recovering old 2))
      | _ => (.error ⟨some 404, "not deleted"⟩, vault)
  | .sleep _, vault => ((), vault)
  | .getSecret name, vault =>
      match activeValues vault name with
      | some value => (.ok (.ok (some value)), vault)
      | none => (.error ⟨some 404, "not found"⟩, vault)
  | .deleteSecret name, vault =>
      match vault name with
      | .active value => (.ok (), Function.update vault name (.softDeleted value))
      | _ => (.error ⟨some 404, "not found"⟩, vault)
  | .purgeDeletedSecret _, vault => (.error ⟨some 403, "purge protection"⟩, vault)

/-- The sample vault answers truthfully. -/
theorem truthful_answer (op : Op) (vault : String → SecretState) :
    Truthful op (activeValues vault) (answer op vault).1 (activeValues (answer op vault).2) := by
  cases op with
  | setSecret name value =>
      cases hstate : vault name with
      | absent =>
          simp only [answer, hstate]
          exact activeValues_update vault name _
      | active old =>
          simp only [answer, hstate]
          exact activeValues_update vault name _
      | softDeleted old =>
          simp only [answer, hstate]
          exact fun _ _ _ => rfl
      | recovering old refusals =>
          cases refusals with
          | zero =>
              simp only [answer, hstate]
              exact activeValues_update vault name _
          | succ refusals =>
              simp only [answer, hstate]
              intro _ other hother
              rw [activeValues_update, Function.update_of_ne hother]
  | recoverDeletedSecret name =>
      intro other hother
      simp only [answer]
      split
      · rw [activeValues_update, Function.update_of_ne hother]
      · rfl
  | sleep millis => rfl
  | getSecret name =>
      cases hvalue : activeValues vault name with
      | some value =>
          simp only [answer, hvalue]
          refine ⟨rfl, fun value' hmodel => ?_⟩
          cases hmodel
          exact hvalue
      | none =>
          simp only [answer, hvalue]
          exact ⟨rfl, fun _ => hvalue⟩
  | deleteSecret name =>
      cases hstate : vault name with
      | active value =>
          simp only [answer, hstate]
          exact activeValues_update vault name _
      | absent | softDeleted old | recovering old refusals =>
          simp only [answer, hstate]
          exact fun _ => ⟨rfl, by simp [activeValues, hstate]⟩
  | purgeDeletedSecret name => rfl

end AzureKeyVaultClient

/-- A value that is stored, which creates its secret, overwritten, read through two keys,
deleted and stored again; the other key is still cached then. -/
def storedAgain : List StorageEvent :=
  rewritten ++ [⟨.store "a.b" "third", none⟩, ⟨.load "a.b", some "third"⟩,
    ⟨.load "a-b", some "new"⟩, ⟨.load "a.b", some "third"⟩]

/-- The theorem where the secret is created, on both providers, and is gone or soft-deleted
when it is stored again. -/
theorem cloud_adapters_load_latest_stored_again :
    (∃ s, (((GcpSecretManagerClient.mk "p").storage sampleLibraries).adapter
        (GcpSecretManagerClient.Truthful sampleLibraries)).Sequence
          (emptyCache true, fun _ => none) storedAgain s ∧
      LoadsCached sampleLibraries false true storedAgain ∧ LoadsLatest sampleLibraries false
        (fun done key => true = false ∨ KeyCurrent sampleLibraries false done key) storedAgain) ∧
    ∃ s, ((AzureKeyVaultClient.storage sampleLibraries).adapter
        AzureKeyVaultClient.Truthful).Sequence (emptyCache true, fun _ => none) storedAgain s ∧
      LoadsCached sampleLibraries false true storedAgain ∧ LoadsLatest sampleLibraries false
        (fun done key => true = false ∨ KeyCurrent sampleLibraries false done key)
        storedAgain := by
  have hgcp : (storedAgain.foldlM (((GcpSecretManagerClient.mk "p").storage
      sampleLibraries).expect GcpSecretManagerClient.answer)
      (emptyCache true, fun _ => none)).isSome := by
    decide +kernel
  have hazure : (storedAgain.foldlM ((AzureKeyVaultClient.storage sampleLibraries).expect
      AzureKeyVaultClient.answer) (emptyCache true, fun _ => .absent)).isSome := by
    decide +kernel
  obtain ⟨s, hs⟩ := Option.isSome_iff_exists.mp hgcp
  obtain ⟨s', hs'⟩ := Option.isSome_iff_exists.mp hazure
  have hsequence := Storage.sequence_of_expect (GcpSecretManagerClient.latestTexts sampleLibraries)
    (fun op w => GcpSecretManagerClient.truthful_of_service sampleLibraries
      (GcpSecretManagerClient.service_answer op w)) hs
  have hsequence' := Storage.sequence_of_expect AzureKeyVaultClient.activeValues
    AzureKeyVaultClient.truthful_answer hs'
  exact ⟨⟨_, hsequence, (cloud_adapters_load_latest sampleLibraries).1 ⟨"p"⟩ true _ _ hsequence⟩,
    _, hsequence', (cloud_adapters_load_latest sampleLibraries).2 true _ _ hsequence'⟩

end StatusListServer
