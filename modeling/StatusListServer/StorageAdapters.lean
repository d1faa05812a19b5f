import Mathlib.Data.List.Basic
import StatusListServer.CachedMap
import StatusListServer.ProgramLogic
import StatusListServer.SecretNames
import StatusListServer.UrlSyntax

/-!
# The storage adapters of the certificate manager

The `Storage` interface has four calls.  `MemoryStorage` (`cert_manager/storage.rs`)
keeps a map in memory, `VaultClient` (`outbound/vault.rs`) talks to the KV v2 interface
of Vault or OpenBao, and `AwsSecretsManager` (`outbound/aws.rs`) to AWS.  All three
normalise a key before they use it; the caches of the last two are indexed by the key
as it was given.

An adapter is a procedure over the requests it makes, with its cache for a memory.  A
truthful backend stores what it is told and answers with what it has stored; a request
may fail, and then the call fails.
-/

namespace StatusListServer

open Interaction CachedMap

/-- A call of the `Storage` interface. -/
inductive StorageCall
  | store (key value : String)
  | load (key : String)
  | update (key value : String)
  | delete (key : String)
deriving DecidableEq, Repr

/-- The entries of a cache, within their time to live; none when it is disabled. -/
abbrev SecretCache := Cache String String

/-- The `Storage` interface, for an adapter that makes requests `Op`.  Unless an adapter
says otherwise, `update` stores. -/
structure Storage (Op : Type) (Res : Op → Type) where
  store : String → String → Proc Op Res SecretCache StorageError Unit
  load : String → Proc Op Res SecretCache StorageError (Option String)
  update : String → String → Proc Op Res SecretCache StorageError Unit := store
  delete : String → Proc Op Res SecretCache StorageError Unit

/-- Make a call; only a load has a value to return. -/
def Storage.perform {Op : Type} {Res : Op → Type} (storage : Storage Op Res) :
    StorageCall → Proc Op Res SecretCache StorageError (Option String)
  | .store key value => do
      storage.store key value
      return none
  | .load key => storage.load key
  | .update key value => do
      storage.update key value
      return none
  | .delete key => do
      storage.delete key
      return none

/-! ## In memory -/

namespace MemoryStorage

variable (lib : Libraries) (values : String → Option String)

/-- `store`: the later value replaces the earlier one. -/
def store (key value : String) : String → Option String :=
  Function.update values (normalizeKey lib key) (some value)

/-- `load`. -/
def load (key : String) : Option String := values (normalizeKey lib key)

/-- `delete`. -/
def delete (key : String) : String → Option String :=
  Function.update values (normalizeKey lib key) none

/-- What a call returns, and the map after it.  `update` is the one of the interface,
which stores. -/
def perform : StorageCall → Except StorageError (Option String) × (String → Option String)
  | .store key value => (.ok none, store lib values key value)
  | .load key => (.ok (load lib values key), values)
  | .update key value => (.ok none, store lib values key value)
  | .delete key => (.ok none, delete lib values key)

end MemoryStorage

/-! ## Vault and OpenBao -/

/-- The part of the client that its paths depend on. -/
structure VaultClient where
  pathPrefix : String
deriving DecidableEq, Repr

namespace VaultClient

/-- The bytes that stand for themselves in a segment of a path. -/
def isSegmentByte (b : UInt8) : Bool :=
  (Char.ofNat b.toNat).isAlphanum ||
    ['-', '_', '.', '~', '!', '$', '&', '\'', '(', ')', '*', '+', ',', ';', '=', ':', '@'].contains
      (Char.ofNat b.toNat)

/-- `encode_path_segment`. -/
def encodePathSegment (segment : List Char) : List Char :=
  Url.encode isSegmentByte (Utf8.bytes segment)

variable (client : VaultClient) (lib : Libraries)

/-- The path of a normalised key before it is encoded. -/
def rawPath (normalized : String) : String :=
  if client.pathPrefix.isEmpty then normalized
  else if client.pathPrefix.toList.getLast? = some '/' then client.pathPrefix ++ normalized
  else client.pathPrefix ++ "/" ++ normalized

/-- A path with every segment of it encoded. -/
def encodePath (raw : String) : String :=
  String.ofList (['/'].intercalate ((raw.toList.splitOn '/').map encodePathSegment))

/-- `qualify_key`: the segments between the slashes, each encoded. -/
def qualifyKey (key : String) : String :=
  encodePath (client.rawPath (normalizeKey lib key))

/-- A token for a request, and the requests themselves: to `data` or `metadata` under
the address and the mount of the client. -/
inductive Op
  | authHeaders
  | postData (path value : String)
  | getData (path : String)
  | deleteMetadata (path : String)
deriving DecidableEq, Repr

/-- What the server answers. -/
@[reducible] def Op.Answer : Op → Type
  | .authHeaders => Except StorageError Unit
  | .postData _ _ => Reply Unit
  | .getData _ => Reply String
  | .deleteMetadata _ => Reply Unit

/-- A call, with the secret cache of the client. -/
abbrev M := Proc Op Op.Answer SecretCache StorageError

/-- `add_auth_headers`: a token, or an error. -/
def addAuthHeaders : M Unit := Proc.request .authHeaders id

/-- The error of a refused request. -/
def accessDenied (path : String) : StorageError :=
  .backend s!"vault access denied for path '{path}'"

/-- The error of a failed request. -/
def requestFailed (action path : String) (status : StatusCode) : StorageError :=
  .backend s!"vault {action} failed for path '{path}': HTTP {status}"

/-- The reply to a store. -/
def readStored (path : String) : Reply Unit → Except StorageError Unit
  | .failed message => .error (.backend message)
  | .response status _ _ =>
      if status.isSuccess then .ok ()
      else if status.code = 403 then .error (accessDenied path)
      else .error (requestFailed "store" path status)

/-- The reply to a load; 404 means no secret. -/
def readLoaded (path : String) : Reply String → Except StorageError (Option String)
  | .failed message => .error (.backend message)
  | .response status _ json =>
      if status.code = 200 then
        match json with
        | .error message => .error (.backend message)
        | .ok value => .ok (some value)
      else if status.code = 404 then .ok none
      else if status.code = 403 then .error (accessDenied path)
      else .error (requestFailed "load" path status)

/-- A value that is not there is deleted already. -/
def readDeleted (path : String) : Reply Unit → Except StorageError Unit
  | .failed message => .error (.backend message)
  | .response status _ _ =>
      if status.isSuccess || status.code = 404 then .ok ()
      else if status.code = 403 then .error (accessDenied path)
      else .error (requestFailed "delete" path status)

/-- `store`, which also caches the value. -/
def store (key value : String) : M Unit := do
  let path := client.qualifyKey lib key
  addAuthHeaders
  Proc.request (.postData path value) (readStored path)
  modify fun cache => cache.insert key value

/-- A request for the value, which then fills the cache. -/
def fetch (key : String) : M (Option String) := do
  let path := client.qualifyKey lib key
  addAuthHeaders
  match ← Proc.request (.getData path) (readLoaded path) with
  | some value => do
      modify fun cache => cache.insert key value
      return some value
  | none => return none

/-- `load`: from the cache, else from the server. -/
def load (key : String) : M (Option String) := do
  match (← get).get key with
  | some value => return some value
  | none => client.fetch lib key

/-- All versions of the value are deleted. -/
def delete (key : String) : M Unit := do
  let path := client.qualifyKey lib key
  addAuthHeaders
  Proc.request (.deleteMetadata path) (readDeleted path)
  modify fun cache => cache.invalidate key

/-- The client as a secret store; a store and an update are the same call. -/
def storage : Storage Op Op.Answer where
  store := client.store lib
  load := client.load lib
  delete := client.delete lib

/-- A truthful backend: the values by path. -/
def Truthful : Answers Op Op.Answer (String → Option String)
  | .authHeaders, values, _, values' => values' = values
  | .postData path value, values, reply, values' =>
      match reply with
      | .failed _ => True
      | .response status _ _ =>
          status.isSuccess → values' = Function.update values path (some value)
  | .getData path, values, reply, values' =>
      values' = values ∧
      match reply with
      | .failed _ => True
      | .response status _ json =>
          (status.code = 200 → ∀ value, json = .ok value → values path = some value) ∧
          (status.code = 404 → values path = none)
  | .deleteMetadata path, values, reply, values' =>
      match reply with
      | .failed _ => True
      | .response status _ _ =>
          status.isSuccess ∨ status.code = 404 → values' = Function.update values path none

end VaultClient

/-! ## AWS Secrets Manager -/

namespace AwsSecretsManager

/-- What the service answers. -/
inductive SdkResult (α : Type)
  | ok (a : α)
  | resourceNotFound (message : String)
  | failed (message : String)

/-- The requests, by the name of the secret. -/
inductive Op
  | describeSecret (name : String)
  | createSecret (name value : String)
  | getSecretValue (name : String)
  | putSecretValue (name value : String)
  | deleteSecret (name : String)
deriving DecidableEq, Repr

/-- A secret may have no text. -/
@[reducible] def Op.Answer : Op → Type
  | .describeSecret _ => SdkResult Unit
  | .createSecret _ _ => SdkResult Unit
  | .getSecretValue _ => SdkResult (Option String)
  | .putSecretValue _ _ => SdkResult Unit
  | .deleteSecret _ => SdkResult Unit

/-- A call, with the secret cache of the client. -/
abbrev M := Proc Op Op.Answer SecretCache StorageError

/-- Any error of the service ends the call. -/
def orFail {α : Type} : SdkResult α → Except StorageError α
  | .ok a => .ok a
  | .resourceNotFound message => .error (.backend message)
  | .failed message => .error (.backend message)

/-- A secret that is not found is no error. -/
def orNone {α : Type} : SdkResult α → Except StorageError (Option α)
  | .ok a => .ok (some a)
  | .resourceNotFound _ => .ok none
  | .failed message => .error (.backend message)

variable (lib : Libraries)

/-- Store a secret only if it does not already exist. -/
def store (name data : String) : M Unit := do
  let secretName := normalizeKey lib name
  match ← Proc.request (.describeSecret secretName) orNone with
  | some _ => return ()
  | none => Proc.request (.createSecret secretName data) orFail

/-- A request for the value, which then fills the cache. -/
def fetch (name : String) : M (Option String) := do
  match ← Proc.request (.getSecretValue (normalizeKey lib name)) orNone with
  | some (some secretString) => do
      modify fun cache => cache.insert name secretString
      return some secretString
  | some none => return none
  | none => return none

/-- `load`: from the cache, else from the service. -/
def load (name : String) : M (Option String) := do
  match (← get).get name with
  | some value => return some value
  | none => fetch lib name

/-- `update`, which also caches the value. -/
def update (name data : String) : M Unit := do
  Proc.request (.putSecretValue (normalizeKey lib name) data) orFail
  modify fun cache => cache.insert name data

/-- `delete`, which also empties the cache of the name. -/
def delete (name : String) : M Unit := do
  Proc.request (.deleteSecret (normalizeKey lib name)) orFail
  modify fun cache => cache.invalidate name

/-- The client as a secret store. -/
def storage : Storage Op Op.Answer where
  store := store lib
  load := load lib
  update := update lib
  delete := delete lib

/-- A truthful backend: the values by name. -/
def Truthful : Answers Op Op.Answer (String → Option String)
  | .describeSecret name, values, result, values' =>
      values' = values ∧
      match result with
      | .ok _ => (values name).isSome
      | .resourceNotFound _ => values name = none
      | .failed _ => True
  | .createSecret name value, values, result, values' =>
      match result with
      | .ok _ => values' = Function.update values name (some value)
      | _ => True
  | .getSecretValue name, values, result, values' =>
      values' = values ∧
      match result with
      | .ok value => values name = value
      | .resourceNotFound _ => values name = none
      | .failed _ => True
  | .putSecretValue name value, values, result, values' =>
      match result with
      | .ok _ => values' = Function.update values name (some value)
      | _ => True
  | .deleteSecret name, values, result, values' =>
      match result with
      | .ok _ => values' = Function.update values name none
      | _ => True

end AwsSecretsManager

/-! ## Paths and names -/

namespace VaultClient

/-- The bytes that stand for themselves in a path. -/
def isPathByte (b : UInt8) : Bool := isSegmentByte b || b = '/'.toUInt8

/-- The bytes that are kept stand for themselves. -/
theorem plain_isPathByte : Url.Plain isPathByte := by
  intro b h
  have hall : ∀ n < 256, isPathByte (UInt8.ofNat n) = true → n < 128 ∧ n ≠ 37 := by
    decide +kernel
  exact hall b.toNat b.toNat_lt (by rwa [UInt8.ofNat_toNat])

/-- Only a slash has the byte of a slash. -/
theorem slash_not_mem_utf8EncodeChar {c : Char} (h : c ≠ '/') :
    '/'.toUInt8 ∉ String.utf8EncodeChar c := by
  intro hmem
  obtain ⟨i, hi⟩ := List.getElem?_of_mem hmem
  have hbytes : Utf8.bytes [c] = String.utf8EncodeChar c := by simp [Utf8.bytes]
  have hbyte : (Utf8.bytes [c])[i]? = some '/'.val.toUInt8 := by
    rw [hbytes]
    exact hi
  obtain ⟨a, b, hab, -⟩ := Utf8.exists_append_of_getElem?_bytes (by decide) hbyte
  cases a with
  | nil => exact h (List.cons.inj hab).1
  | cons d a => simp at hab

/-- Other characters are encoded as in a segment. -/
theorem encode_isPathByte {c : Char} (h : c ≠ '/') :
    Url.encode isPathByte (String.utf8EncodeChar c) =
      Url.encode isSegmentByte (String.utf8EncodeChar c) := by
  refine List.flatMap_congr fun b hb => ?_
  have hne : b ≠ '/'.toUInt8 := fun heq => slash_not_mem_utf8EncodeChar h (heq ▸ hb)
  simp [Url.encodeByte, isPathByte, hne]

/-- Encoding the segments is encoding the path with the slashes kept. -/
theorem encodePath_eq (raw : String) :
    (encodePath raw).toList = Url.encode isPathByte (Utf8.bytes raw.toList) := by
  rw [encodePath, String.toList_ofList]
  generalize raw.toList = cs
  induction cs with
  | nil => rfl
  | cons c cs ih =>
      have hbytes : Utf8.bytes (c :: cs) = String.utf8EncodeChar c ++ Utf8.bytes cs := by
        simp [Utf8.bytes]
      have hmap : (cs.splitOn '/').map encodePathSegment ≠ [] := by
        simp [List.splitOn_ne_nil]
      rw [hbytes, Url.encode_append, ← ih, List.splitOn_cons_eq_if_modifyHead]
      by_cases hc : c = '/'
      · subst hc
        rw [if_pos (by rfl), List.map_cons, List.intercalate_cons_of_ne_nil hmap]
        rfl
      · rw [if_neg (by simpa using hc), encode_isPathByte hc]
        cases hsplit : cs.splitOn '/' with
        | nil => exact absurd hsplit (List.splitOn_ne_nil _ _)
        | cons first rest =>
            have hsegment : encodePathSegment (c :: first) =
                Url.encode isSegmentByte (String.utf8EncodeChar c) ++ encodePathSegment first := by
              simp [encodePathSegment, Utf8.bytes, Url.encode]
            rw [List.modifyHead_cons, List.map_cons, List.map_cons, hsegment]
            cases rest with
            | nil => simp
            | cons next rest =>
                rw [List.intercalate_cons_of_ne_nil (by simp),
                  List.intercalate_cons_of_ne_nil (by simp)]
                simp

/-- Different paths are encoded differently. -/
theorem encodePath_injective : Function.Injective encodePath := by
  intro a b h
  have ha := Url.decodeText_encode plain_isPathByte a.toList
  rw [← encodePath_eq, h, encodePath_eq, Url.decodeText_encode plain_isPathByte] at ha
  exact (String.toList_inj.mp (Option.some.inj ha)).symm

/-- Different keys have different paths. -/
theorem rawPath_injective (client : VaultClient) : Function.Injective client.rawPath := by
  intro a b h
  unfold rawPath at h
  split at h
  · exact h
  · split at h
    · exact (String.append_right_inj _).mp h
    · exact (String.append_right_inj _).mp h

end VaultClient

end StatusListServer
