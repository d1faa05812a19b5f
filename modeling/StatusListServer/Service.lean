import StatusListServer.Interaction
import StatusListServer.StatusList

/-!
# The service and its ports

The operations of `domain/service.rs`, written over the ports of
`domain/ports.rs`: each call of a repository, of the cache, of the clock or of
the id generator is one operation of a program, in the order of the source.
Several calls running at once are then any interleaving of their operations.

Time stamps are `i64` seconds in the source and integers here; a stamp that
reaches the maximum of `i64` is outside the model.  The cast and the addition
that compute a snapshot's `exp` wrap, as they do in a release build.
-/

namespace StatusListServer

open BitStream CheckedEval Interaction

/-- Unique issuer identifier. -/
structure Issuer where
  name : String
deriving DecidableEq, Repr

/-- The bytes of a JSON Web Key document. -/
structure PublicJwk where
  bytes : List Byte
deriving DecidableEq, Repr

/-- An issuer's registered public key. -/
structure Credential where
  issuer : Issuer
  publicKey : PublicJwk
deriving DecidableEq, Repr

/-- Domain errors of credentials. -/
inductive CredentialError
  | invalidPublicJwk (message : String)
  | alreadyExists
  | contention (code : String)
  | backend (message : String)
deriving DecidableEq, Repr

/-- A published list: the row of its current version. -/
structure StatusListRecord where
  listId : String
  issuer : Issuer
  statusList : StatusList
  sub : String
  updatedAt : Int
deriving DecidableEq, Repr

/-- A version kept for historical resolution, valid from `iat` until `exp`. -/
structure StatusListSnapshot where
  snapshotId : String
  listId : String
  issuer : Issuer
  statusList : StatusList
  sub : String
  iat : Int
  exp : Int
deriving DecidableEq, Repr

/-- The operations of the repositories. -/
inductive StoreOp
  | find (listId : String)
  | insert (record : StatusListRecord)
  | update (record : StatusListRecord) (expectedUpdatedAt : Int)
  | updateWithSnapshot (record : StatusListRecord) (expectedUpdatedAt : Int)
      (snapshot : StatusListSnapshot)
  | insertWithSnapshot (record : StatusListRecord) (snapshot : StatusListSnapshot)
  | listUris
  | findValidAt (listId : String) (time : Int)
  | deleteOlderThan (cutoff : Int)
  | findCredential (issuer : String)
  | insertCredential (credential : Credential)

/-- What the stores answer. -/
@[reducible] def StoreOp.Answer : StoreOp → Type
  | .find _ => Except StatusListError (Option StatusListRecord)
  | .insert _ => Except StatusListError Unit
  | .update _ _ => Except StatusListError Bool
  | .updateWithSnapshot _ _ _ => Except StatusListError Bool
  | .insertWithSnapshot _ _ => Except StatusListError Unit
  | .listUris => Except StatusListError (List String)
  | .findValidAt _ _ => Except StatusListError (Option StatusListSnapshot)
  | .deleteOlderThan _ => Except StatusListError Nat
  | .findCredential _ => Except CredentialError (Option Credential)
  | .insertCredential _ => Except CredentialError Unit

/-- The operations of the record cache. -/
inductive CacheOp
  | get (listId : String)
  | put (record : StatusListRecord)
  | invalidate (listId : String)

/-- What the cache answers. -/
@[reducible] def CacheOp.Answer : CacheOp → Type
  | .get _ => Except StatusListError (Option StatusListRecord)
  | .put _ => Except StatusListError Unit
  | .invalidate _ => Except StatusListError Unit

/-- Everything a request handler calls: the repositories, the cache, the two
clocks and the id generator.  `sweepBatch` is one statement of a sweep, for an
adapter that does not sweep at once. -/
inductive Port
  | store (op : StoreOp)
  | sweepBatch (cutoff : Int)
  | cache (op : CacheOp)
  | currentUnixTimestamp
  | systemTime
  | newUuid

/-- What the ports answer. -/
@[reducible] def Port.Answer : Port → Type
  | .store op => op.Answer
  | .sweepBatch _ => Except StatusListError Nat
  | .cache op => op.Answer
  | .currentUnixTimestamp => Int
  | .systemTime => Except String Nat
  | .newUuid => String

/-- Programs over the ports. -/
abbrev PortProg := Prog Port Port.Answer

/-- Service functions end with a value, a domain error or a panic. -/
abbrev ServiceM := ExceptT (Fault StatusListError) PortProg

namespace ServiceM

/-- Call one port operation. -/
def ask (op : Port) : ServiceM op.Answer := ExceptT.lift (Prog.ask op)

/-- Use a computation without port calls. -/
def ofEval {α : Type} (x : Eval StatusListError α) : ServiceM α := ExceptT.mk (pure x)

/-- The `?` operator on the answer of a port. -/
def ofAnswer {α : Type} (x : Except StatusListError α) : ServiceM α :=
  ofEval (x.mapError .error)

/-- `ok_or`. -/
def okOr {α : Type} (x : Option α) (e : StatusListError) : ServiceM α :=
  ofEval (match x with
    | some a => .ok a
    | none => fail e)

/-- Return early with an error. -/
def err {α : Type} (e : StatusListError) : ServiceM α := ofEval (fail e)

end ServiceM

/-- The service container.  Its ports are the operations above; what is left of
it is the codec its status lists use and whether a snapshot repository is
injected. -/
structure Service where
  codec : Codec
  snapshotsEnabled : Bool

/-- The limits a caller passes to `publish_status_list` and `update_statuses`. -/
structure Limits where
  tokenExpSecs : BitVec 64
  maxStatusIndex : Int32
  maxStatusesPerRequest : Nat
  maxSerializedListSize : Nat
deriving DecidableEq, Repr

/-- `next_updated_at`: the clock, unless it has not advanced. -/
def nextUpdatedAt (previous now : Int) : Int := max now (previous + 1)

/-- The `i64` that a mathematical integer wraps to. -/
def wrapI64 (n : Int) : Int := n.bmod (2 ^ 64)

/-- `iat + token_exp_secs as i64`. -/
def expOf (iat : Int) (tokenExpSecs : BitVec 64) : Int := wrapI64 (iat + tokenExpSecs.toInt)

/-- The snapshot of a record under an identifier. -/
def snapshotOf (snapshotId : String) (record : StatusListRecord)
    (tokenExpSecs : BitVec 64) : StatusListSnapshot where
  snapshotId := snapshotId
  listId := record.listId
  issuer := record.issuer
  statusList := record.statusList
  sub := record.sub
  iat := record.updatedAt
  exp := expOf record.updatedAt tokenExpSecs

/-- `build_snapshot`. -/
def buildSnapshot (record : StatusListRecord) (tokenExpSecs : BitVec 64) :
    ServiceM StatusListSnapshot := do
  let snapshotId ← ServiceM.ask .newUuid
  return snapshotOf snapshotId record tokenExpSecs

/-- The request checks that publishing and updating share. -/
def checkStatuses (statuses : List StatusEntry) (limits : Limits) :
    Eval StatusListError Unit :=
  if limits.maxStatusesPerRequest < statuses.length then
    fail (.tooManyStatuses statuses.length limits.maxStatusesPerRequest)
  else
    match statuses.find? (fun entry => decide (limits.maxStatusIndex < entry.index)) with
    | some entry => fail (.indexTooLarge entry.index limits.maxStatusIndex)
    | none => .ok ()

/-- The size check on the text of a list. -/
def checkSize (list : StatusList) (limits : Limits) : Eval StatusListError Unit :=
  if limits.maxSerializedListSize < list.lst.utf8ByteSize then fail .tooLarge else .ok ()

/-- A failed invalidation is logged and swallowed. -/
def invalidateAfterCommit (listId : String) : ServiceM Unit := do
  let _ ← ServiceM.ask (.cache <| .invalidate listId)

namespace Service

/-- `publish_status_list`. -/
def publishStatusList (self : Service) (listId : String) (issuer : Issuer) (sub : String)
    (statuses : List StatusEntry) (limits : Limits) : ServiceM StatusListRecord := do
  ServiceM.ofEval (checkStatuses statuses limits)
  let statusList ← ServiceM.ofEval (StatusList.create self.codec statuses)
  let updatedAt ← ServiceM.ask .currentUnixTimestamp
  let record : StatusListRecord := ⟨listId, issuer, statusList, sub, updatedAt⟩
  ServiceM.ofEval (checkSize record.statusList limits)
  if self.snapshotsEnabled then
    let snapshot ← buildSnapshot record limits.tokenExpSecs
    let answer ← ServiceM.ask (.store <| .insertWithSnapshot record snapshot)
    ServiceM.ofAnswer answer
  else
    let answer ← ServiceM.ask (.store <| .insert record)
    ServiceM.ofAnswer answer
  return record

/-- `update_statuses`. -/
def updateStatuses (self : Service) (issuer : Issuer) (listId : String)
    (statuses : List StatusEntry) (limits : Limits) : ServiceM StatusListRecord := do
  ServiceM.ofEval (checkStatuses statuses limits)
  let answer ← ServiceM.ask (.store <| .find listId)
  let found ← ServiceM.ofAnswer answer
  let existing ← ServiceM.okOr found .notFound
  if existing.issuer ≠ issuer then
    ServiceM.err .issuerMismatch
  let statusList ← ServiceM.ofEval (StatusList.update self.codec existing.statusList statuses)
  ServiceM.ofEval (checkSize statusList limits)
  let previousUpdatedAt := existing.updatedAt
  let now ← ServiceM.ask .currentUnixTimestamp
  let record : StatusListRecord :=
    { existing with statusList, updatedAt := nextUpdatedAt previousUpdatedAt now }
  let landed ← if self.snapshotsEnabled then do
      let snapshot ← buildSnapshot record limits.tokenExpSecs
      let answer ← ServiceM.ask (.store <| .updateWithSnapshot record previousUpdatedAt snapshot)
      ServiceM.ofAnswer answer
    else do
      let answer ← ServiceM.ask (.store <| .update record previousUpdatedAt)
      ServiceM.ofAnswer answer
  if landed = false then
    ServiceM.err .conflict
  invalidateAfterCommit record.listId
  return record

/-- A failed cache read counts as a miss and a failed cache write is ignored. -/
def getStatusList (_self : Service) (listId : String) : ServiceM StatusListRecord := do
  match ← ServiceM.ask (.cache <| .get listId) with
  | .ok (some record) => return record
  | _ =>
      let answer ← ServiceM.ask (.store <| .find listId)
      let found ← ServiceM.ofAnswer answer
      let record ← ServiceM.okOr found .notFound
      let _ ← ServiceM.ask (.cache <| .put record)
      return record

/-- `list_uris`. -/
def listUris (_self : Service) : ServiceM (List String) := do
  let answer ← ServiceM.ask (.store .listUris)
  ServiceM.ofAnswer answer

/-- `get_snapshot_at`. -/
def getSnapshotAt (self : Service) (listId : String) (time : Int) :
    ServiceM StatusListSnapshot := do
  if self.snapshotsEnabled = false then
    ServiceM.err .notFound
  let answer ← ServiceM.ask (.store <| .findValidAt listId time)
  let found ← ServiceM.ofAnswer answer
  ServiceM.okOr found .historicalNotFound

/-- `cleanup_snapshots`. -/
def cleanupSnapshots (self : Service) (cutoff : Int) : ServiceM Nat := do
  if self.snapshotsEnabled = false then
    return 0
  let answer ← ServiceM.ask (.store <| .deleteOlderThan cutoff)
  ServiceM.ofAnswer answer

/-- `publish_credential`. -/
def publishCredential (credential : Credential) : PortProg (Except CredentialError Unit) :=
  Prog.ask (Port.store <| .insertCredential credential)

/-- `find_credential`. -/
def findCredential (issuer : String) :
    PortProg (Except CredentialError (Option Credential)) :=
  Prog.ask (Port.store <| .findCredential issuer)

end Service

end StatusListServer
