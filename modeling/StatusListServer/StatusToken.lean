import StatusListServer.Service
import StatusListServer.CertMaterial

/-!
# The status list token

`build_status_list_token` of `handlers/status_list/utils/token.rs`: the signing
material is asked for, the validity window defaults to the clock and the
configured lifetime, and the record is signed as a JWT or a CWT.  The signing,
CBOR and compression libraries are the parameter `TokenLibrary`.
-/

namespace StatusListServer

open BitStream

/-- The two formats a token is served in. -/
inductive TokenFormat
  | jwt
  | cwt
deriving DecidableEq, Repr

/-- The media type of a token. -/
def TokenFormat.mediaType : TokenFormat → String
  | .jwt => "application/statuslist+jwt"
  | .cwt => "application/statuslist+cwt"

/-- The settings of the application state that the public handlers read. -/
structure TokenSettings where
  tokenExpSecs : BitVec 64
  tokenTtlSecs : BitVec 64
  aggregationUri : Option String
deriving DecidableEq, Repr

/-- A CBOR value. -/
inductive CborValue
  | integer (value : Int)
  | text (value : String)
  | bytes (value : List Byte)
  | array (values : List CborValue)
  | map (entries : List (CborValue × CborValue))

/-- The list as a claim. -/
structure StatusListClaims where
  bits : BitVec 8
  lst : String
  aggregationUri : Option String
deriving DecidableEq, Repr

/-- The claims of a token. -/
structure StatusListToken where
  exp : Option Int
  iat : Int
  statusList : StatusListClaims
  sub : String
  ttl : Option Int
deriving DecidableEq, Repr

/-- The libraries behind the token. -/
structure TokenLibrary where
  Keypair : Type
  EncodingKey : Type
  fromPkcs8Pem : String → Except String Keypair
  toPkcs8PemBytes : Keypair → Except String (List Byte)
  fromEcPem : List Byte → Except String EncodingKey
  encodeJwt : String → List String → StatusListToken → EncodingKey → Except String String
  decodeBase64Url : String → Except String (List Byte)
  decodeBase64Standard : String → Except String (List Byte)
  cborToVec : CborValue → Except String (List Byte)
  coseSign1 : CborValue → String → List Byte → Keypair → Except String (List Byte)
  gzip : List Byte → Except String (List Byte)

variable (lib : TokenLibrary)

/-- An error of a library behind the token. -/
def TokenLibrary.backend {α : Type} (x : Except String α) : Except StatusListError α :=
  x.mapError .backend

/-- `build_x5chain`: one certificate alone, several as an array. -/
def buildX5chain (certChain : List String) : Except StatusListError CborValue := do
  let certsDer ← TokenLibrary.backend (certChain.mapM lib.decodeBase64Standard)
  match certsDer with
  | [der] => return .bytes der
  | _ => return .array (certsDer.map .bytes)

/-- The claims of a CWT, by their integer labels. -/
def cwtClaims (statusRecord : StatusListRecord) (lstBytes : List Byte)
    (aggregationUri : Option String) (iat exp : Int) (tokenTtlSecs : BitVec 64) : CborValue :=
  .map [(.integer 2, .text statusRecord.sub), (.integer 6, .integer iat),
    (.integer 4, .integer exp), (.integer 65534, .integer tokenTtlSecs.toNat),
    (.integer 65533, .map ([(.text "bits", .integer statusRecord.statusList.bits.toNat),
      (.text "lst", .bytes lstBytes)] ++
      aggregationUri.toList.map (fun uri => (.text "aggregation_uri", .text uri))))]

/-- `issue_cwt`. -/
def issueCwt (statusRecord : StatusListRecord) (keypair : lib.Keypair) (certChain : List String)
    (aggregationUri : Option String) (iat exp : Int) (tokenTtlSecs : BitVec 64) :
    Except StatusListError (List Byte) := do
  let lstBytes ← TokenLibrary.backend (lib.decodeBase64Url statusRecord.statusList.lst)
  let payload ← TokenLibrary.backend
    (lib.cborToVec (cwtClaims statusRecord lstBytes aggregationUri iat exp tokenTtlSecs))
  let x5chain ← buildX5chain lib certChain
  TokenLibrary.backend (lib.coseSign1 x5chain "application/statuslist+cwt" payload keypair)

/-- `issue_jwt`. -/
def issueJwt (statusRecord : StatusListRecord) (keypair : lib.Keypair) (certChain : List String)
    (aggregationUri : Option String) (iat exp : Int) (tokenTtlSecs : BitVec 64) :
    Except StatusListError String := do
  let claims : StatusListToken :=
    { exp := some exp
      iat := iat
      statusList := ⟨statusRecord.statusList.bits, statusRecord.statusList.lst, aggregationUri⟩
      sub := statusRecord.sub
      ttl := some tokenTtlSecs.toInt }
  let pemBytes ← TokenLibrary.backend (lib.toPkcs8PemBytes keypair)
  let signer ← TokenLibrary.backend (lib.fromEcPem pemBytes)
  TokenLibrary.backend (lib.encodeJwt "statuslist+jwt" certChain claims signer)

/-- The validity window of a token that is issued now. -/
def defaultWindow (settings : TokenSettings) (now : Int) : Int × Int :=
  (now, expOf now settings.tokenExpSecs)

/-- The token and its content encoding.  `material` is the answer of the
certificate provider and `now` the clock. -/
def buildStatusListToken (settings : TokenSettings) (accept : TokenFormat)
    (statusRecord : StatusListRecord) (validityWindow : Option (Int × Int))
    (clientAcceptsGzip : Bool) (material : Except String SigningMaterial) (now : Int) :
    Except StatusListError (List Byte × Option String) := do
  let signingMaterial ← TokenLibrary.backend material
  match signingMaterial.certificateChain with
  | none => .error .unavailable
  | some certsParts =>
      let (iat, exp) := validityWindow.getD (defaultWindow settings now)
      let keypair ← TokenLibrary.backend (lib.fromPkcs8Pem signingMaterial.signingKeyPem)
      let tokenBytes ←
        match accept with
        | .cwt =>
            issueCwt lib statusRecord keypair certsParts settings.aggregationUri iat exp
              settings.tokenTtlSecs
        | .jwt =>
            (issueJwt lib statusRecord keypair certsParts settings.aggregationUri iat exp
              settings.tokenTtlSecs).map utf8
      if clientAcceptsGzip && decide (accept = .jwt) then
        let compressed ← TokenLibrary.backend (lib.gzip tokenBytes)
        return (compressed, some "gzip")
      else
        return (tokenBytes, none)

variable {lib}

/-- A JWT is what the signer returns for the claims. -/
theorem issueJwt_of_ok {statusRecord : StatusListRecord} {chain : List String}
    {uri : Option String} {iat exp : Int} {ttl : BitVec 64} {keypair : lib.Keypair}
    {pemBytes : List Byte} {signer : lib.EncodingKey} {jwt : String}
    (hpem : lib.toPkcs8PemBytes keypair = .ok pemBytes)
    (hsigner : lib.fromEcPem pemBytes = .ok signer)
    (hjwt : ∀ claims, lib.encodeJwt "statuslist+jwt" chain claims signer = .ok jwt) :
    issueJwt lib statusRecord keypair chain uri iat exp ttl = .ok jwt := by
  simp only [issueJwt, hpem, TokenLibrary.backend, Except.mapError]
  change (TokenLibrary.backend (lib.fromEcPem pemBytes) >>= _) = _
  rw [hsigner]
  change TokenLibrary.backend (lib.encodeJwt _ _ _ _) = _
  rw [hjwt]
  rfl

/-- A JWT for a client that does not ask for compression. -/
theorem buildStatusListToken_jwt (settings : TokenSettings) {statusRecord : StatusListRecord}
    {chain : List String} {signingKeyPem jwt : String} (now : Int) {keypair : lib.Keypair}
    (hkey : lib.fromPkcs8Pem signingKeyPem = .ok keypair)
    (hjwt : issueJwt lib statusRecord keypair chain settings.aggregationUri now
      (expOf now settings.tokenExpSecs) settings.tokenTtlSecs = .ok jwt) :
    buildStatusListToken lib settings .jwt statusRecord none false
      (.ok ⟨some chain, signingKeyPem⟩) now = .ok (utf8 jwt, none) := by
  simp only [buildStatusListToken, TokenLibrary.backend, Except.mapError]
  change (TokenLibrary.backend (lib.fromPkcs8Pem signingKeyPem) >>= _) = _
  rw [hkey]
  change (Except.map utf8 (issueJwt lib statusRecord keypair chain settings.aggregationUri now
    (expOf now settings.tokenExpSecs) settings.tokenTtlSecs) >>= _) = _
  rw [hjwt]
  rfl

end StatusListServer
