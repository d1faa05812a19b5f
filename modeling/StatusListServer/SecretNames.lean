import StatusListServer.BitStream

/-!
# The libraries of the certificate manager and the names of its secrets

The libraries behind the certificate manager (X.509, PEM, PKCS#8, P-256, the
public suffix list, SHA-256, base64 decoding, serde) are the fields of
`Libraries`; a theorem that relies on one of them names the law it uses.

A manager derives three names from its domains, one each for its certificate,
its ACME account and its signing key.  They are normalised for all secrets
backends alike, as in `cert_manager/storage.rs`.  Names of different kinds never
meet; when two names of one kind do is said in terms of the domain lists.
-/

namespace StatusListServer

open BitStream

/-- Errors of a secrets backend. -/
inductive StorageError
  | backend (message : String)
  | invalidData (message : String)
deriving DecidableEq, Repr

/-- The status of a reply. -/
structure StatusCode where
  code : Nat
  reason : String
deriving DecidableEq, Repr

instance : ToString StatusCode := ⟨fun status => toString status.code ++ " " ++ status.reason⟩

/-- Any status from 200 to 299. -/
def StatusCode.isSuccess (status : StatusCode) : Bool := 200 ≤ status.code && status.code < 300

/-- What a client sees of an HTTP request: that it failed, or a status with the
body as text and as the value it parses to. -/
inductive Reply (β : Type)
  | failed (message : String)
  | response (status : StatusCode) (text : String) (json : Except String β)

/-- Errors of `utils/keygen.rs`. -/
inductive KeyError
  | keyGen (message : String)
  | parsing (message : String)
deriving DecidableEq, Repr

/-- The message of a key error. -/
def KeyError.display : KeyError → String
  | .keyGen message => "Failed to generate key: " ++ message
  | .parsing message => "Failed to parse key: " ++ message

/-- Errors of an ACME challenge handler. -/
inductive ChallengeError
  | dns (provider message : String)
  | zoneNotFound (domain : String)
  | storage (error : StorageError)
  | io (message : String)
  | awsSdk (message : String)
  | other (message : String)
deriving DecidableEq, Repr

/-- Errors of the certificate manager. -/
inductive CertError
  | acme (message : String)
  | storage (error : StorageError)
  | challenge (error : ChallengeError)
  | parsing (message : String)
  | serde (message : String)
  | keyOp (error : KeyError)
  | validation (message : String)
  | other (message : String)
deriving DecidableEq, Repr

/-- A PEM block. -/
structure Pem where
  label : String
  contents : List Byte
deriving DecidableEq, Repr

/-- What is read of an X.509 certificate: the bits of its public key and its
validity. -/
structure X509 where
  publicKey : List Byte
  notBefore : Int
  notAfter : Int
deriving DecidableEq, Repr

/-- A P-256 signing key, by the bytes of its secret scalar. -/
structure SigningKey where
  scalar : List Byte
deriving DecidableEq, Repr

/-- The certificate and its metadata, as stored. -/
structure CertificateData where
  certificate : String
  validFrom : Int
  expiresAt : Int
  updatedAt : Int
deriving DecidableEq, Repr

/-- The parameters of a certificate signing request. -/
structure CertificateParams where
  subjectAltNames : List String
  commonName : String
  organizationName : Option String
  extendedKeyUsage : Option (List Nat)
deriving DecidableEq, Repr

/-- The credentials of an ACME account. -/
structure AccountCredentials where
  id : String
deriving DecidableEq, Repr

/-- The base64 variants that stored text may be encoded in. -/
inductive Base64Engine
  | standard
  | standardNoPad
  | urlSafe
  | urlSafeNoPad
deriving DecidableEq, Repr

/-- The libraries the certificate manager calls. -/
structure Libraries where
  /-- The registrable domain of a domain name. -/
  effectiveTldPlusOne : String → Option String
  /-- The hexadecimal SHA-256 digest of a text. -/
  sha256Hex : String → String
  /-- The message for bytes that are not UTF-8. -/
  utf8Error : List Byte → String
  decodeBase64 : Base64Engine → String → Option (List Byte)
  /-- The first PEM block of a text. -/
  parseX509Pem : String → Except String Pem
  /-- All PEM blocks of a text, in order. -/
  pemBlocks : String → List (Except String Pem)
  /-- The PEM text of some blocks. -/
  encodeMany : List Pem → String
  /-- The certificate at the front of some DER bytes, and the bytes after it. -/
  parseX509Certificate : List Byte → Except String (List Byte × X509)
  fromPkcs8Pem : String → Except String SigningKey
  fromPkcs8Der : List Byte → Except String SigningKey
  toPkcs8Pem : SigningKey → Except String String
  /-- The key with a given secret scalar. -/
  fromSlice : List Byte → Except String SigningKey
  /-- The uncompressed SEC1 point of the public key. -/
  verifyingKey : SigningKey → List Byte
  /-- The check of a key text for token signing. -/
  fromEcPem : String → Except String Unit
  certificateDataToJson : CertificateData → Except String String
  certificateDataFromJson : String → Except String CertificateData
  credentialsToJson : AccountCredentials → Except String String
  credentialsFromJson : String → Except String AccountCredentials
  /-- A DER certificate signing request, signed with a key text. -/
  serializeRequest : CertificateParams → String → Except String (List Byte)
  /-- The public key a signing request asks a certificate for. -/
  requestKey : List Byte → Option (List Byte)

/-! ## Names of secrets -/

section Names

variable (lib : Libraries)

/-- Characters outside `[0-9a-zA-Z-]` become `-`. -/
def sanitizeChar (c : Char) : Char :=
  if c.isAlphanum || c = '-' then c else '-'

/-- A name that is valid in every secrets backend: at most 127 characters, a
longer one cut and completed with a digest of the whole. -/
def normalizeKey (key : String) : String :=
  let sanitized := key.toList.map sanitizeChar
  if sanitized.length > 127 then
    String.ofList (sanitized.take 110 ++ '-' :: (lib.sha256Hex key).toList.take 16)
  else
    String.ofList sanitized

/-- The registrable domain of the first domain. -/
def tldPlusOne : List String → String
  | [] => ""
  | first :: _ => (lib.effectiveTldPlusOne first).getD first

/-- The name of the stored certificate. -/
def certKey (domains : List String) : String :=
  normalizeKey lib ("certs-" ++ tldPlusOne lib domains ++ "-cert_data.json")

/-- The name of the stored ACME account. -/
def acmeAccountId (domains : List String) : String :=
  normalizeKey lib ("acme_accounts-" ++ tldPlusOne lib domains)

/-- The name of the stored signing key. -/
def signingSecretId (domains : List String) : String :=
  normalizeKey lib ("keys-" ++ "-".intercalate domains)

/-- Normalisation keeps the first character of a name, up to sanitising. -/
theorem head_normalizeKey (key : String) :
    (normalizeKey lib key).toList.head? = key.toList.head?.map sanitizeChar := by
  unfold normalizeKey
  cases hkey : key.toList with
  | nil => simp
  | cons c rest =>
      dsimp only
      split
      · simp
      · simp

/-- How the name of a certificate begins. -/
theorem head_certKey (domains : List String) : (certKey lib domains).toList.head? = some 'c' := by
  rw [certKey, head_normalizeKey]
  simp [sanitizeChar]

/-- How the name of an account begins. -/
theorem head_acmeAccountId (domains : List String) :
    (acmeAccountId lib domains).toList.head? = some 'a' := by
  rw [acmeAccountId, head_normalizeKey]
  simp [sanitizeChar]

/-- How the name of a key begins. -/
theorem head_signingSecretId (domains : List String) :
    (signingSecretId lib domains).toList.head? = some 'k' := by
  rw [signingSecretId, head_normalizeKey]
  simp [sanitizeChar]

/-- **The three kinds of names never meet**, whatever the domains are. -/
theorem certKey_ne_signingSecretId (d d' : List String) :
    certKey lib d ≠ signingSecretId lib d' := by
  intro h
  have hhead := head_certKey lib d
  rw [h, head_signingSecretId] at hhead
  simp at hhead

/-- No account has the name of a certificate. -/
theorem acmeAccountId_ne_certKey (d d' : List String) :
    acmeAccountId lib d ≠ certKey lib d' := by
  intro h
  have hhead := head_acmeAccountId lib d
  rw [h, head_certKey] at hhead
  simp at hhead

/-- No account has the name of a key. -/
theorem acmeAccountId_ne_signingSecretId (d d' : List String) :
    acmeAccountId lib d ≠ signingSecretId lib d' := by
  intro h
  have hhead := head_acmeAccountId lib d
  rw [h, head_signingSecretId] at hhead
  simp at hhead

/-! ### Names that meet -/

/-- A text with all characters that some secrets backend refuses replaced. -/
def sanitize (text : String) : List Char := text.toList.map sanitizeChar

/-- How the name of a text beyond 127 characters ends. -/
def digestSuffix (text : String) : List Char := '-' :: (lib.sha256Hex text).toList.take 16

/-- Two texts that read the same in a name, between the same words: they are the
same once sanitised; or both names are too long, are cut to the same text and have
digests that begin alike; or one of them is spelt like the other one's cut name. -/
inductive ReadsAs (before after : String) : String → String → Prop
  | whole {x y : String} (hfits : (before ++ x ++ after).length ≤ 127)
      (hsame : sanitize x = sanitize y) : ReadsAs before after x y
  | cut {x y : String} (hx : 127 < (before ++ x ++ after).length)
      (hy : 127 < (before ++ y ++ after).length)
      (hsame : (sanitize (before ++ x ++ after)).take 110 =
        (sanitize (before ++ y ++ after)).take 110)
      (hdigest : digestSuffix lib (before ++ x ++ after) =
        digestSuffix lib (before ++ y ++ after)) : ReadsAs before after x y
  | spelt {x y : String} (hx : (before ++ x ++ after).length ≤ 127)
      (hy : 127 < (before ++ y ++ after).length)
      (hsame : sanitize (before ++ x ++ after) =
        (sanitize (before ++ y ++ after)).take 110 ++ digestSuffix lib (before ++ y ++ after)) :
      ReadsAs before after x y
  | speltBy {x y : String} (hx : 127 < (before ++ x ++ after).length)
      (hy : (before ++ y ++ after).length ≤ 127)
      (hsame : (sanitize (before ++ x ++ after)).take 110 ++
        digestSuffix lib (before ++ x ++ after) = sanitize (before ++ y ++ after)) :
      ReadsAs before after x y

/-- No character is lost. -/
@[simp] theorem length_sanitize (text : String) : (sanitize text).length = text.length := by
  simp [sanitize, String.length_toList]

/-- Texts are sanitised character by character. -/
theorem sanitize_append (x y : String) : sanitize (x ++ y) = sanitize x ++ sanitize y := by
  simp [sanitize]

/-- A short key is only sanitised. -/
theorem normalizeKey_of_fits {key : String} (h : key.length ≤ 127) :
    normalizeKey lib key = String.ofList (sanitize key) := by
  have hlength : ¬ (key.toList.map sanitizeChar).length > 127 := by
    rw [List.length_map, String.length_toList]
    omega
  simp only [normalizeKey, if_neg hlength]
  rfl

/-- A long key is cut, and its digest appended. -/
theorem normalizeKey_of_long {key : String} (h : 127 < key.length) :
    normalizeKey lib key = String.ofList ((sanitize key).take 110 ++ digestSuffix lib key) := by
  have hlength : (key.toList.map sanitizeChar).length > 127 := by
    rwa [List.length_map, String.length_toList]
  simp only [normalizeKey, if_pos hlength]
  rfl

/-- **Which texts normalisation does not keep apart.** -/
theorem normalizeKey_eq_iff (before after x y : String) :
    normalizeKey lib (before ++ x ++ after) = normalizeKey lib (before ++ y ++ after) ↔
      ReadsAs lib before after x y := by
  have hwhole : sanitize (before ++ x ++ after) = sanitize (before ++ y ++ after) ↔
      sanitize x = sanitize y := by
    simp [sanitize_append]
  by_cases hx : (before ++ x ++ after).length ≤ 127 <;>
    by_cases hy : (before ++ y ++ after).length ≤ 127
  · rw [normalizeKey_of_fits lib hx, normalizeKey_of_fits lib hy, String.ofList_inj, hwhole]
    constructor
    · exact .whole hx
    · rintro (⟨_, h⟩ | ⟨hlong, _⟩ | ⟨_, hlong⟩ | ⟨hlong, _⟩)
      · exact h
      all_goals omega
  · rw [normalizeKey_of_fits lib hx, normalizeKey_of_long lib (Nat.lt_of_not_le hy),
      String.ofList_inj]
    constructor
    · exact .spelt hx (Nat.lt_of_not_le hy)
    · rintro (⟨_, h⟩ | ⟨hlong, _⟩ | ⟨_, _, h⟩ | ⟨hlong, _⟩)
      · have hlength := congrArg List.length (hwhole.mpr h)
        simp only [length_sanitize] at hlength
        omega
      · omega
      · exact h
      · omega
  · rw [normalizeKey_of_long lib (Nat.lt_of_not_le hx), normalizeKey_of_fits lib hy,
      String.ofList_inj]
    constructor
    · exact .speltBy (Nat.lt_of_not_le hx) hy
    · rintro (⟨hfits, _⟩ | ⟨_, hlong, _⟩ | ⟨hfits, _⟩ | ⟨_, _, h⟩)
      · exact absurd hfits hx
      · omega
      · exact absurd hfits hx
      · exact h
  · rw [normalizeKey_of_long lib (Nat.lt_of_not_le hx),
      normalizeKey_of_long lib (Nat.lt_of_not_le hy), String.ofList_inj]
    constructor
    · intro h
      obtain ⟨hsame, hdigest⟩ := List.append_inj h (by
        simp only [List.length_take, length_sanitize]
        omega)
      exact .cut (Nat.lt_of_not_le hx) (Nat.lt_of_not_le hy) hsame hdigest
    · rintro (⟨hfits, _⟩ | ⟨_, _, hsame, hdigest⟩ | ⟨hfits, _⟩ | ⟨_, hfits, _⟩)
      · exact absurd hfits hx
      · rw [hsame, hdigest]
      · exact absurd hfits hx
      · exact absurd hfits hy

/-- The registrable domains of the first entries read the same. -/
def SameRegistrable (d d' : List String) : Prop :=
  ReadsAs lib "certs-" "-cert_data.json" (tldPlusOne lib d) (tldPlusOne lib d')

/-- The joined domains read the same. -/
def SameJoined (d d' : List String) : Prop :=
  ReadsAs lib "keys-" "" ("-".intercalate d) ("-".intercalate d')

/-- Lists share the certificate's name exactly if their first registrable domains
read the same. -/
theorem certKey_eq_iff (d d' : List String) :
    certKey lib d = certKey lib d' ↔ SameRegistrable lib d d' :=
  normalizeKey_eq_iff lib _ _ _ _

/-- Lists share the signing key's name exactly if they read the same once joined. -/
theorem signingSecretId_eq_iff (d d' : List String) :
    signingSecretId lib d = signingSecretId lib d' ↔ SameJoined lib d d' := by
  have h := normalizeKey_eq_iff lib "keys-" "" ("-".intercalate d) ("-".intercalate d')
  rwa [String.append_empty, String.append_empty] at h

end Names

end StatusListServer
