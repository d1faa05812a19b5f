import Mathlib.Data.List.Basic
import StatusListServer.CheckedEval
import StatusListServer.SecretNames
import StatusListServer.TextTrimming

/-!
# Certificates and signing keys

The pure part of `utils/cert_manager.rs`, `cert_manager/strategy.rs` and
`outbound/cert.rs`: how certificate and key material is recognised, decoded and
parsed, and the check that a certificate belongs to a signing key.
-/

namespace StatusListServer

open BitStream TextTrimming

/-! ## Text and bytes -/

/-- The UTF-8 bytes of a text. -/
def utf8 (s : String) : List Byte := s.toUTF8.data.toList.map UInt8.toBitVec

/-- The text of UTF-8 bytes. -/
def fromUtf8 (lib : Libraries) (bytes : List Byte) : Except String String :=
  match String.fromUTF8? ⟨(bytes.map UInt8.ofBitVec).toArray⟩ with
  | some s => .ok s
  | none => .error (lib.utf8Error bytes)

/-- Text is read back. -/
theorem fromUtf8_utf8 (lib : Libraries) (text : String) : fromUtf8 lib (utf8 text) = .ok text := by
  have hbytes : (⟨((utf8 text).map UInt8.ofBitVec).toArray⟩ : ByteArray) = text.toUTF8 := by
    simp [utf8, List.map_map, Function.comp_def]
  have hvalid : text.toUTF8.IsValidUTF8 := text.isValidUTF8
  have hread : String.fromUTF8? text.toUTF8 = some text := by
    rw [String.fromUTF8?, dif_pos hvalid]
    rfl
  unfold fromUtf8
  rw [hbytes, hread]

/-- `needle` stands somewhere in `hay`. -/
def hasWindow {α : Type} [BEq α] (needle hay : List α) : Bool :=
  hay.tails.any needle.isPrefixOf

/-- Whether the bytes contain a PEM certificate. -/
def isPemCertificate (bytes : List Byte) : Bool :=
  hasWindow (utf8 "-----BEGIN CERTIFICATE-----") bytes

/-- Whether the bytes contain a PEM private key of any kind. -/
def isPemPrivateKey (bytes : List Byte) : Bool :=
  hasWindow (utf8 "-----BEGIN ") bytes

/-- The standard base64 alphabet. -/
def base64Digit (n : Nat) : Char :=
  if n < 26 then Char.ofNat (n + 65)
  else if n < 52 then Char.ofNat (n + 71)
  else if n < 62 then Char.ofNat (n - 4)
  else if n = 62 then '+'
  else '/'

/-- Three bytes are written as four digits, and a shorter end is padded. -/
def base64Chars : List Byte → List Char
  | [] => []
  | [a] =>
      [base64Digit (a.toNat / 4), base64Digit (a.toNat % 4 * 16), '=', '=']
  | [a, b] =>
      [base64Digit (a.toNat / 4), base64Digit (a.toNat % 4 * 16 + b.toNat / 16),
        base64Digit (b.toNat % 16 * 4), '=']
  | a :: b :: c :: rest =>
      base64Digit (a.toNat / 4) :: base64Digit (a.toNat % 4 * 16 + b.toNat / 16) ::
        base64Digit (b.toNat % 16 * 4 + c.toNat / 64) :: base64Digit (c.toNat % 64) ::
        base64Chars rest

/-- `BASE64_STANDARD.encode`. -/
def base64Standard (bytes : List Byte) : String := String.ofList (base64Chars bytes)

/-! ## Decoding and checking material -/

section Material

variable (lib : Libraries)

/-- The first alphabet that decodes the whole text wins. -/
def decodeBase64Text (value : String) : Option (List Byte) :=
  (lib.decodeBase64 .standard value).or <| (lib.decodeBase64 .standardNoPad value).or <|
    (lib.decodeBase64 .urlSafe value).or (lib.decodeBase64 .urlSafeNoPad value)

/-- Material kept as text: PEM as it is, anything else as encoded DER. -/
def decodeTextMaterial (value label : String) : Except CertError (List Byte) :=
  if hasWindow "-----BEGIN ".toList value.toList then
    .ok (utf8 value)
  else
    let compact := String.ofList (value.toList.filter (!isWhitespace ·))
    if compact = "" then
      .error (.validation (label ++ " material is empty"))
    else
      match decodeBase64Text lib compact with
      | some bytes => .ok bytes
      | none =>
          .error (.validation
            (label ++ " material must be PEM text or base64/base64url-encoded DER"))

/-- The PEM text of a private key given as PEM or DER. -/
def normalizePkcs8Key (signingKey : List Byte) : Except CertError String :=
  if isPemPrivateKey signingKey then
    match fromUtf8 lib signingKey with
    | .error e => .error (.validation ("signing key PEM is not valid UTF-8: " ++ e))
    | .ok pem =>
        match lib.fromPkcs8Pem pem with
        | .error e => .error (.keyOp (.parsing e))
        | .ok _ => .ok pem
  else
    match lib.fromPkcs8Der signingKey with
    | .error e => .error (.keyOp (.parsing e))
    | .ok key => (lib.toPkcs8Pem key).mapError (fun e => .keyOp (.parsing e))

/-- A PEM certificate with contents; anything else is refused. -/
def parseCertPem (certPem : String) : Except CertError Pem :=
  match lib.parseX509Pem certPem with
  | .error e => .error (.parsing e)
  | .ok pem =>
      if pem.label ≠ "CERTIFICATE" ∨ pem.contents = [] then
        .error (.parsing "Invalid X509 certificate")
      else
        .ok pem

/-- A PEM certificate with its validity. -/
def certificateFromPem (certificatePem : String) : Except CertError (String × Int × Int) := do
  let pem ← parseCertPem lib certificatePem
  let (_, x509) ← (lib.parseX509Certificate pem.contents).mapError .parsing
  return (certificatePem, x509.notBefore, x509.notAfter)

/-- The loop of `cert_der_chain_to_pem`: split off one certificate after the
other.  Every round consumes at least one byte, so `fuel` rounds are enough for
`fuel` bytes. -/
def splitDerChain (fuel : Nat) (remaining : List Byte) (certs : List Pem)
    (validity : Option (Int × Int)) : Except CertError (List Pem × Option (Int × Int)) :=
  match fuel, remaining with
  | _, [] => .ok (certs, validity)
  | 0, _ :: _ => .ok (certs, validity)
  | fuel + 1, b :: bs =>
      match lib.parseX509Certificate (b :: bs) with
      | .error e => .error (.parsing ("invalid DER certificate chain: " ++ e))
      | .ok (next, cert) =>
          let consumed := (b :: bs).length - next.length
          if consumed = 0 then
            .error (.parsing "invalid DER certificate chain: parser made no progress")
          else
            splitDerChain fuel next (certs ++ [⟨"CERTIFICATE", (b :: bs).take consumed⟩])
              (validity.or (some (cert.notBefore, cert.notAfter)))

/-- A DER chain as PEM, with the validity of its first certificate. -/
def certDerChainToPem (certificateDer : List Byte) : Except CertError (String × Int × Int) := do
  let (certs, validity) ← splitDerChain lib certificateDer.length certificateDer [] none
  match validity with
  | none => .error (.parsing "empty DER certificate chain")
  | some (validFrom, expiresAt) => return (lib.encodeMany certs, validFrom, expiresAt)

/-- A certificate given as PEM or DER, as PEM with its validity. -/
def certificateFromDerOrPem (certificate : List Byte) : Except CertError (String × Int × Int) :=
  if isPemCertificate certificate then
    match fromUtf8 lib certificate with
    | .error e => .error (.validation ("certificate PEM is not valid UTF-8: " ++ e))
    | .ok certificatePem => certificateFromPem lib certificatePem
  else
    certDerChainToPem lib certificate

/-- The base64 DER parts of a PEM chain, as tokens carry them. -/
def parseCertChainParts (certPem : String) : Except CertError (List String) :=
  (lib.pemBlocks certPem).mapM fun block =>
    match block with
    | .ok pem => .ok (base64Standard pem.contents)
    | .error e => .error (.parsing e)

/-- The public key of a signing key given as text. -/
def publicKeyOf (signingKeyPem : String) : Option (List Byte) :=
  match lib.fromPkcs8Pem signingKeyPem with
  | .ok key => some (lib.verifyingKey key)
  | .error _ => none

/-- The public key of the first certificate of a PEM text. -/
def leafKey (certPem : String) : Option (List Byte) :=
  match lib.parseX509Pem certPem with
  | .error _ => none
  | .ok pem =>
      match lib.parseX509Certificate pem.contents with
      | .ok (_, x509) => some x509.publicKey
      | .error _ => none

/-- The check that a certificate and a signing key belong together.  An error is
the text inside the backend error the source returns. -/
def validateSigningMaterial (certPem signingKeyPem : String) : Except String Unit :=
  match lib.fromPkcs8Pem signingKeyPem with
  | .error e => .error (KeyError.parsing e).display
  | .ok keypair =>
      match lib.parseX509Pem certPem with
      | .error e => .error e
      | .ok pem =>
          match lib.parseX509Certificate pem.contents with
          | .error e => .error e
          | .ok (_, certificate) =>
              if certificate.publicKey ≠ lib.verifyingKey keypair then
                .error "certificate public key does not match signing key"
              else
                lib.fromEcPem signingKeyPem

variable {lib} {certPem signingKeyPem label : String} {der : List Byte} {key : SigningKey}

/-- The public key of a text that is a signing key. -/
theorem publicKeyOf_of_ok (hkey : lib.fromPkcs8Pem signingKeyPem = .ok key) :
    publicKeyOf lib signingKeyPem = some (lib.verifyingKey key) := by
  simp [publicKeyOf, hkey]

/-- A single block is a chain of one part. -/
theorem parseCertChainParts_of_single (hblocks : lib.pemBlocks certPem = [.ok ⟨label, der⟩]) :
    parseCertChainParts lib certPem = .ok [base64Standard der] := by
  simp [parseCertChainParts, hblocks]

/-- A PEM certificate is taken with its validity. -/
theorem certificateFromPem_of_ok {rest : List Byte} {x509 : X509}
    (hpem : lib.parseX509Pem certPem = .ok ⟨"CERTIFICATE", der⟩) (hne : der ≠ [])
    (hparse : lib.parseX509Certificate der = .ok (rest, x509)) :
    certificateFromPem lib certPem = .ok (certPem, x509.notBefore, x509.notAfter) := by
  have hpem' : parseCertPem lib certPem = .ok ⟨"CERTIFICATE", der⟩ := by
    simp [parseCertPem, hpem, hne]
  rw [certificateFromPem, hpem']
  change (lib.parseX509Certificate der).mapError _ >>= _ = _
  rw [hparse]
  rfl

/-- A certificate for the public key of the signing key passes the check. -/
theorem validateSigningMaterial_of_ok {rest : List Byte} {notBefore notAfter : Int}
    (hkey : lib.fromPkcs8Pem signingKeyPem = .ok key)
    (hpem : lib.parseX509Pem certPem = .ok ⟨label, der⟩)
    (hcertificate : lib.parseX509Certificate der =
      .ok (rest, ⟨lib.verifyingKey key, notBefore, notAfter⟩)) :
    validateSigningMaterial lib certPem signingKeyPem = lib.fromEcPem signingKeyPem := by
  simp [validateSigningMaterial, hkey, hpem, hcertificate]

/-- A single DER certificate is taken as it is. -/
theorem certificateFromDerOrPem_of_single {x509 : X509} (hder : isPemCertificate der = false)
    (hne : der ≠ []) (hparse : lib.parseX509Certificate der = .ok ([], x509)) :
    certificateFromDerOrPem lib der =
      .ok (lib.encodeMany [⟨"CERTIFICATE", der⟩], x509.notBefore, x509.notAfter) := by
  have hsplit : splitDerChain lib der.length der [] none =
      .ok ([⟨"CERTIFICATE", der⟩], some (x509.notBefore, x509.notAfter)) := by
    cases der with
    | nil => exact absurd rfl hne
    | cons d ds => simp [splitDerChain, hparse]
  unfold certificateFromDerOrPem certDerChainToPem
  rw [hder, hsplit]
  rfl

end Material

/-! ## Matching pairs -/

/-- Certificate chain and signing key captured from one snapshot. -/
structure SigningMaterial where
  certificateChain : Option (List String)
  signingKeyPem : String
deriving DecidableEq, Repr

section Matching

variable (lib : Libraries)

/-- The first entry of the chain is a certificate for the public key of the
signing key. -/
def MatchingPair (chain : List String) (signingKeyPem : String) : Prop :=
  ∃ der rest x509 tail, chain = base64Standard der :: tail ∧
    lib.parseX509Certificate der = .ok (rest, x509) ∧
    publicKeyOf lib signingKeyPem = some x509.publicKey

/-- The PEM iterator starts with the block that parsing one block finds. -/
def Libraries.PemIteration : Prop :=
  ∀ text pem, lib.parseX509Pem text = .ok pem →
    ∃ later, lib.pemBlocks text = .ok pem :: later

/-- What serde writes it can read back. -/
def Libraries.SerdeRoundTrip : Prop :=
  ∀ data text, lib.certificateDataToJson data = .ok text →
    lib.certificateDataFromJson text = .ok data

variable {lib}

/-- Validated material carries one public key. -/
theorem leafKey_of_validate {certPem signingKeyPem : String}
    (h : validateSigningMaterial lib certPem signingKeyPem = .ok ()) :
    ∃ pk, leafKey lib certPem = some pk ∧ publicKeyOf lib signingKeyPem = some pk := by
  unfold validateSigningMaterial at h
  split at h
  · cases h
  · rename_i key hkey
    split at h
    · cases h
    · rename_i pem hpem
      split at h
      · cases h
      · rename_i rest x509 hx509
        split at h
        · cases h
        · rename_i hmatch
          refine ⟨x509.publicKey, ?_, ?_⟩
          · simp [leafKey, hpem, hx509]
          · simp only [publicKeyOf, hkey]
            rw [not_not.mp hmatch]

/-- The parts of a chain whose leaf has the public key of a signing key are a
matching pair with it. -/
theorem matchingPair_of_leafKey (hpem : lib.PemIteration) {certPem signingKeyPem : String}
    {parts : List String} {pk : List Byte} (hparts : parseCertChainParts lib certPem = .ok parts)
    (hleaf : leafKey lib certPem = some pk) (hkey : publicKeyOf lib signingKeyPem = some pk) :
    MatchingPair lib parts signingKeyPem := by
  unfold leafKey at hleaf
  split at hleaf
  · cases hleaf
  · rename_i pem hfirst
    split at hleaf
    · rename_i rest x509 hx509
      cases hleaf
      obtain ⟨later, hblocks⟩ := hpem _ _ hfirst
      unfold parseCertChainParts at hparts
      rw [hblocks, List.mapM_cons] at hparts
      obtain ⟨first, hok, hrest⟩ := CheckedEval.bind_eq_ok hparts
      obtain ⟨tail, _, hdone⟩ := CheckedEval.bind_eq_ok hrest
      cases hok
      cases hdone
      exact ⟨pem.contents, rest, x509, tail, rfl, hx509, hkey⟩
    · cases hleaf

end Matching

/-! ## Two sample key pairs

Two P-256 key pairs with self-signed certificates, as a key generator has
written them, and what the libraries do with their texts and bytes. -/

/-- The big-endian bytes of a number. -/
def beBytes : Nat → Nat → List Byte
  | 0, _ => []
  | n + 1, v => BitVec.ofNat 8 (v / 256 ^ n) :: beBytes n v

/-- A fixed number of bytes. -/
@[simp] theorem length_beBytes (n v : Nat) : (beBytes n v).length = n := by
  induction n with
  | zero => rfl
  | succ n ih => simp [beBytes, ih]

/-- A secret scalar, the coordinates of its public point and the signature of
its certificate. -/
structure SampleKey where
  scalar : Nat
  x : Nat
  y : Nat
  r : Nat
  s : Nat
deriving DecidableEq

/-- The key of most samples. -/
def firstKey : SampleKey where
  scalar := 0x398d3261bc9febe3aeae7805b3c99ebfe5d0b5b3391a4e68df5750f79e1e6f28
  x := 0xdd2a5fd8e6c15bad318f1674478fc261e5d46b6dda5541d5a7cb4c21a82c2bd0
  y := 0x7fdb6d23126ef07f101b7481dc8e632574f96014d3b87915242b2c96c3fd9af3
  r := 0xa5156716ff2743179ab1eb83bb05f41c2edeb2de1921226b21ce8a465e3e0b6c
  s := 0x3eb1c40f5ac5804ae1130db6c545464288b79137c77db1e9dc2a6e9488d6a715

/-- Another key, with a certificate of its own. -/
def secondKey : SampleKey where
  scalar := 0x951b795b32df491b63bb6a2c215c6fd88cd821a1b10cf639e7717ee9b089bcd1
  x := 0x23eb1f945d8dabff81a309880738b918dbe9f068534b8bc96cc63fa5e2e2a238
  y := 0xe6401b451d9f5ead5f2c932280db02d71979cafb6da711b55ac0e853ec94e35c
  r := 0xa4c92bdda89f1be18955ce1a86871f6438e653faa763b1d0c92ec5997cd277e2
  s := 0x2080cb6c15d17226e4f4ece41bf9397bdbbb1e888ee2b602efedc09fdf27323d

namespace SampleKey

variable (k : SampleKey)

/-- The private key. -/
def signingKey : SigningKey := ⟨beBytes 32 k.scalar⟩

/-- The public key as an uncompressed point. -/
def publicKey : List Byte := 0x04 :: (beBytes 32 k.x ++ beBytes 32 k.y)

/-- The PKCS#8 document of the key. -/
def pkcs8 : List Byte :=
  beBytes 36 0x308187020100301306072a8648ce3d020106082a8648ce3d030107046d306b0201010420 ++
    beBytes 32 k.scalar ++ beBytes 5 0xa144034200 ++ k.publicKey

/-- The certificate, valid for a year from November 2026. -/
def certificate : List Byte :=
  beBytes 9 0x3081ff3081a6020101 ++ beBytes 12 0x300a06082a8648ce3d040302 ++
    beBytes 14 0x300c310a300806035504030c0178 ++
    beBytes 32 0x301e170d3236313131383031303635375a170d3237313131383031303635375a ++
    beBytes 14 0x300c310a300806035504030c0178 ++
    beBytes 26 0x3059301306072a8648ce3d020106082a8648ce3d030107034200 ++ k.publicKey ++
    beBytes 12 0x300a06082a8648ce3d040302 ++ beBytes 8 0x0348003045022100 ++
    beBytes 32 k.r ++ beBytes 2 0x0220 ++ beBytes 32 k.s

/-- The certificates have the same length, since their signatures have. -/
theorem length_certificate : k.certificate.length = 258 := by
  simp [certificate, publicKey]

/-- A certificate has bytes. -/
theorem certificate_ne_nil : k.certificate ≠ [] := by
  intro hnil
  have hlength := k.length_certificate
  rw [hnil] at hlength
  cases hlength

end SampleKey

/-- Base64 text in lines of 64 characters. -/
def pemLines (eol : List Char) : Nat → List Char → List Char
  | 0, _ => []
  | n + 1, cs => cs.take 64 ++ eol ++ pemLines eol n (cs.drop 64)

/-- The characters of a PEM block with a number of base64 lines. -/
def pemChars (eol label : List Char) (lines : Nat) (der : List Byte) : List Char :=
  "-----BEGIN ".toList ++ label ++ "-----".toList ++ eol ++
    pemLines eol lines (base64Chars der) ++
    "-----END ".toList ++ label ++ "-----".toList ++ eol

namespace SampleKey

variable (k : SampleKey)

/-- The certificate in PEM. -/
def certificateChars : List Char := pemChars ['\r', '\n'] "CERTIFICATE".toList 6 k.certificate

/-- The key in PEM. -/
def keyChars : List Char := pemChars ['\n'] "PRIVATE KEY".toList 3 k.pkcs8

/-- The certificate in PEM, as text that no proof unfolds. -/
@[irreducible] def certificatePem : String := String.ofList k.certificateChars

/-- The key in PEM, as text that no proof unfolds. -/
@[irreducible] def keyPem : String := String.ofList k.keyChars

/-- The stored record of the certificate. -/
def data : CertificateData := ⟨k.certificatePem, 1794964017, 1826500017, 1794964100⟩

/-- The record as serde writes it. -/
def jsonChars : List Char :=
  "\x7b\"certificate\":\"".toList ++
    k.certificateChars.flatMap (fun c =>
      if c = '\r' then ['\\', 'r'] else if c = '\n' then ['\\', 'n'] else [c]) ++
    "\",\"valid_from\":1794964017,\"expires_at\":1826500017,\"updated_at\":1794964100\x7d".toList

/-- The record as JSON, as text that no proof unfolds. -/
@[irreducible] def json : String := String.ofList k.jsonChars

/-- The sample key with a given feature. -/
def find {α : Type} [DecidableEq α] (f : SampleKey → α) (a : α) : Option SampleKey :=
  if a = f firstKey then some firstKey else if a = f secondKey then some secondKey else none

variable {k}

/-- What is found has the feature. -/
theorem eq_of_find {α : Type} [DecidableEq α] {f : SampleKey → α} {a : α} (h : find f a = some k) :
    a = f k := by
  unfold find at h
  split at h
  · cases h
    assumption
  · split at h
    · cases h
      assumption
    · cases h

/-- One of the two keys. -/
def Known (k : SampleKey) : Prop := k = firstKey ∨ k = secondKey

/-- What is found is one of the two keys. -/
theorem known_of_find {α : Type} [DecidableEq α] {f : SampleKey → α} {a : α}
    (h : find f a = some k) : k.Known := by
  unfold find at h
  split at h
  · exact .inl (Option.some.inj h).symm
  · split at h
    · exact .inr (Option.some.inj h).symm
    · cases h

/-- A feature in which the keys differ identifies them. -/
theorem Known.find_eq {α : Type} [DecidableEq α] (hk : k.Known) {f : SampleKey → α}
    (hne : f secondKey ≠ f firstKey) : find f (f k) = some k := by
  obtain rfl | rfl := hk
  · exact if_pos rfl
  · simp [find, hne]

/-- Two known keys that agree in a feature in which the keys differ are the same. -/
theorem Known.eq_of_feature {α : Type} (hk : k.Known) {k' : SampleKey} (hk' : k'.Known)
    {f : SampleKey → α} (hne : f secondKey ≠ f firstKey) (h : f k = f k') : k = k' := by
  obtain rfl | rfl := hk
  · obtain rfl | rfl := hk'
    · rfl
    · exact absurd h.symm hne
  · obtain rfl | rfl := hk'
    · exact absurd h hne
    · rfl

/-- The two keys differ in everything that is made from them. -/
theorem features_ne : secondKey.signingKey ≠ firstKey.signingKey ∧
    secondKey.pkcs8 ≠ firstKey.pkcs8 ∧ secondKey.certificate ≠ firstKey.certificate ∧
    secondKey.certificateChars ≠ firstKey.certificateChars ∧
    secondKey.keyChars ≠ firstKey.keyChars ∧ secondKey.jsonChars ≠ firstKey.jsonChars := by
  decide +kernel

/-- The private keys differ. -/
theorem signingKey_ne : secondKey.signingKey ≠ firstKey.signingKey := features_ne.1

/-- The PKCS#8 documents differ. -/
theorem pkcs8_ne : secondKey.pkcs8 ≠ firstKey.pkcs8 := features_ne.2.1

/-- The certificates differ. -/
theorem certificate_ne : secondKey.certificate ≠ firstKey.certificate := features_ne.2.2.1

/-- The certificates in PEM differ. -/
theorem certificatePem_ne : secondKey.certificatePem ≠ firstKey.certificatePem := by
  intro h
  unfold certificatePem at h
  exact features_ne.2.2.2.1 (String.ofList_injective h)

/-- The keys in PEM differ. -/
theorem keyPem_ne : secondKey.keyPem ≠ firstKey.keyPem := by
  intro h
  unfold keyPem at h
  exact features_ne.2.2.2.2.1 (String.ofList_injective h)

/-- The JSON records differ. -/
theorem json_ne : secondKey.json ≠ firstKey.json := by
  intro h
  unfold json at h
  exact features_ne.2.2.2.2.2 (String.ofList_injective h)

/-- The files of the keys are DER, not PEM. -/
theorem Known.not_pem (hk : k.Known) :
    isPemPrivateKey k.pkcs8 = false ∧ isPemCertificate k.certificate = false := by
  have hboth : (isPemPrivateKey firstKey.pkcs8 = false ∧
      isPemCertificate firstKey.certificate = false) ∧
      isPemPrivateKey secondKey.pkcs8 = false ∧
      isPemCertificate secondKey.certificate = false := by
    decide +kernel
  obtain rfl | rfl := hk
  · exact hboth.1
  · exact hboth.2

end SampleKey

/-- The signing request of the first key for the domain "a.example.com". -/
@[irreducible] def firstRequest : List Byte :=
  beBytes 36 0x3082010e3081b502010030183116301406035504030c0d612e6578616d706c652e636f6d ++
    beBytes 26 0x3059301306072a8648ce3d020106082a8648ce3d030107034200 ++ firstKey.publicKey ++
    beBytes 35 0xa03b303906092a864886f70d01090e312c302a300e0603551d0f0101ff040403020780 ++
    beBytes 26 0x30180603551d110411300f820d612e6578616d706c652e636f6d ++
    beBytes 12 0x300a06082a8648ce3d040302 ++ beBytes 8 0x0348003045022100 ++
    beBytes 32 0x9f465f5c1567cc6ac27e594faefbc0e5f00221f3257afba78959b427339a440c ++
    beBytes 2 0x0220 ++
    beBytes 32 0x6a9acf3424b1324cb20a8badf0a4c7c87f5ed72771b69dc1be4fcd0b010ca001

/-- What the libraries do with the sample keys; the ACME account is left out. -/
def sampleLibraries : Libraries where
  effectiveTldPlusOne domain :=
    if domain = "a.example.com" ∨ domain = "b.example.com" then some "example.com"
    else if domain = "c.example.org" then some "example.org"
    else none
  sha256Hex _ := ""
  utf8Error _ := "invalid utf-8 sequence"
  decodeBase64 _ _ := none
  parseX509Pem text :=
    match SampleKey.find SampleKey.certificatePem text with
    | some k => .ok ⟨"CERTIFICATE", k.certificate⟩
    | none => .error "missing PEM header"
  pemBlocks text :=
    match SampleKey.find SampleKey.certificatePem text with
    | some k => [.ok ⟨"CERTIFICATE", k.certificate⟩]
    | none => []
  encodeMany blocks :=
    "\r\n".intercalate (blocks.map fun pem => String.ofList
      (pemChars ['\r', '\n'] pem.label.toList ((pem.contents.length + 47) / 48) pem.contents))
  parseX509Certificate der :=
    match SampleKey.find SampleKey.certificate der with
    | some k => .ok ([], ⟨k.publicKey, 1794964017, 1826500017⟩)
    | none => .error "invalid certificate"
  fromPkcs8Pem text :=
    match SampleKey.find SampleKey.keyPem text with
    | some k => .ok k.signingKey
    | none => .error "PEM error"
  fromPkcs8Der der :=
    match SampleKey.find SampleKey.pkcs8 der with
    | some k => .ok k.signingKey
    | none => .error "ASN.1 error"
  toPkcs8Pem key :=
    match SampleKey.find SampleKey.signingKey key with
    | some k => .ok k.keyPem
    | none => .error "ASN.1 error"
  fromSlice bytes :=
    match SampleKey.find (fun k => k.signingKey.scalar) bytes with
    | some k => .ok k.signingKey
    | none => .error "signature error"
  verifyingKey key :=
    match SampleKey.find SampleKey.signingKey key with
    | some k => k.publicKey
    | none => []
  fromEcPem text :=
    match SampleKey.find SampleKey.keyPem text with
    | some _ => .ok ()
    | none => .error "InvalidKeyFormat"
  certificateDataToJson data :=
    match SampleKey.find SampleKey.data data with
    | some k => .ok k.json
    | none => .error "unsupported"
  certificateDataFromJson text :=
    match SampleKey.find SampleKey.json text with
    | some k => .ok k.data
    | none => .error "expected value at line 1 column 1"
  credentialsToJson _ := .error "unsupported"
  credentialsFromJson _ := .error "expected value at line 1 column 1"
  serializeRequest params keyPem :=
    if params = ⟨["a.example.com"], "a.example.com", none, none⟩ ∧ keyPem = firstKey.keyPem then
      .ok firstRequest
    else .error "unsupported"
  requestKey csr := if csr = firstRequest then some firstKey.publicKey else none

section Features

variable {k : SampleKey} {text : String}

/-- The PEM parser, by the sample certificates it knows. -/
theorem parseX509Pem_eq : sampleLibraries.parseX509Pem = fun text =>
    match SampleKey.find SampleKey.certificatePem text with
    | some k => .ok ⟨"CERTIFICATE", k.certificate⟩
    | none => .error "missing PEM header" := rfl

/-- A known PEM certificate is parsed into its block. -/
theorem parseX509Pem_of_find (h : SampleKey.find SampleKey.certificatePem text = some k) :
    sampleLibraries.parseX509Pem text = .ok ⟨"CERTIFICATE", k.certificate⟩ := by
  simp only [parseX509Pem_eq, h]

/-- A known PEM certificate has one block. -/
theorem pemBlocks_of_find (h : SampleKey.find SampleKey.certificatePem text = some k) :
    sampleLibraries.pemBlocks text = [.ok ⟨"CERTIFICATE", k.certificate⟩] := by
  have hdef : sampleLibraries.pemBlocks = fun text =>
      match SampleKey.find SampleKey.certificatePem text with
      | some k => [.ok ⟨"CERTIFICATE", k.certificate⟩]
      | none => [] := rfl
  simp only [hdef, h]

/-- A known PEM key is read. -/
theorem fromPkcs8Pem_of_find (h : SampleKey.find SampleKey.keyPem text = some k) :
    sampleLibraries.fromPkcs8Pem text = .ok k.signingKey := by
  have hdef : sampleLibraries.fromPkcs8Pem = fun text =>
      match SampleKey.find SampleKey.keyPem text with
      | some k => .ok k.signingKey
      | none => .error "PEM error" := rfl
  simp only [hdef, h]

/-- A known PEM key is a key to sign with. -/
theorem fromEcPem_of_find (h : SampleKey.find SampleKey.keyPem text = some k) :
    sampleLibraries.fromEcPem text = .ok () := by
  have hdef : sampleLibraries.fromEcPem = fun text =>
      match SampleKey.find SampleKey.keyPem text with
      | some _ => .ok ()
      | none => .error "InvalidKeyFormat" := rfl
  simp only [hdef, h]

/-- The serialiser, by the sample records it knows. -/
theorem certificateDataToJson_eq : sampleLibraries.certificateDataToJson = fun data =>
    match SampleKey.find SampleKey.data data with
    | some k => .ok k.json
    | none => .error "unsupported" := rfl

/-- A known JSON record is read back. -/
theorem certificateDataFromJson_of_find (h : SampleKey.find SampleKey.json text = some k) :
    sampleLibraries.certificateDataFromJson text = .ok k.data := by
  have hdef : sampleLibraries.certificateDataFromJson = fun text =>
      match SampleKey.find SampleKey.json text with
      | some k => .ok k.data
      | none => .error "expected value at line 1 column 1" := rfl
  simp only [hdef, h]

end Features

/-- The first block of a certificate is the block the parser returns. -/
theorem sampleLibraries_pemIteration : sampleLibraries.PemIteration := by
  intro text pem hpem
  simp only [parseX509Pem_eq] at hpem
  split at hpem
  · rename_i k hk
    rw [← Except.ok.inj hpem]
    exact ⟨[], pemBlocks_of_find hk⟩
  · cases hpem

/-- What is serialised is read back. -/
theorem sampleLibraries_serdeRoundTrip : sampleLibraries.SerdeRoundTrip := by
  intro data text htext
  simp only [certificateDataToJson_eq] at htext
  split at htext
  · rename_i k hk
    rw [← Except.ok.inj htext, SampleKey.eq_of_find hk]
    exact certificateDataFromJson_of_find ((SampleKey.known_of_find hk).find_eq SampleKey.json_ne)
  · cases htext

namespace SampleKey

variable {k : SampleKey}

/-- The certificates of some keys in PEM, with an empty line between two blocks. -/
theorem encodeMany_certificates (keys : List SampleKey) :
    sampleLibraries.encodeMany (keys.map fun k => ⟨"CERTIFICATE", k.certificate⟩) =
      "\r\n".intercalate (keys.map certificatePem) := by
  have hblocks : (keys.map fun k => (⟨"CERTIFICATE", k.certificate⟩ : Pem)).map (fun pem =>
      String.ofList (pemChars ['\r', '\n'] pem.label.toList ((pem.contents.length + 47) / 48)
        pem.contents)) = keys.map certificatePem := by
    rw [List.map_map]
    refine List.map_congr_left fun k _ => ?_
    unfold certificatePem certificateChars
    simp [k.length_certificate]
  rw [← hblocks]
  rfl

/-- The certificate of a key in PEM. -/
theorem encodeMany_certificate (k : SampleKey) :
    sampleLibraries.encodeMany [⟨"CERTIFICATE", k.certificate⟩] = k.certificatePem :=
  encodeMany_certificates [k]

/-- The PEM text of a known key. -/
theorem Known.toPkcs8Pem_eq (hk : k.Known) :
    sampleLibraries.toPkcs8Pem k.signingKey = .ok k.keyPem := by
  simp only [sampleLibraries]
  rw [hk.find_eq signingKey_ne]

/-- A DER file of a known key becomes its PEM text. -/
theorem Known.normalizePkcs8Key_eq (hk : k.Known) :
    normalizePkcs8Key sampleLibraries k.pkcs8 = .ok k.keyPem := by
  have hread : sampleLibraries.fromPkcs8Der k.pkcs8 = .ok k.signingKey := by
    simp only [sampleLibraries]
    rw [hk.find_eq pkcs8_ne]
  simp [normalizePkcs8Key, hk.not_pem.1, hread, hk.toPkcs8Pem_eq, Except.mapError]

/-- A known certificate is parsed to its public key and validity. -/
theorem Known.parseX509Certificate_eq (hk : k.Known) :
    sampleLibraries.parseX509Certificate k.certificate =
      .ok ([], ⟨k.publicKey, 1794964017, 1826500017⟩) := by
  simp only [sampleLibraries]
  rw [hk.find_eq certificate_ne]

/-- A DER file of a known certificate becomes its PEM text. -/
theorem Known.certificateFromDerOrPem_eq (hk : k.Known) :
    certificateFromDerOrPem sampleLibraries k.certificate =
      .ok (k.certificatePem, 1794964017, 1826500017) := by
  rw [certificateFromDerOrPem_of_single hk.not_pem.2 k.certificate_ne_nil
    hk.parseX509Certificate_eq, encodeMany_certificate]

/-- The PEM text of a known certificate is parsed into its block. -/
theorem Known.parseX509Pem_eq (hk : k.Known) :
    sampleLibraries.parseX509Pem k.certificatePem = .ok ⟨"CERTIFICATE", k.certificate⟩ :=
  parseX509Pem_of_find (hk.find_eq certificatePem_ne)

/-- The PEM text of a known key is read. -/
theorem Known.fromPkcs8Pem_eq (hk : k.Known) :
    sampleLibraries.fromPkcs8Pem k.keyPem = .ok k.signingKey :=
  fromPkcs8Pem_of_find (hk.find_eq keyPem_ne)

/-- The public key that belongs to a known key. -/
theorem Known.verifyingKey_eq (hk : k.Known) :
    sampleLibraries.verifyingKey k.signingKey = k.publicKey := by
  simp only [sampleLibraries]
  rw [hk.find_eq signingKey_ne]

/-- The public key of the PEM text of a known key. -/
theorem Known.publicKeyOf_eq (hk : k.Known) :
    publicKeyOf sampleLibraries k.keyPem = some k.publicKey := by
  rw [publicKeyOf_of_ok hk.fromPkcs8Pem_eq, hk.verifyingKey_eq]

/-- A known certificate and its key belong together. -/
theorem Known.validate_eq (hk : k.Known) :
    validateSigningMaterial sampleLibraries k.certificatePem k.keyPem = .ok () := by
  have hcertificate := hk.parseX509Certificate_eq
  rw [← hk.verifyingKey_eq] at hcertificate
  rw [validateSigningMaterial_of_ok hk.fromPkcs8Pem_eq hk.parseX509Pem_eq hcertificate]
  exact fromEcPem_of_find (hk.find_eq keyPem_ne)

/-- The chain of a known certificate is the certificate. -/
theorem Known.parseCertChainParts_eq (hk : k.Known) :
    parseCertChainParts sampleLibraries k.certificatePem =
      .ok [base64Standard k.certificate] :=
  parseCertChainParts_of_single (pemBlocks_of_find (hk.find_eq certificatePem_ne))

/-- The record of a known certificate is serialised. -/
theorem Known.json_eq (hk : k.Known) :
    sampleLibraries.certificateDataToJson k.data = .ok k.json := by
  have hne : secondKey.data ≠ firstKey.data := by
    intro h
    exact certificatePem_ne (congrArg CertificateData.certificate h)
  simp only [certificateDataToJson_eq, hk.find_eq hne]

end SampleKey

end StatusListServer
