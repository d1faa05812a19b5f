import StatusListServer.StatusToken
import StatusListServer.TextTrimming

/-!
# Reading a list over HTTP

`get_status_list` of `handlers/status_list/get_status_list.rs` with the validators
of `utils/conditional.rs` and `utils/etag.rs`.  The entity tag is a hash of the
published content and the modification date is that of the record; the token has
a lifetime and a format of its own, which come from the clock, the configuration
and the `Accept` header.  An answer 304 confirms the content and nothing else.
-/

namespace StatusListServer

open BitStream TextTrimming

/-! ## Header texts -/

/-- `str::trim_start_matches("W/")`. -/
def trimStartWeak : List Char → List Char
  | 'W' :: '/' :: rest => trimStartWeak rest
  | cs => cs

/-- `normalize_etag`: the tag without its weak prefix and its quotes. -/
def normalizeEtag (etag : List Char) : List Char :=
  trimMatches (· == '"') (trimStartWeak (trim etag))

/-- `etag_eq_weak`. -/
def etagEqWeak (a b : List Char) : Bool := normalizeEtag a == normalizeEtag b

/-- Whether the client has what is there. -/
inductive ConditionalResponse
  | notModified
  | modified
deriving DecidableEq, Repr

/-- `evaluate_if_none_match`: any of the listed tags, or a star. -/
def evaluateIfNoneMatch (ifNoneMatch : Option String) (currentEtag : String) :
    ConditionalResponse :=
  match ifNoneMatch with
  | none => .modified
  | some headerValue =>
      if trim headerValue.toList = ['*'] then .notModified
      else if ((headerValue.toList.splitOn ',').map trim).any
          (fun etag => !etag.isEmpty && etagEqWeak etag currentEtag.toList) then .notModified
      else .modified

/-- The `time` library: the IMF fixdate format and the two parsers. -/
structure HttpDates where
  fromUnixTimestamp : Int → Option Int
  formatImfFixdate : Int → Option String
  parseImfFixdate : String → Option Int
  parseRfc2822 : String → Option Int

variable (dates : HttpDates)

/-- `format_http_date`. -/
def formatHttpDate (unixTimestamp : Int) : String :=
  (dates.formatImfFixdate ((dates.fromUnixTimestamp unixTimestamp).getD 0)).getD
    "Thu, 01 Jan 1970 00:00:00 GMT"

/-- `parse_http_date`: an IMF date, or else one of RFC 2822. -/
def parseHttpDate (dateStr : String) : Option Int :=
  (dates.parseImfFixdate dateStr).or (dates.parseRfc2822 dateStr)

/-- `evaluate_if_modified_since`: a date in the future is ignored. -/
def evaluateIfModifiedSince (ifModifiedSince : Option String) (updatedAt now : Int) :
    ConditionalResponse :=
  match ifModifiedSince with
  | none => .modified
  | some headerValue =>
      match parseHttpDate dates headerValue with
      | none => .modified
      | some clientTimestamp =>
          if now < clientTimestamp then .modified
          else if updatedAt ≤ clientTimestamp then .notModified
          else .modified

/-- `evaluate_conditional_request`: dates count only without tags. -/
def evaluateConditionalRequest (ifNoneMatch ifModifiedSince : Option String)
    (currentEtag : String) (updatedAt now : Int) : ConditionalResponse :=
  if ifNoneMatch.isSome then evaluateIfNoneMatch ifNoneMatch currentEtag
  else evaluateIfModifiedSince dates ifModifiedSince updatedAt now

/-- A tag decides alone. -/
theorem evaluateConditionalRequest_tag (tag : String) (ifModifiedSince : Option String)
    (currentEtag : String) (updatedAt now : Int) :
    evaluateConditionalRequest dates (some tag) ifModifiedSince currentEtag updatedAt now =
      evaluateIfNoneMatch (some tag) currentEtag := rfl

/-- Without tags the date decides. -/
theorem evaluateConditionalRequest_date (ifModifiedSince : Option String) (currentEtag : String)
    (updatedAt now : Int) :
    evaluateConditionalRequest dates none ifModifiedSince currentEtag updatedAt now =
      evaluateIfModifiedSince dates ifModifiedSince updatedAt now := rfl

/-! ## Entity tags -/

/-- The digit of a number below 16. -/
def hexDigit (n : Nat) : Char := if n < 10 then Char.ofNat (48 + n) else Char.ofNat (87 + n)

/-- `hex::encode`. -/
def hexEncode (bytes : List Byte) : List Char :=
  bytes.flatMap fun b => [hexDigit (b.toNat / 16), hexDigit (b.toNat % 16)]

/-- What is hashed: the width, the list, the issuer and the subject, one after the
other. -/
def etagContent (record : StatusListRecord) : String :=
  toString record.statusList.bits.toNat ++ record.statusList.lst ++ record.issuer.name ++
    record.sub

variable (sha256 : String → List Byte)

/-- `generate_etag`: a weak tag with the digest of the content. -/
def generateEtag (record : StatusListRecord) : String :=
  String.ofList ('W' :: '/' :: '"' :: hexEncode (sha256 (etagContent record)) ++ ['"'])

/-- `generate_historical_etag`: the digest of the snapshot's id, times, list and issuer. -/
def generateHistoricalEtag (snapshot : StatusListSnapshot) : String :=
  String.ofList (hexEncode (sha256 (snapshot.snapshotId ++ toString snapshot.iat ++
    toString snapshot.exp ++ snapshot.statusList.lst ++ snapshot.issuer.name)))

/-! ## The handler -/

/-- What the handler reads of a request.  Headers that are not visible text read
as absent. -/
structure GetRequest where
  time : Option Int
  accept : Option String
  ifNoneMatch : Option String
  ifModifiedSince : Option String
  clientAcceptsGzip : Bool
deriving DecidableEq, Repr

/-- What a GET can fail with. -/
inductive ApiError
  | invalidAcceptHeader
  | statusList (e : StatusListError)
deriving DecidableEq, Repr

/-- The headers of an answer that the validators are about, and the token of an
answer 200. -/
inductive GetResponse
  | notModified (etag lastModified cacheControl : String)
  | token (format : TokenFormat) (etag lastModified cacheControl : String)
      (encoding : Option String) (body : List Byte)
deriving DecidableEq, Repr

/-- The answers the handler gets: the record and the snapshot from the service,
the signing material from the certificate provider, and the clock when it compares
dates and when it dates the token. -/
structure GetAnswers where
  record : Except StatusListError StatusListRecord
  snapshot : Except StatusListError StatusListSnapshot
  material : Except String SigningMaterial
  now : Int
  issuedAt : Int

/-- `build_cache_control`. -/
def buildCacheControl (tokenTtlSecs : BitVec 64) : String :=
  "max-age=" ++ toString tokenTtlSecs.toNat ++ ", immutable"

/-- The format a request asks for. -/
def negotiate (accept : Option String) : Except ApiError TokenFormat :=
  match accept with
  | none => .ok .jwt
  | some accept =>
      if accept = TokenFormat.jwt.mediaType then .ok .jwt
      else if accept = TokenFormat.cwt.mediaType then .ok .cwt
      else .error .invalidAcceptHeader

variable (lib : TokenLibrary)

/-- `handle_historical_request`: the snapshot that was valid then, for its window. -/
def handleHistoricalRequest (time : Int) (acceptType : TokenFormat) (settings : TokenSettings)
    (clientAcceptsGzip : Bool) (answers : GetAnswers) : Except ApiError GetResponse := do
  if time ≤ 0 ∨ answers.now < time then
    .error (.statusList .invalidHistoricalTime)
  else
    let snapshot ← answers.snapshot.mapError .statusList
    let cacheControl := "max-age=" ++
      toString (wrapI64 (snapshot.exp - snapshot.iat) % 2 ^ 64) ++ ", immutable"
    let statusRecord : StatusListRecord :=
      { listId := snapshot.listId
        issuer := snapshot.issuer
        statusList := snapshot.statusList
        sub := snapshot.sub
        updatedAt := snapshot.iat }
    let (tokenBytes, encoding) ← (buildStatusListToken lib settings acceptType statusRecord
      (some (snapshot.iat, snapshot.exp)) clientAcceptsGzip answers.material
      answers.issuedAt).mapError .statusList
    return .token acceptType (generateHistoricalEtag sha256 snapshot)
      (formatHttpDate dates snapshot.iat) cacheControl encoding tokenBytes

/-- `get_status_list`: negotiate, read, compare and build the token. -/
def getStatusList (settings : TokenSettings) (request : GetRequest) (answers : GetAnswers) :
    Except ApiError GetResponse := do
  let acceptType ← negotiate request.accept
  match request.time with
  | some time =>
      handleHistoricalRequest dates sha256 lib time acceptType settings request.clientAcceptsGzip
        answers
  | none =>
      let statusRecord ← answers.record.mapError .statusList
      let currentEtag := generateEtag sha256 statusRecord
      let lastModified := formatHttpDate dates statusRecord.updatedAt
      let cacheControl := buildCacheControl settings.tokenTtlSecs
      match evaluateConditionalRequest dates request.ifNoneMatch request.ifModifiedSince
          currentEtag statusRecord.updatedAt answers.now with
      | .notModified => return .notModified currentEtag lastModified cacheControl
      | .modified =>
          let (tokenBytes, encoding) ← (buildStatusListToken lib settings acceptType statusRecord
            none request.clientAcceptsGzip answers.material answers.issuedAt).mapError .statusList
          return .token acceptType currentEtag lastModified cacheControl encoding tokenBytes

/-! ## What an answer 304 says -/

section EntityTags

/-- The characters of a digest. -/
def IsHex (c : Char) : Prop := c ∈ "0123456789abcdef".toList

/-- A digit is hexadecimal. -/
theorem isHex_hexDigit {n : Nat} (h : n < 16) : IsHex (hexDigit n) := by
  have hall : ∀ n < 16, IsHex (hexDigit n) := by
    unfold IsHex
    decide
  exact hall n h

/-- Different numbers have different digits. -/
theorem hexDigit_injective {a b : Nat} (ha : a < 16) (hb : b < 16)
    (h : hexDigit a = hexDigit b) : a = b := by
  have hall : ∀ a < 16, ∀ b < 16, hexDigit a = hexDigit b → a = b := by decide
  exact hall a ha b hb h

/-- A digest is written in hexadecimal digits. -/
theorem isHex_of_mem_hexEncode {bytes : List Byte} {c : Char} (h : c ∈ hexEncode bytes) :
    IsHex c := by
  obtain ⟨b, _, hc⟩ := List.mem_flatMap.mp h
  have hlt : b.toNat < 256 := b.isLt
  rcases List.mem_cons.mp hc with rfl | hc
  · exact isHex_hexDigit (by omega)
  · rw [List.mem_singleton.mp hc]
    exact isHex_hexDigit (by omega)

/-- Different digests are written differently. -/
theorem hexEncode_injective {a b : List Byte} (h : hexEncode a = hexEncode b) : a = b := by
  induction a generalizing b with
  | nil =>
      cases b with
      | nil => rfl
      | cons y ys => cases h
  | cons x xs ih =>
      cases b with
      | nil => cases h
      | cons y ys =>
          have hx : x.toNat < 256 := x.isLt
          have hy : y.toNat < 256 := y.isLt
          obtain ⟨hhigh, hrest⟩ := List.cons.inj h
          obtain ⟨hlow, htail⟩ := List.cons.inj hrest
          have h₁ := hexDigit_injective (by omega) (by omega) hhigh
          have h₂ := hexDigit_injective (by omega) (by omega) hlow
          have hxy : x = y := BitVec.eq_of_toNat_eq (by omega)
          rw [hxy, ih htail]

/-- The characters of an entity tag. -/
def etagChars (digest : List Byte) : List Char := 'W' :: '/' :: '"' :: hexEncode digest ++ ['"']

/-- The characters of a tag. -/
theorem generateEtag_toList (record : StatusListRecord) :
    (generateEtag sha256 record).toList = etagChars (sha256 (etagContent record)) := by
  rw [generateEtag, String.toList_ofList, etagChars]

/-- Neither end of an entity tag is whitespace. -/
theorem trim_etagChars (digest : List Byte) : trim (etagChars digest) = etagChars digest := by
  refine trimMatches_eq_self ?_ ?_
  · rintro c ⟨⟩
    decide
  · intro c hc
    rw [etagChars, List.getLast?_concat] at hc
    cases hc
    decide

/-- A tag is normalised to its digest. -/
theorem normalizeEtag_etagChars (digest : List Byte) :
    normalizeEtag (etagChars digest) = hexEncode digest := by
  have hquote : '"' ∉ hexEncode digest := by
    intro hmem
    exact absurd (isHex_of_mem_hexEncode hmem) (by unfold IsHex; decide)
  have hweak : trimStartWeak (etagChars digest) = '"' :: (hexEncode digest ++ ['"']) := rfl
  rw [normalizeEtag, trim_etagChars, hweak]
  exact trimMatches_marks (a := ['"']) (b := ['"']) (by simp) (by simp) hquote

/-- A tag matches exactly the tags of the same digest. -/
theorem evaluateIfNoneMatch_etag (record record' : StatusListRecord) :
    evaluateIfNoneMatch (some (generateEtag sha256 record)) (generateEtag sha256 record') =
        .notModified ↔
      sha256 (etagContent record') = sha256 (etagContent record) := by
  have hstar : etagChars (sha256 (etagContent record)) ≠ ['*'] := by simp [etagChars]
  have hcomma : ',' ∉ etagChars (sha256 (etagContent record)) := by
    simp only [etagChars, List.mem_cons, List.cons_append, List.mem_append]
    intro hmem
    have hhex : ',' ∈ hexEncode (sha256 (etagContent record)) := by simpa using hmem
    exact absurd (isHex_of_mem_hexEncode hhex) (by unfold IsHex; decide)
  simp only [evaluateIfNoneMatch, generateEtag_toList, trim_etagChars, hstar, if_false,
    List.splitOn_eq_singleton hcomma, List.map_cons, List.map_nil, List.any_cons, List.any_nil,
    Bool.or_false, etagEqWeak, normalizeEtag_etagChars]
  have hnonempty : (etagChars (sha256 (etagContent record))).isEmpty = false := by
    simp [etagChars]
  rw [hnonempty]
  constructor
  · intro h
    split at h
    · rename_i hsame
      exact (hexEncode_injective (by simpa using hsame)).symm
    · cases h
  · intro h
    rw [h]
    simp

/-- A date matches records that were not modified after it. -/
theorem evaluateIfModifiedSince_eq (date : String) (updatedAt now : Int) :
    evaluateIfModifiedSince dates (some date) updatedAt now = .notModified ↔
      ∃ clientTimestamp, parseHttpDate dates date = some clientTimestamp ∧
        clientTimestamp ≤ now ∧ updatedAt ≤ clientTimestamp := by
  simp only [evaluateIfModifiedSince]
  cases parseHttpDate dates date with
  | none => simp
  | some clientTimestamp =>
      simp only [Option.some.injEq, exists_eq_left']
      by_cases hfuture : now < clientTimestamp
      · simp only [hfuture, if_true]
        constructor
        · exact nofun
        · intro h
          omega
      · simp only [hfuture, if_false, Int.not_lt.mp hfuture, true_and]
        by_cases hupdated : updatedAt ≤ clientTimestamp <;> simp [hupdated]

end EntityTags

/-- The answer 304. -/
def IsNotModified (r : Except ApiError GetResponse) : Prop :=
  ∃ etag lastModified cacheControl, r = .ok (.notModified etag lastModified cacheControl)

section Validators

variable {dates sha256 lib} {settings : TokenSettings} {request : GetRequest} {answers : GetAnswers}

/-- A token is answered with the validators of the record it was built from. -/
theorem token_answered (htime : request.time = none) {format : TokenFormat}
    {etag lastModified cacheControl : String} {encoding : Option String} {body : List Byte}
    (h : getStatusList dates sha256 lib settings request answers =
      .ok (.token format etag lastModified cacheControl encoding body)) :
    negotiate request.accept = .ok format ∧ ∃ record, answers.record = .ok record ∧
      etag = generateEtag sha256 record ∧ lastModified = formatHttpDate dates record.updatedAt := by
  obtain ⟨acceptType, haccept, h⟩ := CheckedEval.bind_eq_ok h
  simp only [htime] at h
  obtain ⟨record, hrecord, h⟩ := CheckedEval.bind_eq_ok h
  split at h
  · cases h
  · obtain ⟨built, _, h⟩ := CheckedEval.bind_eq_ok h
    cases h
    exact ⟨haccept, record, CheckedEval.mapError_eq_ok hrecord, rfl, rfl⟩

/-- The answer to an acceptable request for an existing list. -/
theorem getStatusList_eq (htime : request.time = none) {format : TokenFormat}
    (haccept : negotiate request.accept = .ok format) {record : StatusListRecord}
    (hrecord : answers.record = .ok record) :
    getStatusList dates sha256 lib settings request answers =
      match evaluateConditionalRequest dates request.ifNoneMatch request.ifModifiedSince
          (generateEtag sha256 record) record.updatedAt answers.now with
      | .notModified => .ok (.notModified (generateEtag sha256 record)
          (formatHttpDate dates record.updatedAt) (buildCacheControl settings.tokenTtlSecs))
      | .modified =>
          (buildStatusListToken lib settings format record none request.clientAcceptsGzip
            answers.material answers.issuedAt).mapError .statusList >>= fun built =>
          .ok (.token format (generateEtag sha256 record) (formatHttpDate dates record.updatedAt)
            (buildCacheControl settings.tokenTtlSecs) built.2 built.1) := by
  simp only [getStatusList, haccept, htime, hrecord]
  rfl

/-- An acceptable request for an existing list is answered 304 when its validators
say so. -/
theorem isNotModified_iff (htime : request.time = none) {format : TokenFormat}
    (haccept : negotiate request.accept = .ok format) {record : StatusListRecord}
    (hrecord : answers.record = .ok record) :
    IsNotModified (getStatusList dates sha256 lib settings request answers) ↔
      evaluateConditionalRequest dates request.ifNoneMatch request.ifModifiedSince
        (generateEtag sha256 record) record.updatedAt answers.now = .notModified := by
  rw [getStatusList_eq htime haccept hrecord]
  cases evaluateConditionalRequest dates request.ifNoneMatch request.ifModifiedSince
      (generateEtag sha256 record) record.updatedAt answers.now with
  | notModified => exact ⟨fun _ => rfl, fun _ => ⟨_, _, _, rfl⟩⟩
  | modified =>
      constructor
      · intro h
        obtain ⟨etag, lastModified, cacheControl, h⟩ := h
        obtain ⟨built, _, h⟩ := CheckedEval.bind_eq_ok h
        cases h
      · intro h
        cases h

/-- **An answer 304 confirms the content of the list.**  Let a request have been
answered with a token, its tag and its date.  A later acceptable request for the
list that sends the tag back is answered 304 exactly when the content has the same
digest, and one that sends back the date alone exactly when the list was not
modified after it.  Neither the lifetime of the token nor its format counts. -/
theorem not_modified_confirms_content {first second : GetRequest} {answers₀ answers₁ : GetAnswers}
    (hfirst : first.time = none) (hsecond : second.time = none) {format : TokenFormat}
    {etag lastModified cacheControl : String} {encoding : Option String} {body : List Byte}
    (hanswered : getStatusList dates sha256 lib settings first answers₀ =
      .ok (.token format etag lastModified cacheControl encoding body))
    {requested : TokenFormat} (hrequested : negotiate second.accept = .ok requested)
    {current : StatusListRecord} (hcurrent : answers₁.record = .ok current) :
    ∃ record, answers₀.record = .ok record ∧
      (second.ifNoneMatch = some etag →
        (IsNotModified (getStatusList dates sha256 lib settings second answers₁) ↔
          sha256 (etagContent current) = sha256 (etagContent record))) ∧
      (second.ifNoneMatch = none → second.ifModifiedSince = some lastModified →
        (IsNotModified (getStatusList dates sha256 lib settings second answers₁) ↔
          ∃ date, parseHttpDate dates (formatHttpDate dates record.updatedAt) = some date ∧
            date ≤ answers₁.now ∧ current.updatedAt ≤ date)) := by
  obtain ⟨_, record, hrecord, rfl, rfl⟩ := token_answered hfirst hanswered
  refine ⟨record, hrecord, ?_, ?_⟩
  · intro htag
    rw [isNotModified_iff hsecond hrequested hcurrent, htag, evaluateConditionalRequest_tag]
    exact evaluateIfNoneMatch_etag sha256 record current
  · intro hnone hdate
    rw [isNotModified_iff hsecond hrequested hcurrent, hnone, hdate,
      evaluateConditionalRequest_date, evaluateIfModifiedSince_eq]

end Validators

section Samples

/-- A published list without entries. -/
def sampleRecord : StatusListRecord where
  listId := "list"
  issuer := ⟨"https://issuer.example.com"⟩
  statusList := ⟨1, ""⟩
  sub := "https://status.example.com/list"
  updatedAt := 1794964100

/-- The digest of the sample record. -/
def sampleSha256 (_content : String) : List Byte :=
  beBytes 32 0xb9890159734dc8b2d666253b486513415fea7a5757870a64e934432d934be5a2

/-- The dates around the sample record. -/
def sampleDates : HttpDates where
  fromUnixTimestamp timestamp := some timestamp
  formatImfFixdate _ := some "Wed, 18 Nov 2026 01:08:20 GMT"
  parseImfFixdate _ := none
  parseRfc2822 text := if text = "Wed, 18 Nov 2026 01:08:20 GMT" then some 1794964100 else none

/-- The token of the sample record, signed with the first sample key. -/
def sampleToken : String :=
    "eyJ0eXAiOiJzdGF0dXNsaXN0K2p3dCIsImFsZyI6IkVTMjU2IiwieDVjIjpbIk1JSC9NSUdtQWdFQk1Bb0dDQ" ++
    "3FHU000OUJBTUNNQXd4Q2pBSUJnTlZCQU1NQVhnd0hoY05Nall4TVRFNE1ERXdOalUzV2hjTk1qY3hNVEU0TU" ++
    "RFd05qVTNXakFNTVFvd0NBWURWUVFEREFGNE1Ga3dFd1lIS29aSXpqMENBUVlJS29aSXpqMERBUWNEUWdBRTN" ++
    "TcGYyT2JCVzYweGp4WjBSNC9DWWVYVWEyM2FWVUhWcDh0TUlhZ3NLOUIvMjIwakVtN3dmeEFiZElIY2ptTWxk" ++
    "UGxnRk5PNGVSVWtLeXlXdy8yYTh6QUtCZ2dxaGtqT1BRUURBZ05JQURCRkFpRUFwUlZuRnY4blF4ZWFzZXVEd" ++
    "XdYMEhDN2VzdDRaSVNKckljNktSbDQrQzJ3Q0lENnh4QTlheFlCSzRSTU50c1ZGUmtLSXQ1RTN4MzJ4NmR3cW" ++
    "JwU0kxcWNWIl19.eyJleHAiOjE3OTQ5NjUwMDAsImlhdCI6MTc5NDk2NDEwMCwic3RhdHVzX2xpc3QiOnsiYm" ++
    "l0cyI6MSwibHN0IjoiIn0sInN1YiI6Imh0dHBzOi8vc3RhdHVzLmV4YW1wbGUuY29tL2xpc3QiLCJ0dGwiOjM" ++
    "wMH0.Rsj4-pErF59g68cPR26BEJ6nqamoSiukjyiK65p2Xs9NpHmwweC42pkXPt-0lPm6TjqH7-_lCXgVBQ_x" ++
    "P5FGvQ"

/-- The sample libraries where the signer returns a given token. -/
def signingTokens (token : String) : TokenLibrary where
  Keypair := SigningKey
  EncodingKey := Unit
  fromPkcs8Pem := sampleLibraries.fromPkcs8Pem
  toPkcs8PemBytes key := (sampleLibraries.toPkcs8Pem key).map utf8
  fromEcPem _ := .ok ()
  encodeJwt _ _ _ _ := .ok token
  decodeBase64Url _ := .ok []
  decodeBase64Standard _ := .error "unsupported"
  cborToVec _ := .error "unsupported"
  coseSign1 _ _ _ _ := .error "unsupported"
  gzip _ := .error "unsupported"

/-- The sample libraries that sign the sample token. -/
def sampleTokens : TokenLibrary := signingTokens sampleToken

/-- Tokens for 900 seconds that may be cached for 300. -/
def sampleSettings : TokenSettings := ⟨900, 300, none⟩

/-- The answers to a request for a record at a time. -/
def answersWith (record : StatusListRecord) (now : Int) : GetAnswers where
  record := .ok record
  snapshot := .error .historicalNotFound
  material := .ok ⟨some [base64Standard firstKey.certificate], firstKey.keyPem⟩
  now := now
  issuedAt := now

/-- The answers to a request for the sample record at a time. -/
def sampleAnswers (now : Int) : GetAnswers := answersWith sampleRecord now

/-- A request without conditions. -/
def plainRequest : GetRequest := ⟨none, none, none, none, false⟩

/-- Any record is built into the token that the signer returns. -/
theorem signed_built (token : String) (decode : String → Except String (List Byte))
    (record : StatusListRecord) (now : Int) :
    buildStatusListToken { signingTokens token with decodeBase64Url := decode } sampleSettings .jwt
      record none false (answersWith record now).material now = .ok (utf8 token, none) := by
  have hk : firstKey.Known := .inl rfl
  have hread : (signingTokens token).fromPkcs8Pem = sampleLibraries.fromPkcs8Pem := rfl
  have hwrite : (signingTokens token).toPkcs8PemBytes =
      fun key => (sampleLibraries.toPkcs8Pem key).map utf8 := rfl
  have hpem : (signingTokens token).toPkcs8PemBytes firstKey.signingKey =
      .ok (utf8 firstKey.keyPem) := by
    rw [hwrite]
    simp only [hk.toPkcs8Pem_eq, Except.map]
  exact buildStatusListToken_jwt sampleSettings now (hread ▸ hk.fromPkcs8Pem_eq)
    (issueJwt_of_ok hpem rfl fun _ => rfl)

/-- A plain request for any record is answered with the token that the signer returns. -/
theorem signed_answered (dates : HttpDates) (sha256 : String → List Byte) (token : String)
    (decode : String → Except String (List Byte)) (record : StatusListRecord) (now : Int) :
    getStatusList dates sha256 { signingTokens token with decodeBase64Url := decode }
      sampleSettings plainRequest (answersWith record now) =
        .ok (.token .jwt (generateEtag sha256 record) (formatHttpDate dates record.updatedAt)
          (buildCacheControl sampleSettings.tokenTtlSecs) none (utf8 token)) := by
  have hrecord : (answersWith record now).record = .ok record := rfl
  have haccept : negotiate plainRequest.accept = .ok .jwt := rfl
  rw [getStatusList_eq rfl haccept hrecord]
  change (buildStatusListToken { signingTokens token with decodeBase64Url := decode }
    sampleSettings .jwt record none false
    (answersWith record now).material now).mapError ApiError.statusList >>= _ = _
  rw [signed_built]
  rfl

/-- A plain request for the sample record is answered with the sample token. -/
theorem sample_answered (now : Int) :
    getStatusList sampleDates sampleSha256 sampleTokens sampleSettings plainRequest
      (sampleAnswers now) = .ok (.token .jwt (generateEtag sampleSha256 sampleRecord)
        (formatHttpDate sampleDates sampleRecord.updatedAt)
        (buildCacheControl sampleSettings.tokenTtlSecs) none (utf8 sampleToken)) :=
  signed_answered sampleDates sampleSha256 sampleToken (fun _ => .ok []) sampleRecord now

/-- A request that sends the tag of the sample record back. -/
def taggedRequest (accept : Option String) : GetRequest :=
  ⟨none, accept, some (generateEtag sampleSha256 sampleRecord), none, false⟩

/-- The theorem at a client that sends the tag of the record back. -/
theorem not_modified_confirms_content_sample :
    ∃ record, (sampleAnswers 1794964100).record = .ok record ∧
      (IsNotModified (getStatusList sampleDates sampleSha256 sampleTokens sampleSettings
          (taggedRequest none) (sampleAnswers 1794964400)) ↔
        sampleSha256 (etagContent sampleRecord) = sampleSha256 (etagContent record)) := by
  have hrequested : negotiate (taggedRequest none).accept = .ok .jwt := rfl
  have hcurrent : (sampleAnswers 1794964400).record = .ok sampleRecord := rfl
  have hfirst : plainRequest.time = none := rfl
  have hsecond : (taggedRequest none).time = none := rfl
  obtain ⟨record, hrecord, htag, _⟩ := not_modified_confirms_content hfirst hsecond
    (sample_answered 1794964100) hrequested hcurrent
  exact ⟨record, hrecord, htag rfl⟩

/-- A token for 900 seconds is confirmed when it has just expired, and a JWT is
confirmed to a client that asks for a CWT. -/
theorem unusable_token_confirmed :
    getStatusList sampleDates sampleSha256 sampleTokens sampleSettings plainRequest
        (sampleAnswers 1794964100) = .ok (.token .jwt (generateEtag sampleSha256 sampleRecord)
          (formatHttpDate sampleDates sampleRecord.updatedAt)
          (buildCacheControl sampleSettings.tokenTtlSecs) none (utf8 sampleToken)) ∧
      (defaultWindow sampleSettings 1794964100).2 = 1794965000 ∧
      IsNotModified (getStatusList sampleDates sampleSha256 sampleTokens sampleSettings
        (taggedRequest none) (sampleAnswers 1794965000)) ∧
      negotiate (some "application/statuslist+cwt") = .ok .cwt ∧
      IsNotModified (getStatusList sampleDates sampleSha256 sampleTokens sampleSettings
        (taggedRequest (some "application/statuslist+cwt")) (sampleAnswers 1794964100)) := by
  have hconfirmed : ∀ accept format now, negotiate accept = .ok format →
      IsNotModified (getStatusList sampleDates sampleSha256 sampleTokens sampleSettings
        (taggedRequest accept) (sampleAnswers now)) := by
    intro accept format now haccept
    have hrecord : (sampleAnswers now).record = .ok sampleRecord := rfl
    have hnegotiated : negotiate (taggedRequest accept).accept = .ok format := haccept
    have htag : (taggedRequest accept).ifNoneMatch =
        some (generateEtag sampleSha256 sampleRecord) := rfl
    rw [isNotModified_iff rfl hnegotiated hrecord, htag, evaluateConditionalRequest_tag,
      evaluateIfNoneMatch_etag]
  have hcwt : negotiate (some "application/statuslist+cwt") = .ok .cwt := by
    simp [negotiate, TokenFormat.mediaType]
  exact ⟨sample_answered _, by decide, hconfirmed _ _ _ rfl, hcwt, hconfirmed _ _ _ hcwt⟩

end Samples

end StatusListServer
