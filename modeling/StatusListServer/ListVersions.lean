import StatusListServer.CacheFreshness
import StatusListServer.ConditionalGet
import StatusListServer.Ownership

/-!
# What the validators identify

`Last-Modified` is the stamp of a row, which every update advances, whatever the
clocks of the replicas say: a client that sends it back is told `NotModified` only
while the row it read is still the stored one.  `ETag` is a digest of the width,
the list, the issuer and the URI written one after the other.  The last two never
change, and the list does not start with a digit, so the text can be read back:
the tag identifies the width and the list.
-/

namespace StatusListServer

open Interaction KeyedTable BitStream

/-- The `Last-Modified` header of an answer. -/
def GetResponse.lastModified : GetResponse → String
  | .notModified _ lastModified _ => lastModified
  | .token _ _ lastModified _ _ _ => lastModified

/-- The `ETag` header of an answer. -/
def GetResponse.etag : GetResponse → String
  | .notModified etag _ _ => etag
  | .token _ etag _ _ _ _ => etag

section Answers

variable {dates : HttpDates} {sha256 : String → List Byte} {lib : TokenLibrary}
  {settings : TokenSettings} {request : GetRequest} {answers : GetAnswers}

/-- Every answer to a request for the current list carries the validators of the
record it was made from. -/
theorem validators_answered (htime : request.time = none) {record : StatusListRecord}
    (hrecord : answers.record = .ok record) {response : GetResponse}
    (h : getStatusList dates sha256 lib settings request answers = .ok response) :
    response.etag = generateEtag sha256 record ∧
      response.lastModified = formatHttpDate dates record.updatedAt := by
  obtain ⟨acceptType, haccept, _⟩ := CheckedEval.bind_eq_ok h
  rw [getStatusList_eq htime haccept hrecord] at h
  split at h
  · cases h
    exact ⟨rfl, rfl⟩
  · obtain ⟨built, _, h⟩ := CheckedEval.bind_eq_ok h
    cases h
    exact ⟨rfl, rfl⟩

end Answers

/-! ## Dates -/

/-- The date of a row against the row stored now. -/
theorem LaterVersion.not_modified_iff {dates : HttpDates} {version row : StatusListRecord}
    (h : LaterVersion version row)
    (hround : parseHttpDate dates (formatHttpDate dates version.updatedAt) =
      some version.updatedAt) (etag : String) (now : Int) :
    evaluateConditionalRequest dates none (some (formatHttpDate dates version.updatedAt)) etag
        row.updatedAt now = .notModified ↔
      row = version ∧ version.updatedAt ≤ now := by
  rw [evaluateConditionalRequest_date, evaluateIfModifiedSince_eq, hround]
  constructor
  · intro hconfirmed
    obtain ⟨timestamp, htimestamp, hnow, hle⟩ := hconfirmed
    cases htimestamp
    refine ⟨?_, hnow⟩
    rcases h.later with hsame | hlater
    · exact hsame
    · omega
  · intro hsame
    exact ⟨version.updatedAt, rfl, hsame.2, by rw [hsame.1]⟩

/-- **`If-Modified-Since` is a version check.**  In every run, on any number of
replicas with any clocks, let a request have been answered from a version of a list
that was stored at some point.  A request that later sends the date of that answer
back, without a tag, and is evaluated against the row stored then, is told
`NotModified` exactly when that row is still the version of the answer and its stamp
is not in the future of the clock. -/
theorem modified_since_confirms_version (dates : HttpDates) (sha256 : String → List Byte)
    (lib : TokenLibrary) (d : Deployment) (tasks : Nat → Task) {w : World}
    {t₁ t₂ : List PortEvent} {c₁ c₂ : Pool Nat Port Port.Answer (Except Failure Value) World}
    (hrun₁ : Run d.env (d.start tasks w) t₁ c₁) (hrun₂ : Run d.env c₁ t₂ c₂) {listId : String}
    {version : StatusListRecord} (hversion : c₁.world.db.rows.find? listId = some version)
    {settings : TokenSettings} {first : GetRequest} {answers : GetAnswers}
    (hfirst : first.time = none) (hrecord : answers.record = .ok version)
    {response : GetResponse}
    (hanswered : getStatusList dates sha256 lib settings first answers = .ok response)
    (hround : parseHttpDate dates (formatHttpDate dates version.updatedAt) =
      some version.updatedAt) :
    ∃ row, c₂.world.db.rows.find? listId = some row ∧
      (∀ etag now, evaluateConditionalRequest dates none (some response.lastModified) etag
          row.updatedAt now = .notModified ↔ row = version ∧ version.updatedAt ≤ now) ∧
      ∀ settings' second answers' format, second.time = none → second.ifNoneMatch = none →
        second.ifModifiedSince = some response.lastModified →
        negotiate second.accept = .ok format → answers'.record = .ok row →
        (IsNotModified (getStatusList dates sha256 lib settings' second answers') ↔
          row = version ∧ version.updatedAt ≤ answers'.now) := by
  obtain ⟨row, hrow, hlater⟩ := d.later_version hrun₁ hrun₂ hversion
  have hdate := (validators_answered hfirst hrecord hanswered).2
  refine ⟨row, hrow, ?_, ?_⟩
  · intro etag now
    rw [hdate]
    exact hlater.not_modified_iff hround etag now
  · intro settings' second answers' format htime htag hsince haccept hcurrent
    rw [isNotModified_iff htime haccept hcurrent, htag, hsince, hdate]
    exact hlater.not_modified_iff hround _ _

/-! ## Tags -/

/-- A text that is empty or starts with a character that is not a digit, as the text
of a compressed list does. -/
def StartsPlain (text : List Char) : Prop := ∀ c ∈ text.head?, c.isDigit = false

/-- A number followed by a text that does not start with a digit can be read back. -/
theorem digits_append_injective {m n : Nat} {a b : List Char} (ha : StartsPlain a)
    (hb : StartsPlain b) (h : Nat.toDigits 10 m ++ a = Nat.toDigits 10 n ++ b) :
    m = n ∧ a = b := by
  have hprefix : ∀ {k : Nat} {text : List Char}, StartsPlain text →
      (Nat.toDigits 10 k ++ text).takeWhile Char.isDigit = Nat.toDigits 10 k := by
    intro k text htext
    rw [List.takeWhile_append_of_pos
      (fun c hc => Nat.isDigit_of_mem_toDigits (by decide) (by decide) hc)]
    cases text with
    | nil => simp
    | cons c rest => simp [htext c rfl]
  have hdigits : Nat.toDigits 10 m = Nat.toDigits 10 n := by
    rw [← hprefix ha, h, hprefix hb]
  have hnumber := congrArg (Nat.ofDigitChars 10 · 0) hdigits
  simp only [Nat.ofDigitChars_ten_toDigits] at hnumber
  rw [hdigits] at h
  exact ⟨hnumber, List.append_cancel_left h⟩

/-- The hashed text of two versions of one list. -/
theorem etagContent_eq_iff {a b : StatusListRecord} (hissuer : b.issuer = a.issuer)
    (hsub : b.sub = a.sub) (ha : StartsPlain a.statusList.lst.toList)
    (hb : StartsPlain b.statusList.lst.toList) :
    etagContent b = etagContent a ↔ b.statusList = a.statusList := by
  constructor
  · intro h
    have htexts := congrArg String.toList h
    simp only [etagContent, hissuer, hsub, String.toList_append, Nat.toString_eq_repr,
      Nat.toList_repr] at htexts
    obtain ⟨hbits, hlst⟩ := digits_append_injective hb ha
      (List.append_cancel_right (List.append_cancel_right htexts))
    have hbits' : b.statusList.bits = a.statusList.bits := BitVec.eq_of_toNat_eq hbits
    have hlst' : b.statusList.lst = a.statusList.lst := String.toList_inj.mp hlst
    cases hlist : b.statusList
    cases hlist' : a.statusList
    simp_all
  · intro h
    simp only [etagContent, h, hissuer, hsub]

/-- Tags are equal when the digests are. -/
theorem generateEtag_eq_iff (sha256 : String → List Byte) (a b : StatusListRecord) :
    generateEtag sha256 b = generateEtag sha256 a ↔
      sha256 (etagContent b) = sha256 (etagContent a) := by
  constructor
  · intro h
    have htexts := congrArg String.toList h
    rw [generateEtag_toList, generateEtag_toList] at htexts
    simp only [etagChars, List.cons_append, List.cons.injEq, true_and] at htexts
    exact hexEncode_injective (List.append_cancel_right htexts)
  · intro h
    simp only [generateEtag, h]

/-- **The tag identifies the content.**  For the versions of a list stored at two
points of any run: their tags are equal exactly when their widths and lists are, and
a request that sends the tag of the earlier one back is told `NotModified` by the
later one exactly then. -/
theorem etag_identifies_content (dates : HttpDates) (sha256 : String → List Byte)
    (lib : TokenLibrary) (d : Deployment) (tasks : Nat → Task) {w : World}
    {t₁ t₂ : List PortEvent} {c₁ c₂ : Pool Nat Port Port.Answer (Except Failure Value) World}
    (hrun₁ : Run d.env (d.start tasks w) t₁ c₁) (hrun₂ : Run d.env c₁ t₂ c₂) {listId : String}
    {version row : StatusListRecord} (hversion : c₁.world.db.rows.find? listId = some version)
    (hrow : c₂.world.db.rows.find? listId = some row)
    (hinjective : sha256 (etagContent row) = sha256 (etagContent version) →
      etagContent row = etagContent version)
    (hearlier : StartsPlain version.statusList.lst.toList)
    (hlater : StartsPlain row.statusList.lst.toList) :
    (generateEtag sha256 row = generateEtag sha256 version ↔
      row.statusList.bits = version.statusList.bits ∧
        row.statusList.lst = version.statusList.lst) ∧
    (∀ ifModifiedSince now, evaluateConditionalRequest dates (some (generateEtag sha256 version))
        ifModifiedSince (generateEtag sha256 row) row.updatedAt now = .notModified ↔
      row.statusList.bits = version.statusList.bits ∧
        row.statusList.lst = version.statusList.lst) ∧
    ∀ settings request answers format, request.time = none →
      request.ifNoneMatch = some (generateEtag sha256 version) →
      negotiate request.accept = .ok format → answers.record = .ok row →
      (IsNotModified (getStatusList dates sha256 lib settings request answers) ↔
        row.statusList.bits = version.statusList.bits ∧
          row.statusList.lst = version.statusList.lst) := by
  obtain ⟨row', hrow', hadvanced⟩ := d.later_version hrun₁ hrun₂ hversion
  rw [hrow] at hrow'
  cases hrow'
  have hdigest : sha256 (etagContent row) = sha256 (etagContent version) ↔
      row.statusList.bits = version.statusList.bits ∧
        row.statusList.lst = version.statusList.lst := by
    rw [← StatusList.mk.injEq,
      ← etagContent_eq_iff hadvanced.issuer hadvanced.sub hearlier hlater]
    exact ⟨hinjective, fun h => by rw [h]⟩
  refine ⟨?_, ?_, ?_⟩
  · rw [generateEtag_eq_iff, hdigest]
  · intro ifModifiedSince now
    rw [evaluateConditionalRequest_tag, evaluateIfNoneMatch_etag, hdigest]
  · intro settings request answers format htime htag haccept hcurrent
    rw [isNotModified_iff htime haccept hcurrent, htag, evaluateConditionalRequest_tag,
      evaluateIfNoneMatch_etag, hdigest]

section Samples

/-- The dates of the first minute of Unix time, which the second parser reads. -/
def epochDates : HttpDates where
  fromUnixTimestamp timestamp := some timestamp
  formatImfFixdate timestamp :=
    if timestamp = 10 then some "Thu, 01 Jan 1970 00:00:10 GMT"
    else if timestamp = 20 then some "Thu, 01 Jan 1970 00:00:20 GMT" else none
  parseImfFixdate _ := none
  parseRfc2822 text :=
    if text = "Thu, 01 Jan 1970 00:00:10 GMT" then some 10
    else if text = "Thu, 01 Jan 1970 00:00:20 GMT" then some 20 else none

/-- The digests of the sample list before and after the update. -/
def rowSha256 (content : String) : List Byte :=
  if content = etagContent sampleRow then
    beBytes 32 0xb79e61c51f4ec7fed405c58345630e1c45a177c502799b11f5e84308fd4c6116
  else
    beBytes 32 0xc4423cd601c58e42304770a17eb4dc221cb5ed3dd77a2c09031bf3387bf7597c

/-- A request that any version confirms. -/
def anyVersionRequest : GetRequest := ⟨none, none, some "*", none, false⟩

/-- The sample answers with the sample list. -/
def rowAnswers : GetAnswers := { sampleAnswers 15 with record := .ok sampleRow }

/-- The update of the sample list by call 1. -/
def suspension : List PortEvent × Pool Nat Port Port.Answer (Except Failure Value) World :=
  (sampleDeployment false).play updateAmongReaders sampleWorld (turns 20 [1, 1, 1, 1])

theorem suspension_run :
    Run (sampleDeployment false).env ((sampleDeployment false).start updateAmongReaders sampleWorld)
      suspension.1 suspension.2 :=
  (sampleDeployment false).play_run rfl updateAmongReaders sampleWorld (turns 20 [1, 1, 1, 1])

theorem suspension_row : suspension.2.world.db.rows.find? "list" = some suspendedRow := by
  decide +kernel

/-- The date of the sample list after the update: it is told `Modified` at every
time. -/
theorem modified_since_confirms_version_sample :
    suspension.2.world.db.rows.find? "list" = some suspendedRow ∧
      ∀ etag now, evaluateConditionalRequest epochDates none
        (some "Thu, 01 Jan 1970 00:00:10 GMT") etag suspendedRow.updatedAt now ≠ .notModified := by
  have hround : parseHttpDate epochDates (formatHttpDate epochDates sampleRow.updatedAt) =
      some sampleRow.updatedAt := by decide
  have hfirst : anyVersionRequest.time = none := rfl
  have hrecord : rowAnswers.record = .ok sampleRow := rfl
  have hanswered : getStatusList epochDates rowSha256 sampleTokens sampleSettings anyVersionRequest
      rowAnswers = .ok (.notModified (generateEtag rowSha256 sampleRow)
        (formatHttpDate epochDates sampleRow.updatedAt)
        (buildCacheControl sampleSettings.tokenTtlSecs)) := rfl
  obtain ⟨row, hrow, hdate, _⟩ := modified_since_confirms_version epochDates rowSha256 sampleTokens
    (sampleDeployment false) updateAmongReaders .nil suspension_run
    (show sampleWorld.db.rows.find? "list" = some sampleRow by decide) hfirst hrecord hanswered
    hround
  rw [suspension_row] at hrow
  cases hrow
  refine ⟨suspension_row, ?_⟩
  intro etag now hconfirmed
  have hsame := ((hdate etag now).mp hconfirmed).1
  exact absurd hsame (by decide)

/-- The tags of the sample list before and after the update differ, since the lists
do. -/
theorem etag_identifies_content_sample :
    suspension.2.world.db.rows.find? "list" = some suspendedRow ∧
      generateEtag rowSha256 suspendedRow ≠ generateEtag rowSha256 sampleRow := by
  have hinjective : rowSha256 (etagContent suspendedRow) = rowSha256 (etagContent sampleRow) →
      etagContent suspendedRow = etagContent sampleRow := by
    intro hdigest
    by_contra hne
    rw [rowSha256, if_neg hne, rowSha256, if_pos rfl] at hdigest
    exact absurd hdigest (by decide)
  have hplain : StartsPlain sampleRow.statusList.lst.toList ∧
      StartsPlain suspendedRow.statusList.lst.toList := by
    have hhead : sampleRow.statusList.lst.toList.head? = some 'e' ∧
        suspendedRow.statusList.lst.toList.head? = some 'e' := by decide
    unfold StartsPlain
    rw [hhead.1, hhead.2]
    simp
  refine ⟨suspension_row, ?_⟩
  intro htags
  have hcontent := (etag_identifies_content epochDates rowSha256 sampleTokens
    (sampleDeployment false) updateAmongReaders .nil suspension_run
    (show sampleWorld.db.rows.find? "list" = some sampleRow by decide) suspension_row hinjective
    hplain.1 hplain.2).1.mp htags
  exact absurd hcontent.1 (by decide)

end Samples

end StatusListServer
