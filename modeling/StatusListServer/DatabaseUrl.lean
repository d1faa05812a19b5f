import StatusListServer.CertMaterial
import StatusListServer.ConditionalGet
import StatusListServer.Ipv6Text
import StatusListServer.UrlSyntax

/-!
# The database URL

`DatabaseConfig` of `config.rs` names the database by a full URL or by split fields
from which the URL is assembled.  The user name, the password and the database name
are percent-encoded, the host is screened and the query is appended as it is.

The assembled URL splits back into the fields: no value of a field moves a delimiter.
-/

namespace StatusListServer

namespace Config

open TextTrimming

/-- The kinds of database. -/
inductive DatabaseBackend
  | memory
  | postgres
  | mySql
  | sqlite
deriving DecidableEq, Repr

/-- The name of a backend in the configuration. -/
def DatabaseBackend.asStr : DatabaseBackend → String
  | .memory => "memory"
  | .postgres => "postgres"
  | .mySql => "mysql"
  | .sqlite => "sqlite"

/-- What a URL of the backend may begin with. -/
def DatabaseBackend.prefixes : DatabaseBackend → List String
  | .memory => ["memory:", "memory"]
  | .postgres => ["postgres://", "postgresql://"]
  | .mySql => ["mysql://"]
  | .sqlite => ["sqlite:"]

/-- Whether a URL is one of the backend. -/
def DatabaseBackend.validateUrlScheme (backend : DatabaseBackend) (url : String) : Bool :=
  backend.prefixes.any fun start => start.toList.isPrefixOf url.toList

/-- A configuration that is refused, with the reason. -/
inductive ConfigError
  | message (text : String)
deriving DecidableEq, Repr

/-- The connection fields of the configuration. -/
structure DatabaseConfig where
  url : Option String
  host : Option String
  port : Option UInt16
  username : Option String
  password : Option String
  passwordFile : Option String
  name : Option String
  query : Option String
  backend : DatabaseBackend
deriving DecidableEq, Repr

/-! ## Fields -/

/-- A trimmed text that is not empty. -/
def trimNonEmpty (value : Option String) : Option String :=
  (value.map trimText).filter fun value => !value.isEmpty

/-- The bytes that stand for themselves in a part of a URL. -/
def isUnreserved (byte : UInt8) : Bool :=
  ('A'.toUInt8 ≤ byte && byte ≤ 'Z'.toUInt8) || ('a'.toUInt8 ≤ byte && byte ≤ 'z'.toUInt8) ||
    ('0'.toUInt8 ≤ byte && byte ≤ '9'.toUInt8) || byte = '-'.toUInt8 || byte = '.'.toUInt8 ||
    byte = '_'.toUInt8 || byte = '~'.toUInt8

/-- Percent-encode a part of a URL. -/
def encodeUrlPart (value : String) : String :=
  String.ofList ((Utf8.bytes value.toList).foldl
    (fun encoded byte =>
      if isUnreserved byte then encoded ++ [Char.ofNat byte.toNat]
      else encoded ++ ['%', Url.hexDigit (byte.toNat / 16), Url.hexDigit (byte.toNat % 16)])
    [])

/-- The text reads as an IPv6 address. -/
def isIpv6Addr (host : String) : Bool := (Ipv6.parse host.toList).isSome

/-- The host as it stands in a URL: IPv6 literals in brackets. -/
def formatDatabaseUrlHost (host : String) : String :=
  if isIpv6Addr host then "[" ++ host ++ "]" else host

/-- The text inside a pair of brackets. -/
def stripBrackets (host : String) : Option String :=
  match host.toList with
  | '[' :: rest => if rest.getLast? = some ']' then some (String.ofList rest.dropLast) else none
  | _ => none

/-- Whether a host is an IPv6 literal, in brackets or not. -/
def databaseHostIsIpv6 (host : String) : Bool :=
  isIpv6Addr host || (stripBrackets host).any isIpv6Addr

/-- The error for a required field. -/
def missingField (field : String) : ConfigError :=
  .message ("Missing required config field: " ++ field)

/-- A required field, trimmed. -/
def requiredConfigField (value : Option String) (field : String) : Except ConfigError String :=
  match trimNonEmpty value with
  | some value => .ok value
  | none => .error (missingField field)

/-- A secret is not trimmed before it is found missing. -/
def requiredSecretField (value : Option String) (field : String) : Except ConfigError String :=
  match value.filter fun value => !value.isEmpty with
  | some value => .ok value
  | none => .error (missingField field)

/-! ## Checks -/

/-- The characters of a query key. -/
def isQueryKeyChar (c : Char) : Bool := c.isAlphanum || c = '_' || c = '-' || c = '.'

/-- Keys that would carry a credential. -/
def isCredentialKey (key : String) : Bool :=
  ["password", "passwd", "secret", "token"].any (fun word => hasWindow word.toList key.toList) ||
    key = "user" || key = "username"

/-- The first key that is malformed or carries credentials is refused. -/
def validateQueryKeys : List (String × String) → Except ConfigError Unit
  | [] => .ok ()
  | (key, _) :: rest =>
      if key.isEmpty || !key.toList.all isQueryKeyChar then
        .error (.message
          ("Invalid database.query: query parameter keys must be non-empty and contain only " ++
            "ASCII letters, digits, '.', '_' or '-'"))
      else
        let key := key.map Char.toLower
        if isCredentialKey key then
          .error (.message
            ("Invalid database.query: credential-like query parameter key '" ++ key ++
              "' is not allowed"))
        else validateQueryKeys rest

/-- `str::trim_start_matches('?')`. -/
def trimStartQuestionMarks (query : String) : String :=
  String.ofList (query.toList.dropWhile (· == '?'))

section Resolve

-- `url::form_urlencoded::parse`: the keys and values of some bytes.
variable (formUrlencodedParse : List UInt8 → List (String × String))

/-- `validate_database_query`: the keys of the parsed query. -/
def validateDatabaseQuery (query : String) : Except ConfigError Unit :=
  let query := trimStartQuestionMarks query
  if query.isEmpty then .ok ()
  else validateQueryKeys (formUrlencodedParse (Utf8.bytes query.toList))

/-- `validate_database_host`: no character that would end the host. -/
def validateDatabaseHost (host : String) : Except ConfigError Unit :=
  if databaseHostIsIpv6 host then .ok ()
  else
    let cs := host.toList
    let invalid := cs.any isWhitespace || cs.contains '/' || cs.contains '@' || cs.contains '?' ||
      cs.contains '#' || cs.contains ':' || cs.contains '\\' || cs.head? == some '-' ||
      cs.getLast? == some '-' || cs.head? == some '.' || (cs.reverse.dropWhile (· == '.')).isEmpty
    if invalid then
      .error (.message
        ("Invalid database.host: expected a hostname or IP address without scheme, port, path, " ++
          "userinfo, query, or fragment"))
    else .ok ()

namespace DatabaseConfig

variable (cfg : DatabaseConfig)

/-- Whether any of the split fields is set. -/
def hasSplitConnectionFields : Bool :=
  cfg.host.any (fun value => !(trimText value).isEmpty) ||
    cfg.username.any (fun value => !(trimText value).isEmpty) ||
    cfg.password.any (fun value => !value.isEmpty) ||
    cfg.passwordFile.any (fun value => !value.isEmpty) ||
    cfg.name.any (fun value => !(trimText value).isEmpty)

/-- The scheme and the default port of the backend. -/
def schemeAndPort : Except ConfigError (String × UInt16) :=
  match cfg.backend with
  | .postgres => .ok ("postgres", 5432)
  | .mySql => .ok ("mysql", 3306)
  | .memory | .sqlite =>
      .error (.message
        ("Split database connection fields are only supported for postgres/mysql; " ++
          "configured backend is '" ++ cfg.backend.asStr ++ "'"))

/-- The query as it is appended to the URL. -/
def queryPart : Except ConfigError String :=
  match trimNonEmpty cfg.query with
  | none => .ok ""
  | some query => do
      validateDatabaseQuery formUrlencodedParse query
      return "?" ++ trimStartQuestionMarks query

/-- The URL that is given, else the one made of the split fields. -/
def resolvedUrl : Except ConfigError String :=
  if !cfg.hasSplitConnectionFields then
    match cfg.url with
    | some url => .ok url
    | none => .error (missingField "database.url or split database fields")
  else if cfg.url.isSome then
    .error (.message ("Ambiguous database configuration: use either database.url or split " ++
      "database fields, not both"))
  else do
    let (scheme, defaultPort) ← cfg.schemeAndPort
    let host ← requiredConfigField cfg.host "database.host"
    validateDatabaseHost host
    let urlHost := formatDatabaseUrlHost host
    let username ← requiredConfigField cfg.username "database.username"
    let password ← requiredSecretField cfg.password "database.password"
    let password := trimText password
    let name ← requiredConfigField cfg.name "database.name"
    let port := cfg.port.getD defaultPort
    let query ← cfg.queryPart formUrlencodedParse
    return scheme ++ "://" ++ encodeUrlPart username ++ ":" ++ encodeUrlPart password ++ "@" ++
      urlHost ++ ":" ++ toString port.toNat ++ "/" ++ encodeUrlPart name ++ query

/-- A password file is read in place of the configured password. -/
def loadResolvedUrl (readToString : String → Except String String) : Except ConfigError String :=
  match cfg.passwordFile with
  | none => cfg.resolvedUrl formUrlencodedParse
  | some path =>
      match readToString path with
      | .ok password =>
          { cfg with password := some (trimText password) }.resolvedUrl formUrlencodedParse
      | .error err =>
          .error (.message ("Failed to read database.password_file '" ++ path ++ "': " ++ err))

end DatabaseConfig

end Resolve

/-! ## What the parts are -/

/-- Encoding a part is percent-encoding its bytes. -/
theorem encodeUrlPart_eq (value : String) :
    (encodeUrlPart value).toList = Url.encode isUnreserved (Utf8.bytes value.toList) := by
  have hfold : ∀ (bytes : List UInt8) (encoded : List Char),
      bytes.foldl (fun encoded byte =>
        if isUnreserved byte then encoded ++ [Char.ofNat byte.toNat]
        else encoded ++ ['%', Url.hexDigit (byte.toNat / 16), Url.hexDigit (byte.toNat % 16)])
        encoded = encoded ++ Url.encode isUnreserved bytes := by
    intro bytes
    induction bytes with
    | nil => simp
    | cons byte bytes ih =>
        intro encoded
        rw [List.foldl_cons, ih, Url.encode_cons, Url.encodeByte]
        split
        · simp
        · simp
  rw [encodeUrlPart, String.toList_ofList, hfold, List.nil_append]

/-- The bytes that are kept are ASCII. -/
theorem isUnreserved_lt {byte : UInt8} (h : isUnreserved byte = true) : byte.toNat < 128 := by
  simp only [isUnreserved, Bool.or_eq_true, Bool.and_eq_true, decide_eq_true_eq,
    UInt8.le_iff_toNat_le] at h
  rcases h with (((((h | h) | h) | rfl) | rfl) | rfl) | rfl
  · exact Nat.lt_of_le_of_lt h.2 (by decide)
  · exact Nat.lt_of_le_of_lt h.2 (by decide)
  · exact Nat.lt_of_le_of_lt h.2 (by decide)
  · decide
  · decide
  · decide
  · decide

/-- The escape character and the delimiters are escaped. -/
theorem not_isUnreserved {byte : UInt8} (h : isUnreserved byte = true) :
    Char.ofNat byte.toNat ≠ '%' ∧ ¬ Url.IsDelimiter (Char.ofNat byte.toNat) := by
  have hlt := isUnreserved_lt h
  have hall : ∀ n < 128, isUnreserved (UInt8.ofNat n) = true →
      Char.ofNat n ≠ '%' ∧ ¬ Url.IsDelimiter (Char.ofNat n) := by decide
  exact hall byte.toNat hlt (by rwa [UInt8.ofNat_toNat])

/-- The bytes that are kept stand for themselves. -/
theorem plain_isUnreserved : Url.Plain isUnreserved := by
  intro byte h
  refine ⟨isUnreserved_lt h, fun hpercent => (not_isUnreserved h).1 ?_⟩
  rw [hpercent]

/-- The bytes that are kept are no delimiters. -/
theorem keepsNoDelimiter_isUnreserved : Url.KeepsNoDelimiter isUnreserved :=
  fun _ h => (not_isUnreserved h).2

/-- A trimmed text is that of the field. -/
theorem trimNonEmpty_eq_some {value : Option String} {text : String}
    (h : trimNonEmpty value = some text) : ∃ raw, value = some raw ∧ text = trimText raw := by
  obtain ⟨hvalue, -⟩ := Option.filter_eq_some_iff.mp h
  obtain ⟨raw, hraw, rfl⟩ := Option.map_eq_some_iff.mp hvalue
  exact ⟨raw, hraw, rfl⟩

/-- A required field was there. -/
theorem requiredConfigField_eq_ok {value : Option String} {field text : String}
    (h : requiredConfigField value field = .ok text) :
    ∃ raw, value = some raw ∧ text = trimText raw := by
  unfold requiredConfigField at h
  split at h
  · next hvalue =>
      cases h
      exact trimNonEmpty_eq_some hvalue
  · cases h

/-- A required secret was there, and is not trimmed. -/
theorem requiredSecretField_eq_ok {value : Option String} {field text : String}
    (h : requiredSecretField value field = .ok text) : value = some text := by
  unfold requiredSecretField at h
  split at h
  · next hvalue =>
      cases h
      exact (Option.filter_eq_some_iff.mp hvalue).1
  · cases h

/-- An address has neither of the characters that would end the host early. -/
theorem isIpv6Addr_safe {host : String} (h : isIpv6Addr host = true) :
    '/' ∉ host.toList ∧ '@' ∉ host.toList := by
  obtain ⟨groups, hgroups⟩ := Option.isSome_iff_exists.mp h
  have hchars := Ipv6.isAddressChar_of_parse hgroups
  exact ⟨fun hmem => absurd (hchars _ hmem) (by decide),
    fun hmem => absurd (hchars _ hmem) (by decide)⟩

/-- Brackets are stripped in pairs. -/
theorem stripBrackets_eq_some {host literal : String} (h : stripBrackets host = some literal) :
    host.toList = '[' :: (literal.toList ++ [']']) := by
  unfold stripBrackets at h
  split at h
  · next rest hhost =>
      split at h
      · next hlast =>
          cases h
          have hne : rest ≠ [] := by
            rintro rfl
            cases hlast
          rw [hhost, String.toList_ofList, ← List.dropLast_append_getLast hne]
          simp [List.getLast_eq_iff_getLast?_eq_some hne |>.mpr hlast]
      · cases h
  · cases h

/-- What stands for a host in a URL: an IPv6 literal in brackets, any other host as it
is. -/
inductive HostInUrl : String → String → Prop
  | literal {host : String} (h : isIpv6Addr host = true) : HostInUrl host ("[" ++ host ++ "]")
  | bracketed {host literal : String} (hhost : host = "[" ++ literal ++ "]")
      (h : isIpv6Addr literal = true) : HostInUrl host host
  | name {host : String} (h : databaseHostIsIpv6 host = false) : HostInUrl host host

/-- The host in a URL can be read back. -/
theorem hostInUrl_format (host : String) : HostInUrl host (formatDatabaseUrlHost host) := by
  unfold formatDatabaseUrlHost
  split
  · next h => exact .literal h
  · next h =>
      cases hipv6 : databaseHostIsIpv6 host with
      | false => exact .name hipv6
      | true =>
          unfold databaseHostIsIpv6 at hipv6
          rw [eq_false_of_ne_true h, Bool.false_or] at hipv6
          obtain ⟨literal, hstrip, hliteral⟩ := (Option.any_eq_true _ _).mp hipv6
          refine .bracketed (String.toList_inj.mp ?_) hliteral
          rw [stripBrackets_eq_some hstrip]
          simp

/-- **The screened host cannot end early.** -/
theorem HostInUrl.safe {host text : String} (hurl : HostInUrl host text)
    (h : validateDatabaseHost host = .ok ()) : '/' ∉ text.toList ∧ '@' ∉ text.toList := by
  cases hurl with
  | literal hipv6 =>
      obtain ⟨hslash, hat⟩ := isIpv6Addr_safe hipv6
      simp [hslash, hat]
  | bracketed hhost hipv6 =>
      obtain ⟨hslash, hat⟩ := isIpv6Addr_safe hipv6
      simp [hhost, hslash, hat]
  | name hipv6 =>
      simp only [validateDatabaseHost, hipv6, Bool.false_eq_true, if_false] at h
      split at h
      · cases h
      · next hvalid =>
          simp only [Bool.or_eq_true, List.contains_iff_mem, not_or] at hvalid
          exact ⟨hvalid.1.1.1.1.1.1.1.1.1.2, hvalid.1.1.1.1.1.1.1.1.2⟩

/-- The query that the configuration means. -/
def DatabaseConfig.queryMeant (cfg : DatabaseConfig) : Option String :=
  (trimNonEmpty cfg.query).map trimStartQuestionMarks

section Resolved

variable {formUrlencodedParse : List UInt8 → List (String × String)} {cfg : DatabaseConfig}

/-- An accepted query is the text after the question mark. -/
theorem queryPart_eq_ok {text : String} (h : cfg.queryPart formUrlencodedParse = .ok text) :
    text.toList = Url.queryText (cfg.queryMeant.map String.toList) := by
  unfold DatabaseConfig.queryPart at h
  unfold DatabaseConfig.queryMeant
  split at h
  · next hquery =>
      cases h
      simp [hquery, Url.queryText]
  · next query hquery =>
      obtain ⟨-, -, h⟩ := CheckedEval.bind_eq_ok h
      cases h
      simp [hquery, Url.queryText]

/-- The backends that split fields are for, with their schemes and default ports. -/
inductive SplitBackend : DatabaseBackend → String → UInt16 → Prop
  | postgres : SplitBackend .postgres "postgres" 5432
  | mySql : SplitBackend .mySql "mysql" 3306

/-- Every backend with split fields has its scheme and default port. -/
theorem schemeAndPort_eq_ok {scheme : String} {defaultPort : UInt16}
    (h : cfg.schemeAndPort = .ok (scheme, defaultPort)) :
    SplitBackend cfg.backend scheme defaultPort := by
  unfold DatabaseConfig.schemeAndPort at h
  split at h
  · next hbackend =>
      cases h
      exact hbackend ▸ .postgres
  · next hbackend =>
      cases h
      exact hbackend ▸ .mySql
  · cases h
  · cases h

/-- Everything that went into an assembled URL. -/
theorem resolvedUrl_eq_ok {url : String} (hsplit : cfg.hasSplitConnectionFields = true)
    (h : cfg.resolvedUrl formUrlencodedParse = .ok url) :
    ∃ scheme defaultPort host username password name query,
      SplitBackend cfg.backend scheme defaultPort ∧ cfg.host = some host ∧
      cfg.username = some username ∧ cfg.password = some password ∧ cfg.name = some name ∧
      validateDatabaseHost (trimText host) = .ok () ∧
      cfg.queryPart formUrlencodedParse = .ok query ∧
      url = scheme ++ "://" ++ encodeUrlPart (trimText username) ++ ":" ++
        encodeUrlPart (trimText password) ++ "@" ++ formatDatabaseUrlHost (trimText host) ++ ":" ++
        toString (cfg.port.getD defaultPort).toNat ++ "/" ++ encodeUrlPart (trimText name) ++
        query := by
  unfold DatabaseConfig.resolvedUrl at h
  rw [hsplit, Bool.not_true, if_neg (by decide)] at h
  split at h
  · cases h
  · obtain ⟨⟨scheme, defaultPort⟩, hscheme, h⟩ := CheckedEval.bind_eq_ok h
    obtain ⟨host, hhost, h⟩ := CheckedEval.bind_eq_ok h
    obtain ⟨⟨⟩, hvalid, h⟩ := CheckedEval.bind_eq_ok h
    obtain ⟨username, husername, h⟩ := CheckedEval.bind_eq_ok h
    obtain ⟨password, hpassword, h⟩ := CheckedEval.bind_eq_ok h
    obtain ⟨name, hname, h⟩ := CheckedEval.bind_eq_ok h
    obtain ⟨query, hquery, h⟩ := CheckedEval.bind_eq_ok h
    cases h
    obtain ⟨rawHost, hrawHost, rfl⟩ := requiredConfigField_eq_ok hhost
    obtain ⟨rawUsername, hrawUsername, rfl⟩ := requiredConfigField_eq_ok husername
    obtain ⟨rawName, hrawName, rfl⟩ := requiredConfigField_eq_ok hname
    exact ⟨scheme, defaultPort, rawHost, rawUsername, password, rawName, query,
      schemeAndPort_eq_ok hscheme, hrawHost, hrawUsername, requiredSecretField_eq_ok hpassword,
      hrawName, hvalid, hquery, rfl⟩

/-- No scheme contains a colon. -/
theorem SplitBackend.colon_not_mem {backend : DatabaseBackend} {scheme : String}
    {defaultPort : UInt16} (h : SplitBackend backend scheme defaultPort) : ':' ∉ scheme.toList := by
  cases h with
  | postgres => decide
  | mySql => decide

/-- The scheme is among the prefixes of its backend. -/
theorem SplitBackend.mem_prefixes {backend : DatabaseBackend} {scheme : String}
    {defaultPort : UInt16} (h : SplitBackend backend scheme defaultPort) :
    scheme ++ "://" ∈ backend.prefixes := by
  cases h with
  | postgres => exact List.mem_cons_self
  | mySql => exact List.mem_cons_self

/-- Without a full URL, only split fields are resolved. -/
theorem hasSplit_of_resolvedUrl {url : String} (hnone : cfg.url = none)
    (h : cfg.resolvedUrl formUrlencodedParse = .ok url) : cfg.hasSplitConnectionFields = true := by
  by_contra hsplit
  rw [DatabaseConfig.resolvedUrl, eq_false_of_ne_true hsplit, hnone] at h
  cases h

variable (cfg) in
/-- A URL made of the split fields passes the check of its scheme. -/
theorem validateUrlScheme_resolvedUrl {url : String} (hnone : cfg.url = none)
    (h : cfg.resolvedUrl formUrlencodedParse = .ok url) :
    cfg.backend.validateUrlScheme url = true := by
  obtain ⟨scheme, defaultPort, host, username, password, name, query, hscheme, -, -, -, -, -, -,
    hurl⟩ := resolvedUrl_eq_ok (hasSplit_of_resolvedUrl hnone h) h
  have hstart : (scheme ++ "://").toList.isPrefixOf url.toList = true := by
    rw [List.isPrefixOf_iff_prefix, hurl]
    simp only [String.toList_append, List.append_assoc, List.prefix_append_right_inj,
      List.prefix_append]
  exact List.any_eq_true.mpr ⟨scheme ++ "://", hscheme.mem_prefixes, hstart⟩

/-- **The check of the scheme at startup never refuses an assembled URL**, with the
password configured or read from a file. -/
theorem validateUrlScheme_loadResolvedUrl {readToString : String → Except String String}
    {url : String} (hnone : cfg.url = none)
    (h : cfg.loadResolvedUrl formUrlencodedParse readToString = .ok url) :
    cfg.backend.validateUrlScheme url = true := by
  unfold DatabaseConfig.loadResolvedUrl at h
  split at h
  · exact validateUrlScheme_resolvedUrl cfg hnone h
  · split at h
    · next password hread =>
        exact validateUrlScheme_resolvedUrl { cfg with password := some (trimText password) }
          hnone h
    · cases h

/-- The URL the code formats is the one with its parts in their places. -/
theorem toList_assembled (scheme username password host name query : String) (port : Nat)
    {queryMeant : Option (List Char)} (hquery : query.toList = Url.queryText queryMeant) :
    (scheme ++ "://" ++ encodeUrlPart username ++ ":" ++ encodeUrlPart password ++ "@" ++ host ++
      ":" ++ toString port ++ "/" ++ encodeUrlPart name ++ query).toList =
    Url.assemble isUnreserved {
      scheme := scheme.toList
      username := username.toList
      password := password.toList
      host := host.toList
      port
      path := name.toList
      query := queryMeant } := by
  have hsep : "://".toList = [':', '/', '/'] := rfl
  have hcolon : ":".toList = [':'] := rfl
  have hat : "@".toList = ['@'] := rfl
  have hslash : "/".toList = ['/'] := rfl
  have hport : (toString port).toList = Nat.toDigits 10 port := Nat.toList_repr
  simp only [Url.assemble, Url.authorityText, String.toList_append, encodeUrlPart_eq, hsep, hcolon,
    hat, hslash, hport, hquery, List.append_assoc, List.cons_append, List.nil_append]

/-- **The assembled URL decodes back to its fields.**  Whatever the fields are, splitting
the URL at its delimiters and decoding gives the scheme of the backend, the trimmed user
name, password and database name, the host, the port and the query. -/
theorem parse_resolvedUrl (formUrlencodedParse : List UInt8 → List (String × String))
    (cfg : DatabaseConfig) (url : String) (hsplit : cfg.hasSplitConnectionFields = true)
    (h : cfg.resolvedUrl formUrlencodedParse = .ok url) :
    ∃ scheme defaultPort host hostText username password name,
      SplitBackend cfg.backend scheme defaultPort ∧ cfg.host = some host ∧
      HostInUrl (trimText host) hostText ∧ cfg.username = some username ∧
      cfg.password = some password ∧ cfg.name = some name ∧
      Url.parse url.toList = some {
        scheme := scheme.toList
        username := (trimText username).toList
        password := (trimText password).toList
        host := hostText.toList
        port := (cfg.port.getD defaultPort).toNat
        path := (trimText name).toList
        query := cfg.queryMeant.map String.toList } := by
  obtain ⟨scheme, defaultPort, host, username, password, name, query, hscheme, hhost, husername,
    hpassword, hname, hvalid, hquery, hurl⟩ := resolvedUrl_eq_ok hsplit h
  have hinUrl := hostInUrl_format (trimText host)
  generalize formatDatabaseUrlHost (trimText host) = hostText at hinUrl hurl
  obtain ⟨hslash, hat⟩ := hinUrl.safe hvalid
  refine ⟨scheme, defaultPort, host, hostText, username, password, name, hscheme, hhost, hinUrl,
    husername, hpassword, hname, ?_⟩
  rw [hurl, toList_assembled _ _ _ _ _ _ _ (queryPart_eq_ok hquery)]
  exact Url.parse_assemble plain_isUnreserved keepsNoDelimiter_isUnreserved hscheme.colon_not_mem
    hslash hat

end Resolved

/-- A configuration whose fields hold delimiters. -/
def sampleDatabase : DatabaseConfig where
  url := none
  host := some " fd00::1 "
  port := none
  username := some "user@example.com"
  password := some " s/e:c ét "
  passwordFile := none
  name := some "status/list?x"
  query := some "?sslmode=verify-full"
  backend := .postgres

/-- The pairs of the sample's query. -/
def sampleFormParse (_ : List UInt8) : List (String × String) := [("sslmode", "verify-full")]

/-- The URL of the sample configuration. -/
def sampleDatabaseUrl : String :=
  "postgres://user%40example.com:s%2Fe%3Ac%20%C3%A9t@[fd00::1]:5432/status%2Flist%3Fx" ++
    "?sslmode=verify-full"

/-- The sample configuration is read back from its URL. -/
theorem parse_sampleDatabase :
    sampleDatabase.hasSplitConnectionFields = true ∧
    sampleDatabase.resolvedUrl sampleFormParse = .ok sampleDatabaseUrl ∧
    ∃ parts, Url.parse sampleDatabaseUrl.toList = some parts ∧
      parts.username = (trimText "user@example.com").toList ∧
      parts.password = (trimText " s/e:c ét ").toList ∧
      parts.path = (trimText "status/list?x").toList := by
  have hok : sampleDatabase.resolvedUrl sampleFormParse = .ok sampleDatabaseUrl := by decide +kernel
  obtain ⟨_, _, _, _, _, _, _, -, -, -, husername, hpassword, hname, hparse⟩ :=
    parse_resolvedUrl sampleFormParse sampleDatabase sampleDatabaseUrl (by decide) hok
  cases husername
  cases hpassword
  cases hname
  exact ⟨by decide, hok, _, hparse, rfl, rfl, rfl⟩

end Config

end StatusListServer
