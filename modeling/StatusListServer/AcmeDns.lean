import StatusListServer.CertMaterial
import StatusListServer.ConditionalGet
import StatusListServer.DnsChallenges
import StatusListServer.KeyedTable

/-!
# The ACME-DNS provider

An ACME-DNS server has registered accounts, each with a subdomain whose two most
recent TXT values it serves.  The provider selects an account for a domain.  Its
configuration is a hash map, which is walked in any order: `AcmeDnsProvider::new`
compares an entry with the first one it saw for the same normalized domain, and
`check_order_domains` counts the domains of a subdomain.

The accounts a provider selects depend on the entries alone, and an order that passes
the check leaves no digest rotated out, whatever the order of its updates.
-/

namespace StatusListServer

open Interaction KeyedTable TextTrimming

namespace AcmeDns

/-- Credentials of a single registered ACME-DNS account. -/
structure AcmeDnsCredentials where
  username : String
  password : String
  subdomain : DnsName
deriving DecidableEq, Repr

/-- The accounts of a configuration by domain. -/
abbrev Accounts := Table (Prod.fst : DnsName × AcmeDnsCredentials → DnsName)

/-- The provider, with its accounts. -/
structure AcmeDnsProvider where
  serverUrl : List Char
  defaultAccount : Option AcmeDnsCredentials
  /-- Per-domain accounts keyed by normalized identifier. -/
  accounts : Accounts

/-- An error of this provider. -/
def dnsErr (message : String) : ChallengeError := .dns "acmedns" message

/-- Lowercase, no trailing dot, no wildcard label. -/
def normalizeDomain (domain : DnsName) : DnsName :=
  let domain := trimEndDots (trim domain)
  ((stripWildcard domain).getD domain).map Char.toLower

/-- Whether two entries hold the same registered account. -/
def sameAccount (a b : AcmeDnsCredentials) : Bool :=
  a.username = b.username && a.subdomain = b.subdomain && a.password = b.password

/-- Accounts are compared field by field. -/
theorem sameAccount_iff {a b : AcmeDnsCredentials} : sameAccount a b = true ↔ a = b := by
  obtain ⟨username, password, subdomain⟩ := a
  obtain ⟨username', password', subdomain'⟩ := b
  simp only [sameAccount, Bool.and_eq_true, decide_eq_true_eq, AcmeDnsCredentials.mk.injEq]
  tauto

/-! ## The provider of a configuration -/

/-- For a normalized domain, the first entry that was seen. -/
abbrev Normalized := Table (Prod.fst : DnsName × DnsName × AcmeDnsCredentials → DnsName)

/-- The loop of `new` over the entries of the map. -/
def normalizeAccounts : List (DnsName × AcmeDnsCredentials) → Normalized →
    Except ChallengeError Normalized
  | [], normalized => .ok normalized
  | (domain, account) :: rest, normalized =>
      match normalized.find? (normalizeDomain domain) with
      | some (key, other, existing) =>
          if sameAccount existing account then normalizeAccounts rest normalized
          else .error (dnsErr ("Conflicting ACME-DNS accounts: entries " ++ String.ofList other ++
            " and " ++ String.ofList domain ++ " both normalize to " ++ String.ofList key ++
            " but hold different credentials"))
      | none => normalizeAccounts rest (normalized.upsert (normalizeDomain domain, domain, account))

/-- `AcmeDnsProvider::new`, with the entries of the map in the order they are walked. -/
def AcmeDnsProvider.new (serverUrl : List Char) (defaultAccount : Option AcmeDnsCredentials)
    (accounts : List (DnsName × AcmeDnsCredentials)) : Except ChallengeError AcmeDnsProvider :=
  (normalizeAccounts accounts .empty).map fun normalized =>
    { serverUrl := (serverUrl.reverse.dropWhile (· == '/')).reverse
      defaultAccount := defaultAccount
      accounts := normalized.mapRows (fun (key, _, account) => (key, account)) fun _ => rfl }

/-- Select the account for a domain: per-domain entry first, then the default. -/
def AcmeDnsProvider.credentialsFor (self : AcmeDnsProvider) (domain : DnsName) :
    Except ChallengeError AcmeDnsCredentials :=
  match ((self.accounts.find? (normalizeDomain domain)).map Prod.snd).or self.defaultAccount with
  | some account => .ok account
  | none => .error (dnsErr ("No ACME-DNS account configured for " ++ String.ofList domain ++
      " and no default account is set"))

/-- Two entries for one normalized domain hold different accounts. -/
def Conflicting (entries : List (DnsName × AcmeDnsCredentials)) : Prop :=
  ∃ e ∈ entries, ∃ e' ∈ entries, normalizeDomain e.1 = normalizeDomain e'.1 ∧ e.2 ≠ e'.2

/-- What was kept of the entries seen so far: every entry agrees with the row of its
normalized domain, and every row is from an entry. -/
structure Keeps (seen : List (DnsName × AcmeDnsCredentials)) (normalized : Normalized) : Prop where
  entry : ∀ e ∈ seen, ∃ other,
    normalized.find? (normalizeDomain e.1) = some (normalizeDomain e.1, other, e.2)
  row : ∀ key row, normalized.find? key = some row →
    ∃ e ∈ seen, normalizeDomain e.1 = key ∧ e.2 = row.2.2

/-- A name that is there already. -/
theorem Keeps.occupied {seen : List (DnsName × AcmeDnsCredentials)} {normalized : Normalized}
    (h : Keeps seen normalized) {domain : DnsName} {account : AcmeDnsCredentials}
    {row : DnsName × DnsName × AcmeDnsCredentials}
    (hrow : normalized.find? (normalizeDomain domain) = some row) (hsame : row.2.2 = account) :
    Keeps (seen ++ [(domain, account)]) normalized where
  entry := by
    intro e he
    rcases List.mem_append.mp he with he | he
    · exact h.entry e he
    · rw [List.mem_singleton.mp he]
      have hkey : row.1 = normalizeDomain domain := Table.key_of_find? hrow
      refine ⟨row.2.1, ?_⟩
      rw [hrow, ← hkey, ← hsame]
  row := by
    intro key row' hrow'
    obtain ⟨e, he, heq⟩ := h.row key row' hrow'
    exact ⟨e, List.mem_append_left _ he, heq⟩

/-- A name that was not there. -/
theorem Keeps.vacant {seen : List (DnsName × AcmeDnsCredentials)} {normalized : Normalized}
    (h : Keeps seen normalized) {domain : DnsName} (account : AcmeDnsCredentials)
    (hnone : normalized.find? (normalizeDomain domain) = none) :
    Keeps (seen ++ [(domain, account)])
      (normalized.upsert (normalizeDomain domain, domain, account)) := by
  have hself := Table.find?_upsert_self normalized (normalizeDomain domain, domain, account)
  have hkept : ∀ key, key ≠ normalizeDomain domain →
      (normalized.upsert (normalizeDomain domain, domain, account)).find? key =
        normalized.find? key :=
    fun key hkey => Table.find?_upsert_of_ne (r := (normalizeDomain domain, domain, account)) hkey
  constructor
  · intro e he
    rcases List.mem_append.mp he with he | he
    · obtain ⟨other, hother⟩ := h.entry e he
      have hne : normalizeDomain e.1 ≠ normalizeDomain domain := by
        intro heq
        rw [heq, hnone] at hother
        cases hother
      exact ⟨other, (hkept _ hne).trans hother⟩
    · rw [List.mem_singleton.mp he]
      exact ⟨domain, hself⟩
  · intro key row hrow
    by_cases hkey : key = normalizeDomain domain
    · rw [hkey, hself] at hrow
      cases hrow
      exact ⟨(domain, account), by simp, hkey.symm, rfl⟩
    · rw [hkept key hkey] at hrow
      obtain ⟨e, he, heq⟩ := h.row key row hrow
      exact ⟨e, List.mem_append_left _ he, heq⟩

/-- The loop keeps the entries it accepts, and stops only at a conflict. -/
theorem normalizeAccounts_spec (entries : List (DnsName × AcmeDnsCredentials)) :
    ∀ {seen : List (DnsName × AcmeDnsCredentials)} {normalized : Normalized},
      Keeps seen normalized →
      match normalizeAccounts entries normalized with
      | .ok normalized' => Keeps (seen ++ entries) normalized'
      | .error _ => Conflicting (seen ++ entries) := by
  induction entries with
  | nil =>
      intro seen normalized h
      simpa [normalizeAccounts] using h
  | cons entry rest ih =>
      intro seen normalized h
      obtain ⟨domain, account⟩ := entry
      rw [← List.singleton_append, ← List.append_assoc, List.singleton_append, normalizeAccounts]
      cases hfind : normalized.find? (normalizeDomain domain) with
      | none => exact ih (h.vacant account hfind)
      | some row =>
          obtain ⟨key, other, existing⟩ := row
          by_cases hsame : sameAccount existing account = true
          · simp only [hsame, ↓reduceIte]
            exact ih (h.occupied hfind (sameAccount_iff.mp hsame))
          · simp only [hsame]
            obtain ⟨e, he, hkey, haccount⟩ := h.row _ _ hfind
            refine ⟨e, by simp [he], (domain, account), by simp, hkey, ?_⟩
            rw [haccount]
            exact fun heq => hsame (sameAccount_iff.mpr heq)

/-- Without entries there are no names. -/
theorem keeps_nil : Keeps [] .empty where
  entry := by simp
  row := by
    intro key row hrow
    exact absurd (Table.find?_eq_some.mp hrow).1 (Table.not_mem_empty row)

/-- Entries that were all kept do not conflict. -/
theorem Keeps.not_conflicting {seen : List (DnsName × AcmeDnsCredentials)} {normalized : Normalized}
    (h : Keeps seen normalized) : ¬ Conflicting seen := by
  intro ⟨e, he, e', he', hkey, hne⟩
  obtain ⟨other, hother⟩ := h.entry e he
  obtain ⟨other', hother'⟩ := h.entry e' he'
  rw [hkey, hother', Option.some.injEq, Prod.mk.injEq, Prod.mk.injEq] at hother
  exact hne hother.2.2.symm

section New

variable {serverUrl : List Char} {defaultAccount : Option AcmeDnsCredentials}
  {entries : List (DnsName × AcmeDnsCredentials)} {provider : AcmeDnsProvider}

/-- A configuration is refused when it conflicts. -/
theorem new_error_iff : (∃ e, AcmeDnsProvider.new serverUrl defaultAccount entries = .error e) ↔
    Conflicting entries := by
  have hspec := normalizeAccounts_spec entries keeps_nil
  unfold AcmeDnsProvider.new
  cases hloop : normalizeAccounts entries .empty with
  | ok normalized =>
      rw [hloop] at hspec
      refine ⟨fun h => ?_, fun h => absurd h hspec.not_conflicting⟩
      obtain ⟨e, he⟩ := h
      cases he
  | error e =>
      rw [hloop] at hspec
      exact ⟨fun _ => hspec, fun _ => ⟨e, rfl⟩⟩

/-- What a provider has of its configuration. -/
theorem find?_accounts_of_new
    (hnew : AcmeDnsProvider.new serverUrl defaultAccount entries = .ok provider) :
    provider.defaultAccount = defaultAccount ∧ ∀ key,
      (∃ e ∈ entries, normalizeDomain e.1 = key ∧
        (provider.accounts.find? key).map Prod.snd = some e.2) ∨
      ((∀ e ∈ entries, normalizeDomain e.1 ≠ key) ∧
        (provider.accounts.find? key).map Prod.snd = none) := by
  have hspec := normalizeAccounts_spec entries keeps_nil
  unfold AcmeDnsProvider.new at hnew
  cases hloop : normalizeAccounts entries .empty with
  | error e =>
      rw [hloop] at hnew
      cases hnew
  | ok normalized =>
      rw [hloop] at hnew hspec
      cases hnew
      have hkeeps : Keeps entries normalized := hspec
      refine ⟨rfl, ?_⟩
      intro key
      simp only [Table.find?_mapRows, Option.map_map]
      cases hfind : normalized.find? key with
      | some row =>
          obtain ⟨e, he, hkey, haccount⟩ := hkeeps.row key row hfind
          exact .inl ⟨e, he, hkey, by simp [haccount]⟩
      | none =>
          refine .inr ⟨?_, rfl⟩
          intro e he hkey
          obtain ⟨other, hother⟩ := hkeeps.entry e he
          rw [hkey, hfind] at hother
          cases hother

/-- The account of a domain depends on the entries alone, not on their order. -/
theorem credentialsFor_eq_of_perm {entries' : List (DnsName × AcmeDnsCredentials)}
    {serverUrl' : List Char} {provider' : AcmeDnsProvider}
    (hnew : AcmeDnsProvider.new serverUrl defaultAccount entries = .ok provider)
    (hnew' : AcmeDnsProvider.new serverUrl' defaultAccount entries' = .ok provider')
    (hperm : entries.Perm entries') (domain : DnsName) :
    provider.credentialsFor domain = provider'.credentialsFor domain := by
  have hagree : ¬ Conflicting entries := by
    intro hconflict
    obtain ⟨e, he⟩ := new_error_iff.mpr hconflict
    rw [hnew] at he
    cases he
  obtain ⟨hdefault, haccounts⟩ := find?_accounts_of_new hnew
  obtain ⟨hdefault', haccounts'⟩ := find?_accounts_of_new hnew'
  have hfound : (provider.accounts.find? (normalizeDomain domain)).map Prod.snd =
      (provider'.accounts.find? (normalizeDomain domain)).map Prod.snd := by
    obtain ⟨e, he, hkey, hfind⟩ | ⟨hnone, hfind⟩ := haccounts (normalizeDomain domain)
    · obtain ⟨e', he', hkey', hfind'⟩ | ⟨hnone', _⟩ := haccounts' (normalizeDomain domain)
      · rw [hfind, hfind']
        by_contra hne
        exact hagree ⟨e, he, e', hperm.mem_iff.mpr he', hkey.trans hkey'.symm,
          fun heq => hne (congrArg some heq)⟩
      · exact absurd hkey (hnone' e (hperm.mem_iff.mp he))
    · obtain ⟨e', he', hkey', _⟩ | ⟨_, hfind'⟩ := haccounts' (normalizeDomain domain)
      · exact absurd hkey' (hnone e' (hperm.mem_iff.mpr he'))
      · rw [hfind, hfind']
  rw [AcmeDnsProvider.credentialsFor, AcmeDnsProvider.credentialsFor, hfound, hdefault, hdefault']

end New

/-! ## The check of an order -/

/-- The domains of each subdomain. -/
abbrev ByAccount := Table (Prod.fst : DnsName × List DnsName → DnsName)

/-- `by_account.entry(subdomain).or_default().push(domain)`. -/
def pushDomain (byAccount : ByAccount) (subdomain domain : DnsName) : ByAccount :=
  byAccount.upsert
    (subdomain, ((byAccount.find? subdomain).map Prod.snd).getD [] ++ [domain])

/-- The loop of `check_order_domains`. -/
def AcmeDnsProvider.groupDomains (self : AcmeDnsProvider) :
    List DnsName → ByAccount → Except ChallengeError ByAccount
  | [], byAccount => .ok byAccount
  | domain :: rest, byAccount =>
      match self.credentialsFor domain with
      | .ok account => self.groupDomains rest (pushDomain byAccount account.subdomain domain)
      | .error e => .error e

/-- Every domain must resolve to an account, and no account may serve more than two of
them.  `iterate` is the order in which the groups are walked. -/
def AcmeDnsProvider.checkOrderDomains (self : AcmeDnsProvider)
    (iterate : List (DnsName × List DnsName) → List (DnsName × List DnsName))
    (domains : List DnsName) : Except ChallengeError Unit := do
  let byAccount ← self.groupDomains domains .empty
  match (iterate byAccount.rows).find? fun group => group.2.length > 2 with
  | some (subdomain, served) =>
      .error (dnsErr ("The ACME-DNS account with subdomain " ++ String.ofList subdomain ++
        " would serve " ++ toString served.length ++ " identifiers (" ++
        ", ".intercalate (served.map String.ofList) ++
        "), but ACME-DNS keeps only the two most recent TXT values; register a " ++
        "separate account per domain in the accounts map"))
  | none => .ok ()

/-! ## Updates -/

/-- What the provider calls: a post to the update endpoint. -/
inductive Op
  | update (url : List Char) (apiUser apiKey : String) (subdomain : DnsName) (txt : String)

/-- What the API answers. -/
@[reducible] def Op.Answer : Op → Type
  | .update _ _ _ _ _ => Reply Unit

/-- The reply to an update. -/
def readUpdate : Reply Unit → Except ChallengeError Unit
  | .failed message => .error (dnsErr message)
  | .response status text _ =>
      if status.isSuccess then .ok ()
      else .error (dnsErr ("Failed to update TXT record (status " ++ toString status ++ "): " ++
        text))

/-- `create_txt_record`. -/
def AcmeDnsProvider.createTxtRecord (self : AcmeDnsProvider) (domain : DnsName) (value : String) :
    ExceptT ChallengeError (Prog Op Op.Answer) Unit := do
  let account ← ExceptT.mk (pure (self.credentialsFor domain))
  Prog.request (.update (self.serverUrl ++ ['/', 'u', 'p', 'd', 'a', 't', 'e']) account.username
    account.password account.subdomain value) readUpdate

/-- The TXT values a server has for a subdomain, the most recent one first. -/
abbrev Served := DnsName → List String

/-- A server that keeps the two most recent values of a subdomain. -/
def serve : (op : Op) → Served → op.Answer × Served
  | .update _ _ _ subdomain txt, served =>
      (.response ⟨200, "OK"⟩ "" (.ok ()),
        Function.update served subdomain (txt :: (served subdomain).take 1))

/-- Create the records of some domains, one after the other. -/
def AcmeDnsProvider.createAll (self : AcmeDnsProvider) :
    List (DnsName × String) → Served → List (Except ChallengeError Unit) × Served
  | [], served => ([], served)
  | (domain, value) :: rest, served =>
      let (result, served) := (self.createTxtRecord domain value).run.exec serve served
      let (results, served) := self.createAll rest served
      (result :: results, served)

/-! ## The check is enough -/

section Order

variable {self : AcmeDnsProvider}

/-- The domain is served by this subdomain. -/
def AcmeDnsProvider.servedBy (self : AcmeDnsProvider) (subdomain domain : DnsName) : Bool :=
  match self.credentialsFor domain with
  | .ok account => account.subdomain == subdomain
  | .error _ => false

/-- The groups are the domains by subdomain. -/
def Groups (self : AcmeDnsProvider) (seen : List DnsName) (byAccount : ByAccount) : Prop :=
  ∀ subdomain, ((byAccount.find? subdomain).map Prod.snd).getD [] =
    seen.filter (self.servedBy subdomain)

/-- One more domain joins the group of its account. -/
theorem Groups.push {seen : List DnsName} {byAccount : ByAccount} (h : Groups self seen byAccount)
    {domain : DnsName} {account : AcmeDnsCredentials}
    (haccount : self.credentialsFor domain = .ok account) :
    Groups self (seen ++ [domain]) (pushDomain byAccount account.subdomain domain) := by
  intro subdomain
  rw [List.filter_append, ← h subdomain]
  by_cases hsame : subdomain = account.subdomain
  · subst hsame
    have hself := Table.find?_upsert_self byAccount
      (account.subdomain, ((byAccount.find? account.subdomain).map Prod.snd).getD [] ++ [domain])
    rw [pushDomain, hself]
    simp [AcmeDnsProvider.servedBy, haccount]
  · have hkept : (pushDomain byAccount account.subdomain domain).find? subdomain =
        byAccount.find? subdomain := Table.find?_upsert_of_ne hsame
    rw [hkept]
    simp [AcmeDnsProvider.servedBy, haccount, Ne.symm hsame]

/-- The loop ends when every domain has an account, with the domains by subdomain. -/
theorem groups_of_groupDomains (domains : List DnsName) :
    ∀ {seen : List DnsName} {byAccount byAccount' : ByAccount}, Groups self seen byAccount →
      self.groupDomains domains byAccount = .ok byAccount' →
      Groups self (seen ++ domains) byAccount' ∧
        ∀ domain ∈ domains, ∃ account, self.credentialsFor domain = .ok account := by
  induction domains with
  | nil =>
      intro seen byAccount byAccount' h hgroup
      cases hgroup
      simpa using h
  | cons domain rest ih =>
      intro seen byAccount byAccount' h hgroup
      rw [AcmeDnsProvider.groupDomains] at hgroup
      cases haccount : self.credentialsFor domain with
      | error e =>
          rw [haccount] at hgroup
          cases hgroup
      | ok account =>
          rw [haccount] at hgroup
          obtain ⟨hgroups, hrest⟩ := ih (h.push haccount) hgroup
          rw [List.append_assoc, List.singleton_append] at hgroups
          refine ⟨hgroups, ?_⟩
          intro d hd
          rcases List.mem_cons.mp hd with rfl | hd
          · exact ⟨account, haccount⟩
          · exact hrest d hd

/-- An order that passes the check has an account for every domain, and no subdomain
serves more than two of them. -/
theorem checkOrderDomains_spec
    {iterate : List (DnsName × List DnsName) → List (DnsName × List DnsName)}
    (hiterate : ∀ groups, (iterate groups).Perm groups) {domains : List DnsName}
    (hcheck : self.checkOrderDomains iterate domains = .ok ()) :
    (∀ domain ∈ domains, ∃ account, self.credentialsFor domain = .ok account) ∧
      ∀ subdomain, domains.countP (self.servedBy subdomain) ≤ 2 := by
  unfold AcmeDnsProvider.checkOrderDomains at hcheck
  cases hgroup : self.groupDomains domains .empty with
  | error e =>
      rw [hgroup] at hcheck
      cases hcheck
  | ok byAccount =>
      have hempty : Groups self [] .empty := fun subdomain => rfl
      obtain ⟨hgroups, haccounts⟩ := groups_of_groupDomains domains hempty hgroup
      rw [hgroup] at hcheck
      refine ⟨haccounts, ?_⟩
      intro subdomain
      cases hfind : (iterate byAccount.rows).find? fun group => group.2.length > 2 with
      | some group =>
          simp only [bind, Except.bind, hfind] at hcheck
          cases hcheck
      | none =>
          have hserved := hgroups subdomain
          rw [List.nil_append] at hserved
          rw [List.countP_eq_length_filter, ← hserved]
          cases hrow : byAccount.find? subdomain with
          | none => simp
          | some row =>
              have hmem := (hiterate byAccount.rows).mem_iff.mpr (Table.find?_eq_some.mp hrow).1
              simpa using List.find?_eq_none.mp hfind row hmem

/-- A record is created in the subdomain of its account. -/
theorem exec_createTxtRecord {domain : DnsName} {account : AcmeDnsCredentials}
    (haccount : self.credentialsFor domain = .ok account) (value : String) (served : Served) :
    (self.createTxtRecord domain value).run.exec serve served =
      (.ok (), Function.update served account.subdomain
        (value :: (served account.subdomain).take 1)) := by
  rw [AcmeDnsProvider.createTxtRecord, haccount]
  rfl

/-- A value stays while few others follow it in its subdomain. -/
theorem mem_served_of_few {subdomain : DnsName} {value : String} (jobs : List (DnsName × String)) :
    ∀ {served : Served} {i : Nat},
      (∀ job ∈ jobs, ∃ account, self.credentialsFor job.1 = .ok account) →
      (served subdomain)[i]? = some value →
      i + jobs.countP (fun job => self.servedBy subdomain job.1) ≤ 1 →
      value ∈ (self.createAll jobs served).2 subdomain := by
  induction jobs with
  | nil => exact fun _ hvalue _ => List.mem_of_getElem? hvalue
  | cons job rest ih =>
      intro served i haccounts hvalue hfew
      obtain ⟨account, haccount⟩ := haccounts job List.mem_cons_self
      have hrest : ∀ job ∈ rest, ∃ account, self.credentialsFor job.1 = .ok account :=
        fun job hjob => haccounts job (List.mem_cons_of_mem _ hjob)
      rw [AcmeDnsProvider.createAll, exec_createTxtRecord haccount]
      rw [List.countP_cons] at hfew
      by_cases hsame : account.subdomain = subdomain
      · have hserved : self.servedBy subdomain job.1 = true := by
          simp [AcmeDnsProvider.servedBy, haccount, hsame]
        rw [hserved, if_pos rfl] at hfew
        obtain rfl : i = 0 := by omega
        refine ih (i := 1) hrest ?_ (by omega)
        subst hsame
        rw [Function.update_self, List.getElem?_cons_succ, List.getElem?_take_of_lt (by decide)]
        exact hvalue
      · have hserved : self.servedBy subdomain job.1 = false := by
          simp [AcmeDnsProvider.servedBy, haccount, hsame]
        rw [hserved] at hfew
        refine ih (i := i) hrest ?_ (by simpa using hfew)
        rw [Function.update_of_ne (Ne.symm hsame)]
        exact hvalue

/-- Jobs with an account each, at most two in a subdomain, all succeed and leave their
values served. -/
theorem createAll_serves (jobs : List (DnsName × String)) :
    ∀ {served : Served},
      (∀ job ∈ jobs, ∃ account, self.credentialsFor job.1 = .ok account) →
      (∀ subdomain, jobs.countP (fun job => self.servedBy subdomain job.1) ≤ 2) →
      (∀ result ∈ (self.createAll jobs served).1, result = .ok ()) ∧
      ∀ job ∈ jobs, ∃ account, self.credentialsFor job.1 = .ok account ∧
        job.2 ∈ (self.createAll jobs served).2 account.subdomain := by
  induction jobs with
  | nil => simp [AcmeDnsProvider.createAll]
  | cons job rest ih =>
      intro served haccounts hfew
      obtain ⟨account, haccount⟩ := haccounts job List.mem_cons_self
      have hrest : ∀ job ∈ rest, ∃ account, self.credentialsFor job.1 = .ok account :=
        fun job hjob => haccounts job (List.mem_cons_of_mem _ hjob)
      have hfewRest : ∀ subdomain,
          rest.countP (fun job => self.servedBy subdomain job.1) ≤ 2 := by
        intro subdomain
        have h := hfew subdomain
        rw [List.countP_cons] at h
        omega
      rw [AcmeDnsProvider.createAll, exec_createTxtRecord haccount]
      obtain ⟨hresults, hvalues⟩ := ih hrest hfewRest
      refine ⟨?_, ?_⟩
      · intro result hresult
        rcases List.mem_cons.mp hresult with rfl | hresult
        · rfl
        · exact hresults result hresult
      · intro job' hjob'
        rcases List.mem_cons.mp hjob' with rfl | hjob'
        · refine ⟨account, haccount, ?_⟩
          refine mem_served_of_few rest (i := 0) hrest (by simp) ?_
          have h := hfew account.subdomain
          rw [List.countP_cons, show self.servedBy account.subdomain job'.1 = true by
            simp [AcmeDnsProvider.servedBy, haccount], if_pos rfl] at h
          omega
        · exact hvalues job' hjob'

end Order

/-- **Account checks.**  Whatever the order in which the accounts are walked,
`AcmeDnsProvider::new` fails exactly when two entries for one normalized domain hold
different accounts, and the account of a domain is the same.  If `check_order_domains`
accepts an order, then creating its records, in any order, finds an account for every
domain and leaves every value served. -/
theorem account_checks_sound (serverUrl : List Char) (defaultAccount : Option AcmeDnsCredentials)
    (accounts : Accounts) :
    (∀ walk : List (DnsName × AcmeDnsCredentials), walk.Perm accounts.rows →
      ((∃ e, AcmeDnsProvider.new serverUrl defaultAccount walk = .error e) ↔
        ∃ e ∈ accounts, ∃ e' ∈ accounts,
          normalizeDomain e.1 = normalizeDomain e'.1 ∧ e.2 ≠ e'.2)) ∧
    (∀ (walk walk' : List (DnsName × AcmeDnsCredentials)) (provider provider' : AcmeDnsProvider),
      walk.Perm accounts.rows → walk'.Perm accounts.rows →
      AcmeDnsProvider.new serverUrl defaultAccount walk = .ok provider →
      AcmeDnsProvider.new serverUrl defaultAccount walk' = .ok provider' →
      ∀ domain, provider.credentialsFor domain = provider'.credentialsFor domain) ∧
    ∀ (walk : List (DnsName × AcmeDnsCredentials)) (provider : AcmeDnsProvider),
      walk.Perm accounts.rows →
      AcmeDnsProvider.new serverUrl defaultAccount walk = .ok provider →
      ∀ (iterate : List (DnsName × List DnsName) → List (DnsName × List DnsName))
        (domains : List DnsName), (∀ groups, (iterate groups).Perm groups) →
        provider.checkOrderDomains iterate domains = .ok () →
        ∀ (jobs : List (DnsName × String)) (served : Served), (jobs.map Prod.fst).Perm domains →
          (∀ result ∈ (provider.createAll jobs served).1, result = .ok ()) ∧
          ∀ job ∈ jobs, ∃ account, provider.credentialsFor job.1 = .ok account ∧
            job.2 ∈ (provider.createAll jobs served).2 account.subdomain := by
  refine ⟨?_, ?_, ?_⟩
  · intro walk hwalk
    rw [new_error_iff]
    constructor
    · intro ⟨e, he, e', he', hconflict⟩
      exact ⟨e, hwalk.mem_iff.mp he, e', hwalk.mem_iff.mp he', hconflict⟩
    · intro ⟨e, he, e', he', hconflict⟩
      exact ⟨e, hwalk.mem_iff.mpr he, e', hwalk.mem_iff.mpr he', hconflict⟩
  · intro walk walk' provider provider' hwalk hwalk' hnew hnew' domain
    exact credentialsFor_eq_of_perm hnew hnew' (hwalk.trans hwalk'.symm) domain
  · intro walk provider _ _ iterate domains hiterate hcheck jobs served hjobs
    obtain ⟨haccounts, hfew⟩ := checkOrderDomains_spec hiterate hcheck
    apply createAll_serves jobs
    · intro job hjob
      exact haccounts job.1 (hjobs.mem_iff.mp (List.mem_map_of_mem hjob))
    · intro subdomain
      have hcount := hjobs.countP_eq (provider.servedBy subdomain)
      rw [List.countP_map] at hcount
      exact hcount.le.trans (hfew subdomain)

/-- The default account. -/
def defaultSample : AcmeDnsCredentials := ⟨"user", "key", ['d']⟩

/-- One domain with an account of its own. -/
def accountsSample : Accounts := ⟨[(['A', '.', 'b', '.'], ⟨"user-a", "key-a", ['a']⟩)], by simp⟩

/-- An apex with its wildcard, and a domain of the default account. -/
def orderSample : List DnsName := [['a', '.', 'b'], ['*', '.', 'a', '.', 'b'], ['c']]

/-- The values of the order, in another order. -/
def jobsSample : List (DnsName × String) :=
  [(['c'], "3"), (['*', '.', 'a', '.', 'b'], "2"), (['a', '.', 'b'], "1")]

/-- The theorem at an order for two accounts. -/
theorem account_checks_sound_sample :
    ∃ provider, AcmeDnsProvider.new [] (some defaultSample) accountsSample.rows = .ok provider ∧
      provider.checkOrderDomains id orderSample = .ok () ∧
      ∀ job ∈ jobsSample, ∃ account, provider.credentialsFor job.1 = .ok account ∧
        job.2 ∈ (provider.createAll jobsSample fun _ => []).2 account.subdomain := by
  obtain ⟨provider, hnew⟩ : ∃ provider,
      AcmeDnsProvider.new [] (some defaultSample) accountsSample.rows = .ok provider := ⟨_, rfl⟩
  have hcheck : (AcmeDnsProvider.new [] (some defaultSample) accountsSample.rows).bind
      (fun provider => provider.checkOrderDomains id orderSample) = .ok () := rfl
  rw [hnew] at hcheck
  have hsound := (account_checks_sound [] (some defaultSample) accountsSample).2.2
    accountsSample.rows provider (.refl _) hnew id orderSample (fun _ => .refl _) hcheck jobsSample
    (fun _ => []) (by decide)
  exact ⟨provider, hnew, hcheck, hsound.2⟩

end AcmeDns

end StatusListServer
