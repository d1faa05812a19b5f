import StatusListServer.VersionedRows

/-!
# Who may change what

Issuers are identified by the key they registered first: registrations only add
keys.  The middleware looks up the credential under the unverified `iss` of the
token and lets the request act for the verified one, which the library compares
with the credential's issuer.  Updates are guarded by the row that was read, so
the issuer that was compared is the issuer of the row that is replaced.
-/

namespace StatusListServer

open KeyedTable CheckedEval Interaction

/-- The header of a request that goes through the middleware. -/
def Task.authorization : Task → Option (Option String)
  | .putStatuses authorization _ _ => some authorization
  | .patchStatuses authorization _ _ => some authorization
  | _ => none

/-- The task came in over the interface: it is not a call by trusted code that
names its issuer itself. -/
def Task.IsRequest : Task → Prop
  | .publish _ _ _ _ _ => False
  | .update _ _ _ _ => False
  | _ => True

/-- A request acts for an issuer only with a credential that authenticates it. -/
theorem CallState.ActsFor.authenticated {app : AppState} {s : CallState} {issuer : Issuer}
    (h : s.ActsFor app issuer) (hrequest : s.task.IsRequest) :
    ∃ authorization credential, s.task.authorization = some authorization ∧
      s.credential = some credential ∧ Authenticated app authorization credential issuer := by
  unfold CallState.ActsFor at h
  cases htask : s.task with
  | publish => rw [htask] at hrequest; cases hrequest
  | update => rw [htask] at hrequest; cases hrequest
  | putStatuses authorization listId statuses =>
      rw [htask] at h
      obtain ⟨credential, hcredential, hauth⟩ := h
      exact ⟨authorization, credential, rfl, hcredential, hauth⟩
  | patchStatuses authorization listId statuses =>
      rw [htask] at h
      obtain ⟨credential, hcredential, hauth⟩ := h
      exact ⟨authorization, credential, rfl, hcredential, hauth⟩
  | _ =>
      rw [htask] at h
      cases h

/-- The token of an authenticated request verifies under the key of the
credential, and the issuer is the credential's. -/
theorem Authenticated.verifies {app : AppState}
    {Verifies : String → app.jwt.DecodingKey → Prop} (hsound : app.jwt.Sound Verifies)
    {authorization : Option String} {credential : Credential} {issuer : Issuer}
    (h : Authenticated app authorization credential issuer) :
    issuer = credential.issuer ∧ ∃ token jwk key,
      authorization.bind (stripLeading "Bearer ") = some token ∧
      app.jwt.parseJwk credential.publicKey.bytes = .ok jwk ∧
      app.jwt.fromJwk jwk = .ok key ∧ Verifies token key := by
  obtain ⟨token, alg, claims, htoken, hdecode, rfl⟩ := h
  obtain ⟨jwk, hjwk, hdecode⟩ := bind_eq_ok hdecode
  obtain ⟨key, hkey, hdecode⟩ := bind_eq_ok hdecode
  have hclaims := mapError_eq_ok hdecode
  have hissuer := hsound.issuer _ _ _ _ hclaims
  simp only [validationFor, List.mem_singleton] at hissuer
  exact ⟨by rw [hissuer], token, jwk, key, htoken, mapError_eq_ok hjwk, mapError_eq_ok hkey,
    hsound.signature _ _ _ _ hclaims⟩

section Step

variable {d : Deployment} {tasks : Nat → Task} {l l' : Calls d.app} {e : PortEvent}

/-- Registered keys are never replaced. -/
theorem Deployment.credential_mono (h : LedgerStep d.env l e l') {issuer : String}
    {credential : Credential}
    (hcredential : l.world.db.credentials.find? issuer = some credential) :
    l'.world.db.credentials.find? issuer = some credential := by
  have heffect := Deployment.effect h
  generalize landedRow e.op e.res = landed at heffect
  generalize l'.world.db = db' at heffect ⊢
  cases heffect with
  | quiet => exact hcredential
  | published _ _ hwritten => rw [hwritten.credentials]; exact hcredential
  | updated _ _ hwritten => rw [hwritten.credentials]; exact hcredential
  | swept _ hsweeps => rw [hsweeps.credentials]; exact hcredential
  | @registered credential' stored _ _ hissuer habsent _ _ hsame =>
      have hne : issuer ≠ stored.issuer.name := by
        rintro rfl
        rw [hissuer, habsent] at hcredential
        cases hcredential
      rw [hsame.find?]
      exact (Table.find?_upsert_of_ne (r := stored) hne).trans hcredential

/-- A credential a call holds was looked up before, or is the registered one. -/
theorem Deployment.credential_cases (h : LedgerStep d.env l e l') {i : Nat}
    {credential : Credential} (hcredential : (l'.locals i).credential = some credential) :
    (l.locals i).credential = some credential ∨
      l'.world.db.credentials.find? credential.issuer.name = some credential := by
  by_cases hi : i = e.tid
  · subst hi
    rw [Deployment.locals_eq h, Function.update_self] at hcredential
    cases h with
    | @act i op r w hmay henv =>
        rcases op with op | _ | op | _ | _ | _
        · cases op with
          | findCredential issuer =>
              obtain ⟨db', hanswers, rfl⟩ := henv
              obtain ⟨rfl, htruth⟩ := hanswers.spec
              rcases r with err | _ | found
              · cases hcredential
              · cases hcredential
              · cases hcredential
                have hfound := (htruth _ rfl).symm
                have hkey := Table.key_of_find? hfound
                subst hkey
                exact Or.inr hfound
          | _ => exact Or.inl hcredential
        · exact Or.inl hcredential
        · cases op <;> exact Or.inl hcredential
        all_goals exact Or.inl hcredential
  · rw [Deployment.locals_eq h, Function.update_of_ne hi] at hcredential
    exact Or.inl hcredential

/-- Calls hold registered credentials and rows that are current or were
replaced since. -/
structure Holdings (d : Deployment) (tasks : Nat → Task) (l : Calls d.app) : Prop where
  task : ∀ i, (l.locals i).task = tasks i
  credential : ∀ i credential, (l.locals i).credential = some credential →
    l.world.db.credentials.find? credential.issuer.name = some credential
  found : ∀ i read, (l.locals i).found = some read →
    ∃ row, l.world.db.rows.find? read.listId = some row ∧
      (read = row ∨ read.updatedAt < row.updatedAt)

/-- At the start nothing was written. -/
theorem Holdings.start (d : Deployment) (tasks : Nat → Task) (w : World) :
    Holdings d tasks ⟨w, fun i => CallState.start (tasks i)⟩ where
  task := fun _ => rfl
  credential := fun i credential h => by simp [CallState.start] at h
  found := fun i read h => by simp [CallState.start] at h

/-- What a step does to the row of one list. -/
inductive OwnedStep (l : Calls d.app) (e : PortEvent) (listId : String) :
    Option StatusListRecord → Option StatusListRecord → Prop
  | kept (row : Option StatusListRecord) : OwnedStep l e listId row row
  | published {record : StatusListRecord}
      (hacts : (l.locals e.tid).ActsFor d.app record.issuer) :
      OwnedStep l e listId none (some record)
  | updated {row record : StatusListRecord}
      (hacts : (l.locals e.tid).ActsFor d.app record.issuer)
      (hissuer : record.issuer = row.issuer) (hsub : record.sub = row.sub)
      (hlater : row.updatedAt < record.updatedAt) :
      OwnedStep l e listId (some row) (some record)

/-- **One step of a list.**  Its row is kept, appears, or is replaced under the
same issuer and URI, by a call that acts for that issuer. -/
theorem Holdings.ownedStep (h : Holdings d tasks l) (hstep : LedgerStep d.env l e l')
    (listId : String) :
    OwnedStep l e listId (l.world.db.rows.find? listId) (l'.world.db.rows.find? listId) := by
  have heffect := Deployment.effect hstep
  generalize landedRow e.op e.res = landed at heffect
  generalize l'.world.db = db' at heffect ⊢
  cases heffect with
  | quiet => exact .kept _
  | swept _ hsweeps => rw [hsweeps.rows]; exact .kept _
  | registered _ _ _ hrows => rw [hrows]; exact .kept _
  | @published args record snapshot _ hpublishing habsent hwritten =>
      by_cases hid : listId = record.listId
      · subst hid
        rw [habsent, hwritten.find?_self]
        exact .published hpublishing.actsFor
      · rw [hwritten.find?_of_ne hid]
        exact .kept _
  | @updated args read record snapshot _ hupdating hguard hwritten =>
      by_cases hid : listId = record.listId
      · subst hid
        obtain ⟨current, hcurrent, hstamp⟩ := hguard
        obtain ⟨row, hrow, hread⟩ := h.found _ read hupdating.found
        rw [← hupdating.listId, hcurrent] at hrow
        cases hrow
        have hsame : read = current := by
          rcases hread with hread | hread
          · exact hread
          · omega
        subst hsame
        rw [hcurrent, hwritten.find?_self]
        exact .updated (hupdating.issuer ▸ hupdating.actsFor) hupdating.issuer hupdating.sub
          hupdating.later
      · rw [hwritten.find?_of_ne hid]
        exact .kept _

/-- One step keeps the holdings. -/
theorem Holdings.step (h : Holdings d tasks l) (hstep : LedgerStep d.env l e l') :
    Holdings d tasks l' where
  task := fun i => (Deployment.task_eq hstep i).trans (h.task i)
  credential := by
    intro i credential hcredential
    rcases Deployment.credential_cases hstep hcredential with hold | hnow
    · exact Deployment.credential_mono hstep (h.credential i credential hold)
    · exact hnow
  found := by
    intro i read hfound
    rcases Deployment.found_cases hstep hfound with hold | ⟨_, hworld, _, hrow⟩
    · obtain ⟨row, hrow, hread⟩ := h.found i read hold
      have howned := h.ownedStep hstep read.listId
      rw [hrow] at howned
      generalize hnext : l'.world.db.rows.find? read.listId = next at howned
      cases howned with
      | kept => exact ⟨row, rfl, hread⟩
      | @updated _ record _ _ _ hlater =>
          refine ⟨record, rfl, Or.inr ?_⟩
          rcases hread with rfl | hread
          · exact hlater
          · exact Int.lt_trans hread hlater
    · exact ⟨read, by rw [hworld]; exact hrow, Or.inl rfl⟩

end Step

/-- A row and a later row of the same list: the issuer and the URI stay, and the
row itself unless its stamp has advanced. -/
structure LaterVersion (row row' : StatusListRecord) : Prop where
  issuer : row'.issuer = row.issuer
  sub : row'.sub = row.sub
  later : row' = row ∨ row.updatedAt < row'.updatedAt

/-- A row is a version of itself. -/
theorem LaterVersion.refl (row : StatusListRecord) : LaterVersion row row := ⟨rfl, rfl, .inl rfl⟩

/-- The holdings of calls are kept along every further run, registered keys stay,
and lists only advance. -/
theorem Holdings.extend {d : Deployment} {tasks : Nat → Task} {t' : List PortEvent}
    {c c' : Pool Nat Port Port.Answer (Except Failure Value) World}
    {locals : Nat → CallState} (h : Holdings d tasks ⟨c.world, locals⟩)
    (htracks : Tracks d.app c locals) (hrun : Run d.env c t' c') :
    (∃ locals', Holdings d tasks ⟨c'.world, locals'⟩ ∧ Tracks d.app c' locals') ∧
      (∀ issuer credential, c.world.db.credentials.find? issuer = some credential →
        c'.world.db.credentials.find? issuer = some credential) ∧
      ∀ listId row, c.world.db.rows.find? listId = some row →
        ∃ row', c'.world.db.rows.find? listId = some row' ∧ LaterVersion row row' := by
  obtain ⟨locals', ⟨hholdings, hcredentials, hrows⟩, htracks'⟩ := Run.ledger htracks
    (I := fun _ l => Holdings d tasks l ∧
      (∀ issuer credential, c.world.db.credentials.find? issuer = some credential →
        l.world.db.credentials.find? issuer = some credential) ∧
      ∀ listId row, c.world.db.rows.find? listId = some row →
        ∃ row', l.world.db.rows.find? listId = some row' ∧ LaterVersion row row')
    ⟨h, fun _ _ hcredential => hcredential, fun _ row hrow => ⟨row, hrow, .refl row⟩⟩ (by
      rintro t l e l' ⟨hmid, hcredentials, hrows⟩ hstep
      refine ⟨hmid.step hstep, ?_, ?_⟩
      · intro issuer credential hcredential
        exact Deployment.credential_mono hstep (hcredentials issuer credential hcredential)
      · intro listId row hrow
        obtain ⟨mid, hmidrow, hversion⟩ := hrows listId row hrow
        have howned := hmid.ownedStep hstep listId
        rw [hmidrow] at howned
        generalize hnext : l'.world.db.rows.find? listId = next at howned
        cases howned with
        | kept => exact ⟨mid, rfl, hversion⟩
        | @updated _ record _ hissuer hsub hlater =>
            have hadvanced : row.updatedAt < record.updatedAt := by
              rcases hversion.later with hsame | hmid
              · exact hsame ▸ hlater
              · exact Int.lt_trans hmid hlater
            exact ⟨record, rfl, hissuer.trans hversion.issuer, hsub.trans hversion.sub,
              .inr hadvanced⟩) hrun
  exact ⟨⟨locals', hholdings, htracks'⟩, hcredentials, hrows⟩

/-- The rows of a list at two points of a run. -/
theorem Deployment.later_version {d : Deployment} {tasks : Nat → Task} {w : World}
    {t₁ t₂ : List PortEvent} {c₁ c₂ : Pool Nat Port Port.Answer (Except Failure Value) World}
    (hrun₁ : Run d.env (d.start tasks w) t₁ c₁) (hrun₂ : Run d.env c₁ t₂ c₂) {listId : String}
    {row : StatusListRecord} (hrow : c₁.world.db.rows.find? listId = some row) :
    ∃ row', c₂.world.db.rows.find? listId = some row' ∧ LaterVersion row row' := by
  obtain ⟨⟨locals, hholdings, htracks⟩, _⟩ :=
    (Holdings.start d tasks w).extend (Tracks.start d tasks w) hrun₁
  exact (hholdings.extend htracks hrun₂).2.2 listId row hrow

/-- The request carried a token that verifies under the key of the credential. -/
def SignedBy (app : AppState) (Verifies : String → app.jwt.DecodingKey → Prop)
    (task : Task) (credential : Credential) : Prop :=
  ∃ authorization token jwk key, task.authorization = some authorization ∧
    authorization.bind (stripLeading "Bearer ") = some token ∧
    app.jwt.parseJwk credential.publicKey.bytes = .ok jwk ∧
    app.jwt.fromJwk jwk = .ok key ∧ Verifies token key

/-- **Ownership of lists and keys.**  In every run of requests, from any state:
the key registered for an issuer is never replaced, the issuer and the URI of a
stored list never change, and every step that changes the status list of a list
belongs to a request whose bearer token verified under the key registered for
the list's issuer. -/
theorem lists_change_under_their_issuers_key (d : Deployment)
    {Verifies : String → d.app.jwt.DecodingKey → Prop} (hsound : d.app.jwt.Sound Verifies)
    (tasks : Nat → Task) (hrequests : ∀ i, (tasks i).IsRequest) {w : World}
    {t : List PortEvent} {c : Pool Nat Port Port.Answer (Except Failure Value) World}
    (hrun : Run d.env (d.start tasks w) t c) :
    (∀ issuer credential, c.world.db.credentials.find? issuer = some credential →
      ∀ t' c', Run d.env c t' c' →
        c'.world.db.credentials.find? issuer = some credential) ∧
    (∀ listId row, c.world.db.rows.find? listId = some row → ∀ t' c', Run d.env c t' c' →
      ∃ row', c'.world.db.rows.find? listId = some row' ∧ row'.issuer = row.issuer ∧
        row'.sub = row.sub) ∧
    ∀ e c' listId row', Step d.env c e c' → c'.world.db.rows.find? listId = some row' →
      (c.world.db.rows.find? listId).map StatusListRecord.statusList ≠ some row'.statusList →
      ∃ credential, c.world.db.credentials.find? row'.issuer.name = some credential ∧
        SignedBy d.app Verifies (tasks e.tid) credential := by
  obtain ⟨⟨locals, hholdings, htracks⟩, _⟩ :=
    (Holdings.start d tasks w).extend (Tracks.start d tasks w) hrun
  refine ⟨?_, ?_, ?_⟩
  · intro issuer credential hcredential t' c' hrun'
    exact (hholdings.extend htracks hrun').2.1 issuer credential hcredential
  · intro listId row hrow t' c' hrun'
    obtain ⟨row', hrow', hversion⟩ := (hholdings.extend htracks hrun').2.2 listId row hrow
    exact ⟨row', hrow', hversion.issuer, hversion.sub⟩
  · intro e c' listId row' hstep hrow' hchanged
    obtain ⟨locals', hledger, _⟩ := hstep.ledger htracks
    have hacts : (locals e.tid).ActsFor d.app row'.issuer := by
      have howned := hholdings.ownedStep hledger listId
      rw [hrow'] at howned
      generalize hbefore : c.world.db.rows.find? listId = before at howned hchanged
      cases howned with
      | kept => exact absurd rfl hchanged
      | published hacts => exact hacts
      | updated hacts => exact hacts
    have htask : (locals e.tid).task = tasks e.tid := hholdings.task e.tid
    obtain ⟨authorization, credential, hheader, hcredential, hauth⟩ :=
      hacts.authenticated (by rw [htask]; exact hrequests e.tid)
    obtain ⟨hissuer, token, jwk, key, htoken, hjwk, hkey, hverifies⟩ := hauth.verifies hsound
    refine ⟨credential, ?_, authorization, token, jwk, key, ?_, htoken, hjwk, hkey, hverifies⟩
    · rw [hissuer]
      exact hholdings.credential e.tid credential hcredential
    · rw [← htask]
      exact hheader

/-- The one token the sample library accepts is signed under the one key. -/
def SampleVerifies (token : String) (key : List BitStream.Byte) : Prop :=
  token = "header.claims.signature" ∧ key = [1]

/-- The sample verifier accepts what it has signed. -/
theorem sampleJwt_sound : sampleJwt.Sound SampleVerifies where
  signature := by
    intro token key validation claims h
    simp only [sampleJwt] at h
    split at h
    · rename_i hok
      exact ⟨hok.1, hok.2.1⟩
    · cases h
  issuer := by
    intro token key validation claims h
    simp only [sampleJwt] at h
    split at h
    · rename_i hok
      cases h
      exact hok.2.2
    · cases h

/-- A signed request that publishes a list. -/
def signedRequest : Task :=
  .putStatuses (some "Bearer header.claims.signature") "list" [⟨0, .valid⟩]

/-- The theorem at the step that publishes a list: the request carried a token
signed under the registered key. -/
theorem lists_change_under_their_issuers_key_sample :
    let d := sampleDeployment true
    let before := d.play (fun _ => signedRequest) emptyWorld (turns 15 [0, 0, 0, 0])
    let after := d.resume before.2 (turns 15 [0])
    before.2.world.db.rows.find? "list" = none ∧
      (after.2.world.db.rows.find? "list").map StatusListRecord.issuer = some sampleIssuer ∧
      SignedBy d.app SampleVerifies signedRequest ⟨sampleIssuer, ⟨[1]⟩⟩ := by
  intro d before after
  have hbefore : Run d.env (d.start (fun _ => signedRequest) emptyWorld) before.1 before.2 :=
    d.play_run rfl (fun _ => signedRequest) emptyWorld (turns 15 [0, 0, 0, 0])
  have habsent : before.2.world.db.rows.find? "list" = none := by decide +kernel
  have hissuer : (after.2.world.db.rows.find? "list").map StatusListRecord.issuer =
      some sampleIssuer := by decide +kernel
  have hkey : before.2.world.db.credentials.find? sampleIssuer.name =
      some ⟨sampleIssuer, ⟨[1]⟩⟩ := by decide +kernel
  obtain ⟨e, hstep⟩ : ∃ e, Step d.env before.2 e after.2 :=
    (d.resume_run rfl before.2 (turns 15 [0])).single (by decide +kernel)
  obtain ⟨row, hrow, hrowIssuer⟩ := Option.map_eq_some_iff.mp hissuer
  obtain ⟨_, _, hchanges⟩ := lists_change_under_their_issuers_key d sampleJwt_sound
    (fun _ => signedRequest) (fun _ => trivial) hbefore
  obtain ⟨credential, hcredential, hsigned⟩ :=
    hchanges e after.2 "list" row hstep hrow (by rw [habsent]; simp)
  rw [hrowIssuer, hkey] at hcredential
  cases hcredential
  exact ⟨habsent, hissuer, hsigned⟩

end StatusListServer
