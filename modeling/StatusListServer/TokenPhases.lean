import StatusListServer.VaultToken

/-!
# The phases of a Vault token caller

`Phase` is where a caller of `addAuthHeaders` stands, as far as its answers tell,
and `Move` says once what it can do in each phase.  The program of a caller
follows these moves (`follows_addAuthHeaders`), so statements about interleaved
callers need not look at the program again.
-/

namespace StatusListServer

open Interaction

namespace VaultToken

/-! ## The phases of a caller -/

/-- Where a caller is, with what it has read. -/
inductive Phase
  | start
  | fast (elapsed : Nat)
  | outside
  | locked
  | rechecking (elapsed : Nat)
  | stale
  | cooling (time : Nat)
  | ready
  | renewable
  | holdingToken
  | renewing
  | loginDue
  | loggingIn
  | failed
  | failedAt (time : Nat)
  | granted (auth : AuthData)
  | tokenWritten (auth : AuthData)
  | stamped (auth : AuthData) (time : Nat)
  | issuedWritten (auth : AuthData)
  | leaseWritten (auth : AuthData)
  | installed
  | safe
  | refused
  | valid
  | ended
  | done (token : String)

/-- What a caller can do in a phase, and the phase it is in after the answer. -/
inductive Move (backend : AuthBackend) : Phase → (op : Op) → op.Answer → Phase → Prop
  | elapsed (r : Nat) : Move backend .start .elapsed r (.fast r)
  | fastSafe {e : Nat} {r : Nat} (h : isSafe e r = true) :
      Move backend (.fast e) .readLease r .valid
  | fastStale {e : Nat} {r : Nat} (h : isSafe e r = false) :
      Move backend (.fast e) .readLease r .outside
  | lock : Move backend .outside .lock () .locked
  | recheck (r : Nat) : Move backend .locked .elapsed r (.rechecking r)
  | safe {e : Nat} {r : Nat} (h : isSafe e r = true) :
      Move backend (.rechecking e) .readLease r .safe
  | stale {e : Nat} {r : Nat} (h : isSafe e r = false) :
      Move backend (.rechecking e) .readLease r .stale
  | noFailure : Move backend .stale .readLastFailure none .ready
  | lastFailure (time : Nat) : Move backend .stale .readLastFailure (some time) (.cooling time)
  | cooled {time r : Nat} (h : ¬ r - time < failureCooldown) :
      Move backend (.cooling time) .now r .ready
  | cooldown {time r : Nat} (h : r - time < failureCooldown) :
      Move backend (.cooling time) .now r .refused
  | renewable : Move backend .ready .readRenewable true .renewable
  | notRenewable : Move backend .ready .readRenewable false .loginDue
  | readToken (r : String) : Move backend .renewable .readToken r .holdingToken
  | sendRenew (token : String) : Move backend .holdingToken (.sendRenew token) () .renewing
  | renewed {r : Reply AuthData} {auth : AuthData} (h : readRenew r = .ok auth) :
      Move backend .renewing .renewReply r (.granted auth)
  | notRenewed {r : Reply AuthData} {e : StorageError} (h : readRenew r = .error e) :
      Move backend .renewing .renewReply r .loginDue
  | jwt {path : String} {r : Except String String} {jwt : String} (h : readJwt path r = .ok jwt) :
      Move backend .loginDue (.readServiceToken path) r .loginDue
  | noJwt {path : String} {r : Except String String} {e : StorageError}
      (h : readJwt path r = .error e) : Move backend .loginDue (.readServiceToken path) r .failed
  | sendLogin (authMount : String) (body : LoginBody) :
      Move backend .loginDue (.sendLogin authMount body) () .loggingIn
  | loggedIn {r : Reply AuthData} {auth : AuthData} (h : readLogin backend r = .ok auth) :
      Move backend .loggingIn .loginReply r (.granted auth)
  | notLoggedIn {r : Reply AuthData} {e : StorageError} (h : readLogin backend r = .error e) :
      Move backend .loggingIn .loginReply r .failed
  | failedAt (r : Nat) : Move backend .failed .now r (.failedAt r)
  | recordFailure (time : Nat) :
      Move backend (.failedAt time) (.writeLastFailure (some time)) () .refused
  | writeToken (auth : AuthData) :
      Move backend (.granted auth) (.writeToken auth.clientToken) () (.tokenWritten auth)
  | stamp (auth : AuthData) (r : Nat) :
      Move backend (.tokenWritten auth) .now r (.stamped auth r)
  | writeIssuedAt (auth : AuthData) (time : Nat) :
      Move backend (.stamped auth time) (.writeIssuedAt time) () (.issuedWritten auth)
  | writeLease (auth : AuthData) :
      Move backend (.issuedWritten auth) (.writeLease auth.leaseDuration) () (.leaseWritten auth)
  | writeRenewable (auth : AuthData) :
      Move backend (.leaseWritten auth) (.writeRenewable auth.renewable) () .installed
  | clearFailure : Move backend .installed (.writeLastFailure none) () .safe
  | unlockSafe : Move backend .safe .unlock () .valid
  | unlockRefused : Move backend .refused .unlock () .ended
  | token (r : String) : Move backend .valid .readToken r (.done r)

/-! ## The callers follow the phases -/

section Follows

variable {backend : AuthBackend}

/-- One operation that cannot fail, then the rest. -/
theorem follows_ask_bind {δ : Type} {post : Phase → Except StorageError δ → Prop} {op : Op}
    {f : op.Answer → M δ} {p : Phase}
    (h : ∀ r, ∃ p', Move backend p op r p' ∧ Prog.Follows (Move backend) post p' (f r).run) :
    Prog.Follows (Move backend) post p (ask op >>= f).run := by
  apply Prog.follows_request_bind
  intro r
  obtain ⟨p', hmove, hrest⟩ := h r
  refine ⟨p', hmove, ?_, ?_⟩
  · intro a ha
    cases ha
    exact hrest
  · intro e he
    cases he

/-- One last operation that cannot fail. -/
theorem follows_ask {op : Op} {post : Phase → Except StorageError op.Answer → Prop} {p : Phase}
    (h : ∀ r, ∃ p', Move backend p op r p' ∧ post p' (.ok r)) :
    Prog.Follows (Move backend) post p (ask op).run := h

/-- A procedure that cannot fail, then the rest. -/
theorem follows_total_bind {γ δ : Type} {post : Phase → γ → Prop}
    {post' : Phase → Except StorageError δ → Prop} {x : M γ} {f : γ → M δ} {p : Phase}
    (hx : Prog.Follows (Move backend) (fun p' r => ∃ a, r = .ok a ∧ post p' a) p x.run)
    (hf : ∀ p' a, post p' a → Prog.Follows (Move backend) post' p' (f a).run) :
    Prog.Follows (Move backend) post' p (x >>= f).run := by
  apply Prog.Follows.bindExcept hx
  · intro p' a hp
    obtain ⟨a', ha, hp⟩ := hp
    cases ha
    exact hf p' a hp
  · intro p' e hp
    obtain ⟨a, ha, _⟩ := hp
    cases ha

/-- An attempt follows the moves of its program. -/
theorem follows_attempt {α : Type} {post : Phase → Except StorageError α → Prop} {x : M α}
    {p : Phase} (h : Prog.Follows (Move backend) post p x.run) :
    Prog.Follows (Move backend) (fun p' r => ∃ x', r = .ok x' ∧ post p' x') p
      (attempt x).run := by
  refine Prog.Follows.bind ?_ h
  intro p' r hr
  exact ⟨r, rfl, hr⟩

/-- How a renewal ends. -/
def renewPost (p : Phase) : Except StorageError Unit → Prop
  | .ok _ => p = .installed
  | .error _ => p = .loginDue

/-- How a login ends. -/
def loginPost (p : Phase) : Except StorageError Unit → Prop
  | .ok _ => p = .installed
  | .error _ => p = .failed

/-- How a caller ends with the lock held. -/
def lockedPost (p : Phase) : Except StorageError Unit → Prop
  | .ok _ => p = .safe
  | .error _ => p = .refused

/-- The fields of a granted token are written in order. -/
theorem follows_install {post : Phase → Except StorageError Unit → Prop}
    (hpost : post .installed (.ok ())) (auth : AuthData) :
    Prog.Follows (Move backend) post (.granted auth) (install auth).run := by
  unfold install
  apply follows_ask_bind
  intro _
  refine ⟨_, .writeToken auth, ?_⟩
  apply follows_ask_bind
  intro time
  refine ⟨_, .stamp auth time, ?_⟩
  apply follows_ask_bind
  intro _
  refine ⟨_, .writeIssuedAt auth time, ?_⟩
  apply follows_ask_bind
  intro _
  refine ⟨_, .writeLease auth, ?_⟩
  apply follows_ask
  intro _
  exact ⟨_, .writeRenewable auth, hpost⟩

/-- A renewal sends its request, and installs what is granted. -/
theorem follows_tryRenew :
    Prog.Follows (Move backend) renewPost .renewable tryRenew.run := by
  unfold tryRenew
  apply follows_ask_bind
  intro token
  refine ⟨_, .readToken token, ?_⟩
  apply follows_ask_bind
  intro _
  refine ⟨_, .sendRenew token, ?_⟩
  apply Prog.follows_request_bind
  intro reply
  cases hread : readRenew reply with
  | ok auth =>
      refine ⟨_, .renewed hread, ?_, ?_⟩
      · intro a ha
        cases ha
        exact follows_install rfl auth
      · intro e he
        cases he
  | error e =>
      refine ⟨_, .notRenewed hread, ?_, fun _ _ => rfl⟩
      intro a ha
      cases ha

/-- How a login ends. -/
def authPost (p : Phase) : Except StorageError AuthData → Prop
  | .ok auth => p = .granted auth
  | .error _ => p = .failed

/-- A login sends its request, and reads the reply. -/
theorem follows_performLogin {authMount : String} {body : LoginBody} :
    Prog.Follows (Move backend) authPost .loginDue (performLogin backend authMount body).run := by
  unfold performLogin
  apply follows_ask_bind
  intro _
  refine ⟨_, .sendLogin authMount body, ?_⟩
  intro reply
  cases hread : readLogin backend reply with
  | ok auth =>
      refine ⟨_, .loggedIn hread, ?_⟩
      change authPost _ (readLogin backend reply)
      rw [hread]
      rfl
  | error e =>
      refine ⟨_, .notLoggedIn hread, ?_⟩
      change authPost _ (readLogin backend reply)
      rw [hread]
      rfl

/-- Both kinds of login. -/
theorem follows_login :
    Prog.Follows (Move backend) authPost .loginDue backend.login.run := by
  unfold AuthBackend.login
  split
  · exact follows_performLogin
  · apply Prog.follows_request_bind
    intro content
    cases hread : readJwt _ content with
    | ok jwt =>
        refine ⟨_, .jwt hread, fun _ _ => follows_performLogin, ?_⟩
        intro e he
        cases he
    | error e =>
        refine ⟨_, .noJwt hread, ?_, fun _ _ => rfl⟩
        intro a ha
        cases ha

/-- A login, and the installation of what is granted. -/
theorem follows_reLogin :
    Prog.Follows (Move backend) loginPost .loginDue (reLogin backend).run := by
  apply Prog.Follows.bindExcept follows_login
  · intro p auth hp
    rw [hp]
    exact follows_install rfl auth
  · intro p e hp
    exact hp

/-- A login under the lock, with a failure recorded. -/
theorem follows_loginAgain :
    Prog.Follows (Move backend) lockedPost .loginDue (loginAgain backend).run := by
  apply follows_total_bind (follows_attempt follows_reLogin)
  intro p result hp
  cases result with
  | ok _ =>
      rw [hp]
      apply follows_ask
      intro _
      exact ⟨_, .clearFailure, rfl⟩
  | error e =>
      rw [hp]
      apply follows_ask_bind
      intro time
      refine ⟨_, .failedAt time, ?_⟩
      apply follows_ask_bind
      intro _
      exact ⟨_, .recordFailure time, rfl⟩

/-- Two reads and the check, from phase `p` over `q` to `a` or `b`. -/
theorem follows_checkSafe_bind {δ : Type} {post : Phase → Except StorageError δ → Prop}
    {f : Bool → M δ} {p a b : Phase} {q : Nat → Phase}
    (helapsed : ∀ r, Move backend p .elapsed r (q r))
    (hyes : ∀ e r, isSafe e r = true → Move backend (q e) .readLease r a)
    (hno : ∀ e r, isSafe e r = false → Move backend (q e) .readLease r b)
    (hsafe : Prog.Follows (Move backend) post a (f true).run)
    (hstale : Prog.Follows (Move backend) post b (f false).run) :
    Prog.Follows (Move backend) post p (checkSafe >>= f).run := by
  have hcheck : Prog.Follows (Move backend) (fun p r => ∃ safe, r = .ok safe ∧
      p = if safe then a else b) p checkSafe.run := by
    unfold checkSafe
    apply follows_ask_bind
    intro elapsed
    refine ⟨_, helapsed elapsed, ?_⟩
    apply follows_ask_bind
    intro ttl
    cases hsafe : isSafe elapsed ttl with
    | true => exact ⟨_, hyes _ _ hsafe, _, rfl, by simp⟩
    | false => exact ⟨_, hno _ _ hsafe, _, rfl, by simp⟩
  apply follows_total_bind hcheck
  intro p safe hp
  subst hp
  cases safe with
  | true => exact hsafe
  | false => exact hstale

/-- The check for a recent failure. -/
theorem follows_checkCooldown_bind {δ : Type} {post : Phase → Except StorageError δ → Prop}
    {f : Bool → M δ} (hready : Prog.Follows (Move backend) post .ready (f false).run)
    (hrefused : Prog.Follows (Move backend) post .refused (f true).run) :
    Prog.Follows (Move backend) post .stale (checkCooldown >>= f).run := by
  have hcheck : Prog.Follows (Move backend) (fun p r => ∃ cooling, r = .ok cooling ∧
      p = if cooling then .refused else .ready) .stale checkCooldown.run := by
    unfold checkCooldown
    apply follows_ask_bind
    intro lastFailure
    cases lastFailure with
    | none => exact ⟨_, .noFailure, _, rfl, rfl⟩
    | some time =>
        refine ⟨_, .lastFailure time, ?_⟩
        apply follows_ask_bind
        intro now
        by_cases hcooling : now - time < failureCooldown
        · exact ⟨_, .cooldown hcooling, _, rfl, by simp [hcooling]⟩
        · exact ⟨_, .cooled hcooling, _, rfl, by simp [hcooling]⟩
  apply follows_total_bind hcheck
  intro p cooling hp
  subst hp
  cases cooling with
  | true => exact hrefused
  | false => exact hready

/-- What is done under the lock: recheck, renew, and log in again. -/
theorem follows_renewLocked :
    Prog.Follows (Move backend) lockedPost .locked (renewLocked backend).run := by
  apply follows_checkSafe_bind .recheck (fun _ _ => .safe) (fun _ _ => .stale)
  · exact rfl
  · apply follows_checkCooldown_bind
    · apply follows_ask_bind
      intro renewable
      cases renewable with
      | false => exact ⟨_, .notRenewable, follows_loginAgain⟩
      | true =>
          refine ⟨_, .renewable, ?_⟩
          apply follows_total_bind (follows_attempt follows_tryRenew)
          intro p result hp
          cases result with
          | ok _ =>
              rw [hp]
              apply follows_ask
              intro _
              exact ⟨_, .clearFailure, rfl⟩
          | error e =>
              rw [hp]
              exact follows_loginAgain
    · exact rfl

/-- A call that returned a token has read it in its last phase. -/
def readPost (p : Phase) (r : Except StorageError String) : Prop :=
  ∀ token, r = .ok token → p = .done token

/-- A whole call follows the moves. -/
theorem follows_addAuthHeaders :
    Prog.Follows (Move backend) readPost .start (addAuthHeaders backend).run := by
  have hvalid : Prog.Follows (Move backend)
      (fun p r => r = .ok () → p = .valid) .start (ensureValid backend).run := by
    apply follows_checkSafe_bind .elapsed (fun _ _ => .fastSafe) (fun _ _ => .fastStale)
    · exact fun _ => rfl
    · apply follows_ask_bind
      intro _
      refine ⟨_, .lock, ?_⟩
      apply follows_total_bind (follows_attempt follows_renewLocked)
      intro p result hp
      cases result with
      | ok _ =>
          rw [hp]
          apply follows_ask_bind
          intro _
          exact ⟨_, .unlockSafe, fun _ => rfl⟩
      | error e =>
          rw [hp]
          apply follows_ask_bind
          intro _
          refine ⟨_, .unlockRefused, ?_⟩
          intro h
          cases h
  apply Prog.Follows.bindExcept hvalid
  · intro p _ hp
    rw [hp rfl]
    apply follows_ask
    intro token
    refine ⟨_, .token token, ?_⟩
    intro token' h
    cases h
    rfl
  · intro p e _ token h
    cases h

end Follows

end VaultToken

end StatusListServer
