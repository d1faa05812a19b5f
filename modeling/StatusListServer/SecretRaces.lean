import StatusListServer.CloudSecrets
import StatusListServer.Linearization

/-!
# Concurrent calls to Google Secret Manager

A store adds a version; when the secret is missing it creates the secret and adds the
version again.  Another process may create the secret in between, or delete it.  Here any
number of calls run at once, each making its requests in its own time, and replies may
get lost.

The secrets behave like a map in which every call is one step: the calls can be put in an
order that gives all their answers and the values at the end, in which each lands at one
of its own requests.  And where nothing is deleted, no store fails because of another.
-/

namespace StatusListServer

open Interaction BitStream Proc

namespace GcpSecretManagerClient

/-! ## A call as one step -/

/-- What a call answers, and what it leaves of the latest data. -/
def spec (client : GcpSecretManagerClient) (lib : Libraries) (call : StorageCall)
    (values : String → Option (List Byte)) : Option String × (String → Option (List Byte)) :=
  match call with
  | .store key value =>
      (none, Function.update values (client.secretName lib key) (some (utf8 value)))
  | .load key =>
      ((values (client.secretName lib key)).bind fun data => (fromUtf8 lib data).toOption, values)
  | .update key value =>
      (none, Function.update values (client.secretName lib key) (some (utf8 value)))
  | .delete key => (none, Function.update values (client.secretName lib key) none)

/-- The key and the value that a call writes. -/
def written : StorageCall → Option (String × String)
  | .store key value => some (key, value)
  | .update key value => some (key, value)
  | .load _ => none
  | .delete _ => none

/-! ## A call request by request -/

/-- How far a call has come. -/
inductive Phase
  | started
  | missing
  | created
  | ended (answer : Option String)
  | failed
deriving DecidableEq, Repr

/-- A call, with how far it has come. -/
structure Local where
  call : StorageCall
  phase : Phase

variable (client : GcpSecretManagerClient) (lib : Libraries)

/-- The requests that a call may make. -/
def may (s : Local) : Op → Prop
  | .addSecretVersion parent payload => (s.phase = .started ∨ s.phase = .created) ∧
      ∃ key value, written s.call = some (key, value) ∧ parent = client.secretName lib key ∧
        payload = utf8 value
  | .createSecret parent secretId => s.phase = .missing ∧
      ∃ key value, written s.call = some (key, value) ∧ parent = client.projectParent ∧
        secretId = qualifyKey lib key
  | .accessSecretVersion name => s.phase = .started ∧
      ∃ key, s.call = .load key ∧ name = client.secretVersionName lib key "latest"
  | .deleteSecret name => s.phase = .started ∧
      ∃ key, s.call = .delete key ∧ name = client.secretName lib key

/-- The phase after a reply. -/
def next (s : Local) : (op : Op) → op.Answer → Phase
  | .addSecretVersion _ _, result =>
      match readAdded result with
      | .ok true => .ended none
      | .ok false => if s.phase = .started then .missing else .failed
      | .error _ => .failed
  | .createSecret _ _, result =>
      match readCreated result with
      | .ok _ => .created
      | .error _ => .failed
  | .accessSecretVersion _, result =>
      match readAccessed lib "" result with
      | .ok answer => .ended answer
      | .error _ => .failed
  | .deleteSecret _, result =>
      match readDeleted "" result with
      | .ok _ => .ended none
      | .error _ => .failed

/-- What one request does to a call. -/
def Move (s : Local) (op : Op) (result : op.Answer) (s' : Local) : Prop :=
  may client lib s op ∧ s' = { s with phase := next lib s op result }

/-- The call can still change something. -/
def Pending (s : Local) : Prop := s.phase = .started ∨ s.phase = .missing ∨ s.phase = .created

/-- The answer of a call that has ended. -/
def answerOf (s : Local) : Option (Option String) :=
  match s.phase with
  | .ended answer => some answer
  | _ => none

/-- A call ends as its phase says. -/
def Ended (s : Local) (result : Except StorageError (Option String) × SecretCache) : Prop :=
  match result.1 with
  | .ok answer => s.phase = .ended answer
  | .error _ => s.phase = .failed

/-! ### The adapter keeps to it -/

section Follows

variable {client lib}

/-- How a part of a call ends that is to go on from a phase. -/
abbrev FollowsTo {α : Type} (client : GcpSecretManagerClient) (lib : Libraries)
    (Q : Local → α → Prop) (x : M α) (s : Local) : Prop :=
  Follows (Move client lib) (fun s' a cache => cache = none ∧ Q s' a)
    (fun s' _ _ => s'.phase = .failed) x s none

/-- A store adds its version, if need be to a secret that it creates. -/
theorem follows_ensureSecretAndAddVersion {call : StorageCall} {key value : String}
    (hcall : written call = some (key, value)) :
    FollowsTo client lib (fun s _ => s.phase = .ended none)
      (client.ensureSecretAndAddVersion lib key value) ⟨call, .started⟩ := by
  refine follows_bind (follows_request fun result => ?_)
  refine ⟨_, ⟨⟨.inl rfl, key, value, hcall, rfl, rfl⟩, rfl⟩, ?_⟩
  cases hadded : readAdded result with
  | error e => simp [next, hadded]
  | ok added =>
      cases added with
      | true =>
          refine follows_modify ⟨rfl, ?_⟩
          simp [next, hadded]
      | false =>
          simp only [next, hadded, if_true]
          refine follows_bind (follows_request fun result => ?_)
          refine ⟨_, ⟨⟨rfl, key, value, hcall, rfl, rfl⟩, rfl⟩, ?_⟩
          cases hcreated : readCreated result with
          | error e => simp [next, hcreated]
          | ok _ =>
              simp only [next, hcreated]
              refine follows_bind (follows_request fun result => ?_)
              refine ⟨_, ⟨⟨.inr rfl, key, value, hcall, rfl, rfl⟩, rfl⟩, ?_⟩
              cases result with
              | ok _ => exact follows_modify ⟨rfl, rfl⟩
              | error e =>
                  simp only [orBackend, next, readAdded]
                  by_cases hmissing : isNotFound e
                  · simp [hmissing]
                  · simp [hmissing]

/-- The key is only named in an error. -/
theorem readAccessed_eq (lib : Libraries) (key key' : String)
    (result : Except GcpError (Option (List Byte))) :
    (readAccessed lib key result).toOption = (readAccessed lib key' result).toOption := by
  rcases result with e | (_ | data)
  · simp only [readAccessed]
    split
    · rfl
    · rfl
  · rfl
  · simp only [readAccessed]

/-- A load answers with what it reads. -/
theorem follows_load (key : String) :
    FollowsTo client lib (fun s answer => s.phase = .ended answer) (client.load lib key)
      ⟨.load key, .started⟩ := by
  refine follows_bind (follows_get (follows_bind (follows_request fun result => ?_)))
  refine ⟨_, ⟨⟨rfl, key, rfl, rfl⟩, rfl⟩, ?_⟩
  have hread := readAccessed_eq lib "" key result
  cases hanswer : readAccessed lib key result with
  | error e =>
      rw [hanswer] at hread
      cases hread' : readAccessed lib "" result with
      | error e' => simp [next, hread']
      | ok answer => simp [hread', Except.toOption] at hread
  | ok answer =>
      rw [hanswer] at hread
      cases hread' : readAccessed lib "" result with
      | error e' => simp [hread', Except.toOption] at hread
      | ok answer' =>
          obtain rfl : answer' = answer := by simpa [hread', Except.toOption] using hread
          simp only [next, hread']
          cases answer' with
          | none => exact follows_pure ⟨rfl, rfl⟩
          | some value => exact follows_bind (follows_modify (follows_pure ⟨rfl, rfl⟩))

/-- A deletion ends when its request is answered. -/
theorem follows_delete (key : String) :
    FollowsTo client lib (fun s _ => s.phase = .ended none) (client.delete lib key)
      ⟨.delete key, .started⟩ := by
  refine follows_bind (follows_request fun result => ?_)
  refine ⟨_, ⟨⟨rfl, key, rfl, rfl⟩, rfl⟩, ?_⟩
  cases result with
  | ok _ => exact follows_modify ⟨rfl, rfl⟩
  | error e =>
      by_cases hmissing : isNotFound e
      · simp only [readDeleted, hmissing, if_true]
        refine follows_modify ⟨rfl, ?_⟩
        simp [next, readDeleted, hmissing]
      · simp [readDeleted, next, hmissing]

/-- The ends of a whole call. -/
theorem follows_call {x : M (Option String)} {s : Local}
    (h : Follows (Move client lib) (fun s answer _ => s.phase = .ended answer)
      (fun s _ _ => s.phase = .failed) x s none) :
    (x.start none).Follows (Move client lib) Ended s := by
  refine Prog.Follows.mono ?_ h
  rintro s' ⟨e | answer, cache⟩ hend
  · exact hend
  · exact hend

/-- A part of a call, and an answer after it. -/
theorem follows_then {α : Type} {Q : Local → α → Prop} {x : M α} {answer : Option String}
    {s : Local} (hx : FollowsTo client lib Q x s) (hend : ∀ s a, Q s a → s.phase = .ended answer) :
    Follows (Move client lib) (fun s answer _ => s.phase = .ended answer)
      (fun s _ _ => s.phase = .failed) (do let _ ← x; return answer) s none := by
  refine follows_bind (hx.mono ?_ fun _ _ _ h => h)
  rintro s a cache ⟨_, hQ⟩
  exact follows_pure (hend s a hQ)

/-- **Every call keeps to the automaton.** -/
theorem follows_perform (client : GcpSecretManagerClient) (lib : Libraries) (call : StorageCall) :
    (((client.storage lib).perform call).start none).Follows (Move client lib) Ended
      ⟨call, .started⟩ := by
  apply follows_call
  cases call with
  | store key value =>
      exact follows_then (follows_ensureSecretAndAddVersion rfl) fun _ _ h => h
  | load key => exact (follows_load key).mono (fun _ _ _ h => h.2) fun _ _ _ h => h
  | update key value =>
      exact follows_then (follows_ensureSecretAndAddVersion rfl) fun _ _ h => h
  | delete key => exact follows_then (follows_delete key) fun _ _ h => h

end Follows

/-! ## Every request lands at most once -/

/-- What the effect of a call that writes is. -/
theorem spec_written {call : StorageCall} {key value : String}
    (h : written call = some (key, value)) (values : String → Option (List Byte)) :
    spec client lib call values =
      (none, Function.update values (client.secretName lib key) (some (utf8 value))) := by
  cases call with
  | store key' value' =>
      cases h
      rfl
  | update key' value' =>
      cases h
      rfl
  | load key' => cases h
  | delete key' => cases h

/-- An added version is where a store takes effect. -/
theorem lands_add {s : Local} {parent : String} {payload : List Byte}
    {result : Except GcpError Unit} {w w' : SecretVersions}
    (hmay : may client lib s (.addSecretVersion parent payload))
    (henv : Service (.addSecretVersion parent payload) w result w') :
    LandsOnce latestData (spec client lib s.call) Pending answerOf s
      { s with phase := next lib s (.addSecretVersion parent payload) result } w w' := by
  obtain ⟨hphase, key, value, hwrites, rfl, rfl⟩ := hmay
  have hpending : Pending s := hphase.elim .inl (fun h => .inr (.inr h))
  have hnone : answerOf s = none := by
    rcases hphase with h | h
    · simp [answerOf, h]
    · simp [answerOf, h]
  unfold LandsOnce
  rw [spec_written client lib hwrites]
  cases result with
  | ok _ =>
      refine .inr ⟨latestData_added henv, hpending, ?_, ?_⟩
      · simp [Pending, next, readAdded]
      · simp [answerOf, next, readAdded, eq_comm]
  | error e =>
      obtain ⟨rfl, _⟩ | ⟨hother, hadded⟩ := henv
      · refine .inl ⟨rfl, fun _ => hpending, ?_⟩
        rw [hnone]
        cases hmissing : isNotFound e with
        | false => simp [answerOf, next, readAdded, hmissing]
        | true =>
            by_cases hstarted : s.phase = .started
            · simp [answerOf, next, readAdded, hmissing, hstarted]
            · simp [answerOf, next, readAdded, hmissing, hstarted]
      · -- the version was added although the reply is an error
        refine .inr ⟨latestData_added hadded, hpending, ?_, ?_⟩
        · simp [Pending, next, readAdded, hother]
        · simp [answerOf, next, readAdded, hother]

/-- The creation of a secret has no effect of its own. -/
theorem lands_create {s : Local} {parent secretId : String} {result : Except GcpError Unit}
    {w w' : SecretVersions} (hmay : may client lib s (.createSecret parent secretId))
    (henv : Service (.createSecret parent secretId) w result w') :
    LandsOnce latestData (spec client lib s.call) Pending answerOf s
      { s with phase := next lib s (.createSecret parent secretId) result } w w' := by
  have hphase := hmay.1
  have hview : latestData w' = latestData w := by
    cases result with
    | ok _ => exact latestData_created henv
    | error e =>
        obtain ⟨rfl, _⟩ | ⟨_, hcreated⟩ := henv
        · rfl
        · exact latestData_created hcreated
  refine .inl ⟨hview, fun _ => .inr (.inl hphase), ?_⟩
  simp only [answerOf, next, hphase]
  cases hread : readCreated result with
  | ok _ => rfl
  | error e => rfl

/-- The access of a version is where a load takes effect. -/
theorem lands_access {s : Local} {name : String} {result : Except GcpError (Option (List Byte))}
    {w w' : SecretVersions} (hmay : may client lib s (.accessSecretVersion name))
    (henv : Service (.accessSecretVersion name) w result w') :
    LandsOnce latestData (spec client lib s.call) Pending answerOf s
      { s with phase := next lib s (.accessSecretVersion name) result } w w' := by
  obtain ⟨hphase, key, hcall, rfl⟩ := hmay
  obtain ⟨rfl, henv⟩ := henv
  have henv := henv (client.secretName lib key) rfl
  simp only [next]
  cases hread : readAccessed lib "" result with
  | error e => exact .inl ⟨rfl, fun _ => .inl hphase, by simp [answerOf, hphase]⟩
  | ok answer =>
      rw [hcall]
      refine .inr ⟨rfl, .inl hphase, by simp [Pending], ?_⟩
      intro a ha
      obtain rfl : answer = a := by simpa [answerOf] using ha
      change answer = (latestData w' (client.secretName lib key)).bind _
      rcases result with e | (_ | data)
      · simp only [readAccessed] at hread
        split at hread
        · rename_i hmissing
          cases hread
          rw [henv hmissing, Option.bind_none]
        · cases hread
      · cases hread
      · simp only [readAccessed] at hread
        split at hread
        · rename_i secretStr hdecoded
          cases hread
          rw [henv data rfl, Option.bind_some, hdecoded]
          rfl
        · cases hread

/-- The deletion of a secret is where it takes effect. -/
theorem lands_delete {s : Local} {name : String} {result : Except GcpError Unit}
    {w w' : SecretVersions} (hmay : may client lib s (.deleteSecret name))
    (henv : Service (.deleteSecret name) w result w') :
    LandsOnce latestData (spec client lib s.call) Pending answerOf s
      { s with phase := next lib s (.deleteSecret name) result } w w' := by
  obtain ⟨hphase, key, hcall, rfl⟩ := hmay
  have hpending : Pending s := .inl hphase
  unfold LandsOnce
  rw [hcall]
  cases result with
  | ok _ =>
      refine .inr ⟨latestData_removed henv, hpending, ?_, ?_⟩
      · simp [Pending, next, readDeleted]
      · simp [answerOf, next, readDeleted, spec, eq_comm]
  | error e =>
      obtain ⟨rfl, hwhy⟩ | ⟨hother, hremoved⟩ := henv
      · cases hmissing : isNotFound e with
        | true =>
            -- there is nothing to remove, so the removal has its effect
            have hnone : latestData w' (client.secretName lib key) = none := by
              rw [latestData, hwhy hmissing, Option.bind_none]
            refine .inr ⟨?_, hpending, ?_, ?_⟩
            · exact (Function.update_eq_self_iff.mpr hnone.symm).symm
            · simp [Pending, next, readDeleted, hmissing]
            · simp [answerOf, next, readDeleted, hmissing, spec, eq_comm]
        | false =>
            refine .inl ⟨rfl, fun _ => hpending, ?_⟩
            simp [answerOf, next, readDeleted, hmissing, hphase]
      · refine .inr ⟨latestData_removed hremoved, hpending, ?_, ?_⟩
        · simp [Pending, next, readDeleted, hother]
        · simp [answerOf, next, readDeleted, hother]

/-- Every request of a call is its effect, or has none. -/
theorem lands {s s' : Local} {op : Op} {result : op.Answer} {w w' : SecretVersions}
    (hmove : Move client lib s op result s') (henv : Service op w result w') :
    LandsOnce latestData (spec client lib s.call) Pending answerOf s s' w w' := by
  obtain ⟨hmay, rfl⟩ := hmove
  cases op with
  | addSecretVersion parent payload => exact lands_add client lib hmay henv
  | createSecret parent secretId => exact lands_create client lib hmay henv
  | accessSecretVersion name => exact lands_access client lib hmay henv
  | deleteSecret name => exact lands_delete client lib hmay henv

/-! ## Any number of calls at once -/

section Runs

variable {Tid : Type}

/-- The secrets, with what has happened to them. -/
abbrev History (Tid : Type) := Recorded Tid Op Op.Answer SecretVersions

/-- The calls of several clients. -/
abbrev Calls (Tid : Type) :=
  Pool Tid Op Op.Answer (Except StorageError (Option String) × SecretCache) (History Tid)

/-- The calls before their first request, without a cache. -/
def start (calls : Tid → StorageCall) (w : SecretVersions) : Calls Tid :=
  ⟨⟨w, []⟩, fun i => ((client.storage lib).perform (calls i)).start none⟩

/-- The service, for whoever asks. -/
def env : Env Tid Op Op.Answer SecretVersions := fun _ => Service

/-- The service while it is up: its only errors are that a secret is missing or there. -/
def healthy : Env Tid Op Op.Answer SecretVersions := fun _ op w result w' =>
  Service op w result w' ∧
  match op, result with
  | .addSecretVersion _ _, .error e => isNotFound e
  | .createSecret _ _, .error e => isAlreadyExists e
  | _, _ => True

/-! ### Nothing is deleted -/

/-- The secret that a call has created or found is still there, and no write has failed. -/
def Surviving (calls : Tid → StorageCall) (w : SecretVersions) (locals : Tid → Local) : Prop :=
  ∀ i, (locals i).call = calls i ∧ ∀ key value, written (calls i) = some (key, value) →
    (locals i).phase ≠ .failed ∧
    ((locals i).phase = .created → w (client.secretName lib key) ≠ none)

/-- A request that is no deletion keeps the secrets. -/
theorem kept_of_service {op : Op} {result : op.Answer} {w w' : SecretVersions}
    (henv : Service op w result w') (hop : ∀ name, op ≠ .deleteSecret name) {name : String}
    (h : w name ≠ none) : w' name ≠ none := by
  have hadded : ∀ {parent : String} {payload : List Byte}, Added w parent payload w' →
      w' name ≠ none := by
    rintro parent payload ⟨versions, _, rfl⟩
    by_cases hname : name = parent
    · simp [hname]
    · simpa [hname] using h
  have hcreated : ∀ {parent : String}, Created w parent w' → w' name ≠ none := by
    rintro parent ⟨_, rfl⟩
    by_cases hname : name = parent
    · simp [hname]
    · simpa [hname] using h
  cases op with
  | addSecretVersion parent payload =>
      cases result with
      | ok _ => exact hadded henv
      | error e =>
          obtain ⟨rfl, _⟩ | ⟨_, hmade⟩ := henv
          · exact h
          · exact hadded hmade
  | createSecret parent secretId =>
      cases result with
      | ok _ => exact hcreated henv
      | error e =>
          obtain ⟨rfl, _⟩ | ⟨_, hmade⟩ := henv
          · exact h
          · exact hcreated hmade
  | accessSecretVersion secret =>
      rw [henv.1]
      exact h
  | deleteSecret secret => exact absurd rfl (hop secret)

/-- The phase that a writing call gets to while nothing is deleted. -/
theorem next_written {i : Tid} {s : Local} {op : Op} {result : op.Answer} {w w' : SecretVersions}
    {key value : String} (hmay : may client lib s op) (henv : healthy i op w result w')
    (hwrites : written s.call = some (key, value))
    (hcreated : s.phase = .created → w (client.secretName lib key) ≠ none) :
    next lib s op result ≠ .failed ∧
      (next lib s op result = .created → w' (client.secretName lib key) ≠ none) := by
  obtain ⟨hservice, herror⟩ := henv
  cases op with
  | addSecretVersion parent payload =>
      obtain ⟨hphase, key', value', hkey, rfl, rfl⟩ := hmay
      obtain ⟨rfl, rfl⟩ : key = key' ∧ value = value' := by simpa [hwrites] using hkey
      cases result with
      | ok _ => simp [next, readAdded]
      | error e =>
          have hmissing : isNotFound e = true := herror
          obtain ⟨_, hwhy⟩ | ⟨hother, _⟩ := hservice
          · have hstarted : s.phase = .started :=
              hphase.resolve_right fun h => hcreated h (hwhy hmissing)
            simp [next, readAdded, hmissing, hstarted]
          · rw [hmissing] at hother
            cases hother
  | createSecret parent secretId =>
      obtain ⟨_, key', value', hkey, rfl, rfl⟩ := hmay
      obtain ⟨rfl, rfl⟩ : key = key' ∧ value = value' := by simpa [hwrites] using hkey
      cases result with
      | ok _ =>
          obtain ⟨_, rfl⟩ := hservice
          simp [next, readCreated, secretName]
      | error e =>
          have hexists : isAlreadyExists e = true := herror
          obtain ⟨rfl, hwhy⟩ | ⟨hother, _⟩ := hservice
          · simpa [next, readCreated, hexists, secretName] using hwhy hexists
          · rw [hexists] at hother
            cases hother
  | accessSecretVersion name =>
      obtain ⟨_, key', hcall, _⟩ := hmay
      rw [hcall] at hwrites
      cases hwrites
  | deleteSecret name =>
      obtain ⟨_, key', hcall, _⟩ := hmay
      rw [hcall] at hwrites
      cases hwrites

/-- One step keeps that the stores survive. -/
theorem Surviving.step [DecidableEq Tid] {calls : Tid → StorageCall} {w w' : SecretVersions}
    {locals : Tid → Local} (hkept : ∀ i key, calls i ≠ .delete key)
    (h : Surviving client lib calls w locals) {i : Tid} {op : Op} {result : op.Answer} {s' : Local}
    (hmove : Move client lib (locals i) op result s') (henv : healthy i op w result w') :
    Surviving client lib calls w' (Function.update locals i s') := by
  obtain ⟨hmay, rfl⟩ := hmove
  have hop : ∀ name, op ≠ .deleteSecret name := by
    rintro name rfl
    obtain ⟨_, key, hcall, _⟩ := hmay
    rw [(h i).1] at hcall
    exact hkept i key hcall
  intro j
  by_cases hj : j = i
  · subst hj
    rw [Function.update_self]
    refine ⟨(h j).1, ?_⟩
    intro key value hwrites
    have hcall : written (locals j).call = some (key, value) := by
      rw [(h j).1]
      exact hwrites
    exact next_written client lib hmay henv hcall ((h j).2 key value hwrites).2
  · rw [Function.update_of_ne hj]
    refine ⟨(h j).1, ?_⟩
    intro key value hwrites
    obtain ⟨hfailed, hcreated⟩ := (h j).2 key value hwrites
    exact ⟨hfailed, fun hphase => kept_of_service henv.1 hop (hcreated hphase)⟩

end Runs

section Results

variable {Tid : Type} [DecidableEq Tid] (client : GcpSecretManagerClient) (lib : Libraries)
  (calls : Tid → StorageCall)

/-- **Calls to Google Secret Manager are linearizable.**  Whatever the calls and the order
of their requests, and whichever replies get lost, there is an order of calls in which each
of them is one step at one of its own requests: it leaves the secrets as they are, it gives
every answer that a call has returned, and at every point of the run it begins with the
calls that have landed by then. -/
theorem gcp_secrets_linearizable {w : SecretVersions} {t : List (Event Tid Op Op.Answer)}
    {c : Calls Tid}
    (h : Run (recorded env) (start client lib calls w)
      t c) :
    ∃ order : List Tid, order.Nodup ∧
      latestData c.world.now =
        afterCalls (fun i => spec client lib (calls i)) (latestData w) order ∧
      (∀ i answer cache, c.threads i = .ret (.ok answer, cache) →
        AnswersInOrder (fun i => spec client lib (calls i)) (latestData w) order i answer) ∧
      ∀ earlier m later, c.world.log = earlier ++ m :: later →
        ∃ landed rest, order = landed ++ rest ∧
          latestData m.before =
            afterCalls (fun i => spec client lib (calls i)) (latestData w) landed ∧
          (∀ i ∈ landed, ∃ m' ∈ earlier, m'.event.tid = i) ∧
          ∀ i ∈ rest, ∃ m' ∈ m :: later, m'.event.tid = i := by
  have hlands : ∀ i s op r s' w w', s.call = calls i → Move client lib s op r s' →
      env i op w r w' → s'.call = calls i ∧
        LandsOnce latestData (spec client lib (calls i)) Pending answerOf s s' w w' := by
    intro i s op r s' w w' hcall hmove henv
    rw [← hcall]
    exact ⟨by rw [hmove.2], lands client lib hmove henv⟩
  obtain ⟨locals, order, hlin, hcalls, hfollows⟩ :=
    Run.linearized latestData (fun i => spec client lib (calls i)) (fun i s => s.call = calls i)
      Pending answerOf (fun i => follows_perform client lib (calls i)) rfl (fun _ => rfl)
      (fun _ => rfl) hlands h
  refine ⟨order, hlin.linearizes.nodup, hlin.linearizes.view_eq hlin.since, ?_, ?_⟩
  · intro i answer cache hret
    have hend := hfollows i
    rw [hret] at hend
    have hphase : (locals i).phase = .ended answer := hend
    exact hlin.answers i answer (by simp [answerOf, hphase])
  · intro earlier m later hlog
    have hsplit := hlin.linearizes
    rw [hlog] at hsplit
    obtain ⟨landed, rest, rfl, hlanded, hrest⟩ := hsplit.split
    exact ⟨landed, rest, rfl, hlanded.view_eq (hlin.since.before hlog),
      fun i hi => hlanded.requested hi, hrest⟩

/-- **Stores survive the race to create a secret.**  Where nothing is deleted and the
service is up, every store and every update that has ended has succeeded, however many
calls found the secret missing at the same time. -/
theorem gcp_stores_survive_creation_races (hkept : ∀ i key, calls i ≠ .delete key)
    {w : SecretVersions} {t : List (Event Tid Op Op.Answer)} {c : Calls Tid}
    (h : Run (recorded healthy) (start client lib calls w) t c) {i : Tid}
    {key value : String} (hwrites : written (calls i) = some (key, value))
    {result : Except StorageError (Option String)} {cache : SecretCache}
    (hret : c.threads i = .ret (result, cache)) : ∃ answer, result = .ok answer := by
  obtain ⟨locals, hsurviving, hfollows⟩ := Run.followed
    (I := fun w locals => Surviving client lib calls w.now locals)
    (fun i => follows_perform client lib (calls i)) (fun i => ⟨rfl, fun _ _ _ => by simp⟩)
    (fun w locals i op r w' s' hI hmove henv => hI.step client lib hkept hmove henv.1) h
  have hend := hfollows i
  rw [hret] at hend
  cases result with
  | ok answer => exact ⟨answer, rfl⟩
  | error e =>
      have hphase : (locals i).phase = .failed := hend
      exact absurd hphase ((hsurviving i).2 key value hwrites).1

end Results

/-! ## Two stores that both find the secret missing -/

/-- The sample service is a healthy one. -/
theorem healthy_answer {Tid : Type} (i : Tid) (op : Op) (w : SecretVersions) :
    healthy i op w (answer op w).1 (answer op w).2 := by
  refine ⟨service_answer op w, ?_⟩
  cases op with
  | addSecretVersion parent payload =>
      cases hsecret : w parent with
      | some versions => simp [answer, hsecret]
      | none =>
          simp only [answer, hsecret]
          rfl
  | createSecret parent secretId =>
      cases hsecret : w (resourceName parent secretId) with
      | some versions =>
          simp only [answer, hsecret]
          rfl
      | none => simp [answer, hsecret]
  | accessSecretVersion name => trivial
  | deleteSecret name => trivial

/-- Two stores and a load of one key. -/
def sampleGcpCalls : Option Bool → StorageCall
  | some false => .store "key" "one"
  | some true => .store "key" "two"
  | none => .load "key"

/-- Both stores find the secret missing; the second one finds it created. -/
def sampleGcpRun :=
  Pool.drive
    (recordedAnswer fun (_ : Unit) (_ : Option Bool) op w => some (answer op w))
    [(some false, ()), (some true, ()), (some false, ()), (some true, ()), (some false, ()),
      (some true, ()), (none, ())]
    (start ⟨"p"⟩ sampleLibraries sampleGcpCalls fun _ => none)

/-- The sample is a run of the healthy service. -/
theorem sampleGcpRun_healthy :
    Run (recorded healthy)
      (start ⟨"p"⟩ sampleLibraries sampleGcpCalls fun _ => none)
      sampleGcpRun.1 sampleGcpRun.2 := by
  apply Run.drive
  intro input i op w r w' h
  refine recordedAnswer_sound ?_ h
  intro _ i op w r w' hanswer
  have hhealthy := healthy_answer i op w
  rwa [Option.some.inj hanswer] at hhealthy

/-- The sample is a run. -/
theorem sampleGcpRun_runs :
    Run (recorded env)
      (start ⟨"p"⟩ sampleLibraries sampleGcpCalls fun _ => none)
      sampleGcpRun.1 sampleGcpRun.2 :=
  sampleGcpRun_healthy.mono fun _ _ _ _ _ h => ⟨h.1.1, h.2⟩

/-- The calls of the sample have ended. -/
theorem sampleGcpRun_threads :
    (sampleGcpRun.2.threads (some true)).result?.isSome ∧
      (sampleGcpRun.2.threads none).result?.bind (fun r => r.1.toOption) = some (some "two") := by
  decide +kernel

/-- The load returns the value of the second store, which has landed before it. -/
theorem gcp_secrets_linearizable_sample :
    ∃ order : List (Option Bool), order.Nodup ∧
      AnswersInOrder (fun i => spec ⟨"p"⟩ sampleLibraries (sampleGcpCalls i))
        (latestData fun _ => none) order none (some "two") := by
  obtain ⟨⟨result, cache⟩, hthread, hanswer⟩ :=
    Option.bind_eq_some_iff.mp sampleGcpRun_threads.2
  obtain ⟨order, hnodup, _, hanswers, _⟩ :=
    gcp_secrets_linearizable ⟨"p"⟩ sampleLibraries sampleGcpCalls sampleGcpRun_runs
  cases result with
  | error e => cases hanswer
  | ok answer =>
      cases hanswer
      exact ⟨order, hnodup, hanswers none _ _ (Prog.eq_ret_of_result? hthread)⟩

/-- The second store succeeds although its creation was refused. -/
theorem gcp_stores_survive_creation_races_sample :
    ∃ answer cache, sampleGcpRun.2.threads (some true) = .ret (.ok answer, cache) := by
  obtain ⟨⟨result, cache⟩, hresult⟩ := Option.isSome_iff_exists.mp sampleGcpRun_threads.1
  have hthread := Prog.eq_ret_of_result? hresult
  have hkept : ∀ (i : Option Bool) (key : String), sampleGcpCalls i ≠ .delete key := by
    intro i key
    match i with
    | some false => simp [sampleGcpCalls]
    | some true => simp [sampleGcpCalls]
    | none => simp [sampleGcpCalls]
  obtain ⟨answer, rfl⟩ := gcp_stores_survive_creation_races ⟨"p"⟩ sampleLibraries sampleGcpCalls
    hkept sampleGcpRun_healthy (i := some true) rfl hthread
  exact ⟨answer, cache, hthread⟩

end GcpSecretManagerClient

end StatusListServer
