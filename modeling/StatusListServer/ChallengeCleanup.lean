import StatusListServer.CertFrames
import StatusListServer.CertMaterial

/-!
# Challenge records and their cleanup

An order answers its challenges with TXT records.  What is to be cleaned up is
collected over the authorizations and done by `poll_order`, after the order has been
polled.  A failure between a created record and the answer to that poll leaves the
procedure by an early return, and with it the records.

The world is the log of all calls of a run; any call may answer anything.
-/

namespace StatusListServer

open Interaction Proc

/-- A call with its answer. -/
structure CertCall where
  op : CertOp
  answer : op.Answer

/-- Any answer is possible, and every call is logged. -/
def Logged : Answers CertOp CertOp.Answer (List CertCall) :=
  fun op log answer log' => log' = log ++ [⟨op, answer⟩]

namespace CertCall

/-- The domain and the value of the TXT record that a call has created. -/
def created : CertCall → Option (String × String)
  | ⟨.createTxtRecord domain value, .ok _⟩ => some (domain, value)
  | _ => none

/-- The call attempts to delete the record. -/
def Deletes (record : String × String) (call : CertCall) : Prop :=
  call.op = .cleanUp (.deleteTxtRecord record.1 record.2)

/-- The answers that end the processing of an order early: an authorization cannot be
fetched or has no DNS-01 challenge, its record cannot be created, the server cannot be
told or the order cannot be polled. -/
def Disturbs : CertCall → Prop
  | ⟨.authorization _, .error _⟩ => True
  | ⟨.authorization _, .ok authz⟩ => authz.status ≠ .valid ∧ authz.dnsValue = none
  | ⟨.createTxtRecord _ _, .error _⟩ => True
  | ⟨.setReady _, .error _⟩ => True
  | ⟨.pollReady _, .error _⟩ => True
  | _ => False

end CertCall

/-- Every record that was created is attempted to be deleted later on. -/
def CleansUp (log : List CertCall) : Prop :=
  ∀ before call after record, log = before ++ call :: after → call.created = some record →
    ∃ later ∈ after, later.Deletes record

/-- Nothing disturbs the order once a record has been created. -/
def Undisturbed (log : List CertCall) : Prop :=
  log.Pairwise fun earlier later => earlier.created ≠ none → ¬ later.Disturbs

/-- No cleanup has been run. -/
def Uncleaned (log : List CertCall) : Prop := ∀ call ∈ log, ∀ cleanup, call.op ≠ .cleanUp cleanup

/-- No record has been created. -/
def Recordless (log : List CertCall) : Prop := ∀ call ∈ log, call.created = none

/-! ## Logs -/

section Logs

variable {log ext : List CertCall} {call : CertCall}

/-- Only the creation of a record creates one. -/
theorem CertCall.created_eq_none (h : ∀ domain value, call.op ≠ .createTxtRecord domain value) :
    call.created = none := by
  unfold CertCall.created
  split
  · exact absurd rfl (h _ _)
  · rfl

/-- A cleanup does not disturb. -/
theorem CertCall.not_disturbs_of_cleanUp {cleanup : CleanupFuture}
    (h : call.op = .cleanUp cleanup) : ¬ call.Disturbs := by
  obtain ⟨op, answer⟩ := call
  cases h
  exact id

/-- Only calls that answer challenges create records or disturb. -/
theorem CertCall.plain (h : call.op.answersChallenge = false) :
    call.created = none ∧ ¬ call.Disturbs := by
  obtain ⟨op, answer⟩ := call
  cases op with
  | authorization | handleAuthorization | createTxtRecord | setReady | cleanUp | pollReady =>
      cases h
  | _ => exact ⟨rfl, id⟩

/-- Before the first cleanup nothing is deleted. -/
theorem CertCall.not_deletes_of_uncleaned (h : Uncleaned log) (hcall : call ∈ log)
    (record : String × String) : ¬ call.Deletes record :=
  fun hdeletes => h call hcall _ hdeletes

/-- Without records nothing is disturbed. -/
theorem Recordless.undisturbed (h : Recordless log) : Undisturbed log :=
  List.pairwise_of_forall_mem_list fun _ hearlier _ _ hcreated => absurd (h _ hearlier) hcreated

/-- Without records there is nothing to clean up. -/
theorem Recordless.cleansUp (h : Recordless log) : CleansUp log := by
  intro before call after record hlog hcreated
  have hnone := h call (by simp [hlog])
  rw [hnone] at hcreated
  cases hcreated

/-- A call that creates nothing leaves the log without records. -/
theorem Recordless.snoc (h : Recordless log) (hcall : call.created = none) :
    Recordless (log ++ [call]) := by
  intro c hc
  rcases List.mem_append.mp hc with hc | hc
  · exact h c hc
  · rw [List.mem_singleton.mp hc]
    exact hcall

/-- A call that is no cleanup leaves the log without one. -/
theorem Uncleaned.snoc (h : Uncleaned log) (hcall : ∀ cleanup, call.op ≠ .cleanUp cleanup) :
    Uncleaned (log ++ [call]) := by
  intro c hc
  rcases List.mem_append.mp hc with hc | hc
  · exact h c hc
  · rw [List.mem_singleton.mp hc]
    exact hcall

/-- Calls that do not disturb leave the log undisturbed. -/
theorem Undisturbed.append (h : Undisturbed log) (hext : ∀ call ∈ ext, ¬ call.Disturbs) :
    Undisturbed (log ++ ext) := by
  refine List.pairwise_append.mpr ⟨h, ?_, ?_⟩
  · exact List.pairwise_of_forall_mem_list fun _ _ later hlater _ => hext later hlater
  · exact fun _ _ later hlater _ => hext later hlater

/-- One call that does not disturb. -/
theorem Undisturbed.snoc (h : Undisturbed log) (hcall : ¬ call.Disturbs) :
    Undisturbed (log ++ [call]) := by
  apply h.append
  intro c hc
  rw [List.mem_singleton.mp hc]
  exact hcall

/-- Before an undisturbed disturbance there was no record. -/
theorem Undisturbed.recordless (h : Undisturbed (log ++ [call])) (hcall : call.Disturbs) :
    Recordless log := by
  intro earlier hearlier
  by_contra hcreated
  exact (List.pairwise_append.mp h).2.2 earlier hearlier call (by simp) hcreated hcall

/-- A record is created before the part of a log that has none. -/
theorem exists_of_created {before after : List CertCall} {record : String × String}
    (hext : Recordless ext) (hlog : log ++ ext = before ++ call :: after)
    (hcreated : call.created = some record) :
    ∃ middle, log = before ++ call :: middle ∧ after = middle ++ ext := by
  have hlate : call ∉ ext := by
    intro hcall
    rw [hext call hcall] at hcreated
    cases hcreated
  obtain ⟨middle, rfl, htail⟩ | ⟨middle, rfl, htail⟩ := List.append_eq_append_iff.mp hlog
  · exact absurd (by simp [htail]) hlate
  · cases middle with
    | nil =>
        rw [List.nil_append] at htail
        exact absurd (by simp [← htail]) hlate
    | cons first middle =>
        obtain ⟨rfl, rfl⟩ := List.cons.inj htail
        exact ⟨middle, rfl, rfl⟩

/-- A log that is cleaned up stays so while no record is created. -/
theorem CleansUp.append (h : CleansUp log) (hext : Recordless ext) : CleansUp (log ++ ext) := by
  intro before call after record hlog hcreated
  obtain ⟨middle, hbefore, rfl⟩ := exists_of_created hext hlog hcreated
  obtain ⟨later, hlater, hdeletes⟩ := h before call middle record hbefore hcreated
  exact ⟨later, List.mem_append_left _ hlater, hdeletes⟩

/-- The records of a log are cleaned up by cleanups that are run after it. -/
theorem cleansUp_append (hext : Recordless ext)
    (hdeletes : ∀ call ∈ log, ∀ record, call.created = some record →
      ∃ later ∈ ext, later.Deletes record) : CleansUp (log ++ ext) := by
  intro before call after record hlog hcreated
  obtain ⟨middle, hbefore, rfl⟩ := exists_of_created hext hlog hcreated
  obtain ⟨later, hlater, hlast⟩ := hdeletes call (by simp [hbefore]) record hcreated
  exact ⟨later, List.mem_append_right _ hlater, hlast⟩

/-- Without any cleanup, only a log without records is cleaned up. -/
theorem Uncleaned.recordless (h : Uncleaned log) (hclean : CleansUp log) : Recordless log := by
  intro call hcall
  cases hcreated : call.created with
  | none => rfl
  | some record =>
      obtain ⟨before, after, rfl⟩ := List.append_of_mem hcall
      obtain ⟨later, hlater, hdeletes⟩ := hclean before call after record rfl hcreated
      exact absurd hdeletes (CertCall.not_deletes_of_uncleaned h (by simp [hlater]) record)

end Logs

/-! ## The phases of an order -/

/-- Before the authorizations: there is no record and nothing was cleaned up. -/
def Fresh (log : List CertCall) : Prop := Recordless log ∧ Uncleaned log

/-- Between two authorizations: the collected cleanups delete every record.  Only the
DNS-01 handler makes records. -/
structure Collected (handler : ChallengeHandler) (cleanups : List CleanupFuture)
    (log : List CertCall) : Prop where
  uncleaned : Uncleaned log
  undisturbed : Undisturbed log
  records : ∀ call ∈ log, ∀ record, call.created = some record →
    .deleteTxtRecord record.1 record.2 ∈ cleanups
  other : handler = .other → Recordless log

/-- After an early return: nothing was cleaned up, and if there is a record then it
was disturbed. -/
def Abandoned (log : List CertCall) : Prop := Uncleaned log ∧ (Undisturbed log → Recordless log)

/-- After the cleanups. -/
def Finished (log : List CertCall) : Prop := CleansUp log ∧ Undisturbed log

section Phases

variable {log : List CertCall} {handler : ChallengeHandler} {cleanups : List CleanupFuture}
  {call : CertCall}

/-- At the start there is nothing to collect. -/
theorem Fresh.collected (h : Fresh log) : Collected handler cleanups log where
  uncleaned := h.2
  undisturbed := h.1.undisturbed
  records := by
    intro call hcall record hcreated
    rw [h.1 call hcall] at hcreated
    cases hcreated
  other := fun _ => h.1

/-- A call that neither creates nor cleans up keeps the log fresh. -/
theorem Fresh.snoc (h : Fresh log) (hcall : call.created = none)
    (hclean : ∀ cleanup, call.op ≠ .cleanUp cleanup) : Fresh (log ++ [call]) :=
  ⟨h.1.snoc hcall, h.2.snoc hclean⟩

/-- A call may end before it has created anything. -/
theorem Fresh.abandoned (h : Fresh log) : Abandoned log := ⟨h.2, fun _ => h.1⟩

/-- A quiet call keeps the cleanups collected. -/
theorem Collected.snoc (h : Collected handler cleanups log) (hcall : call.created = none)
    (hclean : ∀ cleanup, call.op ≠ .cleanUp cleanup) (hquiet : ¬ call.Disturbs) :
    Collected handler cleanups (log ++ [call]) where
  uncleaned := h.uncleaned.snoc hclean
  undisturbed := h.undisturbed.snoc hquiet
  records := by
    intro c hc record hcreated
    rcases List.mem_append.mp hc with hc | hc
    · exact h.records c hc record hcreated
    · rw [List.mem_singleton.mp hc, hcall] at hcreated
      cases hcreated
  other := fun hother => (h.other hother).snoc hcall

/-- A record is created, and its deletion is collected. -/
theorem Collected.create (h : Collected .dns01 cleanups log) (domain value : String) :
    Collected .dns01 (cleanups ++ [.deleteTxtRecord domain value])
      (log ++ [⟨.createTxtRecord domain value, .ok ()⟩]) where
  uncleaned := h.uncleaned.snoc (by simp)
  undisturbed := h.undisturbed.snoc fun hdisturbs => hdisturbs
  records := by
    intro c hc record hcreated
    rcases List.mem_append.mp hc with hc | hc
    · exact List.mem_append_left _ (h.records c hc record hcreated)
    · rw [List.mem_singleton.mp hc] at hcreated
      cases hcreated
      exact List.mem_append_right _ (List.mem_singleton.mpr rfl)
  other := fun hother => by cases hother

/-- An answer that disturbs the order ends it. -/
theorem Collected.abandoned (h : Collected handler cleanups log) (hcall : call.created = none)
    (hclean : ∀ cleanup, call.op ≠ .cleanUp cleanup) (hdisturbs : call.Disturbs) :
    Abandoned (log ++ [call]) :=
  ⟨h.uncleaned.snoc hclean, fun hundisturbed => (hundisturbed.recordless hdisturbs).snoc hcall⟩

/-- The collected cleanups finish an order. -/
theorem Collected.finished {ran : List CertCall} (h : Collected handler cleanups log)
    (hran : ran.map CertCall.op = cleanups.map .cleanUp) : Finished (log ++ ran) := by
  have hop : ∀ call ∈ ran, ∃ cleanup ∈ cleanups, call.op = .cleanUp cleanup := by
    intro call hcall
    have hmem : call.op ∈ cleanups.map CertOp.cleanUp := hran ▸ List.mem_map_of_mem hcall
    obtain ⟨cleanup, hcleanup, heq⟩ := List.mem_map.mp hmem
    exact ⟨cleanup, hcleanup, heq.symm⟩
  constructor
  · apply cleansUp_append
    · intro call hcall
      obtain ⟨cleanup, _, heq⟩ := hop call hcall
      exact CertCall.created_eq_none (by simp [heq])
    · intro call hcall record hcreated
      have hmem : CertOp.cleanUp (.deleteTxtRecord record.1 record.2) ∈ ran.map CertCall.op :=
        hran ▸ List.mem_map_of_mem (h.records call hcall record hcreated)
      obtain ⟨later, hlater, heq⟩ := List.mem_map.mp hmem
      exact ⟨later, hlater, heq⟩
  · apply h.undisturbed.append
    intro call hcall
    obtain ⟨cleanup, _, heq⟩ := hop call hcall
    exact CertCall.not_disturbs_of_cleanUp heq

/-- A quiet call after the cleanups. -/
theorem Finished.snoc (h : Finished log) (hcall : call.created = none)
    (hquiet : ¬ call.Disturbs) : Finished (log ++ [call]) :=
  ⟨h.1.append (by simpa [Recordless] using hcall), h.2.snoc hquiet⟩

/-- A call that was abandoned has cleaned up only if it was not disturbed. -/
theorem Abandoned.cleansUp_iff (h : Abandoned log) : CleansUp log ↔ Undisturbed log :=
  ⟨fun hclean => (h.1.recordless hclean).undisturbed,
    fun hundisturbed => (h.2 hundisturbed).cleansUp⟩

/-- So has a call that finished. -/
theorem Finished.cleansUp_iff (h : Finished log) : CleansUp log ↔ Undisturbed log :=
  ⟨fun _ => h.2, fun _ => h.1⟩

end Phases

/-! ## The procedures -/

section Procedures

variable {lib : Libraries} {self : CertManager} {handler : ChallengeHandler} {m : CertMemory}
  {log : List CertCall} {cleanups : List CleanupFuture} {α ε : Type}

/-- Weakest preconditions over logs. -/
abbrev Ending (Q : α → List CertCall → Prop) (E : List CertCall → Prop)
    (x : Proc CertOp CertOp.Answer CertMemory ε α) (m : CertMemory) (log : List CertCall) : Prop :=
  Sure Logged (fun _ => True) (fun a _ log => Q a log) (fun _ _ log => E log) x m log

/-- A call is logged, whatever it answers. -/
theorem logged_bind {β : Type} {op : CertOp} {Q : β → CertMemory → List CertCall → Prop}
    {E : ε → CertMemory → List CertCall → Prop}
    {f : op.Answer → Proc CertOp CertOp.Answer CertMemory ε β}
    (h : ∀ answer, Sure Logged (fun _ => True) Q E (f answer) m (log ++ [⟨op, answer⟩])) :
    Sure Logged (fun _ => True) Q E (ask op >>= f) m log := by
  apply sure_bind
  apply sure_ask
  intro answer log' hlog
  rw [hlog]
  exact ⟨trivial, h answer⟩

/-- After a fetched authorization the order is over, or one more cleanup is
collected. -/
theorem ending_handleAuthorization {url : String} {authz : Authorization}
    (h : Collected handler cleanups log) (hstatus : authz.status ≠ .valid) :
    Ending (fun cleanup log' => Collected handler (cleanups ++ [cleanup]) log') Abandoned
      (CertManager.handleAuthorization authz handler) m
      (log ++ [⟨.authorization url, .ok authz⟩]) := by
  cases handler with
  | other =>
      have hfresh : Fresh log := ⟨h.other rfl, h.uncleaned⟩
      have hfetched : Fresh (log ++ [⟨.authorization url, .ok authz⟩]) := hfresh.snoc rfl (by simp)
      refine logged_bind fun answer => ?_
      have hhandled : Fresh (log ++ [⟨.authorization url, .ok authz⟩] ++
          [⟨.handleAuthorization authz, answer⟩]) := hfetched.snoc rfl (by simp)
      exact sure_orFail (fun _ _ => hhandled.collected) fun _ _ => hhandled.abandoned
  | dns01 =>
      unfold CertManager.handleAuthorization
      cases hvalue : authz.dnsValue with
      | none => exact sure_throw (h.abandoned rfl (by simp) ⟨hstatus, hvalue⟩)
      | some digest =>
          have hfetched : Collected .dns01 cleanups (log ++ [⟨.authorization url, .ok authz⟩]) :=
            h.snoc rfl (by simp) (by simp [CertCall.Disturbs, hvalue])
          refine logged_bind fun answer => ?_
          cases answer with
          | error e => exact sure_bind (sure_throw (hfetched.abandoned rfl (by simp) trivial))
          | ok _ =>
              have hcreated := hfetched.create authz.identifier digest
              refine sure_bind (sure_pure (logged_bind fun answer => ?_))
              cases answer with
              | error e => exact sure_bind (sure_throw (hcreated.abandoned rfl (by simp) trivial))
              | ok _ => exact sure_bind (sure_pure (sure_pure (hcreated.snoc rfl (by simp) id)))

/-- The loop over the authorizations. -/
theorem ending_processAuthorizations (urls : List String) :
    ∀ {log cleanups} {m : CertMemory}, Collected handler cleanups log →
      Ending (fun collected log' => Collected handler (cleanups ++ collected) log') Abandoned
        (CertManager.processAuthorizations handler urls) m log := by
  induction urls with
  | nil =>
      intro log cleanups m h
      apply sure_pure
      simpa using h
  | cons url rest ih =>
      intro log cleanups m h
      refine logged_bind fun answer => ?_
      cases answer with
      | error e => exact sure_bind (sure_throw (h.abandoned rfl (by simp) trivial))
      | ok authz =>
          refine sure_bind (sure_pure ?_)
          split
          · rename_i hvalid
            exact ih (h.snoc rfl (by simp) fun hdisturbs => hdisturbs.1 hvalid)
          · rename_i hstatus
            apply sure_bind
            apply (ending_handleAuthorization h hstatus).mono
            · intro cleanup m' log' hcollected
              apply sure_bind
              apply (ih hcollected).mono
              · intro collected m'' log'' h''
                apply sure_pure
                rwa [List.append_assoc] at h''
              · exact fun _ _ _ habandoned => habandoned
            · exact fun _ _ _ habandoned => habandoned

/-- All cleanups are run, in order. -/
theorem ending_cleanUpAll (cleanups : List CleanupFuture) :
    ∀ {log} {m : CertMemory} {E : List CertCall → Prop},
      Ending (fun _ log' => ∃ ran : List CertCall, log' = log ++ ran ∧
        ran.map CertCall.op = cleanups.map .cleanUp) E (CertManager.cleanUpAll cleanups) m log := by
  induction cleanups with
  | nil => exact fun {log _ _} => sure_pure ⟨[], (List.append_nil log).symm, rfl⟩
  | cons cleanup rest ih =>
      intro log m E
      refine logged_bind fun answer => ?_
      apply ih.mono
      · intro _ _ log' hran
        obtain ⟨ran, hlog', hops⟩ := hran
        refine ⟨⟨.cleanUp cleanup, answer⟩ :: ran, ?_, by simp [hops]⟩
        rw [hlog', List.append_assoc, List.singleton_append]
      · exact fun _ _ _ h => h

/-- The polling of an order ends with its cleanups, unless it is abandoned before. -/
theorem ending_pollOrder {order : Order} (h : Collected handler cleanups log) :
    Ending (fun _ => Finished) (fun log' => Abandoned log' ∨ Finished log')
      (self.pollOrder order cleanups) m log := by
  refine logged_bind fun answer => ?_
  cases answer with
  | error e => exact sure_bind (sure_throw (.inl (h.abandoned rfl (by simp) trivial)))
  | ok state =>
      refine sure_bind (sure_pure (sure_bind ?_))
      have hpolled : Collected handler cleanups (log ++ [⟨.pollReady order, .ok state⟩]) :=
        h.snoc rfl (by simp) id
      apply (ending_cleanUpAll cleanups (E := fun log' => Abandoned log' ∨ Finished log')).mono
      · intro _ m' log' hran
        obtain ⟨ran, rfl, hops⟩ := hran
        have hfinished := hpolled.finished hops
        split
        · exact sure_pure hfinished
        · exact sure_throw (.inr hfinished)
      · exact fun _ _ _ h => h

/-- Calls that answer no challenge keep a fresh log. -/
theorem spares_fresh : Spares Logged Fresh (fun op => op.answersChallenge = false) where
  plain := fun _ hop _ => hop
  keeps := by
    intro op log answer log' hop hfresh hlog
    rw [hlog]
    refine hfresh.snoc (CertCall.plain hop).1 ?_
    intro cleanup hclean
    rw [show op = _ from hclean] at hop
    cases hop

/-- They keep a finished log too. -/
theorem spares_finished : Spares Logged Finished (fun op => op.answersChallenge = false) where
  plain := fun _ hop _ => hop
  keeps := by
    intro op log answer log' hop hfinished hlog
    rw [hlog]
    have hcall : (⟨op, answer⟩ : CertCall).created = none ∧ _ := CertCall.plain hop
    exact hfinished.snoc hcall.1 hcall.2

/-- What has finished stays finished in calls that answer no challenge. -/
theorem ending_finished {x : Proc CertOp CertOp.Answer CertMemory ε α}
    (hx : Frame Logged Finished CertMemory.active x) (h : Finished log) :
    Ending (fun _ => Finished) (fun log' => Abandoned log' ∨ Finished log') x m log :=
  hx.ends h (fun _ _ _ h' => h') fun _ _ _ h' => .inr h'

/-- An order of a certificate ends finished or abandoned. -/
theorem ending_orderCertificate {directoryUrl : String} (h : Fresh log) :
    Ending (fun _ => Finished) (fun log' => Abandoned log' ∨ Finished log')
      (self.orderCertificate lib handler directoryUrl) m log := by
  apply sure_bind
  apply (frame_acmeAccount spares_fresh rfl).ends h
  · intro account m₁ log₁ h₁
    refine logged_bind fun answer => ?_
    have hordered : Fresh (log₁ ++ [⟨.newOrder account self.domains, answer⟩]) :=
      h₁.snoc rfl (by simp)
    apply sure_bind
    apply sure_orFail
    · intro order _
      have hcollected : Collected handler [] _ := hordered.collected
      apply sure_bind
      apply (ending_processAuthorizations order.authorizations hcollected).mono
      · intro cleanups m₂ log₂ h₂
        apply sure_bind
        apply (ending_pollOrder h₂).mono
        · intro _ m₃ log₃ h₃
          refine ending_finished ?_ h₃
          apply frame_bind (frame_signingKeyPem spares_finished)
          intro keyPem
          apply frame_bind frame_orFail
          intro csr
          apply frame_bind (frame_plain spares_finished rfl (by simp))
          intro finalized
          apply frame_bind frame_orFail
          intro _
          apply frame_bind (frame_plain spares_finished rfl (by simp))
          intro polled
          exact frame_bind frame_orFail fun _ => frame_pure
        · exact fun _ _ _ h' => h'
      · exact fun _ _ _ h' => .inl h'
    · exact fun _ _ => .inl hordered.abandoned
  · exact fun _ _ _ h' => .inl h'.abandoned

/-- So does a whole request. -/
theorem ending_requestAcmeCertificate {directoryUrl : String} (h : Fresh log) :
    Ending (fun _ => Finished) (fun log' => Abandoned log' ∨ Finished log')
      (self.requestAcmeCertificate lib handler directoryUrl) m log := by
  apply sure_bind
  apply (ending_orderCertificate h).mono
  · intro ordered m₁ log₁ h₁
    apply sure_bind
    apply (ending_finished frame_orFail h₁).mono
    · intro parts m₂ log₂ h₂
      apply sure_bind
      have hstamp : Frame Logged Finished CertMemory.active
          (CertManager.newCertificateData parts.1 parts.2.1 parts.2.2) :=
        frame_bind (frame_plain spares_finished rfl (by simp)) fun _ => frame_pure
      apply (ending_finished hstamp h₂).mono
      · intro certData m₃ log₃ h₃
        apply sure_bind
        apply (ending_finished (frame_persistCertificateData spares_finished) h₃).mono
        · intro _ m₄ log₄ h₄
          apply sure_bind
          apply (ending_finished frame_cacheProvisionedChain h₄).mono
          · intro _ m₅ log₅ h₅
            apply sure_bind
            apply sure_bind
            apply sure_orFail
            · exact fun _ _ => sure_modify (sure_pure h₅)
            · exact fun _ _ => .inr h₅
          · exact fun _ _ _ h' => h'
        · exact fun _ _ _ h' => h'
      · exact fun _ _ _ h' => h'
    · exact fun _ _ _ h' => h'
  · exact fun _ _ _ h' => h'

end Procedures

/-- **Cleanup of challenge records.**  Whatever is answered, when
`request_acme_certificate` has ended every record it created has been attempted to be
deleted exactly when nothing disturbed the order after its first record. -/
theorem records_cleaned_up_iff (lib : Libraries) (self : CertManager) (handler : ChallengeHandler)
    (directoryUrl : String) (m m' : CertMemory) (result : Except CertError CertificateData)
    (log : List CertCall)
    (hrun : ((self.requestAcmeCertificate lib handler directoryUrl).start m).Reaches Logged []
      (.ret (result, m')) log) :
    CleansUp log ↔ Undisturbed log := by
  have hfresh : Fresh [] := ⟨by simp [Recordless], by simp [Uncleaned]⟩
  have hsure : Ending (fun _ => Finished) (fun log' => Abandoned log' ∨ Finished log')
      (self.requestAcmeCertificate lib handler directoryUrl) m [] :=
    ending_requestAcmeCertificate hfresh
  have hended : Abandoned log ∨ Finished log := by
    cases result with
    | ok certData => exact .inr (hsure.ended trivial hrun)
    | error e => exact hsure.failed trivial hrun
  obtain habandoned | hfinished := hended
  · exact habandoned.cleansUp_iff
  · exact hfinished.cleansUp_iff

section Samples

/-- A manager for two domains. -/
def twoDomains : CertManager where
  domains := ["a.example.com", "b.example.com"]
  email := ""
  organization := none
  eku := none
  strategy := .acme .dns01 "https://acme.example.com/directory"
  signingKeyTtl := 0
  domains_ne := by simp

/-- A memory with the ACME account of earlier orders. -/
def withAccount : CertMemory := { CertMemory.empty with acmeClient := some ⟨"1"⟩ }

/-- Answers by the number of calls made before: an order with two authorizations, the
first of them pending; the second one, the poll and the rest as given. -/
def orderAnswers (second : Except String Authorization) (polled : Except String OrderStatus)
    (calls : Nat) : (op : CertOp) → op.Answer
  | .store _ _ => .ok ()
  | .load _ => .ok none
  | .update _ _ => .ok ()
  | .delete _ => .ok ()
  | .readFile _ => .error "No such file or directory (os error 2)"
  | .nowUnixTimestamp => 0
  | .fillSeed => .error "no entropy"
  | .signingKeyExpired => true
  | .accountFromCredentials _ => .error "unused"
  | .createAccount _ _ => .error "unused"
  | .newOrder _ _ => .ok ⟨"order", ["first", "second"]⟩
  | .authorization _ => if calls = 1 then .ok ⟨.pending, "a.example.com", some "digest"⟩ else second
  | .handleAuthorization _ => .error (.other "unused")
  | .createTxtRecord _ _ => .ok ()
  | .setReady _ => .ok ()
  | .cleanUp _ => .ok ()
  | .pollReady _ => polled
  | .finalizeCsr _ _ => .ok ()
  | .pollCertificate _ => .error "unused"

/-- An order with these answers, and its log. -/
def orderLog (second : Except String Authorization) (polled : Except String OrderStatus) :
    (Except CertError CertificateData × CertMemory) × List CertCall :=
  (twoDomains.requestAcmeCertificate sampleLibraries .dns01
    "https://acme.example.com/directory").exec
    (fun op log => (orderAnswers second polled log.length op,
      log ++ [⟨op, orderAnswers second polled log.length op⟩])) withAccount []

/-- The sample order reaches its log. -/
theorem reaches_orderLog (second : Except String Authorization)
    (polled : Except String OrderStatus) :
    ((twoDomains.requestAcmeCertificate sampleLibraries .dns01
      "https://acme.example.com/directory").start withAccount).Reaches Logged []
      (.ret (orderLog second polled).1) (orderLog second polled).2 := by
  unfold orderLog Proc.exec
  exact Prog.reaches_exec (fun _ _ => rfl) _ _

/-- The calls of an order whose second authorization is valid and that becomes
invalid. -/
theorem orderLog_invalidated :
    (orderLog (.ok ⟨.valid, "b.example.com", none⟩) (.ok .invalid)).2 =
      [⟨.newOrder ⟨"1"⟩ twoDomains.domains, .ok ⟨"order", ["first", "second"]⟩⟩,
       ⟨.authorization "first", .ok ⟨.pending, "a.example.com", some "digest"⟩⟩,
       ⟨.createTxtRecord "a.example.com" "digest", .ok ()⟩,
       ⟨.setReady "a.example.com", .ok ()⟩,
       ⟨.authorization "second", .ok ⟨.valid, "b.example.com", none⟩⟩,
       ⟨.pollReady ⟨"order", ["first", "second"]⟩, .ok .invalid⟩,
       ⟨.cleanUp (.deleteTxtRecord "a.example.com" "digest"), .ok ()⟩] := rfl

/-- The calls of an order whose second authorization cannot be fetched. -/
theorem orderLog_timeout :
    (orderLog (.error "timeout") (.ok .ready)).2 =
      [⟨.newOrder ⟨"1"⟩ twoDomains.domains, .ok ⟨"order", ["first", "second"]⟩⟩,
       ⟨.authorization "first", .ok ⟨.pending, "a.example.com", some "digest"⟩⟩,
       ⟨.createTxtRecord "a.example.com" "digest", .ok ()⟩,
       ⟨.setReady "a.example.com", .ok ()⟩,
       ⟨.authorization "second", .error "timeout"⟩] := rfl

/-- The record of an order that becomes invalid is cleaned up. -/
theorem records_cleaned_up_iff_sample :
    (orderLog (.ok ⟨.valid, "b.example.com", none⟩) (.ok .invalid)).2.filterMap CertCall.created =
      [("a.example.com", "digest")] ∧
    CleansUp (orderLog (.ok ⟨.valid, "b.example.com", none⟩) (.ok .invalid)).2 := by
  refine ⟨by rw [orderLog_invalidated]; rfl, ?_⟩
  apply (records_cleaned_up_iff _ _ _ _ _ _ _ _ (reaches_orderLog _ _)).mpr
  rw [orderLog_invalidated]
  simp [Undisturbed, CertCall.created, CertCall.Disturbs]

/-- The record of the first authorization is left behind when the second one cannot be
fetched. -/
theorem challenge_record_left_behind :
    ((twoDomains.requestAcmeCertificate sampleLibraries .dns01
      "https://acme.example.com/directory").start withAccount).Reaches Logged []
      (.ret (orderLog (.error "timeout") (.ok .ready)).1)
      (orderLog (.error "timeout") (.ok .ready)).2 ∧
    ¬ CleansUp (orderLog (.error "timeout") (.ok .ready)).2 := by
  refine ⟨reaches_orderLog _ _, ?_⟩
  rw [orderLog_timeout]
  intro hclean
  obtain ⟨later, hlater, hdeletes⟩ := hclean [_, _] _ _ _ rfl rfl
  simp only [List.mem_cons, List.not_mem_nil, or_false] at hlater
  obtain rfl | rfl := hlater
  · cases hdeletes
  · cases hdeletes

end Samples

end StatusListServer
