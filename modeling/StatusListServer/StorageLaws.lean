import StatusListServer.CertMaterial
import StatusListServer.StorageAdapters

/-!
# What a storage adapter returns

A sequence of calls that all succeed, on an adapter that starts with nothing stored.
A load is to return what was last written under the normalised name of its key.

The map in memory does so for all keys.  An adapter with a cache knows an entry by the
key that it was read or written with: a load returns the value that its key is cached
with, and what was last written when there is none.  The two are the same unless the
name was changed through another key since the key was cached; without its cache an
adapter returns what was last written for all keys.  The adapter for AWS stores only
where there is no value and does not cache what it stores; it overwrites with `update`.
-/

namespace StatusListServer

open Interaction CachedMap

/-- A call that has succeeded, and the value that a load returned. -/
structure StorageEvent where
  call : StorageCall
  answer : Option String
deriving DecidableEq, Repr

/-- How a call may end in each state of an adapter. -/
abbrev StorageAdapter (S : Type) :=
  StorageCall → S → Except StorageError (Option String) → S → Prop

/-- Successful calls, one after the other. -/
inductive StorageAdapter.Sequence {S : Type} (adapter : StorageAdapter S) (s₀ : S) :
    List StorageEvent → S → Prop
  | nil : Sequence adapter s₀ [] s₀
  | snoc {done : List StorageEvent} {s s' : S} {call : StorageCall} {answer : Option String}
      (hdone : Sequence adapter s₀ done s) (hcall : adapter call s (.ok answer) s') :
      Sequence adapter s₀ (done ++ [⟨call, answer⟩]) s'

/-- The memory store, which has no cache and no requests. -/
def MemoryStorage.adapter (lib : Libraries) : StorageAdapter (String → Option String) :=
  fun call values result values' => MemoryStorage.perform lib values call = (result, values')

/-- An adapter on a backend: the state is its cache and the values of the backend. -/
def Storage.adapter {Op : Type} {Res : Op → Type} (storage : Storage Op Res)
    (backend : Answers Op Res (String → Option String)) :
    StorageAdapter (SecretCache × (String → Option String)) :=
  fun call s result s' =>
    ((storage.perform call).start s.1).Reaches backend s.2 (.ret (result, s'.1)) s'.2

/-! ## The law -/

section Law

variable (lib : Libraries)

/-- What a call is for the map of names; with `createOnly` a value that is there is
not stored over. -/
def StorageEvent.access (createOnly : Bool) (event : StorageEvent) : Access String String :=
  match event.call with
  | .store key value => if createOnly then .offer key value else .write key value
  | .load key => .read key event.answer
  | .update key value => .write key value
  | .delete key => .remove key

/-- The value that was last written under each name, and not deleted since. -/
def latest (createOnly : Bool) (done : List StorageEvent) : String → Option String :=
  replay (normalizeKey lib) (done.map (StorageEvent.access createOnly))

/-- Every load returned the value that its key was cached with, by the last write through
that key or the last load of it that found a value, unless the key was deleted since; and
the latest value of its name when the key was not cached. -/
def LoadsCached (createOnly enabled : Bool) (events : List StorageEvent) : Prop :=
  ∀ done key answer rest, events = done ++ ⟨.load key, answer⟩ :: rest →
    answer = loaded (normalizeKey lib) enabled (done.map (StorageEvent.access createOnly)) key

/-- Since a key was not cached, or was itself written, its name has not been overwritten or
deleted through another key. -/
def KeyCurrent (createOnly : Bool) (done : List StorageEvent) (key : String) : Prop :=
  Current (normalizeKey lib) (done.map (StorageEvent.access createOnly)) key

/-- Every load for which `trusted` holds of the calls before it returned the latest
value. -/
def LoadsLatest (createOnly : Bool) (trusted : List StorageEvent → String → Prop)
    (events : List StorageEvent) : Prop :=
  ∀ done key answer rest, events = done ++ ⟨.load key, answer⟩ :: rest → trusted done key →
    answer = latest lib createOnly done (normalizeKey lib key)

end Law

section Runs

variable {lib : Libraries} {createOnly enabled : Bool} {events : List StorageEvent}

/-- A further call keeps the property if it does not load, or loads what is cached. -/
theorem LoadsCached.snoc {call : StorageCall} {answer : Option String}
    (h : LoadsCached lib createOnly enabled events)
    (hlast : ∀ key, call = .load key → answer =
      loaded (normalizeKey lib) enabled (events.map (StorageEvent.access createOnly)) key) :
    LoadsCached lib createOnly enabled (events ++ [⟨call, answer⟩]) := by
  intro done key answer' rest heq
  rcases List.eq_nil_or_concat rest with rfl | ⟨rest, last, rfl⟩
  · obtain ⟨rfl, hevent⟩ := List.append_inj' heq rfl
    cases hevent
    exact hlast key rfl
  · rw [List.concat_eq_append, ← List.cons_append, ← List.append_assoc] at heq
    obtain ⟨rfl, -⟩ := List.append_inj' heq rfl
    exact h done key answer' rest rfl

/-- The accesses of such events are those of a cached map. -/
theorem LoadsCached.lawful (h : LoadsCached lib createOnly enabled events) :
    Lawful (normalizeKey lib) enabled (events.map (StorageEvent.access createOnly)) := by
  intro before key result after heq
  obtain ⟨done, rest, rfl, rfl, hrest⟩ := List.map_eq_append_iff.mp heq
  obtain ⟨⟨call, answer⟩, rest, rfl, hevent, rfl⟩ := List.map_eq_cons_iff.mp hrest
  cases call with
  | load key' =>
      cases hevent
      exact h done key answer rest rfl
  | store key' value =>
      simp only [StorageEvent.access] at hevent
      split at hevent <;> cases hevent
  | update key' value => cases hevent
  | delete key' => cases hevent

/-- **A load of a key that is current returns the latest value**, and so does every load
of an adapter without its cache. -/
theorem LoadsCached.loadsLatest (h : LoadsCached lib createOnly enabled events) :
    LoadsLatest lib createOnly
      (fun done key => enabled = false ∨ KeyCurrent lib createOnly done key) events := by
  intro done key answer rest heq htrusted
  have hanswer := h done key answer rest heq
  cases enabled with
  | false => exact hanswer
  | true =>
      have hcurrent := htrusted.resolve_left Bool.true_eq_false.mp
      have hdone : LoadsCached lib createOnly true done := by
        rintro before key' answer' after rfl
        exact h before key' answer' (after ++ ⟨.load key, answer⟩ :: rest) (by simp [heq])
      rw [hanswer, hcurrent.loaded_eq hdone.lawful, latest]

/-- A call after some others: the cache and the values are as they should be, and a load
has returned what it should. -/
def Answered (name : String → String) (createOnly enabled : Bool)
    (done : List StorageEvent) (call : StorageCall) (answer : Option String) (cache : SecretCache)
    (values : String → Option String) : Prop :=
  Backed name enabled
    ((done ++ [StorageEvent.mk call answer]).map (StorageEvent.access createOnly)) cache values ∧
  ∀ key, call = .load key →
    answer = loaded name enabled (done.map (StorageEvent.access createOnly)) key

/-- **From one call to all calls.**  The names of the backend are an encoding of the
normalised names. -/
theorem StorageAdapter.Sequence.loadsCached {S : Type} {adapter : StorageAdapter S}
    (cacheOf : S → SecretCache) (valuesOf : S → String → Option String) {encode : String → String}
    (hencode : Function.Injective encode) {s₀ s : S}
    (hstart : Backed (encode ∘ normalizeKey lib) enabled [] (cacheOf s₀) (valuesOf s₀))
    (hcall : ∀ done call s answer s',
      Backed (encode ∘ normalizeKey lib) enabled (done.map (StorageEvent.access createOnly))
        (cacheOf s) (valuesOf s) →
      adapter call s (.ok answer) s' →
      Answered (encode ∘ normalizeKey lib) createOnly enabled done call answer (cacheOf s')
        (valuesOf s'))
    (h : adapter.Sequence s₀ events s) :
    Backed (encode ∘ normalizeKey lib) enabled (events.map (StorageEvent.access createOnly))
      (cacheOf s) (valuesOf s) ∧
    LoadsCached lib createOnly enabled events := by
  induction h with
  | nil =>
      refine ⟨hstart, fun done key answer rest heq => ?_⟩
      simp at heq
  | @snoc done s s' call answer _ hstep ih =>
      obtain ⟨hbacked, hloads⟩ := ih
      obtain ⟨hbacked', hload⟩ := hcall done call s answer s' hbacked hstep
      refine ⟨hbacked', hloads.snoc fun key hkey => ?_⟩
      rw [hload key hkey, loaded_comp hencode]

end Runs

/-! ## The map in memory -/

/-- A call of the map in memory is the access it stands for. -/
theorem MemoryStorage.answered {lib : Libraries} {done : List StorageEvent} {call : StorageCall}
    {values values' : String → Option String} {answer : Option String}
    (h : Backed (normalizeKey lib) false (done.map (StorageEvent.access false)) none values)
    (hcall : MemoryStorage.adapter lib call values (.ok answer) values') :
    Answered (normalizeKey lib) false false done call answer none values' := by
  unfold Answered
  rw [List.map_append]
  cases call with
  | store key value =>
      cases hcall
      exact ⟨h.write key value, fun _ hload => by cases hload⟩
  | load key =>
      cases hcall
      refine ⟨h.read key _, fun _ hload => ?_⟩
      cases hload
      exact h.loaded_of_miss rfl
  | update key value =>
      cases hcall
      exact ⟨h.write key value, fun _ hload => by cases hload⟩
  | delete key =>
      cases hcall
      exact ⟨h.remove key, fun _ hload => by cases hload⟩

/-! ## Adapters with a cache -/

/-- A cache with nothing in it. -/
def emptyCache (enabled : Bool) : SecretCache := if enabled then some fun _ => none else none

/-- What a load leaves and returns. -/
def Loaded (name : String → String) (enabled : Bool) (history : List (Access String String))
    (key : String) (answer : Option String) (cache : SecretCache)
    (values : String → Option String) : Prop :=
  Backed name enabled (history ++ [.read key answer]) cache values ∧
  answer = loaded name enabled history key

section Loaded

variable {name : String → String} {enabled : Bool} {history : List (Access String String)}
  {cache : SecretCache} {values : String → Option String} {key : String}

/-- A value that was fetched is cached and returned. -/
theorem Loaded.of_found (h : Backed name enabled history cache values)
    (hmiss : cache.get key = none) {value : String} (hvalue : values (name key) = some value) :
    Loaded name enabled history key (some value) (cache.insert key value) values :=
  ⟨h.fill key value, by rw [← hvalue, h.loaded_of_miss hmiss]⟩

/-- Where there is no value, nothing is cached. -/
theorem Loaded.of_missing (h : Backed name enabled history cache values)
    (hmiss : cache.get key = none) (hvalue : values (name key) = none) :
    Loaded name enabled history key none cache values :=
  ⟨h.miss key, by rw [← hvalue, h.loaded_of_miss hmiss]⟩

end Loaded

section Keeps

open Proc

variable {Op : Type} {Res : Op → Type}

/-- On this backend, every successful call of the adapter is the access it stands
for. -/
structure Storage.Keeps (storage : Storage Op Res)
    (backend : Answers Op Res (String → Option String)) (name : String → String)
    (createOnly : Bool) : Prop where
  store {enabled : Bool} {history : List (Access String String)} {cache : SecretCache}
    {values : String → Option String} (h : Backed name enabled history cache values)
    (key value : String) :
    Sure backend (fun _ => True)
      (fun _ => Backed name enabled
        (history ++ [if createOnly then .offer key value else .write key value]))
      (fun _ _ _ => True) (storage.store key value) cache values
  load {enabled : Bool} {history : List (Access String String)} {cache : SecretCache}
    {values : String → Option String} (h : Backed name enabled history cache values)
    (key : String) :
    Sure backend (fun _ => True) (Loaded name enabled history key) (fun _ _ _ => True)
      (storage.load key) cache values
  update {enabled : Bool} {history : List (Access String String)} {cache : SecretCache}
    {values : String → Option String} (h : Backed name enabled history cache values)
    (key value : String) :
    Sure backend (fun _ => True)
      (fun _ => Backed name enabled (history ++ [.write key value]))
      (fun _ _ _ => True) (storage.update key value) cache values
  delete {enabled : Bool} {history : List (Access String String)} {cache : SecretCache}
    {values : String → Option String} (h : Backed name enabled history cache values)
    (key : String) :
    Sure backend (fun _ => True) (fun _ => Backed name enabled (history ++ [.remove key]))
      (fun _ _ _ => True) (storage.delete key) cache values

variable {storage : Storage Op Res} {backend : Answers Op Res (String → Option String)}
  {name : String → String} {createOnly enabled : Bool} {done : List StorageEvent}
  {cache : SecretCache} {values : String → Option String}

/-- A cached value is returned at once; another one is fetched. -/
theorem sure_cachedOr {history : List (Access String String)} {key : String}
    {fetch : Proc Op Res SecretCache StorageError (Option String)}
    (h : Backed name enabled history cache values)
    (hfetch : cache.get key = none → Sure backend (fun _ => True)
      (Loaded name enabled history key) (fun _ _ _ => True) fetch cache values) :
    Sure backend (fun _ => True) (Loaded name enabled history key) (fun _ _ _ => True)
      (do
        match (← get).get key with
        | some value => return some value
        | none => fetch) cache values := by
  refine sure_bind (sure_get ?_)
  split
  · next value hcached => exact sure_pure ⟨h.hit hcached, h.loaded_of_get hcached⟩
  · next hmiss => exact hfetch hmiss

/-- Any call of a store that keeps its cache backed answers from it. -/
theorem Storage.Keeps.sure_perform (hkeeps : storage.Keeps backend name createOnly)
    (h : Backed name enabled (done.map (StorageEvent.access createOnly)) cache values)
    (call : StorageCall) :
    Sure backend (fun _ => True) (Answered name createOnly enabled done call)
      (fun _ _ _ => True) (storage.perform call) cache values := by
  unfold Answered
  simp only [List.map_append]
  cases call with
  | store key value =>
      refine sure_bind ((hkeeps.store h key value).mono ?_ fun _ _ _ _ => trivial)
      exact fun _ _ _ hheld => sure_pure ⟨hheld, fun _ hload => by cases hload⟩
  | load key =>
      refine (hkeeps.load h key).mono ?_ fun _ _ _ _ => trivial
      rintro answer cache' values' ⟨hheld, hanswer⟩
      refine ⟨hheld, fun key' hload => ?_⟩
      cases hload
      exact hanswer
  | update key value =>
      refine sure_bind ((hkeeps.update h key value).mono ?_ fun _ _ _ _ => trivial)
      exact fun _ _ _ hheld => sure_pure ⟨hheld, fun _ hload => by cases hload⟩
  | delete key =>
      refine sure_bind ((hkeeps.delete h key).mono ?_ fun _ _ _ _ => trivial)
      exact fun _ _ _ hheld => sure_pure ⟨hheld, fun _ hload => by cases hload⟩

/-- **An adapter that keeps its backend returns what is cached, or else the latest.** -/
theorem Storage.Keeps.loadsCached {lib : Libraries} {encode : String → String}
    (hencode : Function.Injective encode)
    (hkeeps : storage.Keeps backend (encode ∘ normalizeKey lib) createOnly)
    {events : List StorageEvent} {s : SecretCache × (String → Option String)}
    (h : (storage.adapter backend).Sequence (emptyCache enabled, fun _ => none) events s) :
    LoadsCached lib createOnly enabled events := by
  refine (h.loadsCached Prod.fst Prod.snd hencode backed_nil ?_).2
  intro done call s answer s' hbacked hcall
  exact (hkeeps.sure_perform hbacked call).ended trivial hcall

end Keeps

/-! ## Vault and OpenBao -/

namespace VaultClient

open Proc

variable {client : VaultClient} {lib : Libraries} {enabled : Bool}
  {history : List (Access String String)} {cache : SecretCache} {values : String → Option String}

/-- The token comes from elsewhere; the stored values do not change meanwhile. -/
theorem sure_addAuthHeaders_bind {α : Type} {f : Unit → M α}
    {Q : α → SecretCache → (String → Option String) → Prop}
    (h : Sure Truthful (fun _ => True) Q (fun _ _ _ => True) (f ()) cache values) :
    Sure Truthful (fun _ => True) Q (fun _ _ _ => True) (addAuthHeaders >>= f) cache values := by
  refine sure_bind (sure_request_ok fun r values' a henv _ => ?_)
  cases henv
  exact h

/-- A store writes the value. -/
theorem sure_store (h : Backed (client.qualifyKey lib) enabled history cache values)
    (key value : String) :
    Sure Truthful (fun _ => True)
      (fun _ => Backed (client.qualifyKey lib) enabled (history ++ [.write key value]))
      (fun _ _ _ => True) (client.store lib key value) cache values := by
  refine sure_addAuthHeaders_bind (sure_bind (sure_request_ok fun reply values' _ henv hread => ?_))
  refine sure_modify ?_
  cases reply with
  | failed message => cases hread
  | response status text json =>
      simp only [readStored] at hread
      split at hread
      · next hsuccess =>
          rw [henv hsuccess]
          exact h.write key value
      · split at hread <;> cases hread

/-- A load that misses the cache reads the stored value, and caches one that it finds. -/
theorem sure_fetch (h : Backed (client.qualifyKey lib) enabled history cache values)
    (key : String) (hmiss : cache.get key = none) :
    Sure Truthful (fun _ => True) (Loaded (client.qualifyKey lib) enabled history key)
      (fun _ _ _ => True) (client.fetch lib key) cache values := by
  refine sure_addAuthHeaders_bind
    (sure_bind (sure_request_ok fun reply values' answer henv hread => ?_))
  obtain ⟨rfl, henv⟩ := henv
  cases reply with
  | failed message => cases hread
  | response status text json =>
      obtain ⟨hfound, hmissing⟩ := henv
      simp only [readLoaded] at hread
      split at hread
      · next hcode =>
          cases json with
          | error message => cases hread
          | ok value =>
              cases hread
              exact sure_bind (sure_modify (sure_pure (.of_found h hmiss (hfound hcode value rfl))))
      · split at hread
        · next hcode =>
            cases hread
            exact sure_pure (.of_missing h hmiss (hmissing hcode))
        · split at hread <;> cases hread

/-- A load answers from the cache, or fetches. -/
theorem sure_load (h : Backed (client.qualifyKey lib) enabled history cache values)
    (key : String) :
    Sure Truthful (fun _ => True) (Loaded (client.qualifyKey lib) enabled history key)
      (fun _ _ _ => True) (client.load lib key) cache values :=
  sure_cachedOr h (sure_fetch h key)

/-- A deletion removes the value. -/
theorem sure_delete (h : Backed (client.qualifyKey lib) enabled history cache values)
    (key : String) :
    Sure Truthful (fun _ => True)
      (fun _ => Backed (client.qualifyKey lib) enabled (history ++ [.remove key]))
      (fun _ _ _ => True) (client.delete lib key) cache values := by
  refine sure_addAuthHeaders_bind (sure_bind (sure_request_ok fun reply values' _ henv hread => ?_))
  refine sure_modify ?_
  cases reply with
  | failed message => cases hread
  | response status text json =>
      simp only [readDeleted] at hread
      split at hread
      · next hgone =>
          rw [henv (by simpa using hgone)]
          exact h.remove key
      · split at hread <;> cases hread

/-- All calls keep the cache backed. -/
theorem keeps (client : VaultClient) (lib : Libraries) :
    (client.storage lib).Keeps Truthful (client.qualifyKey lib) false where
  store := sure_store
  load := sure_load
  update := sure_store
  delete := sure_delete

end VaultClient

/-! ## AWS Secrets Manager -/

namespace AwsSecretsManager

open Proc

variable {lib : Libraries} {enabled : Bool} {history : List (Access String String)}
  {cache : SecretCache} {values : String → Option String}

/-- A store offers the value: it is kept if there was none. -/
theorem sure_store (h : Backed (normalizeKey lib) enabled history cache values)
    (name data : String) :
    Sure Truthful (fun _ => True)
      (fun _ => Backed (normalizeKey lib) enabled (history ++ [.offer name data]))
      (fun _ _ _ => True) (store lib name data) cache values := by
  have hoffer := h.offer name data
  refine sure_bind (sure_request_ok fun result values' found henv hread => ?_)
  obtain ⟨rfl, henv⟩ := henv
  cases result with
  | ok a =>
      cases hread
      rw [apply, if_pos henv] at hoffer
      exact sure_pure hoffer
  | resourceNotFound message =>
      cases hread
      refine sure_request_ok fun result values' _ hcreated hread => ?_
      rw [apply, henv] at hoffer
      cases result with
      | ok a => exact hcreated ▸ hoffer
      | resourceNotFound message => cases hread
      | failed message => cases hread
  | failed message => cases hread

/-- A load that misses the cache reads the stored value, and caches one that it finds. -/
theorem sure_fetch (h : Backed (normalizeKey lib) enabled history cache values) (name : String)
    (hmiss : cache.get name = none) :
    Sure Truthful (fun _ => True) (Loaded (normalizeKey lib) enabled history name)
      (fun _ _ _ => True) (fetch lib name) cache values := by
  refine sure_bind (sure_request_ok fun result values' found henv hread => ?_)
  obtain ⟨rfl, henv⟩ := henv
  cases result with
  | ok value =>
      cases hread
      cases value with
      | some secretString => exact sure_bind (sure_modify (sure_pure (.of_found h hmiss henv)))
      | none => exact sure_pure (.of_missing h hmiss henv)
  | resourceNotFound message =>
      cases hread
      exact sure_pure (.of_missing h hmiss henv)
  | failed message => cases hread

/-- A load answers from the cache, or fetches. -/
theorem sure_load (h : Backed (normalizeKey lib) enabled history cache values) (name : String) :
    Sure Truthful (fun _ => True) (Loaded (normalizeKey lib) enabled history name)
      (fun _ _ _ => True) (load lib name) cache values :=
  sure_cachedOr h (sure_fetch h name)

/-- An update writes the value. -/
theorem sure_update (h : Backed (normalizeKey lib) enabled history cache values)
    (name data : String) :
    Sure Truthful (fun _ => True)
      (fun _ => Backed (normalizeKey lib) enabled (history ++ [.write name data]))
      (fun _ _ _ => True) (update lib name data) cache values := by
  refine sure_bind (sure_request_ok fun result values' _ henv hread => sure_modify ?_)
  cases result with
  | ok a => exact henv ▸ h.write name data
  | resourceNotFound message => cases hread
  | failed message => cases hread

/-- A deletion removes the value. -/
theorem sure_delete (h : Backed (normalizeKey lib) enabled history cache values) (name : String) :
    Sure Truthful (fun _ => True)
      (fun _ => Backed (normalizeKey lib) enabled (history ++ [.remove name]))
      (fun _ _ _ => True) (delete lib name) cache values := by
  refine sure_bind (sure_request_ok fun result values' _ henv hread => sure_modify ?_)
  cases result with
  | ok a => exact henv ▸ h.remove name
  | resourceNotFound message => cases hread
  | failed message => cases hread

/-- All calls keep the cache backed. -/
theorem keeps (lib : Libraries) : (storage lib).Keeps Truthful (normalizeKey lib) true where
  store := sure_store
  load := sure_load
  update := sure_update
  delete := sure_delete

end AwsSecretsManager

/-! ## The law of each adapter -/

/-- **What loads return.**  The map in memory returns the latest value for all keys.
Vault and AWS return the value that a key is cached with and else the latest value: the
latest for all keys when their cache is disabled, and otherwise for every key that is
current.  On AWS a store counts only where there is no value. -/
theorem adapters_load_latest (lib : Libraries) :
    (∀ events values, (MemoryStorage.adapter lib).Sequence (fun _ => none) events values →
      LoadsLatest lib false (fun _ _ => True) events) ∧
    (∀ (client : VaultClient) (cacheEnabled : Bool) events s,
      ((client.storage lib).adapter VaultClient.Truthful).Sequence
        (emptyCache cacheEnabled, fun _ => none) events s →
      LoadsCached lib false cacheEnabled events ∧ LoadsLatest lib false
        (fun done key => cacheEnabled = false ∨ KeyCurrent lib false done key) events) ∧
    (∀ (cacheEnabled : Bool) events s,
      ((AwsSecretsManager.storage lib).adapter AwsSecretsManager.Truthful).Sequence
        (emptyCache cacheEnabled, fun _ => none) events s →
      LoadsCached lib true cacheEnabled events ∧ LoadsLatest lib true
        (fun done key => cacheEnabled = false ∨ KeyCurrent lib true done key) events) := by
  refine ⟨fun events values h => ?_, fun client cacheEnabled events s h => ?_,
    fun cacheEnabled events s h => ?_⟩
  · have hstart : Backed (id ∘ normalizeKey lib) false [] (none : SecretCache) fun _ => none :=
      backed_nil
    have hloads := (h.loadsCached (fun _ => none) id Function.injective_id hstart
      fun done call s answer s' hbacked hcall => MemoryStorage.answered hbacked hcall).2
    exact fun done key answer rest heq _ => hloads done key answer rest heq
  · have hencode := VaultClient.encodePath_injective.comp client.rawPath_injective
    have hloads := (client.keeps lib).loadsCached hencode h
    exact ⟨hloads, hloads.loadsLatest⟩
  · have hloads := (AwsSecretsManager.keeps lib).loadsCached Function.injective_id h
    exact ⟨hloads, hloads.loadsLatest⟩

/-! ## Executions -/

/-- A Vault that is up and lets the client in. -/
def VaultClient.answer : (op : VaultClient.Op) → (String → Option String) →
    op.Answer × (String → Option String)
  | .authHeaders, values => (.ok (), values)
  | .postData path value, values =>
      (.response ⟨200, "OK"⟩ "" (.ok ()), Function.update values path (some value))
  | .getData path, values =>
      match values path with
      | some value => (.response ⟨200, "OK"⟩ "" (.ok value), values)
      | none => (.response ⟨404, "Not Found"⟩ "" (.error "missing field"), values)
  | .deleteMetadata path, values =>
      (.response ⟨204, "No Content"⟩ "" (.ok ()), Function.update values path none)

/-- The sample server answers truthfully. -/
theorem VaultClient.truthful_answer (op : VaultClient.Op) (values : String → Option String) :
    VaultClient.Truthful op values (VaultClient.answer op values).1
      (VaultClient.answer op values).2 := by
  cases op with
  | authHeaders => rfl
  | postData path value => exact fun _ => rfl
  | getData path => cases hvalue : values path <;> simp [answer, Truthful, hvalue]
  | deleteMetadata path => exact fun _ => rfl

/-- A service that is up; it changes and deletes only secrets that it has. -/
def AwsSecretsManager.answer : (op : AwsSecretsManager.Op) → (String → Option String) →
    op.Answer × (String → Option String)
  | .describeSecret name, values =>
      match values name with
      | some _ => (.ok (), values)
      | none => (.resourceNotFound "not found", values)
  | .createSecret name value, values =>
      (.ok (), Function.update values name (some value))
  | .getSecretValue name, values =>
      match values name with
      | some value => (.ok (some value), values)
      | none => (.resourceNotFound "not found", values)
  | .putSecretValue name value, values =>
      match values name with
      | some _ => (.ok (), Function.update values name (some value))
      | none => (.resourceNotFound "not found", values)
  | .deleteSecret name, values =>
      match values name with
      | some _ => (.ok (), Function.update values name none)
      | none => (.resourceNotFound "not found", values)

/-- The sample service answers truthfully. -/
theorem AwsSecretsManager.truthful_answer (op : AwsSecretsManager.Op)
    (values : String → Option String) :
    AwsSecretsManager.Truthful op values (AwsSecretsManager.answer op values).1
      (AwsSecretsManager.answer op values).2 := by
  cases op with
  | describeSecret name => cases hvalue : values name <;> simp [answer, Truthful, hvalue]
  | createSecret name value => rfl
  | getSecretValue name => cases hvalue : values name <;> simp [answer, Truthful, hvalue]
  | putSecretValue name value => cases hvalue : values name <;> simp [answer, Truthful, hvalue]
  | deleteSecret name => cases hvalue : values name <;> simp [answer, Truthful, hvalue]

section Executions

variable {Op : Type} {Res : Op → Type} {τ : Type} (storage : Storage Op Res)
  (handle : (op : Op) → τ → Res op × τ)

/-- Make a call and see that it gives the expected answer. -/
def Storage.expect (s : SecretCache × τ) (event : StorageEvent) : Option (SecretCache × τ) :=
  match (storage.perform event.call).exec handle s.1 s.2 with
  | ((.ok answer, cache), t) => if answer = event.answer then some (cache, t) else none
  | ((.error _, _), _) => none

variable {storage handle}

/-- Calls with the expected answers are a sequence, on a backend of which the values are a
view. -/
theorem Storage.sequence_of_expect {backend : Answers Op Res (String → Option String)}
    (view : τ → String → Option String)
    (hallow : ∀ op t, backend op (view t) (handle op t).1 (view (handle op t).2))
    {s₀ s : SecretCache × τ} {events : List StorageEvent}
    (h : events.foldlM (storage.expect handle) s₀ = some s) :
    (storage.adapter backend).Sequence (s₀.1, view s₀.2) events (s.1, view s.2) := by
  induction events using List.reverseRecOn generalizing s with
  | nil =>
      cases h
      exact .nil
  | append_singleton done event ih =>
      rw [List.foldlM_append] at h
      obtain ⟨middle, hdone, h⟩ := Option.bind_eq_some_iff.mp h
      rw [List.foldlM_cons] at h
      obtain ⟨last, hlast, h⟩ := Option.bind_eq_some_iff.mp h
      cases h
      unfold Storage.expect at hlast
      split at hlast
      · next answer cache t hexec =>
          split at hlast
          · next hanswer =>
              cases hlast
              subst hanswer
              exact .snoc (ih hdone) (Proc.reaches_exec_view hallow hexec)
          · cases hlast
      · cases hlast

end Executions

/-- The sample adapters, with their caches and nothing stored. -/
def sampleVault : Storage VaultClient.Op VaultClient.Op.Answer :=
  (VaultClient.mk "tls").storage sampleLibraries

/-- The sample AWS store, with its cache. -/
def sampleAws : Storage AwsSecretsManager.Op AwsSecretsManager.Op.Answer :=
  AwsSecretsManager.storage sampleLibraries

/-- An empty cache over an empty store. -/
def nothingStored : SecretCache × (String → Option String) := (emptyCache true, fun _ => none)

/-- A second store of the same key. -/
def storedTwice : List StorageEvent :=
  [⟨.store "key" "old", none⟩, ⟨.store "key" "new", none⟩, ⟨.load "key", some "old"⟩]

/-- Two keys of one name, one of them cached while the other is written. -/
def readThroughAlias : List StorageEvent :=
  [⟨.store "a.b" "old", none⟩, ⟨.load "a-b", some "old"⟩, ⟨.update "a.b" "new", none⟩,
    ⟨.load "a-b", some "old"⟩]

/-- A store that succeeds and lands, of a key that is still cached with a deleted value. -/
def storedOverCached : List StorageEvent :=
  [⟨.store "a.b" "old", none⟩, ⟨.load "a-b", some "old"⟩, ⟨.delete "a.b", none⟩,
    ⟨.store "a-b" "new", none⟩, ⟨.load "a-b", some "old"⟩]

/-- A value that is stored, overwritten, read through two keys and deleted. -/
def rewritten : List StorageEvent :=
  [⟨.store "a.b" "old", none⟩, ⟨.update "a.b" "new", none⟩, ⟨.load "a-b", some "new"⟩,
    ⟨.load "a.b", some "new"⟩, ⟨.delete "a.b", none⟩, ⟨.load "a.b", none⟩]

/-- The sample sequences run as their events say. -/
theorem sample_executions :
    ((storedTwice.foldlM (sampleAws.expect AwsSecretsManager.answer) nothingStored).isSome ∧
      (readThroughAlias.foldlM (sampleAws.expect AwsSecretsManager.answer) nothingStored).isSome ∧
      (storedOverCached.foldlM (sampleAws.expect AwsSecretsManager.answer) nothingStored).isSome ∧
      (rewritten.foldlM (sampleAws.expect AwsSecretsManager.answer) nothingStored).isSome ∧
      (readThroughAlias.foldlM (sampleVault.expect VaultClient.answer) nothingStored).isSome ∧
      (rewritten.foldlM (sampleVault.expect VaultClient.answer) nothingStored).isSome) ∧
    latest sampleLibraries false (storedTwice.take 2) (normalizeKey sampleLibraries "key") =
      some "new" ∧
    latest sampleLibraries false (readThroughAlias.take 3) (normalizeKey sampleLibraries "a-b") =
      some "new" ∧
    latest sampleLibraries true (storedOverCached.take 4) (normalizeKey sampleLibraries "a-b") =
      some "new" := by
  decide +kernel

/-- A sequence that runs on the sample service is one of the AWS store. -/
theorem exists_sequence_aws {events : List StorageEvent}
    (h : (events.foldlM (sampleAws.expect AwsSecretsManager.answer) nothingStored).isSome) :
    ∃ s, (sampleAws.adapter AwsSecretsManager.Truthful).Sequence nothingStored events s := by
  obtain ⟨s, hs⟩ := Option.isSome_iff_exists.mp h
  exact ⟨_, Storage.sequence_of_expect id AwsSecretsManager.truthful_answer hs⟩

/-- A sequence that runs on the sample server is one of the Vault store. -/
theorem exists_sequence_vault {events : List StorageEvent}
    (h : (events.foldlM (sampleVault.expect VaultClient.answer) nothingStored).isSome) :
    ∃ s, (sampleVault.adapter VaultClient.Truthful).Sequence nothingStored events s := by
  obtain ⟨s, hs⟩ := Option.isSome_iff_exists.mp h
  exact ⟨_, Storage.sequence_of_expect id VaultClient.truthful_answer hs⟩

/-- The theorem at calls that store, overwrite, read through two keys and delete. -/
theorem adapters_load_latest_rewritten :
    (∃ s, (sampleVault.adapter VaultClient.Truthful).Sequence nothingStored rewritten s ∧
      LoadsCached sampleLibraries false true rewritten ∧ LoadsLatest sampleLibraries false
        (fun done key => true = false ∨ KeyCurrent sampleLibraries false done key) rewritten) ∧
    ∃ s, (sampleAws.adapter AwsSecretsManager.Truthful).Sequence nothingStored rewritten s ∧
      LoadsCached sampleLibraries true true rewritten ∧ LoadsLatest sampleLibraries true
        (fun done key => true = false ∨ KeyCurrent sampleLibraries true done key) rewritten := by
  obtain ⟨⟨-, -, -, haws, -, hvault⟩, -⟩ := sample_executions
  obtain ⟨s, hs⟩ := exists_sequence_vault hvault
  obtain ⟨s', hs'⟩ := exists_sequence_aws haws
  exact ⟨⟨s, hs, (adapters_load_latest sampleLibraries).2.1 ⟨"tls"⟩ true rewritten s hs⟩,
    s', hs', (adapters_load_latest sampleLibraries).2.2 true rewritten s' hs'⟩

/-- **The adapters are not plain maps over the normalised names.**  On AWS a second
`store` succeeds and the old value stays; on both AWS and Vault a key that is cached is
read from the cache after its name was written through another key; and on AWS it still
is after it was itself stored again. -/
theorem adapters_not_plain_maps :
    ((∃ s, (sampleAws.adapter AwsSecretsManager.Truthful).Sequence nothingStored storedTwice s) ∧
      ¬ LoadsLatest sampleLibraries false (fun _ _ => True) storedTwice) ∧
    (∃ s, (sampleAws.adapter AwsSecretsManager.Truthful).Sequence nothingStored
      readThroughAlias s) ∧
    (∃ s, (sampleVault.adapter VaultClient.Truthful).Sequence nothingStored readThroughAlias s) ∧
    ¬ LoadsLatest sampleLibraries false (fun _ _ => True) readThroughAlias ∧
    (∃ s, (sampleAws.adapter AwsSecretsManager.Truthful).Sequence nothingStored
      storedOverCached s) ∧
    ¬ LoadsLatest sampleLibraries true (fun _ _ => True) storedOverCached := by
  obtain ⟨⟨htwice, haws, hover, -, hvault, -⟩, hkey, halias, hstored⟩ := sample_executions
  refine ⟨⟨exists_sequence_aws htwice, fun h => ?_⟩, exists_sequence_aws haws,
    exists_sequence_vault hvault, fun h => ?_, exists_sequence_aws hover, fun h => ?_⟩
  · have hloaded := h (storedTwice.take 2) "key" (some "old") [] rfl trivial
    rw [hkey] at hloaded
    simp at hloaded
  · have hloaded := h (readThroughAlias.take 3) "a-b" (some "old") [] rfl trivial
    rw [halias] at hloaded
    simp at hloaded
  · have hloaded := h (storedOverCached.take 4) "a-b" (some "old") [] rfl trivial
    rw [hstored] at hloaded
    simp at hloaded

end StatusListServer
