import Mathlib.Logic.Function.Basic
import Mathlib.Data.List.Induction

/-!
# A map behind a cache whose keys have aliases

The entries of a map are found by the name of a key, and several keys may have one
name.  A cache in front of the map is indexed by the key itself.  What the map holds
is the replay of the accesses so far.

A write through a key renews its entry, a removal drops it and a read that found a
value fills it; an offer leaves the cache alone.  So what the cache holds is a replay
too (`cached`), and a read returns the entry of its key, or else what the map holds.
The two are the same as long as the name has not been changed through another key
since the entry was filled.
-/

namespace CachedMap

variable {κ ν V : Type}

/-- An access that has been performed.  An offer writes only where there is no
value. -/
inductive Access (κ V : Type)
  | write (key : κ) (value : V)
  | offer (key : κ) (value : V)
  | remove (key : κ)
  | read (key : κ) (result : Option V)
deriving DecidableEq, Repr

section Replay

variable [DecidableEq ν] (name : κ → ν)

/-- The map after an access. -/
def apply (values : ν → Option V) : Access κ V → ν → Option V
  | .write key value => Function.update values (name key) (some value)
  | .offer key value =>
      if (values (name key)).isSome then values
      else Function.update values (name key) (some value)
  | .remove key => Function.update values (name key) none
  | .read _ _ => values

/-- The map after some accesses, empty at first. -/
def replay (history : List (Access κ V)) : ν → Option V :=
  history.foldl (apply name) fun _ => none

/-- One more access. -/
@[simp] theorem replay_snoc (history : List (Access κ V)) (access : Access κ V) :
    replay name (history ++ [access]) = apply name (replay name history) access := by
  simp [replay]

/-- Names may be renamed without an effect on what is stored under them. -/
theorem replay_comp {ν' : Type} [DecidableEq ν'] {g : ν → ν'} (hg : Function.Injective g)
    (history : List (Access κ V)) (n : ν) :
    replay (g ∘ name) history (g n) = replay name history n := by
  induction history using List.reverseRecOn generalizing n with
  | nil => rfl
  | append_singleton history access ih =>
      simp only [replay_snoc]
      cases access with
      | write key value => simp [apply, Function.update_apply, hg.eq_iff, ih]
      | offer key value =>
          simp only [apply, Function.comp_apply, ih]
          split
          · exact ih n
          · simp [Function.update_apply, hg.eq_iff, ih]
      | remove key => simp [apply, Function.update_apply, hg.eq_iff, ih]
      | read key result => exact ih n

end Replay

/-! ## The cache -/

/-- A cache that may be disabled. -/
abbrev Cache (κ V : Type) := Option (κ → Option V)

/-- Look a key up. -/
def Cache.get (cache : Cache κ V) (key : κ) : Option V := cache.bind fun entries => entries key

/-- Put a value in, if the cache is enabled. -/
def Cache.insert [DecidableEq κ] (cache : Cache κ V) (key : κ) (value : V) : Cache κ V :=
  cache.map fun entries => Function.update entries key (some value)

/-- Take a key out. -/
def Cache.invalidate [DecidableEq κ] (cache : Cache κ V) (key : κ) : Cache κ V :=
  cache.map fun entries => Function.update entries key none

section Contents

variable [DecidableEq κ]

/-- The entries of a cache that keeps everything, after an access. -/
def refill (entries : κ → Option V) : Access κ V → κ → Option V
  | .write key value => Function.update entries key (some value)
  | .offer _ _ => entries
  | .remove key => Function.update entries key none
  | .read key (some value) => Function.update entries key (some value)
  | .read _ none => entries

/-- The entries after some accesses, none at first. -/
def cached (history : List (Access κ V)) : κ → Option V :=
  history.foldl refill fun _ => none

/-- One more access. -/
@[simp] theorem cached_snoc (history : List (Access κ V)) (access : Access κ V) :
    cached (history ++ [access]) = refill (cached history) access := by
  simp [cached]

/-- The cache after some accesses. -/
def kept (enabled : Bool) (history : List (Access κ V)) : Cache κ V :=
  if enabled then some (cached history) else none

/-- An enabled cache has what is cached. -/
theorem get_kept (history : List (Access κ V)) (key : κ) :
    (kept true history).get key = cached history key := rfl

variable [DecidableEq ν] (name : κ → ν)

/-- What a read of a key returns: its entry, or else what the map holds. -/
def loaded (enabled : Bool) (history : List (Access κ V)) (key : κ) : Option V :=
  ((kept enabled history).get key).or (replay name history (name key))

/-- Every read has returned what it should. -/
def Lawful (enabled : Bool) (history : List (Access κ V)) : Prop :=
  ∀ before key result after, history = before ++ .read key result :: after →
    result = loaded name enabled before key

end Contents

/-! ## True entries -/

section Current

/-- The access does not overwrite or remove the name of the key through another key. -/
def Access.Spares (name : κ → ν) (access : Access κ V) (key : κ) : Prop :=
  ∀ other, (∃ value, access = .write other value) ∨ access = .remove other →
    name other = name key → other = key

variable [DecidableEq κ] (name : κ → ν)

/-- Since a key had no entry, or was itself written, its name has not been overwritten or
removed through another key. -/
def Current (history : List (Access κ V)) (key : κ) : Prop :=
  ∃ before after, history = before ++ after ∧
    (cached before key = none ∨ ∃ earlier value, before = earlier ++ [.write key value]) ∧
    ∀ access ∈ after, access.Spares name key

variable {name} [DecidableEq ν] {history : List (Access κ V)} {access : Access κ V} {key : κ}

/-- The key has no entry, or one with what the map holds. -/
def Fresh (name : κ → ν) (history : List (Access κ V)) (key : κ) : Prop :=
  cached history key = none ∨ cached history key = replay name history (name key)

/-- **An access that spares a key keeps its entry true.** -/
theorem Fresh.snoc (h : Fresh name history key) (hspares : access.Spares name key)
    (hread : ∀ result, access = .read key result → result = loaded name true history key) :
    Fresh name (history ++ [access]) key := by
  unfold Fresh at h ⊢
  rw [cached_snoc, replay_snoc]
  cases access with
  | write other value =>
      by_cases hkey : key = other
      · subst hkey
        exact .inr (by simp [refill, apply])
      · have hname : name key ≠ name other := fun hname =>
          hkey (hspares other (.inl ⟨value, rfl⟩) hname.symm).symm
        simpa [refill, apply, Function.update_of_ne hkey, Function.update_of_ne hname] using h
  | offer other value =>
      simp only [refill, apply]
      split
      · exact h
      · next hvacant =>
          -- Something that is offered lands only where the key has no entry.
          rcases h with habsent | htrue
          · exact .inl habsent
          · by_cases hname : name key = name other
            · refine .inl ?_
              rw [htrue, hname]
              simpa using hvacant
            · exact .inr (by rw [htrue, Function.update_of_ne hname])
  | remove other =>
      by_cases hkey : key = other
      · subst hkey
        exact .inl (by simp [refill])
      · have hname : name key ≠ name other := fun hname =>
          hkey (hspares other (.inr rfl) hname.symm).symm
        simpa [refill, apply, Function.update_of_ne hkey, Function.update_of_ne hname] using h
  | read other result =>
      cases result with
      | none => exact h
      | some value =>
          by_cases hkey : key = other
          · subst hkey
            refine .inr ?_
            have hvalue := hread _ rfl
            rw [loaded, get_kept] at hvalue
            simp only [refill, apply, Function.update_self, hvalue]
            rcases h with habsent | htrue
            · rw [habsent, Option.none_or]
            · rw [← htrue, Option.or_self]
          · simpa [refill, apply, Function.update_of_ne hkey] using h

/-- **A read of a key that is current returns what the map holds.** -/
theorem Current.loaded_eq (h : Current name history key) (hlawful : Lawful name true history) :
    loaded name true history key = replay name history (name key) := by
  obtain ⟨before, after, rfl, hbefore, hafter⟩ := h
  have hstart : Fresh name before key := by
    rcases hbefore with habsent | ⟨earlier, value, rfl⟩
    · exact .inl habsent
    · exact .inr (by simp [refill, apply])
  have hfresh : Fresh name (before ++ after) key := by
    induction after using List.reverseRecOn with
    | nil => simpa using hstart
    | append_singleton after access ih =>
        rw [← List.append_assoc] at hlawful ⊢
        refine Fresh.snoc (ih ?_ ?_) (hafter access (by simp)) ?_
        · intro earlier other result later heq
          exact hlawful earlier other result (later ++ [access]) (by simp [heq])
        · exact fun a ha => hafter a (by simp [ha])
        · rintro result rfl
          exact hlawful _ key result [] rfl
  rw [loaded, get_kept]
  rcases hfresh with habsent | htrue
  · rw [habsent, Option.none_or]
  · rw [htrue, Option.or_self]

end Current

section Rename

variable [DecidableEq ν] [DecidableEq κ] {ν' : Type} [DecidableEq ν'] {g : ν → ν'}
  {name : κ → ν}

/-- Names may be renamed without an effect on what is loaded. -/
theorem loaded_comp (hg : Function.Injective g) (enabled : Bool) (history : List (Access κ V))
    (key : κ) : loaded (g ∘ name) enabled history key = loaded name enabled history key := by
  rw [loaded, loaded, Function.comp_apply, replay_comp name hg]

end Rename

/-! ## A map and its cache -/

section Backed

variable [DecidableEq κ] [DecidableEq ν] (name : κ → ν) (enabled : Bool)

/-- The map and the cache after some accesses. -/
structure Backed (history : List (Access κ V)) (cache : Cache κ V) (values : ν → Option V) :
    Prop where
  values_eq : values = replay name history
  cache_eq : cache = kept enabled history

variable {name enabled} {history : List (Access κ V)} {cache : Cache κ V} {values : ν → Option V}

/-- Nothing is stored and cached at first. -/
theorem backed_nil : Backed name enabled [] (kept enabled [] : Cache κ V) fun _ => none :=
  ⟨rfl, rfl⟩

/-- What is found in the cache is what a load returns. -/
theorem Backed.loaded_of_get (h : Backed name enabled history cache values) {key : κ} {value : V}
    (hget : cache.get key = some value) : some value = loaded name enabled history key := by
  rw [loaded, ← h.cache_eq, hget, Option.some_or]

/-- So is the stored value when nothing is found. -/
theorem Backed.loaded_of_miss (h : Backed name enabled history cache values) {key : κ}
    (hget : cache.get key = none) : values (name key) = loaded name enabled history key := by
  rw [loaded, ← h.cache_eq, hget, Option.none_or, h.values_eq]

/-- A read that was served from the cache changes nothing. -/
theorem Backed.hit (h : Backed name enabled history cache values) {key : κ} {value : V}
    (hget : cache.get key = some value) :
    Backed name enabled (history ++ [.read key (some value)]) cache values where
  values_eq := by rw [h.values_eq, replay_snoc, apply]
  cache_eq := by
    rw [h.cache_eq] at hget ⊢
    cases enabled with
    | false => rfl
    | true =>
        rw [get_kept] at hget
        simp only [kept, cached_snoc, refill, if_true]
        rw [← hget, Function.update_eq_self]

/-- A read that found nothing changes nothing. -/
theorem Backed.miss (h : Backed name enabled history cache values) (key : κ) :
    Backed name enabled (history ++ [.read key none]) cache values where
  values_eq := by rw [h.values_eq, replay_snoc, apply]
  cache_eq := by rw [h.cache_eq, kept, kept, cached_snoc, refill]

/-- Without a cache a read changes nothing. -/
theorem Backed.read (h : Backed name false history cache values) (key : κ) (result : Option V) :
    Backed name false (history ++ [.read key result]) cache values where
  values_eq := by rw [h.values_eq, replay_snoc, apply]
  cache_eq := h.cache_eq

/-- A value is offered to the map, and not cached. -/
theorem Backed.offer (h : Backed name enabled history cache values) (key : κ) (value : V) :
    Backed name enabled (history ++ [.offer key value]) cache
      (apply name values (.offer key value)) where
  values_eq := by rw [h.values_eq, replay_snoc]
  cache_eq := by rw [h.cache_eq, kept, kept, cached_snoc, refill]

/-- A value is written and cached. -/
theorem Backed.write (h : Backed name enabled history cache values) (key : κ) (value : V) :
    Backed name enabled (history ++ [.write key value]) (cache.insert key value)
      (Function.update values (name key) (some value)) where
  values_eq := by rw [h.values_eq, replay_snoc, apply]
  cache_eq := by
    rw [h.cache_eq, kept, kept, cached_snoc, refill]
    cases enabled <;> rfl

/-- A key is removed from both. -/
theorem Backed.remove (h : Backed name enabled history cache values) (key : κ) :
    Backed name enabled (history ++ [.remove key]) (cache.invalidate key)
      (Function.update values (name key) none) where
  values_eq := by rw [h.values_eq, replay_snoc, apply]
  cache_eq := by
    rw [h.cache_eq, kept, kept, cached_snoc, refill]
    cases enabled <;> rfl

/-- A read fills the cache with what it found. -/
theorem Backed.fill (h : Backed name enabled history cache values) (key : κ) (value : V) :
    Backed name enabled (history ++ [.read key (some value)]) (cache.insert key value) values where
  values_eq := by rw [h.values_eq, replay_snoc, apply]
  cache_eq := by
    rw [h.cache_eq, kept, kept, cached_snoc, refill]
    cases enabled <;> rfl

end Backed

end CachedMap
