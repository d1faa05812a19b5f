import Mathlib.Data.List.Basic
import Mathlib.Data.List.Nodup
import Mathlib.Data.List.Perm.Basic

/-!
# Tables with a unique key

A `Table key` is a list of rows no two of which share a key: a hash map whose
keys are part of its values, or a relation with a primary key.  The order of
the rows carries no meaning: `Same` tables have the same members, they are
permutations of each other, and every operation is described by the members of
its result.
-/

namespace KeyedTable

/-- Rows of type `ρ`, no two with the same key. -/
structure Table {ρ κ : Type} (key : ρ → κ) where
  rows : List ρ
  nodup_keys : (rows.map key).Nodup

namespace Table

variable {ρ κ : Type} {key : ρ → κ}

instance : Membership ρ (Table key) := ⟨fun t r => r ∈ t.rows⟩

/-- Membership in the table is membership in its rows. -/
theorem mem_rows {t : Table key} {r : ρ} : r ∈ t.rows ↔ r ∈ t := Iff.rfl

/-- Keys determine rows. -/
theorem eq_of_key_eq {t : Table key} {r₁ r₂ : ρ} (h₁ : r₁ ∈ t) (h₂ : r₂ ∈ t)
    (hkey : key r₁ = key r₂) : r₁ = r₂ :=
  List.inj_on_of_nodup_map t.nodup_keys h₁ h₂ hkey

/-- No row is there twice, since no key is. -/
theorem nodup_rows (t : Table key) : t.rows.Nodup := List.Nodup.of_map key t.nodup_keys

/-- Two tables are the same when they have the same members. -/
def Same (t₁ t₂ : Table key) : Prop := ∀ r, r ∈ t₁ ↔ r ∈ t₂

/-- A table has its own rows. -/
theorem Same.refl (t : Table key) : t.Same t := fun _ => Iff.rfl

/-- Having the same rows is symmetric. -/
theorem Same.symm {t₁ t₂ : Table key} (h : t₁.Same t₂) : t₂.Same t₁ := fun r => (h r).symm

/-- Having the same rows is transitive. -/
theorem Same.trans {t₁ t₂ t₃ : Table key} (h₁ : t₁.Same t₂) (h₂ : t₂.Same t₃) : t₁.Same t₃ :=
  fun r => (h₁ r).trans (h₂ r)

/-- The same tables differ only in the order of their rows. -/
theorem Same.perm {t₁ t₂ : Table key} (h : t₁.Same t₂) : t₁.rows.Perm t₂.rows :=
  (List.perm_ext_iff_of_nodup t₁.nodup_rows t₂.nodup_rows).mpr h

/-- The table without rows. -/
def empty : Table key := ⟨[], List.nodup_nil⟩

/-- The empty table has no rows. -/
@[simp] theorem not_mem_empty (r : ρ) : ¬ r ∈ (empty : Table key) := List.not_mem_nil

/-- Keep the rows that satisfy a predicate. -/
def filter (t : Table key) (p : ρ → Bool) : Table key :=
  ⟨t.rows.filter p, t.nodup_keys.sublist ((List.filter_sublist).map key)⟩

/-- A filter keeps the rows that pass it. -/
@[simp] theorem mem_filter {t : Table key} {p : ρ → Bool} {r : ρ} :
    r ∈ t.filter p ↔ r ∈ t ∧ p r := List.mem_filter

/-- Rewrite the rows that satisfy a predicate, keeping their keys. -/
def updateWhere (t : Table key) (p : ρ → Bool) (f : ρ → ρ) (hkey : ∀ r, key (f r) = key r) :
    Table key where
  rows := t.rows.map (fun r => if p r then f r else r)
  nodup_keys := by
    have hkeys : (t.rows.map (fun r => if p r then f r else r)).map key = t.rows.map key := by
      rw [List.map_map]
      apply List.map_congr_left
      intro r _
      simp only [Function.comp_apply]
      split
      · exact hkey r
      · rfl
    rw [hkeys]
    exact t.nodup_keys

/-- The rows after an update are the old ones, changed where the condition holds. -/
theorem mem_updateWhere {t : Table key} {p : ρ → Bool} {f : ρ → ρ}
    {hkey : ∀ r, key (f r) = key r} {r : ρ} :
    r ∈ t.updateWhere p f hkey ↔ ∃ old ∈ t, r = if p old then f old else old := by
  constructor
  · intro h
    obtain ⟨old, hold, heq⟩ := List.mem_map.mp h
    exact ⟨old, hold, heq.symm⟩
  · rintro ⟨old, hold, rfl⟩
    exact List.mem_map.mpr ⟨old, hold, rfl⟩

/-- Rewriting no row changes nothing. -/
theorem updateWhere_of_forall_not {t : Table key} {p : ρ → Bool} {f : ρ → ρ}
    {hkey : ∀ r, key (f r) = key r} (h : ∀ r ∈ t, p r = false) :
    t.updateWhere p f hkey = t := by
  obtain ⟨rows, hnodup⟩ := t
  have hrows : rows.map (fun r => if p r then f r else r) = rows := by
    conv_rhs => rw [← List.map_id rows]
    apply List.map_congr_left
    intro r hr
    simp [h r hr]
  simp only [updateWhere, hrows]

/-- Rewrite all rows, keeping their keys. -/
def mapRows {ρ' : Type} {key' : ρ' → κ} (t : Table key) (f : ρ → ρ')
    (hkey : ∀ r, key' (f r) = key r) : Table key' where
  rows := t.rows.map f
  nodup_keys := by
    have hkeys : (t.rows.map f).map key' = t.rows.map key := by
      rw [List.map_map]
      exact List.map_congr_left fun r _ => hkey r
    rw [hkeys]
    exact t.nodup_keys

variable [DecidableEq κ]

/-- The row with a given key. -/
def find? (t : Table key) (k : κ) : Option ρ := t.rows.find? (fun r => decide (key r = k))

/-- A lookup finds the row with the key. -/
theorem find?_eq_some {t : Table key} {k : κ} {r : ρ} :
    t.find? k = some r ↔ r ∈ t ∧ key r = k := by
  constructor
  · intro h
    exact ⟨List.mem_of_find?_eq_some h, by simpa using List.find?_some h⟩
  · rintro ⟨hmem, rfl⟩
    cases hfind : t.find? (key r) with
    | none => exact absurd (decide_eq_true rfl) (List.find?_eq_none.mp hfind r hmem)
    | some other =>
        have hother : other ∈ t := List.mem_of_find?_eq_some hfind
        have hkey : key other = key r := by simpa using List.find?_some hfind
        rw [eq_of_key_eq hother hmem hkey]

/-- A lookup finds nothing when no row has the key. -/
theorem find?_eq_none {t : Table key} {k : κ} :
    t.find? k = none ↔ ∀ r ∈ t, key r ≠ k := by
  rw [find?, List.find?_eq_none]
  simp only [decide_eq_true_eq]
  rfl

/-- What a lookup finds has the key. -/
theorem key_of_find? {t : Table key} {k : κ} {r : ρ} (h : t.find? k = some r) : key r = k :=
  (find?_eq_some.mp h).2

/-- Mapping the rows, keys kept, maps what a lookup finds. -/
theorem find?_mapRows {ρ' : Type} {key' : ρ' → κ} (t : Table key) (f : ρ → ρ')
    (hkey : ∀ r, key' (f r) = key r) (k : κ) :
    (t.mapRows f hkey).find? k = (t.find? k).map f := by
  rw [find?, mapRows, List.find?_map, find?]
  congr 2
  funext r
  simp [hkey r]

/-- The same tables answer lookups alike. -/
theorem Same.find? {t₁ t₂ : Table key} (h : t₁.Same t₂) (k : κ) :
    t₁.find? k = t₂.find? k := by
  cases hfind : t₂.find? k with
  | none =>
      rw [find?_eq_none] at hfind ⊢
      exact fun r hr => hfind r ((h r).mp hr)
  | some r =>
      rw [find?_eq_some] at hfind ⊢
      exact ⟨(h r).mpr hfind.1, hfind.2⟩

/-- Insert a row, replacing the one with its key. -/
def upsert (t : Table key) (r : ρ) : Table key where
  rows := t.rows.filter (fun x => decide (key x ≠ key r)) ++ [r]
  nodup_keys := by
    rw [List.map_append, List.nodup_append]
    refine ⟨t.nodup_keys.sublist ((List.filter_sublist).map key), by simp, ?_⟩
    intro k hk k' hk' heq
    obtain ⟨x, hx, rfl⟩ := List.mem_map.mp hk
    have hne := (List.mem_filter.mp hx).2
    simp only [List.map_cons, List.map_nil, List.mem_singleton] at hk'
    subst hk'
    simp [heq] at hne

/-- After an upsert the row is there, with all old rows of other keys. -/
@[simp] theorem mem_upsert {t : Table key} {r x : ρ} :
    x ∈ t.upsert r ↔ x = r ∨ (x ∈ t ∧ key x ≠ key r) := by
  rw [← mem_rows, upsert]
  simp [or_comm, mem_rows]

/-- Upserts keep two tables the same. -/
theorem Same.upsert {t₁ t₂ : Table key} (h : t₁.Same t₂) (r : ρ) :
    (t₁.upsert r).Same (t₂.upsert r) := by
  intro x
  rw [mem_upsert, mem_upsert, h x]

/-- Remove the row with a given key. -/
def remove (t : Table key) (k : κ) : Table key := t.filter (fun r => decide (key r ≠ k))

/-- An upserted row is found under its key. -/
@[simp] theorem find?_upsert_self (t : Table key) (r : ρ) :
    (t.upsert r).find? (key r) = some r :=
  find?_eq_some.mpr ⟨mem_upsert.mpr (Or.inl rfl), rfl⟩

/-- Rows of other keys are found as before an upsert. -/
theorem find?_upsert_of_ne {t : Table key} {r : ρ} {k : κ} (h : k ≠ key r) :
    (t.upsert r).find? k = t.find? k := by
  cases hfind : t.find? k with
  | none =>
      rw [find?_eq_none] at hfind ⊢
      intro x hx
      rcases mem_upsert.mp hx with rfl | ⟨hx, _⟩
      · exact Ne.symm h
      · exact hfind x hx
  | some x =>
      rw [find?_eq_some] at hfind ⊢
      refine ⟨mem_upsert.mpr (Or.inr ⟨hfind.1, ?_⟩), hfind.2⟩
      rw [hfind.2]
      exact h

/-- A removed key is not found. -/
@[simp] theorem find?_remove_self (t : Table key) (k : κ) : (t.remove k).find? k = none := by
  rw [find?_eq_none]
  intro r hr
  simpa using (mem_filter.mp hr).2

/-- Rows of other keys are found as before a removal. -/
theorem find?_remove_of_ne {t : Table key} {k k' : κ} (h : k' ≠ k) :
    (t.remove k).find? k' = t.find? k' := by
  cases hfind : t.find? k' with
  | none =>
      rw [find?_eq_none] at hfind ⊢
      exact fun r hr => hfind r (mem_filter.mp hr).1
  | some r =>
      rw [find?_eq_some] at hfind ⊢
      refine ⟨mem_filter.mpr ⟨hfind.1, ?_⟩, hfind.2⟩
      simpa [hfind.2] using h

/-- Replacing the one row with a key in place is an insertion. -/
theorem updateWhere_same_upsert {t : Table key} {p : ρ → Bool} {f : ρ → ρ}
    {hkey : ∀ r, key (f r) = key r} {old : ρ} (hold : old ∈ t) (hp : p old = true)
    (honly : ∀ r ∈ t, p r = true → key r = key old) :
    (t.updateWhere p f hkey).Same (t.upsert (f old)) := by
  intro r
  rw [mem_updateWhere, mem_upsert]
  constructor
  · rintro ⟨x, hx, rfl⟩
    by_cases hpx : p x = true
    · rw [if_pos hpx, eq_of_key_eq hx hold (honly x hx hpx)]
      exact Or.inl rfl
    · rw [if_neg hpx]
      refine Or.inr ⟨hx, ?_⟩
      rw [hkey]
      intro hk
      rw [eq_of_key_eq hx hold hk] at hpx
      exact hpx hp
  · rintro (rfl | ⟨hr, hne⟩)
    · exact ⟨old, hold, by rw [if_pos hp]⟩
    · refine ⟨r, hr, ?_⟩
      rw [if_neg]
      intro hpr
      exact hne ((honly r hr hpr).trans (hkey old).symm)

end Table

end KeyedTable
