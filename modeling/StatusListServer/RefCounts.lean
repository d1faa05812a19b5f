import Mathlib.Data.Finset.Card

/-!
# Counted handles

Objects that are reached through counted handles.  One handle is in a shared cell, and a
thread holds at most one.  The count of an object is the number of its handles.

A thread can take a handle of the object in the cell, drop its handle, and put the
object it holds into the cell in exchange for the one that was there.
-/

namespace RefCounts

variable {P Tid : Type} [DecidableEq P]

/-- The count of an object is the number of threads that hold it, and one for the cell. -/
def Counted (strong : P → Nat) (cell : P) (held : Tid → Option P) : Prop :=
  ∃ holders : P → Finset Tid, (∀ p i, i ∈ holders p ↔ held i = some p) ∧
    ∀ p, strong p = (holders p).card + if cell = p then 1 else 0

variable {strong : P → Nat} {cell p : P} {held : Tid → Option P} {i j : Tid}

/-- One handle in the cell, and none elsewhere. -/
theorem counted_start : Counted (fun p => if cell = p then 1 else 0) cell
    (fun _ : Tid => (none : Option P)) :=
  ⟨fun _ => ∅, fun p i => by simp, fun p => by simp⟩

/-- Something that is held has a handle. -/
theorem Counted.held_pos (h : Counted strong cell held) (hi : held i = some p) : 0 < strong p := by
  obtain ⟨holders, hmem, hcount⟩ := h
  have hcard := Finset.card_pos.mpr ⟨i, (hmem p i).mpr hi⟩
  rw [hcount]
  omega

/-- So has what is in the cell. -/
theorem Counted.cell_pos (h : Counted strong cell held) : 0 < strong cell := by
  obtain ⟨holders, _, hcount⟩ := h
  rw [hcount, if_pos rfl]
  omega

/-- An object with one handle has no second holder. -/
theorem Counted.eq_of_one (h : Counted strong cell held) (hone : strong p = 1)
    (hi : held i = some p) (hj : held j = some p) : j = i := by
  obtain ⟨holders, hmem, hcount⟩ := h
  have hcard : (holders p).card ≤ 1 := by
    have hp := hcount p
    omega
  exact Finset.card_le_one.mp hcard j ((hmem p j).mpr hj) i ((hmem p i).mpr hi)

/-- An object with one handle, which a thread holds, is not in the cell. -/
theorem Counted.ne_cell_of_one (h : Counted strong cell held) (hone : strong p = 1)
    (hi : held i = some p) : cell ≠ p := by
  rintro rfl
  obtain ⟨holders, hmem, hcount⟩ := h
  have hcard := Finset.card_pos.mpr ⟨i, (hmem cell i).mpr hi⟩
  have hp := hcount cell
  rw [if_pos rfl] at hp
  omega

/-- An object with one holder, out of the cell, has one handle. -/
theorem Counted.eq_one (h : Counted strong cell held) (hi : held i = some p) (hcell : cell ≠ p)
    (hothers : ∀ j, j ≠ i → held j ≠ some p) : strong p = 1 := by
  obtain ⟨holders, hmem, hcount⟩ := h
  have hholders : holders p = {i} := by
    refine Finset.eq_singleton_iff_unique_mem.mpr ⟨(hmem p i).mpr hi, ?_⟩
    intro j hj
    by_contra hji
    exact hothers j hji ((hmem p j).mp hj)
  rw [hcount, hholders, Finset.card_singleton, if_neg hcell]

variable [DecidableEq Tid]

/-- A thread without a handle takes one. -/
theorem Counted.take (h : Counted strong cell held) (hi : held i = none) (p : P) :
    Counted (Function.update strong p (strong p + 1)) cell (Function.update held i (some p)) := by
  obtain ⟨holders, hmem, hcount⟩ := h
  have hfresh : ∀ q, i ∉ holders q := by
    intro q hq
    rw [hmem, hi] at hq
    cases hq
  refine ⟨Function.update holders p (insert i (holders p)), ?_, ?_⟩
  · intro q j
    by_cases hji : j = i
    · subst hji
      by_cases hqp : q = p
      · simp [hqp]
      · simp [hqp, hfresh q, Ne.symm hqp]
    · by_cases hqp : q = p
      · simp [hqp, hji, hmem]
      · simp [hqp, hji, hmem]
  · intro q
    by_cases hqp : q = p
    · subst hqp
      rw [Function.update_self, Function.update_self, Finset.card_insert_of_notMem (hfresh q),
        hcount q]
      omega
    · simp [hqp, hcount q]

/-- A thread drops its handle. -/
theorem Counted.drop (h : Counted strong cell held) (hi : held i = some p) :
    Counted (Function.update strong p (strong p - 1)) cell (Function.update held i none) := by
  obtain ⟨holders, hmem, hcount⟩ := h
  have hip : i ∈ holders p := (hmem p i).mpr hi
  refine ⟨Function.update holders p ((holders p).erase i), ?_, ?_⟩
  · intro q j
    by_cases hji : j = i
    · subst hji
      by_cases hqp : q = p
      · simp [hqp]
      · simp [hqp, hmem, hi, Ne.symm hqp]
    · by_cases hqp : q = p
      · simp [hqp, hji, hmem]
      · simp [hqp, hji, hmem]
  · intro q
    by_cases hqp : q = p
    · subst hqp
      have hcard := Finset.card_pos.mpr ⟨i, hip⟩
      rw [Function.update_self, Function.update_self, Finset.card_erase_of_mem hip, hcount q]
      omega
    · simp [hqp, hcount q]

/-- A thread exchanges its object for the one in the cell. -/
theorem Counted.swap (h : Counted strong cell held) (hi : held i = some p) (hne : cell ≠ p) :
    Counted strong p (Function.update held i (some cell)) := by
  obtain ⟨holders, hmem, hcount⟩ := h
  have hip : i ∈ holders p := (hmem p i).mpr hi
  have hcell : i ∉ holders cell := by
    intro hmem'
    rw [hmem, hi] at hmem'
    exact hne (Option.some.inj hmem').symm
  refine ⟨Function.update (Function.update holders p ((holders p).erase i)) cell
    (insert i (holders cell)), ?_, ?_⟩
  · intro q j
    by_cases hji : j = i
    · subst hji
      by_cases hqc : q = cell
      · simp [hqc]
      · by_cases hqp : q = p
        · simp [hqp, hne.symm, hne]
        · simp [hqp, hqc, Ne.symm hqc, hmem, hi, Ne.symm hqp]
    · by_cases hqc : q = cell
      · simp [hqc, hji, hmem]
      · by_cases hqp : q = p
        · simp [hqp, hne.symm, hji, hmem]
        · simp [hqp, hqc, hji, hmem]
  · intro q
    by_cases hqc : q = cell
    · subst hqc
      simp [Finset.card_insert_of_notMem hcell, hcount q, Ne.symm hne]
    · by_cases hqp : q = p
      · subst hqp
        have hcard := Finset.card_pos.mpr ⟨i, hip⟩
        rw [Function.update_of_ne hqc, Function.update_self, Finset.card_erase_of_mem hip,
          hcount q, if_neg (Ne.symm hqc), if_pos rfl]
        omega
      · simp [hqc, hqp, Ne.symm hqc, Ne.symm hqp, hcount q]

end RefCounts
