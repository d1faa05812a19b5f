import Mathlib.Logic.Basic

/-!
# Loops with an early return

A round of a loop says that the loop is over, returns early with an error, or goes on
in another state.  No bound on the number of rounds is built in: that a loop ends is
proved from a measure that every round makes smaller.
-/

namespace WhileLoop

variable {σ ε : Type} (round : σ → Option (Except ε σ))

/-- How the loop ends when it is started in a state. -/
inductive Ends : σ → Except ε σ → Prop
  | done {s : σ} (h : round s = none) : Ends s (.ok s)
  | failed {s : σ} {e : ε} (h : round s = some (.error e)) : Ends s (.error e)
  | next {s s' : σ} {r : Except ε σ} (h : round s = some (.ok s')) (hrest : Ends s' r) : Ends s r

/-- The states in which a round of the loop starts, or the loop is over. -/
inductive Reaches (s₀ : σ) : σ → Prop
  | refl : Reaches s₀ s₀
  | next {s s' : σ} (hreach : Reaches s₀ s) (h : round s = some (.ok s')) : Reaches s₀ s'

variable {round} {s₀ s : σ}

theorem Ends.unique {r r' : Except ε σ} (h : Ends round s r) (h' : Ends round s r') : r = r' := by
  induction h with
  | done hround =>
      cases h' with
      | done => rfl
      | failed hround' => simp [hround] at hround'
      | next hround' => simp [hround] at hround'
  | failed hround =>
      cases h' with
      | done hround' => simp [hround] at hround'
      | failed hround' => simpa [hround] using hround'
      | next hround' => simp [hround] at hround'
  | next hround _ ih =>
      cases h' with
      | done hround' => simp [hround] at hround'
      | failed hround' => simp [hround] at hround'
      | next hround' hrest' =>
          rw [hround] at hround'
          cases hround'
          exact ih hrest'

/-- **A loop whose rounds make a measure smaller ends.** -/
theorem exists_ends (measure : σ → Nat)
    (hless : ∀ s s', round s = some (.ok s') → measure s' < measure s) (s : σ) :
    ∃ r, Ends round s r := by
  induction hn : measure s using Nat.strongRecOn generalizing s with
  | ind n ih =>
      subst hn
      cases hround : round s with
      | none => exact ⟨_, .done hround⟩
      | some result =>
          cases result with
          | error e => exact ⟨_, .failed hround⟩
          | ok s' =>
              obtain ⟨r, hr⟩ := ih (measure s') (hless s s' hround) s' rfl
              exact ⟨r, .next hround hr⟩

/-- The loop ends as it does from any state that it reaches. -/
theorem Ends.of_reaches {r : Except ε σ} (hreach : Reaches round s₀ s) (h : Ends round s r) :
    Ends round s₀ r := by
  induction hreach with
  | refl => exact h
  | next _ hround ih => exact ih (.next hround h)

/-- What every round preserves holds in every state that is reached. -/
theorem Reaches.invariant {P : σ → Prop} (hstart : P s₀)
    (hround : ∀ s s', P s → round s = some (.ok s') → P s') (h : Reaches round s₀ s) : P s := by
  induction h with
  | refl => exact hstart
  | next _ hnext ih => exact hround _ _ ih hnext

/-- A loop that is over was reached. -/
theorem Ends.reaches (h : Ends round s₀ (.ok s)) : Reaches round s₀ s ∧ round s = none := by
  have hall : ∀ start r, Ends round start r → Reaches round s₀ start → r = .ok s →
      Reaches round s₀ s ∧ round s = none := by
    intro start r hends
    induction hends with
    | done hround =>
        intro hreach heq
        cases heq
        exact ⟨hreach, hround⟩
    | failed hround =>
        intro _ heq
        cases heq
    | next hround _ ih => exact fun hreach heq => ih (.next hreach hround) heq
  exact hall s₀ _ h .refl rfl

end WhileLoop
