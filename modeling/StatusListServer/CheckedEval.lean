import StatusListServer.BitStream

/-!
# Evaluation that can fail or panic

A fallible Rust function returns a value, returns an error of its own type, or
panics.  `Eval ε` keeps the three apart, so that "never panics" is a statement
about the model and not a convention.  The checked operations below panic
exactly where the Rust operators do: an index past the end of a slice, a shift
by at least the width of its operand, a remainder by zero and an unsigned
subtraction below zero.
-/

namespace CheckedEval

open BitStream

/-- The panics the checked operators can raise. -/
inductive Panic
  | indexOutOfBounds
  | shiftOverflow
  | remainderByZero
  | subtractOverflow
deriving DecidableEq, Repr

/-- Why an evaluation ended without a value. -/
inductive Fault (ε : Type)
  | error (e : ε)
  | panic (p : Panic)
deriving DecidableEq, Repr

/-- A value, an error or a panic. -/
abbrev Eval (ε : Type) := Except (Fault ε)

variable {ε : Type}

/-- Return an error, as `return Err(e)` does. -/
def fail {α : Type} (e : ε) : Eval ε α := .error (.error e)

/-- `a[i]`. -/
def index (a : List Byte) (i : Nat) : Eval ε Byte :=
  if h : i < a.length then .ok a[i] else .error (.panic .indexOutOfBounds)

/-- `a[i] &= m`. -/
def andAssign (a : List Byte) (i : Nat) (m : Byte) : Eval ε (List Byte) := do
  let b ← index a i
  return a.set i (b &&& m)

/-- `a[i] |= m`. -/
def orAssign (a : List Byte) (i : Nat) (m : Byte) : Eval ε (List Byte) := do
  let b ← index a i
  return a.set i (b ||| m)

/-- `v << n`. -/
def shl {w : Nat} (v : BitVec w) (n : Nat) : Eval ε (BitVec w) :=
  if n < w then .ok (v <<< n) else .error (.panic .shiftOverflow)

/-- `v >> n` on an unsigned operand. -/
def shr {w : Nat} (v : BitVec w) (n : Nat) : Eval ε (BitVec w) :=
  if n < w then .ok (v >>> n) else .error (.panic .shiftOverflow)

/-- `a % b`. -/
def rem (a b : Nat) : Eval ε Nat :=
  if b = 0 then .error (.panic .remainderByZero) else .ok (a % b)

/-- `a - b` on an unsigned operand. -/
def sub (a b : Nat) : Eval ε Nat :=
  if b ≤ a then .ok (a - b) else .error (.panic .subtractOverflow)

/-- An index in bounds. -/
@[simp] theorem index_of_lt {a : List Byte} {i : Nat} (h : i < a.length) :
    (index a i : Eval ε Byte) = .ok a[i] := by
  simp [index, h]

/-- A byte in bounds is masked. -/
@[simp] theorem andAssign_of_lt {a : List Byte} {i : Nat} (h : i < a.length)
    (m : Byte) :
    (andAssign a i m : Eval ε (List Byte)) = .ok (a.set i (a[i] &&& m)) := by
  simp [andAssign, h, bind, Except.bind, pure, Except.pure]

/-- Bits are set in a byte in bounds. -/
@[simp] theorem orAssign_of_lt {a : List Byte} {i : Nat} (h : i < a.length)
    (m : Byte) :
    (orAssign a i m : Eval ε (List Byte)) = .ok (a.set i (a[i] ||| m)) := by
  simp [orAssign, h, bind, Except.bind, pure, Except.pure]

/-- A shift by less than the width. -/
@[simp] theorem shl_of_lt {w n : Nat} (h : n < w) (v : BitVec w) :
    (shl v n : Eval ε (BitVec w)) = .ok (v <<< n) := by
  simp [shl, h]

/-- A shift to the right by less than the width. -/
@[simp] theorem shr_of_lt {w n : Nat} (h : n < w) (v : BitVec w) :
    (shr v n : Eval ε (BitVec w)) = .ok (v >>> n) := by
  simp [shr, h]

/-- A remainder by a positive number. -/
@[simp] theorem rem_of_pos {a b : Nat} (h : 0 < b) :
    (rem a b : Eval ε Nat) = .ok (a % b) := by
  simp [rem, Nat.pos_iff_ne_zero.mp h]

/-- A difference that is not negative. -/
@[simp] theorem sub_of_le {a b : Nat} (h : b ≤ a) :
    (sub a b : Eval ε Nat) = .ok (a - b) := by
  simp [sub, h]

/-- After a value the rest is evaluated. -/
@[simp] theorem ok_bind {α β : Type} (a : α) (f : α → Eval ε β) :
    ((Except.ok a : Eval ε α) >>= f) = f a := rfl

/-- After a fault nothing is evaluated. -/
@[simp] theorem error_bind {α β : Type} (e : Fault ε) (f : α → Eval ε β) :
    ((Except.error e : Eval ε α) >>= f) = .error e := rfl

/-- A sequence that succeeds succeeds in both parts. -/
theorem bind_eq_ok {ε α β : Type} {x : Except ε α} {f : α → Except ε β} {b : β}
    (h : (x >>= f) = .ok b) : ∃ a, x = .ok a ∧ f a = .ok b := by
  cases x with
  | ok a => exact ⟨a, rfl, h⟩
  | error e => cases h

/-- Only the errors are mapped. -/
theorem mapError_eq_ok {ε ε' α : Type} {x : Except ε α} {f : ε → ε'} {a : α}
    (h : x.mapError f = .ok a) : x = .ok a := by
  cases x with
  | ok b =>
      cases h
      rfl
  | error e => cases h

/-- A mapped value comes from a value. -/
theorem map_eq_ok {ε α β : Type} {x : Except ε α} {f : α → β} {b : β} (h : x.map f = .ok b) :
    ∃ a, x = .ok a ∧ f a = b := by
  cases x with
  | ok a =>
      cases h
      exact ⟨a, rfl, rfl⟩
  | error e => cases h

/-- A loop that succeeds on a list succeeds on its prefix, then on its last
element. -/
theorem foldlM_append_singleton {α σ : Type} (f : σ → α → Eval ε σ) (s : σ)
    (xs : List α) (x : α) :
    (xs ++ [x]).foldlM f s = xs.foldlM f s >>= fun t => f t x := by
  rw [List.foldlM_append]
  simp

/-- A `collect` over a list succeeds when every element does, and its results
match the elements one by one. -/
theorem mapM_eq_ok {α β : Type} {P : α → β → Prop} {f : α → Eval ε β} :
    ∀ {xs : List α}, (∀ x ∈ xs, ∃ y, f x = .ok y ∧ P x y) →
      ∃ ys, xs.mapM f = .ok ys ∧ List.Forall₂ P xs ys := by
  intro xs
  induction xs with
  | nil => exact fun _ => ⟨[], rfl, .nil⟩
  | cons x rest ih =>
      intro h
      obtain ⟨y, hy, hPy⟩ := h x List.mem_cons_self
      obtain ⟨ys, hys, hPys⟩ := ih (fun z hz => h z (List.mem_cons_of_mem _ hz))
      refine ⟨y :: ys, ?_, .cons hPy hPys⟩
      rw [List.mapM_cons, hy, ok_bind, hys, ok_bind]
      rfl

/-- A successful `collect` succeeded on every element. -/
theorem mapM_ok_mem {α β : Type} {f : α → Eval ε β} :
    ∀ {xs : List α} {ys : List β}, xs.mapM f = .ok ys →
      ∀ x ∈ xs, ∃ y, f x = .ok y := by
  intro xs
  induction xs with
  | nil => simp
  | cons x rest ih =>
      intro ys h
      rw [List.mapM_cons] at h
      obtain ⟨y, hy, h⟩ := bind_eq_ok h
      obtain ⟨zs, hzs, _⟩ := bind_eq_ok h
      intro z hz
      rcases List.mem_cons.mp hz with rfl | hz
      · exact ⟨y, hy⟩
      · exact ih hzs z hz

end CheckedEval
