import Mathlib.Algebra.GroupWithZero.Nat
import StatusListServer.Interaction

/-!
# The history of a run

A `Recorded` world keeps, beside its present state, a log of every operation with
the states before and after it, so that statements about instants of a run can be
made about the state the run ends in.

The second part looks at one thread of a run: the operations it has called with
their answers (`exchanges`), and what its program has made of them.

The third part counts what a program spends: `Prog.Within` bounds the cost of
its calls along every path, and a pool spends no more (`Run.spent_le`).
-/

namespace Interaction

section Recorded

variable {Tid Op : Type} {Res : Op → Type} {σ : Type}

/-- An operation with the states before and after it. -/
structure Moment (Tid Op : Type) (Res : Op → Type) (σ : Type) where
  event : Event Tid Op Res
  before : σ
  after : σ

/-- A state with the moments that led to it. -/
structure Recorded (Tid Op : Type) (Res : Op → Type) (σ : Type) where
  now : σ
  log : List (Moment Tid Op Res σ)

/-- The environment of a world that keeps a log. -/
def recorded (env : Env Tid Op Res σ) : Env Tid Op Res (Recorded Tid Op Res σ) :=
  fun i op w r w' => env i op w.now r w'.now ∧ w'.log = w.log ++ [⟨⟨i, op, r⟩, w.now, w'.now⟩]

/-- The event is the last of the log. -/
theorem recorded.eq {env : Env Tid Op Res σ} {i : Tid} {op : Op} {r : Res op}
    {w w' : Recorded Tid Op Res σ} (h : recorded env i op w r w') :
    w' = ⟨w'.now, w.log ++ [⟨⟨i, op, r⟩, w.now, w'.now⟩]⟩ := by
  rw [← h.2]

/-- A handler that keeps the log. -/
def recordedAnswer {ι : Type} (handle : ι → Tid → (op : Op) → σ → Option (Res op × σ)) (input : ι)
    (i : Tid) (op : Op) (w : Recorded Tid Op Res σ) : Option (Res op × Recorded Tid Op Res σ) :=
  match handle input i op w.now with
  | none => none
  | some (r, now) => some (r, ⟨now, w.log ++ [⟨⟨i, op, r⟩, w.now, now⟩]⟩)

/-- Possible answers stay so when they are recorded. -/
theorem recordedAnswer_sound {ι : Type} {env : Env Tid Op Res σ}
    {handle : ι → Tid → (op : Op) → σ → Option (Res op × σ)}
    (hsound : ∀ input i op w r w', handle input i op w = some (r, w') → env i op w r w')
    {input : ι} {i : Tid} {op : Op} {w w' : Recorded Tid Op Res σ} {r : Res op}
    (h : recordedAnswer handle input i op w = some (r, w')) : recorded env i op w r w' := by
  unfold recordedAnswer at h
  split at h
  · cases h
  · rename_i now hhandle
    cases h
    exact ⟨hsound _ _ _ _ _ _ hhandle, rfl⟩

end Recorded

/-- A split of a list with one more element is at that element, or before it. -/
theorem split_snoc {α : Type} {l a b : List α} {x m : α} (h : l ++ [x] = a ++ m :: b) :
    (a = l ∧ m = x ∧ b = []) ∨ ∃ b', b = b' ++ [x] ∧ l = a ++ m :: b' := by
  obtain hnil | ⟨b', y, rfl⟩ := List.eq_nil_or_concat b
  · subst hnil
    obtain ⟨hl, hx⟩ := List.append_inj' h rfl
    cases hx
    exact .inl ⟨hl.symm, rfl, rfl⟩
  · right
    rw [List.concat_eq_append, ← List.cons_append, ← List.append_assoc] at h
    obtain ⟨hl, hx⟩ := List.append_inj' h rfl
    cases hx
    exact ⟨b', List.concat_eq_append, hl⟩

section Threads

variable {Tid Op : Type} [DecidableEq Tid] {Res : Op → Type} {α σ : Type}
  {env : Env Tid Op Res σ} {c₀ c : Pool Tid Op Res α σ} {t : List (Event Tid Op Res)}

/-- A run of two parts passes through a state between them. -/
theorem Run.split {t₁ t₂ : List (Event Tid Op Res)} (h : Run env c₀ (t₁ ++ t₂) c) :
    ∃ c₁, Run env c₀ t₁ c₁ ∧ Run env c₁ t₂ c := by
  generalize ht : t₁ ++ t₂ = t at h
  induction h generalizing t₂ with
  | nil =>
      obtain ⟨rfl, rfl⟩ := List.append_eq_nil_iff.mp ht
      exact ⟨c₀, .nil, .nil⟩
  | @snoc t c c' e hrun hstep ih =>
      obtain rfl | ⟨t', e', rfl⟩ := List.eq_nil_or_concat t₂
      · rw [List.append_nil] at ht
        subst ht
        exact ⟨c', .snoc hrun hstep, .nil⟩
      · rw [List.concat_eq_append, ← List.append_assoc] at ht
        obtain ⟨ht', he⟩ := List.append_inj' ht rfl
        cases he
        obtain ⟨c₁, hfirst, hsecond⟩ := ih ht'
        rw [List.concat_eq_append]
        exact ⟨c₁, hfirst, .snoc hsecond hstep⟩

/-- A run that is not empty starts with a step. -/
theorem Run.uncons {e : Event Tid Op Res} (h : Run env c₀ (e :: t) c) :
    ∃ c₁, Step env c₀ e c₁ ∧ Run env c₁ t c := by
  have hparts : Run env c₀ ([e] ++ t) c := h
  obtain ⟨c₁, hfirst, hrest⟩ := hparts.split
  generalize hone : [e] = first at hfirst
  cases hfirst with
  | nil => cases hone
  | @snoc t' c' _ e' hrun hstep =>
      have hsplit : [] ++ [e] = t' ++ [e'] := hone
      obtain ⟨hempty, he⟩ := List.append_inj' hsplit rfl
      cases he
      clear hone hsplit
      cases hrun with
      | nil => exact ⟨c₁, hstep, hrest⟩
      | snoc _ _ => simp at hempty

/-- Every moment of the log is one that the environment allows. -/
theorem Run.moment_allowed {w₀ w : Pool Tid Op Res α (Recorded Tid Op Res σ)}
    (h : Run (recorded env) w₀ t w) (hstart : w₀.world.log = []) :
    ∀ m ∈ w.world.log, env m.event.tid m.event.op m.before m.event.res m.after := by
  induction h with
  | nil =>
      intro m hm
      rw [hstart] at hm
      cases hm
  | snoc _ hstep ih =>
      cases hstep with
      | @call i op k r w' hthread henv =>
          intro m hm
          change m ∈ w'.log at hm
          rw [henv.2] at hm
          rcases List.mem_append.mp hm with hold | hnew
          · exact ih m hold
          · obtain rfl := List.mem_singleton.mp hnew
            exact henv.1

/-- **A property that is lost is lost at a moment.**  Where a property held after one
moment of a run and does not hold at its end, a later moment has ended it. -/
theorem Run.lost_at {w₀ : Pool Tid Op Res α (Recorded Tid Op Res σ)}
    {w : Pool Tid Op Res α (Recorded Tid Op Res σ)} (h : Run (recorded env) w₀ t w)
    (hstart : w₀.world.log = []) {P : σ → Prop} {m : Moment Tid Op Res σ}
    {earlier later : List (Moment Tid Op Res σ)} (hlog : w.world.log = earlier ++ m :: later)
    (hheld : P m.after) (hlost : ¬ P w.world.now) :
    ∃ m' ∈ later, P m'.before ∧ ¬ P m'.after := by
  induction h generalizing later with
  | nil => simp [hstart] at hlog
  | @snoc t c c' e hrun hstep ih =>
      cases hstep with
      | @call i op k r w' hthread henv =>
          obtain ⟨_, hnext⟩ := henv
          change w'.log = _ at hlog
          rw [hnext] at hlog
          obtain ⟨_, rfl, _⟩ | ⟨later', rfl, hold⟩ := split_snoc hlog
          · exact absurd hheld hlost
          · by_cases hnow : P c.world.now
            · exact ⟨_, List.mem_append_right _ List.mem_cons_self, hnow, hlost⟩
            · obtain ⟨m', hm', hlost'⟩ := ih hold hnow
              exact ⟨m', List.mem_append_left _ hm', hlost'⟩

/-- A thread that has ended does not change. -/
theorem Run.ended (h : Run env c₀ t c) {i : Tid} {a : α} (hret : c₀.threads i = .ret a) :
    c.threads i = .ret a := by
  induction h with
  | nil => exact hret
  | snoc _ hstep ih =>
      cases hstep with
      | @call j op k r w hthread henv =>
          by_cases hj : i = j
          · subst hj
            rw [ih] at hthread
            cases hthread
          · simpa only [Function.update_of_ne hj] using ih

/-- A thread that calls one operation and ends has not called it yet, or has ended
with what it made of the answer. -/
theorem Run.asked_once (h : Run env c₀ t c) {i : Tid} {op : Op} {f : Res op → α}
    (hstart : c₀.threads i = .call op (fun r => .ret (f r))) :
    c.threads i = c₀.threads i ∨ ∃ r, ⟨i, op, r⟩ ∈ t ∧ c.threads i = .ret (f r) := by
  induction h with
  | nil => exact .inl rfl
  | @snoc t c c' e _ hstep ih =>
      cases hstep with
      | @call j op' k r w hthread henv =>
          by_cases hj : i = j
          · subst hj
            rcases ih with hidle | ⟨r', _, hended⟩
            · rw [hidle, hstart] at hthread
              cases hthread
              exact .inr ⟨r, by simp, Function.update_self ..⟩
            · rw [hended] at hthread
              cases hthread
          · simp only [Function.update_of_ne hj]
            rcases ih with hidle | ⟨r', hmem, hended⟩
            · exact .inl hidle
            · exact .inr ⟨r', List.mem_append_left _ hmem, hended⟩

/-- An operation with its answer. -/
abbrev Exchange (Op : Type) (Res : Op → Type) := (op : Op) × Res op

/-- The operations a thread has called in a run, with their answers. -/
def exchanges (i : Tid) (t : List (Event Tid Op Res)) : List (Exchange Op Res) :=
  t.filterMap fun e => if e.tid = i then some ⟨e.op, e.res⟩ else none

/-- The discipline that allows everything and remembers everything. -/
@[reducible] def logDiscipline (Op : Type) (Res : Op → Type) : Discipline Op Res where
  State := List (Exchange Op Res)
  may _ _ := True
  next log op r := log ++ [⟨op, r⟩]

/-- **A thread obeys what its program promises about its log.** -/
theorem Run.exchanged (h : Run env c₀ t c) {i : Tid} {post : List (Exchange Op Res) → α → Prop}
    (hobeys : (c₀.threads i).Obeys (logDiscipline Op Res) post []) :
    (c.threads i).Obeys (logDiscipline Op Res) post (exchanges i t) := by
  induction h with
  | nil => exact hobeys
  | @snoc t c c' e _ hstep ih =>
      cases hstep with
      | @call j op k r w hthread henv =>
          by_cases hj : j = i
          · subst hj
            rw [hthread] at ih
            simpa [exchanges] using ih.2 r
          · simpa [exchanges, hj, Function.update_of_ne (Ne.symm hj)] using ih

/-- An exchange of a thread is an event of the run. -/
theorem exchanges_split {i : Tid} {before after : List (Exchange Op Res)} {op : Op} {r : Res op}
    (h : exchanges i t = before ++ ⟨op, r⟩ :: after) :
    ∃ t₁ t₂, t = t₁ ++ ⟨i, op, r⟩ :: t₂ ∧ exchanges i t₁ = before ∧ exchanges i t₂ = after := by
  obtain ⟨t₁, rest, rfl, h₁, hrest⟩ := List.filterMap_eq_append_iff.mp h
  obtain ⟨quiet, e, t₂, rfl, hquiet, he, h₂⟩ := List.filterMap_eq_cons_iff.mp hrest
  obtain ⟨j, op', r'⟩ := e
  split at he
  · rename_i hj
    cases hj
    cases he
    refine ⟨t₁ ++ quiet, t₂, by simp, ?_, h₂⟩
    rw [exchanges, List.filterMap_append, h₁, List.filterMap_eq_nil_iff.mpr hquiet, List.append_nil]
  · cases he

end Threads

section Cost

variable {Tid Op : Type} {Res : Op → Type} {α β ε σ : Type}

/-- Along every path the calls of the program cost at most `n`. -/
def Prog.Within (cost : Op → Nat) : Nat → Prog Op Res α → Prop
  | _, .ret _ => True
  | n, .call op k => ∃ m, cost op + m ≤ n ∧ ∀ r, (k r).Within cost m

variable {cost : Op → Nat}

/-- A greater budget does as well. -/
theorem Prog.Within.mono {p : Prog Op Res α} :
    ∀ {n m : Nat}, p.Within cost n → n ≤ m → p.Within cost m := by
  induction p with
  | ret a => exact fun _ _ => trivial
  | call op k ih =>
      intro n m h hle
      obtain ⟨rest, hrest, hk⟩ := h
      exact ⟨rest, by omega, hk⟩

/-- Sequential composition: the budgets add up. -/
theorem Prog.Within.bind {p : Prog Op Res α} {f : α → Prog Op Res β} {m : Nat}
    (hf : ∀ a, (f a).Within cost m) :
    ∀ {n : Nat}, p.Within cost n → (p >>= f).Within cost (n + m) := by
  induction p with
  | ret a => exact fun _ => (hf a).mono (by omega)
  | call op k ih =>
      intro n h
      obtain ⟨rest, hrest, hk⟩ := h
      exact ⟨rest + m, by omega, fun r => ih r (hk r)⟩

/-- Sequential composition with early exit. -/
theorem Prog.Within.bindExcept {x : ExceptT ε (Prog Op Res) α}
    {f : α → ExceptT ε (Prog Op Res) β} {n m : Nat} (hx : Prog.Within cost n x.run)
    (hf : ∀ a, Prog.Within cost m (f a).run) : Prog.Within cost (n + m) (x >>= f).run := by
  apply Prog.Within.bind _ hx
  intro r
  cases r with
  | error e => exact trivial
  | ok a => exact hf a

/-- A request costs its operation. -/
theorem Prog.within_request {op : Op} {decode : Res op → Except ε α} :
    Prog.Within cost (cost op) (Prog.request op decode).run :=
  ⟨0, by omega, fun _ => trivial⟩

variable [DecidableEq Tid]

/-- What the events of a thread cost. -/
def spent (cost : Op → Nat) (i : Tid) (t : List (Event Tid Op Res)) : Nat :=
  (t.map fun e => if e.tid = i then cost e.op else 0).sum

/-- **A thread spends what its program allows.**  After any run, what a thread has
spent and what it may still spend together stay within its bound. -/
theorem Run.spent_le {env : Env Tid Op Res σ} {c₀ c : Pool Tid Op Res α σ}
    {t : List (Event Tid Op Res)} (h : Run env c₀ t c) {i : Tid} {n : Nat}
    (hwithin : (c₀.threads i).Within cost n) :
    ∃ m, spent cost i t + m ≤ n ∧ (c.threads i).Within cost m := by
  induction h with
  | nil => exact ⟨n, by simp [spent], hwithin⟩
  | @snoc t c c' e _ hstep ih =>
      obtain ⟨m, hspent, hrest⟩ := ih
      cases hstep with
      | @call j op k r w hthread henv =>
          by_cases hj : j = i
          · subst hj
            rw [hthread] at hrest
            obtain ⟨m', hm', hk⟩ := hrest
            refine ⟨m', ?_, by simpa using hk r⟩
            simp only [spent, List.map_append, List.sum_append, List.map_cons, List.map_nil,
              if_true, List.sum_cons, List.sum_nil] at hspent ⊢
            omega
          · refine ⟨m, ?_, by simpa [Ne.symm hj] using hrest⟩
            simpa [spent, hj] using hspent

end Cost

end Interaction
