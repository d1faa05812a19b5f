import Mathlib.Logic.Function.Basic

/-!
# Programs that call operations, alone and in a pool

A `Prog Op Res α` is a program that calls operations and branches on their
answers.  It can be executed alone against a handler, or as one of many threads
that take turns calling operations on a shared world.

A `Discipline` describes one thread from the outside: a local state computed
from the answers it got so far, and the operations it may call in each local
state.  `Prog.Obeys` says that a program keeps to a discipline and ends in a
postcondition; its rules follow the structure of the program.  A pool whose
threads obey a discipline is simulated by a machine that knows only the world
and the local states (`Run.ledger`), so invariants of whole runs are proved
without looking at any program.  Where what a thread does next is best given as a
relation, an automaton takes the place of the discipline (`Prog.Follows`).
-/

namespace Interaction

/-- A program over operations `Op` with answers `Res`. -/
inductive Prog (Op : Type) (Res : Op → Type) (α : Type) : Type
  | ret (a : α)
  | call (op : Op) (k : Res op → Prog Op Res α)

namespace Prog

variable {Op : Type} {Res : Op → Type} {α β σ : Type}

/-- Call one operation and return its answer. -/
def ask (op : Op) : Prog Op Res (Res op) := .call op .ret

/-- Run a program, then another one on its result. -/
def andThen : Prog Op Res α → (α → Prog Op Res β) → Prog Op Res β
  | .ret a, f => f a
  | .call op k, f => .call op (fun r => (k r).andThen f)

instance : Monad (Prog Op Res) where
  pure := .ret
  bind := andThen

/-- Call one operation and decode its answer; what does not decode is an error. -/
def request {ε β : Type} (op : Op) (decode : Res op → Except ε β) : ExceptT ε (Prog Op Res) β :=
  ExceptT.mk (.call op fun r => .ret (decode r))

/-- Execute a program alone against a handler. -/
def exec (handle : (op : Op) → σ → Res op × σ) : Prog Op Res α → σ → α × σ
  | .ret a, w => (a, w)
  | .call op k, w => (k (handle op w).1).exec handle (handle op w).2

end Prog

/-- What one thread may do, as a function of what it has seen. -/
structure Discipline (Op : Type) (Res : Op → Type) where
  State : Type
  may : State → Op → Prop
  next : State → (op : Op) → Res op → State

section Obeys

variable {Op : Type} {Res : Op → Type} {α β ε : Type} {D : Discipline Op Res}

/-- From local state `s` every call of the program is allowed, and it ends in a
local state and result that satisfy `post`. -/
def Prog.Obeys (D : Discipline Op Res) (post : D.State → α → Prop) :
    D.State → Prog Op Res α → Prop
  | s, .ret a => post s a
  | s, .call op k => D.may s op ∧ ∀ r, (k r).Obeys D post (D.next s op r)

/-- The postcondition may be weakened. -/
theorem Prog.Obeys.mono {post post' : D.State → α → Prop} {p : Prog Op Res α} :
    ∀ {s : D.State}, p.Obeys D post s → (∀ t a, post t a → post' t a) →
      p.Obeys D post' s := by
  induction p with
  | ret a => exact fun h himp => himp _ _ h
  | call op k ih => exact fun h himp => ⟨h.1, fun r => ih r (h.2 r) himp⟩

/-- Sequential composition: the second program starts where the first ends. -/
theorem Prog.Obeys.bind {post : D.State → α → Prop} {post' : D.State → β → Prop}
    {p : Prog Op Res α} {f : α → Prog Op Res β} :
    ∀ {s : D.State}, p.Obeys D post s → (∀ t a, post t a → (f a).Obeys D post' t) →
      (p >>= f).Obeys D post' s := by
  induction p with
  | ret a => exact fun h hf => hf _ _ h
  | call op k ih => exact fun h hf => ⟨h.1, fun r => ih r (h.2 r) hf⟩

/-- Sequential composition with early exit. -/
theorem Prog.Obeys.bindExcept {post : D.State → Except ε α → Prop}
    {post' : D.State → Except ε β → Prop} {x : ExceptT ε (Prog Op Res) α}
    {f : α → ExceptT ε (Prog Op Res) β} {s : D.State} (hx : Prog.Obeys D post s x.run)
    (hok : ∀ t a, post t (.ok a) → Prog.Obeys D post' t (f a).run)
    (herr : ∀ t e, post t (.error e) → post' t (.error e)) :
    Prog.Obeys D post' s (x >>= f).run := by
  apply Prog.Obeys.bind hx
  rintro t (e | a) h
  · exact herr t e h
  · exact hok t a h

/-- One operation, then the rest of the program on its answer. -/
theorem Prog.obeys_ask_bind {post : D.State → β → Prop} {op : Op} {f : Res op → Prog Op Res β}
    {s : D.State} (hmay : D.may s op) (hf : ∀ r, (f r).Obeys D post (D.next s op r)) :
    (Prog.ask op >>= f).Obeys D post s := ⟨hmay, hf⟩

/-- A request, then the rest of the program on what it decodes to. -/
theorem Prog.obeys_request_bind {post : D.State → Except ε β → Prop} {op : Op}
    {decode : Res op → Except ε α} {f : α → ExceptT ε (Prog Op Res) β} {s : D.State}
    (hmay : D.may s op)
    (hok : ∀ r a, decode r = .ok a → Prog.Obeys D post (D.next s op r) (f a).run)
    (herr : ∀ r e, decode r = .error e → post (D.next s op r) (.error e)) :
    Prog.Obeys D post s (Prog.request op decode >>= f).run := by
  have hcall : Prog.Obeys D (fun t x => ∃ r, t = D.next s op r ∧ x = decode r) s
      (Prog.request op decode).run := ⟨hmay, fun r => ⟨r, rfl, rfl⟩⟩
  apply Prog.Obeys.bindExcept hcall
  · intro t a h
    obtain ⟨r, rfl, hdecode⟩ := h
    exact hok r a hdecode.symm
  · intro t e h
    obtain ⟨r, rfl, hdecode⟩ := h
    exact herr r e hdecode.symm

/-- A request that leaves the state of the discipline alone. -/
theorem Prog.obeys_quietRequest_bind {post : D.State → Except ε β → Prop} {op : Op}
    {decode : Res op → Except ε α} {f : α → ExceptT ε (Prog Op Res) β} {s : D.State}
    (hmay : D.may s op) (hnext : ∀ r, D.next s op r = s)
    (hok : ∀ a, Prog.Obeys D post s (f a).run) (herr : ∀ e, post s (.error e)) :
    Prog.Obeys D post s (Prog.request op decode >>= f).run := by
  apply Prog.obeys_request_bind hmay
  · intro r a _
    rw [hnext r]
    exact hok a
  · intro r e _
    rw [hnext r]
    exact herr e

/-- A program inside one with other errors. -/
theorem Prog.obeys_mapError_bind {ε' : Type} {g : ε → ε'} {post : D.State → Except ε α → Prop}
    {post' : D.State → Except ε' β → Prop} {x : ExceptT ε (Prog Op Res) α}
    {f : α → ExceptT ε' (Prog Op Res) β} {s : D.State} (hx : Prog.Obeys D post s x.run)
    (hok : ∀ t a, post t (.ok a) → Prog.Obeys D post' t (f a).run)
    (herr : ∀ t e, post t (.error e) → post' t (.error (g e))) :
    Prog.Obeys D post' s
      (ExceptT.mk (x.run >>= fun result => pure (result.mapError g)) >>= f).run := by
  have hrun : Prog.Obeys D (fun t r => ∃ result, post t result ∧ r = result.mapError g) s
      (x.run >>= fun result => pure (result.mapError g)) :=
    Prog.Obeys.bind hx (fun t result h => ⟨result, h, rfl⟩)
  refine Prog.Obeys.bindExcept hrun ?_ ?_
  · rintro t a ⟨result, h, hr⟩
    cases result with
    | error e => cases hr
    | ok b =>
        cases hr
        exact hok t a h
  · rintro t e ⟨result, h, hr⟩
    cases result with
    | error e' =>
        cases hr
        exact herr t e' h
    | ok b => cases hr

/-- **Two handlers behind one program.**  If related states answer every allowed
operation alike and stay related, a program that obeys the discipline ends with
the same result on both sides, in related states. -/
theorem Prog.Obeys.exec_related {σ₁ σ₂ : Type} {h₁ : (op : Op) → σ₁ → Res op × σ₁}
    {h₂ : (op : Op) → σ₂ → Res op × σ₂} {R : D.State → σ₁ → σ₂ → Prop}
    (hstep : ∀ s op w₁ w₂, R s w₁ w₂ → D.may s op → (h₁ op w₁).1 = (h₂ op w₂).1 ∧
      R (D.next s op (h₁ op w₁).1) (h₁ op w₁).2 (h₂ op w₂).2)
    {post : D.State → α → Prop} {p : Prog Op Res α} :
    ∀ {s : D.State} {w₁ : σ₁} {w₂ : σ₂}, p.Obeys D post s → R s w₁ w₂ →
      (p.exec h₁ w₁).1 = (p.exec h₂ w₂).1 ∧ ∃ s', R s' (p.exec h₁ w₁).2 (p.exec h₂ w₂).2 := by
  induction p with
  | ret a => exact fun _ hR => ⟨rfl, _, hR⟩
  | call op k ih =>
      intro s w₁ w₂ hobeys hR
      obtain ⟨hanswer, hnext⟩ := hstep s op w₁ w₂ hR hobeys.1
      unfold Prog.exec
      rw [← hanswer]
      exact ih _ (hobeys.2 _) hnext

end Obeys

section Follows

variable {Op : Type} {Res : Op → Type} {α β ε S : Type}
variable {move : S → (op : Op) → Res op → S → Prop}

/-- From state `s` every call of the program, with every answer, is a move of the
automaton, and the program ends in a state and result that satisfy `post`. -/
def Prog.Follows (move : S → (op : Op) → Res op → S → Prop) (post : S → α → Prop) :
    S → Prog Op Res α → Prop
  | s, .ret a => post s a
  | s, .call op k => ∀ r, ∃ s', move s op r s' ∧ (k r).Follows move post s'

/-- The postcondition may be weakened. -/
theorem Prog.Follows.mono {post post' : S → α → Prop} (himp : ∀ s a, post s a → post' s a)
    {p : Prog Op Res α} : ∀ {s : S}, p.Follows move post s → p.Follows move post' s := by
  induction p with
  | ret a => exact fun h => himp _ _ h
  | call op k ih =>
      intro s h r
      obtain ⟨s', hmove, hrest⟩ := h r
      exact ⟨s', hmove, ih r hrest⟩

/-- Sequential composition. -/
theorem Prog.Follows.bind {post : S → α → Prop} {post' : S → β → Prop} {p : Prog Op Res α}
    {f : α → Prog Op Res β} (hf : ∀ s a, post s a → (f a).Follows move post' s) :
    ∀ {s : S}, p.Follows move post s → (p >>= f).Follows move post' s := by
  induction p with
  | ret a => exact fun h => hf _ _ h
  | call op k ih =>
      intro s h r
      obtain ⟨s', hmove, hrest⟩ := h r
      exact ⟨s', hmove, ih r hrest⟩

/-- Sequential composition with early exit. -/
theorem Prog.Follows.bindExcept {post : S → Except ε α → Prop} {post' : S → Except ε β → Prop}
    {x : ExceptT ε (Prog Op Res) α} {f : α → ExceptT ε (Prog Op Res) β} {s : S}
    (hx : Prog.Follows move post s x.run)
    (hok : ∀ s a, post s (.ok a) → Prog.Follows move post' s (f a).run)
    (herr : ∀ s e, post s (.error e) → post' s (.error e)) :
    Prog.Follows move post' s (x >>= f).run := by
  refine Prog.Follows.bind ?_ hx
  intro t r h
  cases r with
  | error e => exact herr t e h
  | ok a => exact hok t a h

/-- A request, then the rest of the program on what it decodes to. -/
theorem Prog.follows_request_bind {post : S → Except ε β → Prop} {op : Op}
    {decode : Res op → Except ε α} {f : α → ExceptT ε (Prog Op Res) β} {s : S}
    (h : ∀ r, ∃ s', move s op r s' ∧ (∀ a, decode r = .ok a →
      Prog.Follows move post s' (f a).run) ∧ ∀ e, decode r = .error e → post s' (.error e)) :
    Prog.Follows move post s (Prog.request op decode >>= f).run := by
  have hcall : Prog.Follows move (fun s' x => (∀ a, x = .ok a →
      Prog.Follows move post s' (f a).run) ∧ ∀ e, x = .error e → post s' (.error e)) s
      (Prog.request op decode).run := h
  refine Prog.Follows.bind ?_ hcall
  intro t x hx
  cases x with
  | error e => exact hx.2 e rfl
  | ok a => exact hx.1 a rfl

end Follows

/-- An operation called by a thread, with its answer. -/
structure Event (Tid Op : Type) (Res : Op → Type) where
  tid : Tid
  op : Op
  res : Res op

/-- Threads that share a world. -/
structure Pool (Tid Op : Type) (Res : Op → Type) (α σ : Type) where
  world : σ
  threads : Tid → Prog Op Res α

/-- The world and the local state of every thread. -/
structure Ledger (Tid : Type) {Op : Type} {Res : Op → Type} (D : Discipline Op Res)
    (σ : Type) where
  world : σ
  locals : Tid → D.State

section Machine

variable {Tid Op : Type} [DecidableEq Tid] {Res : Op → Type} {α σ : Type}
variable {D : Discipline Op Res}

/-- What an operation called by a thread can answer and do to the world. -/
abbrev Env (Tid Op : Type) (Res : Op → Type) (σ : Type) :=
  Tid → (op : Op) → σ → Res op → σ → Prop

/-- One thread calls its next operation. -/
inductive Step (env : Env Tid Op Res σ) :
    Pool Tid Op Res α σ → Event Tid Op Res → Pool Tid Op Res α σ → Prop
  | call {c : Pool Tid Op Res α σ} {i : Tid} {op : Op} {k : Res op → Prog Op Res α}
      {r : Res op} {w : σ} (hthread : c.threads i = .call op k)
      (henv : env i op c.world r w) :
      Step env c ⟨i, op, r⟩ ⟨w, Function.update c.threads i (k r)⟩

/-- Any number of steps, with the events in order. -/
inductive Run (env : Env Tid Op Res σ) (c₀ : Pool Tid Op Res α σ) :
    List (Event Tid Op Res) → Pool Tid Op Res α σ → Prop
  | nil : Run env c₀ [] c₀
  | snoc {t : List (Event Tid Op Res)} {c c' : Pool Tid Op Res α σ}
      {e : Event Tid Op Res} (hrun : Run env c₀ t c) (hstep : Step env c e c') :
      Run env c₀ (t ++ [e]) c'

/-- A step seen from the local states. -/
inductive LedgerStep (env : Env Tid Op Res σ) :
    Ledger Tid D σ → Event Tid Op Res → Ledger Tid D σ → Prop
  | act {c : Ledger Tid D σ} {i : Tid} {op : Op} {r : Res op} {w : σ}
      (hmay : D.may (c.locals i) op) (henv : env i op c.world r w) :
      LedgerStep env c ⟨i, op, r⟩
        ⟨w, Function.update c.locals i (D.next (c.locals i) op r)⟩

variable {env env' : Env Tid Op Res σ} {c₀ c₁ c₂ c : Pool Tid Op Res α σ}

/-- Runs compose. -/
theorem Run.trans {t₁ t₂ : List (Event Tid Op Res)} (h₁ : Run env c₀ t₁ c₁)
    (h₂ : Run env c₁ t₂ c₂) : Run env c₀ (t₁ ++ t₂) c₂ := by
  induction h₂ with
  | nil => simpa using h₁
  | snoc _ hstep ih =>
      rw [← List.append_assoc]
      exact .snoc ih hstep

/-- A run that starts with a given step. -/
theorem Run.cons {e : Event Tid Op Res} {t : List (Event Tid Op Res)}
    (hstep : Step env c₀ e c₁) (hrun : Run env c₁ t c₂) : Run env c₀ (e :: t) c₂ := by
  have hfirst : Run env c₀ [e] c₁ := .snoc .nil hstep
  exact hfirst.trans hrun

/-- A run of one event is a step. -/
theorem Run.single {t : List (Event Tid Op Res)} (h : Run env c₀ t c) (hlength : t.length = 1) :
    ∃ e, Step env c₀ e c := by
  cases h with
  | nil => cases hlength
  | @snoc t c₁ _ e hrun hstep =>
      have hempty : t = [] := by simpa using hlength
      subst hempty
      generalize hnil : ([] : List (Event Tid Op Res)) = t at hrun
      cases hrun with
      | nil => exact ⟨e, hstep⟩
      | snoc _ _ => simp at hnil

/-- A step of a larger environment. -/
theorem Step.mono (hle : ∀ i op w r w', env i op w r w' → env' i op w r w')
    {e : Event Tid Op Res} (h : Step env c₁ e c₂) : Step env' c₁ e c₂ := by
  cases h with
  | call hthread henv => exact .call hthread (hle _ _ _ _ _ henv)

/-- A run stays one when more answers are possible. -/
theorem Run.mono (hle : ∀ i op w r w', env i op w r w' → env' i op w r w')
    {t : List (Event Tid Op Res)} (h : Run env c₀ t c) : Run env' c₀ t c := by
  induction h with
  | nil => exact .nil
  | snoc _ hstep ih => exact .snoc ih (hstep.mono hle)

/-- A thread that takes no step does not change. -/
theorem Run.idle {t : List (Event Tid Op Res)} (h : Run env c₀ t c) {i : Tid}
    (hquiet : ∀ e ∈ t, e.tid ≠ i) : c.threads i = c₀.threads i := by
  induction h with
  | nil => rfl
  | @snoc t c c' e _ hstep ih =>
      have hi : i ≠ e.tid := fun hi => hquiet e (by simp) hi.symm
      rw [← ih (fun e' he' => hquiet e' (List.mem_append_left _ he'))]
      cases hstep with
      | call hthread henv => exact Function.update_of_ne hi _ _

/-- The next step of a thread that obeys the discipline is a ledger step. -/
theorem Step.ledger {post : Tid → D.State → α → Prop} {locals : Tid → D.State}
    (hobeys : ∀ i, (c₁.threads i).Obeys D (post i) (locals i)) {e : Event Tid Op Res}
    (h : Step env c₁ e c₂) :
    ∃ locals', LedgerStep env ⟨c₁.world, locals⟩ e ⟨c₂.world, locals'⟩ ∧
      ∀ i, (c₂.threads i).Obeys D (post i) (locals' i) := by
  cases h with
  | @call i op k r w hthread henv =>
      have hi := hobeys i
      rw [hthread] at hi
      refine ⟨_, .act hi.1 henv, ?_⟩
      intro j
      by_cases hj : j = i
      · subst hj
        simpa using hi.2 r
      · simpa [hj] using hobeys j

/-- **The ledger simulates the pool.**  If every thread obeys the discipline
from its initial local state, an invariant that holds initially and is kept by
every ledger step holds after every run, and every thread still obeys the
discipline from its current local state. -/
theorem Run.ledger {post : Tid → D.State → α → Prop} {s₀ : Tid → D.State}
    (hobeys : ∀ i, (c₀.threads i).Obeys D (post i) (s₀ i))
    {I : List (Event Tid Op Res) → Ledger Tid D σ → Prop} (hinit : I [] ⟨c₀.world, s₀⟩)
    (hstep : ∀ t l e l', I t l → LedgerStep env l e l' → I (t ++ [e]) l')
    {t : List (Event Tid Op Res)} (h : Run env c₀ t c) :
    ∃ locals, I t ⟨c.world, locals⟩ ∧
      ∀ i, (c.threads i).Obeys D (post i) (locals i) := by
  induction h with
  | nil => exact ⟨s₀, hinit, hobeys⟩
  | snoc _ hs ih =>
      obtain ⟨locals, hI, hall⟩ := ih
      obtain ⟨locals', hledger, hall'⟩ := hs.ledger hall
      exact ⟨locals', hstep _ _ _ _ hI hledger, hall'⟩

/-- A run each step of which is allowed where it is taken. -/
inductive RunWhere (env : Env Tid Op Res σ) (may : Pool Tid Op Res α σ → Event Tid Op Res → Prop)
    (c₀ : Pool Tid Op Res α σ) : List (Event Tid Op Res) → Pool Tid Op Res α σ → Prop
  | nil : RunWhere env may c₀ [] c₀
  | snoc {t : List (Event Tid Op Res)} {c c' : Pool Tid Op Res α σ}
      {e : Event Tid Op Res} (hrun : RunWhere env may c₀ t c) (hmay : may c e)
      (hstep : Step env c e c') : RunWhere env may c₀ (t ++ [e]) c'

/-- A run is one without conditions. -/
theorem Run.everywhere {t : List (Event Tid Op Res)} (h : Run env c₀ t c) :
    RunWhere env (fun _ _ => True) c₀ t c := by
  induction h with
  | nil => exact .nil
  | snoc _ hstep ih => exact .snoc ih trivial hstep

/-- **Automata simulate the pool where its steps are allowed.**  If every thread
follows the automaton from its initial state, an invariant that holds initially
and is kept by every move that is allowed holds after every such run, and every
thread still follows the automaton from its current state. -/
theorem RunWhere.followed {may : Pool Tid Op Res α σ → Event Tid Op Res → Prop} {S : Type}
    {move : S → (op : Op) → Res op → S → Prop} {post : Tid → S → α → Prop} {s₀ : Tid → S}
    (hfollows : ∀ i, (c₀.threads i).Follows move (post i) (s₀ i))
    {I : σ → (Tid → S) → Prop} (hinit : I c₀.world s₀)
    (hstep : ∀ (c : Pool Tid Op Res α σ) locals i op r w' s',
      (∀ j, (c.threads j).Follows move (post j) (locals j)) → may c ⟨i, op, r⟩ →
      I c.world locals → move (locals i) op r s' → env i op c.world r w' →
      I w' (Function.update locals i s'))
    {t : List (Event Tid Op Res)} (h : RunWhere env may c₀ t c) :
    ∃ locals, I c.world locals ∧ ∀ i, (c.threads i).Follows move (post i) (locals i) := by
  induction h with
  | nil => exact ⟨s₀, hinit, hfollows⟩
  | snoc _ hmay hs ih =>
      obtain ⟨locals, hI, hall⟩ := ih
      cases hs with
      | @call i op k r w hthread henv =>
          have hi := hall i
          rw [hthread] at hi
          obtain ⟨s', hmove, hrest⟩ := hi r
          refine ⟨Function.update locals i s', hstep _ _ _ _ _ _ _ hall hmay hI hmove henv, ?_⟩
          intro j
          by_cases hj : j = i
          · subst hj
            simpa using hrest
          · simpa [hj] using hall j

/-- **Automata simulate the pool.**  If every thread follows the automaton from
its initial state, an invariant that holds initially and is kept by every move
holds after every run, and every thread still follows the automaton from its
current state. -/
theorem Run.followed {S : Type} {move : S → (op : Op) → Res op → S → Prop}
    {post : Tid → S → α → Prop} {s₀ : Tid → S}
    (hfollows : ∀ i, (c₀.threads i).Follows move (post i) (s₀ i))
    {I : σ → (Tid → S) → Prop} (hinit : I c₀.world s₀)
    (hstep : ∀ w locals i op r w' s', I w locals → move (locals i) op r s' → env i op w r w' →
      I w' (Function.update locals i s'))
    {t : List (Event Tid Op Res)} (h : Run env c₀ t c) :
    ∃ locals, I c.world locals ∧ ∀ i, (c.threads i).Follows move (post i) (locals i) := by
  apply h.everywhere.followed hfollows hinit
  intro c locals i op r w' s' _ _
  exact hstep c.world locals i op r w' s'

/-- Let threads take their next steps in the order of a schedule.  `handle`
answers an operation from an input of the schedule; a thread that has ended, or
whose operation is not answered, is passed over. -/
def Pool.drive {ι : Type} (handle : ι → Tid → (op : Op) → σ → Option (Res op × σ)) :
    List (Tid × ι) → Pool Tid Op Res α σ → List (Event Tid Op Res) × Pool Tid Op Res α σ
  | [], c => ([], c)
  | (i, input) :: rest, c =>
      match c.threads i with
      | .ret _ => Pool.drive handle rest c
      | .call op k =>
          match handle input i op c.world with
          | none => Pool.drive handle rest c
          | some (r, w) =>
              let driven := Pool.drive handle rest ⟨w, Function.update c.threads i (k r)⟩
              (⟨i, op, r⟩ :: driven.1, driven.2)

/-- Driving a pool by a handler the environment allows is a run. -/
theorem Run.drive {ι : Type} {handle : ι → Tid → (op : Op) → σ → Option (Res op × σ)}
    (hsound : ∀ input i op w r w', handle input i op w = some (r, w') → env i op w r w')
    (schedule : List (Tid × ι)) :
    ∀ c : Pool Tid Op Res α σ,
      Run env c (Pool.drive handle schedule c).1 (Pool.drive handle schedule c).2 := by
  induction schedule with
  | nil => exact fun c => .nil
  | cons head rest ih =>
      intro c
      obtain ⟨i, input⟩ := head
      unfold Pool.drive
      split
      · exact ih c
      · rename_i op k hthread
        split
        · exact ih c
        · rename_i r w hhandle
          exact .cons (.call hthread (hsound _ _ _ _ _ _ hhandle)) (ih _)

end Machine

/-- The result of a program that has ended. -/
def Prog.result? {Op : Type} {Res : Op → Type} {α : Type} : Prog Op Res α → Option α
  | .ret a => some a
  | .call _ _ => none

/-- A program with a result has ended. -/
theorem Prog.eq_ret_of_result? {Op : Type} {Res : Op → Type} {α : Type}
    {p : Prog Op Res α} {a : α} (h : p.result? = some a) : p = .ret a := by
  cases p with
  | ret b =>
      cases h
      rfl
  | call op k => cases h

end Interaction
