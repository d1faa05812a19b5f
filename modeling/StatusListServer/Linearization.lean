import StatusListServer.RunHistory

/-!
# Linearization

Calls that make several requests each, interleaved in any order, against an object that
is to behave as if every call were one step.  The object's value is an abstraction `view`
of the world; `spec` says what a call answers and what it leaves when it is one step.

A run is linearized by an order of its calls: each of them lands at one of its own
requests, and no other request changes the value (`Linearizes`).  Then the value is the
one that the calls leave in that order, at every moment of the run, and the order keeps
to the order of the requests.

The rule (`Run.linearized`) is for calls that follow an automaton with states in which a
call can still land.
-/

namespace Interaction

section Linearization

variable {Tid Op : Type} {Res : Op → Type} {σ A R : Type}

/-- The value that calls leave, one after the other. -/
def afterCalls (spec : Tid → A → R × A) (a : A) (order : List Tid) : A :=
  order.foldl (fun a i => (spec i a).2) a

/-- One more call. -/
theorem afterCalls_snoc (spec : Tid → A → R × A) (a : A) (order : List Tid) (i : Tid) :
    afterCalls spec a (order ++ [i]) = (spec i (afterCalls spec a order)).2 := by
  simp [afterCalls]

/-- The calls in the order in which they landed. -/
inductive Linearizes (view : σ → A) (spec : Tid → A → R × A) :
    List (Moment Tid Op Res σ) → List Tid → Prop
  | nil : Linearizes view spec [] []
  | quiet {log : List (Moment Tid Op Res σ)} {order : List Tid} {m : Moment Tid Op Res σ}
      (h : Linearizes view spec log order) (hview : view m.after = view m.before) :
      Linearizes view spec (log ++ [m]) order
  | lands {log : List (Moment Tid Op Res σ)} {order : List Tid} {m : Moment Tid Op Res σ}
      (h : Linearizes view spec log order) (honce : m.event.tid ∉ order)
      (hview : view m.after = (spec m.event.tid (view m.before)).2) :
      Linearizes view spec (log ++ [m]) (order ++ [m.event.tid])

/-- A world with the log of a run that began with `w₀`. -/
inductive Recorded.Since (w₀ : σ) : Recorded Tid Op Res σ → Prop
  | start : Since w₀ ⟨w₀, []⟩
  | next {w : Recorded Tid Op Res σ} {m : Moment Tid Op Res σ} (h : Since w₀ w)
      (hbefore : m.before = w.now) : Since w₀ ⟨m.after, w.log ++ [m]⟩

variable {view : σ → A} {spec : Tid → A → R × A} {w₀ : σ} {order : List Tid}
  {log : List (Moment Tid Op Res σ)}

/-- The world before a moment has the log of the moments before it. -/
theorem Recorded.Since.before {w : Recorded Tid Op Res σ} (h : w.Since w₀)
    {earlier later : List (Moment Tid Op Res σ)} {m : Moment Tid Op Res σ}
    (hlog : w.log = earlier ++ m :: later) : Recorded.Since w₀ ⟨m.before, earlier⟩ := by
  induction h generalizing later with
  | start => simp at hlog
  | @next w x h hbefore ih =>
      obtain ⟨rfl, rfl, _⟩ | ⟨later', _, hold⟩ := split_snoc hlog
      · rw [hbefore]
        exact h
      · exact ih hold

/-- Without events nothing has changed. -/
theorem Recorded.Since.of_nil {w : σ} (h : Recorded.Since w₀ (⟨w, []⟩ : Recorded Tid Op Res σ)) :
    w = w₀ := by
  generalize hw : (⟨w, []⟩ : Recorded Tid Op Res σ) = now at h
  cases h with
  | start =>
      cases hw
      rfl
  | next _ _ => simp at hw

/-- The last event has left the world as it is. -/
theorem Recorded.Since.of_snoc {w : σ} {m : Moment Tid Op Res σ}
    (h : Recorded.Since w₀ ⟨w, log ++ [m]⟩) : w = m.after ∧ Recorded.Since w₀ ⟨m.before, log⟩ := by
  generalize hw : (⟨w, log ++ [m]⟩ : Recorded Tid Op Res σ) = now at h
  cases h with
  | start => simp at hw
  | @next w' m' hprev hbefore =>
      simp only [Recorded.mk.injEq] at hw
      obtain ⟨rfl, hm⟩ := List.append_inj' hw.2 rfl
      cases hm
      rw [hbefore]
      exact ⟨hw.1, hprev⟩

/-- No call lands twice. -/
theorem Linearizes.nodup (h : Linearizes view spec log order) : order.Nodup := by
  induction h with
  | nil => exact List.nodup_nil
  | quiet _ _ ih => exact ih
  | lands _ honce _ ih =>
      rw [List.nodup_append]
      refine ⟨ih, by simp, ?_⟩
      intro i hi j hj hij
      rw [List.mem_singleton.mp hj] at hij
      exact honce (hij ▸ hi)

/-- A call lands at one of its requests. -/
theorem Linearizes.requested (h : Linearizes view spec log order) {i : Tid} (hi : i ∈ order) :
    ∃ m ∈ log, m.event.tid = i := by
  induction h with
  | nil => cases hi
  | quiet _ _ ih =>
      obtain ⟨m, hm, htid⟩ := ih hi
      exact ⟨m, List.mem_append_left _ hm, htid⟩
  | @lands log order m _ _ _ ih =>
      rcases List.mem_append.mp hi with hi | hi
      · obtain ⟨m', hm', htid⟩ := ih hi
        exact ⟨m', List.mem_append_left _ hm', htid⟩
      · exact ⟨m, List.mem_append_right _ List.mem_cons_self, (List.mem_singleton.mp hi).symm⟩

/-- **The order keeps to the order of the requests.**  At every point of the log the calls
are split into those that landed before it and those that landed after it. -/
theorem Linearizes.split {log₁ log₂ : List (Moment Tid Op Res σ)}
    (h : Linearizes view spec (log₁ ++ log₂) order) :
    ∃ order₁ order₂, order = order₁ ++ order₂ ∧ Linearizes view spec log₁ order₁ ∧
      ∀ i ∈ order₂, ∃ m ∈ log₂, m.event.tid = i := by
  generalize hlog : log₁ ++ log₂ = log at h
  induction h generalizing log₂ with
  | nil =>
      obtain ⟨rfl, rfl⟩ := List.append_eq_nil_iff.mp hlog
      exact ⟨[], [], rfl, .nil, fun _ hi => by cases hi⟩
  | @quiet log order m h hview ih =>
      obtain rfl | ⟨log₂', x, rfl⟩ := List.eq_nil_or_concat log₂
      · rw [List.append_nil] at hlog
        exact ⟨order, [], (List.append_nil _).symm, hlog ▸ .quiet h hview, fun _ hi => by cases hi⟩
      · rw [List.concat_eq_append, ← List.append_assoc] at hlog
        obtain ⟨hlog', hx⟩ := List.append_inj' hlog rfl
        obtain ⟨order₁, order₂, rfl, hfirst, hsecond⟩ := ih hlog'
        refine ⟨order₁, order₂, rfl, hfirst, ?_⟩
        intro i hi
        obtain ⟨m', hm', htid⟩ := hsecond i hi
        rw [List.concat_eq_append]
        exact ⟨m', List.mem_append_left _ hm', htid⟩
  | @lands log order m h honce hview ih =>
      obtain rfl | ⟨log₂', x, rfl⟩ := List.eq_nil_or_concat log₂
      · rw [List.append_nil] at hlog
        exact ⟨_, [], (List.append_nil _).symm, hlog ▸ .lands h honce hview,
          fun _ hi => by cases hi⟩
      · rw [List.concat_eq_append, ← List.append_assoc] at hlog
        obtain ⟨hlog', hx⟩ := List.append_inj' hlog rfl
        cases hx
        obtain ⟨order₁, order₂, rfl, hfirst, hsecond⟩ := ih hlog'
        refine ⟨order₁, order₂ ++ [m.event.tid], List.append_assoc _ _ _, hfirst, ?_⟩
        intro i hi
        rw [List.concat_eq_append]
        rcases List.mem_append.mp hi with hi | hi
        · obtain ⟨m', hm', htid⟩ := hsecond i hi
          exact ⟨m', List.mem_append_left _ hm', htid⟩
        · exact ⟨m, List.mem_append_right _ List.mem_cons_self, (List.mem_singleton.mp hi).symm⟩

/-- **The value is the one the calls leave in their order.** -/
theorem Linearizes.view_eq {w : σ} (h : Linearizes view spec log order)
    (hsince : Recorded.Since w₀ ⟨w, log⟩) : view w = afterCalls spec (view w₀) order := by
  induction h generalizing w with
  | nil => rw [hsince.of_nil, afterCalls, List.foldl_nil]
  | quiet _ hview ih =>
      obtain ⟨rfl, hbefore⟩ := hsince.of_snoc
      rw [hview, ih hbefore]
  | lands _ _ hview ih =>
      obtain ⟨rfl, hbefore⟩ := hsince.of_snoc
      rw [hview, ih hbefore, afterCalls_snoc]

end Linearization

section Rule

variable {Tid Op : Type} {Res : Op → Type} {α σ A R : Type}
  {env : Env Tid Op Res σ} {c₀ c : Pool Tid Op Res α (Recorded Tid Op Res σ)}
  {t : List (Event Tid Op Res)} {w₀ : σ}

/-- One more event. -/
theorem Recorded.Since.recorded {w w' : Recorded Tid Op Res σ} (h : w.Since w₀) {i : Tid} {op : Op}
    {r : Res op} (henv : recorded env i op w r w') : w'.Since w₀ := by
  rw [henv.eq]
  exact .next (m := ⟨⟨i, op, r⟩, w.now, w'.now⟩) h rfl

/-- A request of a call leaves the value alone, or is the one that the call lands with:
it does what the call is to do, and the call does not land again.  A result that the
call has is the one of its landing. -/
def LandsOnce {S : Type} (view : σ → A) (spec : A → R × A) (pending : S → Prop)
    (result : S → Option R) (s s' : S) (w w' : σ) : Prop :=
  (view w' = view w ∧ (pending s' → pending s) ∧ result s' = result s) ∨
    (view w' = (spec (view w)).2 ∧ pending s ∧ ¬ pending s' ∧
      ∀ a, result s' = some a → a = (spec (view w)).1)

variable [DecidableEq Tid] {S : Type} {view : σ → A} {spec : Tid → A → R × A}
  {holds : Tid → S → Prop} {pending : S → Prop} {result : S → Option R}

/-- A call with a result has landed, with the result of its place in the order. -/
def AnswersInOrder (spec : Tid → A → R × A) (a₀ : A) (order : List Tid) (i : Tid) (a : R) : Prop :=
  ∃ before after, order = before ++ i :: after ∧ a = (spec i (afterCalls spec a₀ before)).1

/-- What holds along a run of calls that land once. -/
structure Linearized (view : σ → A) (spec : Tid → A → R × A) (pending : S → Prop)
    (result : S → Option R) (w₀ : σ) (order : List Tid) (locals : Tid → S)
    (w : Recorded Tid Op Res σ) : Prop where
  linearizes : Linearizes view spec w.log order
  since : w.Since w₀
  closed : ∀ i ∈ order, ¬ pending (locals i)
  answers : ∀ i a, result (locals i) = some a → AnswersInOrder spec (view w₀) order i a

/-- **One request.** -/
theorem Linearized.step {order : List Tid} {locals : Tid → S} {w w' : Recorded Tid Op Res σ}
    (h : Linearized view spec pending result w₀ order locals w) {i : Tid} {op : Op} {r : Res op}
    {s' : S} (henv : recorded env i op w r w')
    (hlands : LandsOnce view (spec i) pending result (locals i) s' w.now w'.now) :
    ∃ order', Linearized view spec pending result w₀ order' (Function.update locals i s') w' := by
  have hsince := h.since.recorded henv
  rcases hlands with ⟨hview, hpending, hkept⟩ | ⟨hview, hpending, hlanded, hanswer⟩
  · refine ⟨order, ?_, hsince, ?_, ?_⟩
    · rw [henv.2]
      exact .quiet h.linearizes hview
    · intro j hj
      by_cases hji : j = i
      · subst hji
        simpa using fun hp => h.closed j hj (hpending hp)
      · simpa [hji] using h.closed j hj
    · intro j a ha
      by_cases hji : j = i
      · subst hji
        rw [Function.update_self, hkept] at ha
        exact h.answers j a ha
      · rw [Function.update_of_ne hji] at ha
        exact h.answers j a ha
  · have hfresh : i ∉ order := fun hi => h.closed i hi hpending
    refine ⟨order ++ [i], ?_, hsince, ?_, ?_⟩
    · rw [henv.2]
      exact .lands h.linearizes hfresh hview
    · intro j hj
      by_cases hji : j = i
      · subst hji
        simpa using hlanded
      · rcases List.mem_append.mp hj with hj | hj
        · simpa [hji] using h.closed j hj
        · exact absurd (List.mem_singleton.mp hj) hji
    · intro j a ha
      by_cases hji : j = i
      · subst hji
        rw [Function.update_self] at ha
        refine ⟨order, [], rfl, ?_⟩
        rw [← h.linearizes.view_eq h.since]
        exact hanswer a ha
      · rw [Function.update_of_ne hji] at ha
        obtain ⟨before, after, rfl, ha'⟩ := h.answers j a ha
        exact ⟨before, after ++ [i], by simp, ha'⟩

variable (view spec holds pending result)

/-- **The rule.**  The calls follow an automaton each of whose moves lands at most once;
then every run is linearized by an order in which every result is the one of its place. -/
theorem Run.linearized {move : S → (op : Op) → Res op → S → Prop}
    {post : Tid → S → α → Prop} {s₀ : Tid → S}
    (hfollows : ∀ i, (c₀.threads i).Follows move (post i) (s₀ i))
    (hstart : c₀.world = ⟨w₀, []⟩) (hholds : ∀ i, holds i (s₀ i))
    (hresult : ∀ i, result (s₀ i) = none)
    (hstep : ∀ i s op r s' w w', holds i s → move s op r s' → env i op w r w' →
      holds i s' ∧ LandsOnce view (spec i) pending result s s' w w')
    (h : Run (recorded env) c₀ t c) :
    ∃ locals order, Linearized view spec pending result w₀ order locals c.world ∧
      (∀ i, holds i (locals i)) ∧ ∀ i, (c.threads i).Follows move (post i) (locals i) := by
  have hrun := Run.followed hfollows (I := fun w locals =>
    (∃ order, Linearized view spec pending result w₀ order locals w) ∧ ∀ i, holds i (locals i))
    ?_ ?_ h
  · obtain ⟨locals, ⟨⟨order, hlin⟩, hall⟩, hfollows'⟩ := hrun
    exact ⟨locals, order, hlin, hall, hfollows'⟩
  · rw [hstart]
    refine ⟨⟨[], .nil, .start, fun _ hi => absurd hi List.not_mem_nil, ?_⟩, hholds⟩
    intro i a ha
    rw [hresult i] at ha
    cases ha
  · rintro w locals i op r w' s' ⟨⟨order, hlin⟩, hall⟩ hmove henv
    obtain ⟨hs', hlands⟩ := hstep i _ op r s' w.now w'.now (hall i) hmove henv.1
    refine ⟨hlin.step henv hlands, ?_⟩
    intro j
    by_cases hj : j = i
    · subst hj
      simpa using hs'
    · simpa [hj] using hall j

end Rule

end Interaction
