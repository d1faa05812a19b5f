import StatusListServer.Interaction

/-!
# Pre- and postconditions of programs

An environment says which answers an operation may give and how it may change
the world.  `Prog.Reaches` runs a program for some of its operations, so that a
run may also stop half way; `Prog.Sure` is the weakest precondition of a
program, with a condition `safe` on the world that holds after every operation
and hence wherever the program is stopped.

A `Proc` is a program with a private memory and an error exit.  Its rules follow
the structure of the code: an error leaves the procedure with the memory it has
built up so far.
-/

namespace Interaction

section Logic

variable {Op : Type} {Res : Op → Type} {α β σ : Type}

/-- What an operation can answer and do to the world. -/
abbrev Answers (Op : Type) (Res : Op → Type) (σ : Type) := (op : Op) → σ → Res op → σ → Prop

/-- The program has called some of its operations, with answers the environment
allows. -/
inductive Prog.Reaches (env : Answers Op Res σ) :
    Prog Op Res α → σ → Prog Op Res α → σ → Prop
  | refl (p : Prog Op Res α) (w : σ) : Reaches env p w p w
  | step {op : Op} {k : Res op → Prog Op Res α} {w w' w'' : σ} {r : Res op}
      {p : Prog Op Res α} (henv : env op w r w') (hrest : Reaches env (k r) w' p w'') :
      Reaches env (.call op k) w p w''

/-- The weakest precondition: every operation leaves the world `safe`, and the
program ends in a result and world that satisfy `post`. -/
def Prog.Sure (env : Answers Op Res σ) (safe : σ → Prop) (post : α → σ → Prop) :
    Prog Op Res α → σ → Prop
  | .ret a, w => post a w
  | .call op k, w => ∀ r w', env op w r w' → safe w' ∧ (k r).Sure env safe post w'

variable {env : Answers Op Res σ} {safe : σ → Prop}

/-- The postcondition may be weakened. -/
theorem Prog.Sure.mono {post post' : α → σ → Prop} (himp : ∀ a w, post a w → post' a w)
    {p : Prog Op Res α} : ∀ {w : σ}, p.Sure env safe post w → p.Sure env safe post' w := by
  induction p with
  | ret a => exact fun h => himp _ _ h
  | call op k ih => exact fun h r w' henv => ⟨(h r w' henv).1, ih r (h r w' henv).2⟩

/-- What is safe after every operation may be weakened. -/
theorem Prog.Sure.weaken {safe' : σ → Prop} (himp : ∀ w, safe w → safe' w) {post : α → σ → Prop}
    {p : Prog Op Res α} : ∀ {w : σ}, p.Sure env safe post w → p.Sure env safe' post w := by
  induction p with
  | ret a => exact fun h => h
  | call op k ih =>
      exact fun h r w' henv => ⟨himp _ (h r w' henv).1, ih r (h r w' henv).2⟩

/-- A program that is sure of its end stays so when fewer answers are possible. -/
theorem Prog.Sure.restrict {env' : Answers Op Res σ}
    (himp : ∀ op w r w', env' op w r w' → env op w r w') {post : α → σ → Prop}
    {p : Prog Op Res α} : ∀ {w : σ}, p.Sure env safe post w → p.Sure env' safe post w := by
  induction p with
  | ret a => exact fun h => h
  | call op k ih =>
      exact fun h r w' henv =>
        ⟨(h r w' (himp _ _ _ _ henv)).1, ih r (h r w' (himp _ _ _ _ henv)).2⟩

/-- Sequential composition. -/
theorem Prog.Sure.bind {post : α → σ → Prop} {post' : β → σ → Prop} {p : Prog Op Res α}
    {f : α → Prog Op Res β} (hf : ∀ a w, post a w → (f a).Sure env safe post' w) :
    ∀ {w : σ}, p.Sure env safe post w → (p >>= f).Sure env safe post' w := by
  induction p with
  | ret a => exact fun h => hf _ _ h
  | call op k ih => exact fun h r w' henv => ⟨(h r w' henv).1, ih r (h r w' henv).2⟩

/-- Sequential composition with early exit. -/
theorem Prog.Sure.bindExcept {ε : Type} {post : Except ε α → σ → Prop}
    {post' : Except ε β → σ → Prop} {x : ExceptT ε (Prog Op Res) α}
    {f : α → ExceptT ε (Prog Op Res) β} {w : σ} (hx : Prog.Sure env safe post x.run w)
    (hok : ∀ a w, post (.ok a) w → Prog.Sure env safe post' (f a).run w)
    (herr : ∀ e w, post (.error e) w → post' (.error e) w) :
    Prog.Sure env safe post' (x >>= f).run w := by
  refine Prog.Sure.bind ?_ hx
  intro r w' hr
  cases r with
  | error e => exact herr e w' hr
  | ok a => exact hok a w' hr

/-- A request. -/
theorem Prog.sure_request {ε : Type} {post : Except ε α → σ → Prop} {op : Op}
    {decode : Res op → Except ε α} {w : σ}
    (h : ∀ r w', env op w r w' → safe w' ∧ post (decode r) w') :
    Prog.Sure env safe post (Prog.request op decode).run w := h

/-- **Soundness of the weakest precondition.**  Wherever a program is stopped the
world is safe, and what remains of it still has the precondition. -/
theorem Prog.Sure.reaches {post : α → σ → Prop} {p p' : Prog Op Res α} {w w' : σ}
    (hreach : p.Reaches env w p' w') (hsure : p.Sure env safe post w) (hsafe : safe w) :
    safe w' ∧ p'.Sure env safe post w' := by
  induction hreach with
  | refl p w => exact ⟨hsafe, hsure⟩
  | step henv _ ih =>
      obtain ⟨hsafe', hsure'⟩ := hsure _ _ henv
      exact ih hsure' hsafe'

/-- An environment that always answers lets every program end. -/
theorem Prog.exists_reaches_ret (htotal : ∀ op w, ∃ r w', env op w r w')
    (p : Prog Op Res α) : ∀ w : σ, ∃ a w', p.Reaches env w (.ret a) w' := by
  induction p with
  | ret a => exact fun w => ⟨a, w, .refl _ _⟩
  | call op k ih =>
      intro w
      obtain ⟨r, w', henv⟩ := htotal op w
      obtain ⟨a, w'', hrest⟩ := ih r w'
      exact ⟨a, w'', .step henv hrest⟩

/-- The second program runs from where the first has ended. -/
theorem Prog.exec_bind {handle : (op : Op) → σ → Res op × σ} {p : Prog Op Res α}
    {f : α → Prog Op Res β} : ∀ w : σ,
      (p >>= f).exec handle w = (f (p.exec handle w).1).exec handle (p.exec handle w).2 := by
  induction p with
  | ret a => exact fun w => rfl
  | call op k ih => exact fun w => ih _ _

/-- The second program runs if the first has not failed. -/
theorem Prog.exec_bindExcept {ε : Type} {handle : (op : Op) → σ → Res op × σ}
    {x : ExceptT ε (Prog Op Res) α} {f : α → ExceptT ε (Prog Op Res) β} (w : σ) :
    (x >>= f).run.exec handle w =
      match x.run.exec handle w with
      | (.ok a, w') => (f a).run.exec handle w'
      | (.error e, w') => (.error e, w') := by
  refine (Prog.exec_bind w).trans ?_
  change _ = match Prog.exec handle x w with
    | (.ok a, w') => Prog.exec handle (f a) w'
    | (.error e, w') => (.error e, w')
  generalize Prog.exec handle x w = r
  obtain ⟨_ | a, w'⟩ := r
  · rfl
  · rfl

/-- A request runs its operation and decodes the answer. -/
theorem Prog.exec_request {ε : Type} {handle : (op : Op) → σ → Res op × σ} {op : Op}
    {decode : Res op → Except ε α} (w : σ) :
    (Prog.request op decode).run.exec handle w = (decode (handle op w).1, (handle op w).2) := rfl

/-- Executing a program against a handler is a run, if the environment allows the
handler's answers.  The handler may keep more than the world, of which it has a view. -/
theorem Prog.reaches_exec_view {τ : Type} {handle : (op : Op) → τ → Res op × τ} {view : τ → σ}
    (hallow : ∀ op s, env op (view s) (handle op s).1 (view (handle op s).2)) (p : Prog Op Res α) :
    ∀ s : τ, p.Reaches env (view s) (.ret (p.exec handle s).1) (view (p.exec handle s).2) := by
  induction p with
  | ret a => exact fun s => .refl _ _
  | call op k ih => exact fun s => .step (hallow op s) (ih _ _)

/-- What a program comes to with an allowed handler, it can reach. -/
theorem Prog.reaches_exec {handle : (op : Op) → σ → Res op × σ}
    (hallow : ∀ op w, env op w (handle op w).1 (handle op w).2) (p : Prog Op Res α) :
    ∀ w : σ, p.Reaches env w (.ret (p.exec handle w).1) (p.exec handle w).2 :=
  Prog.reaches_exec_view hallow p

end Logic

section Procedures

variable {Op : Type} {Res : Op → Type} {α β ε ε' μ σ : Type}

/-- Programs with a private memory `μ` and an error exit `ε`. -/
abbrev Proc (Op : Type) (Res : Op → Type) (μ ε : Type) := ExceptT ε (StateT μ (Prog Op Res))

namespace Proc

/-- The program of a procedure started in a given memory. -/
def start (x : Proc Op Res μ ε α) (m : μ) : Prog Op Res (Except ε α × μ) := x.run.run m

/-- Call one operation. -/
def ask (op : Op) : Proc Op Res μ ε (Res op) := fun m => .call op (fun r => .ret (.ok r, m))

/-- Call one operation and decode its answer; what does not decode is an error. -/
def request (op : Op) (decode : Res op → Except ε α) : Proc Op Res μ ε α :=
  fun m => .call op fun r => .ret (decode r, m)

/-- Run a procedure and return how it ended. -/
def attempt (x : Proc Op Res μ ε α) : Proc Op Res μ ε' (Except ε α) :=
  fun m => x.start m >>= fun r => .ret (.ok r.1, r.2)

/-- The weakest precondition of a procedure: `Q` when it returns, `E` when it
fails. -/
def Sure (env : Answers Op Res σ) (safe : σ → Prop) (Q : α → μ → σ → Prop)
    (E : ε → μ → σ → Prop) (x : Proc Op Res μ ε α) (m : μ) (w : σ) : Prop :=
  (x.start m).Sure env safe
    (fun r w => match r.1 with
      | .ok a => Q a r.2 w
      | .error e => E e r.2 w) w

variable {env : Answers Op Res σ} {safe : σ → Prop} {Q : α → μ → σ → Prop}
  {E : ε → μ → σ → Prop} {m : μ} {w : σ}

/-- A value is returned as it is. -/
theorem sure_pure {a : α} (h : Q a m w) :
    Sure env safe Q E (pure a : Proc Op Res μ ε α) m w := h

/-- An error is raised as it is. -/
theorem sure_throw {e : ε} (h : E e m w) :
    Sure env safe Q E (throw e : Proc Op Res μ ε α) m w := h

/-- Reading the memory changes nothing. -/
theorem sure_get {Q : μ → μ → σ → Prop} (h : Q m m w) :
    Sure env safe Q E (get : Proc Op Res μ ε μ) m w := h

/-- Changing the memory leaves the world alone. -/
theorem sure_modify {Q : PUnit → μ → σ → Prop} {f : μ → μ} (h : Q ⟨⟩ (f m) w) :
    Sure env safe Q E (modify f : Proc Op Res μ ε PUnit) m w := h

/-- One operation: every answer the world may give has to do. -/
theorem sure_ask {op : Op} {Q : Res op → μ → σ → Prop}
    (h : ∀ r w', env op w r w' → safe w' ∧ Q r m w') :
    Sure env safe Q E (ask op : Proc Op Res μ ε (Res op)) m w := h

/-- An operation and the decoding of its answer. -/
theorem sure_request {op : Op} {decode : Res op → Except ε α}
    (h : ∀ r w', env op w r w' → safe w' ∧ match decode r with
      | .ok a => Q a m w'
      | .error e => E e m w') :
    Sure env safe Q E (request op decode : Proc Op Res μ ε α) m w := h

/-- A request whose failure does not matter. -/
theorem sure_request_ok {op : Op} {decode : Res op → Except ε α}
    (h : ∀ r w' a, env op w r w' → decode r = .ok a → Q a m w') :
    Sure env (fun _ => True) Q (fun _ _ _ => True) (request op decode : Proc Op Res μ ε α) m w := by
  refine sure_request fun r w' henv => ⟨trivial, ?_⟩
  split
  · next a hdecode => exact h r w' a henv hdecode
  · trivial

/-- Sequential composition; an error of the first procedure ends the whole. -/
theorem sure_bind {Q' : β → μ → σ → Prop} {x : Proc Op Res μ ε α}
    {f : α → Proc Op Res μ ε β}
    (h : Sure env safe (fun a m w => Sure env safe Q' E (f a) m w) E x m w) :
    Sure env safe Q' E (x >>= f) m w := by
  refine Prog.Sure.bind ?_ h
  rintro ⟨e | a, m'⟩ w' hpost
  · exact hpost
  · exact hpost

/-- An attempt ends well, with the result or the error as its value. -/
theorem sure_attempt {x : Proc Op Res μ ε α} {Q : Except ε α → μ → σ → Prop}
    {E' : ε' → μ → σ → Prop}
    (h : Sure env safe (fun a m w => Q (.ok a) m w) (fun e m w => Q (.error e) m w) x m w) :
    Sure env safe Q E' (attempt x : Proc Op Res μ ε' (Except ε α)) m w := by
  refine Prog.Sure.bind ?_ h
  rintro ⟨e | a, m'⟩ w' hpost
  · exact hpost
  · exact hpost

/-- Both postconditions may be weakened. -/
theorem Sure.mono {Q' : α → μ → σ → Prop} {E' : ε → μ → σ → Prop} {x : Proc Op Res μ ε α}
    (h : Sure env safe Q E x m w) (hok : ∀ a m w, Q a m w → Q' a m w)
    (herr : ∀ e m w, E e m w → E' e m w) : Sure env safe Q' E' x m w := by
  refine Prog.Sure.mono ?_ h
  rintro ⟨e | a, m'⟩ w' hpost
  · exact herr _ _ _ hpost
  · exact hok _ _ _ hpost

/-- What holds for all answers holds for fewer. -/
theorem Sure.restrict {env' : Answers Op Res σ} {x : Proc Op Res μ ε α}
    (h : Sure env safe Q E x m w) (himp : ∀ op w r w', env' op w r w' → env op w r w') :
    Sure env' safe Q E x m w :=
  Prog.Sure.restrict himp h

/-- What holds when a procedure has ended with a result. -/
theorem Sure.ended {x : Proc Op Res μ ε α} {a : α} {m' : μ} {w' : σ}
    (hsure : Sure env safe Q E x m w) (hsafe : safe w)
    (hreach : (x.start m).Reaches env w (.ret (.ok a, m')) w') : Q a m' w' :=
  (Prog.Sure.reaches hreach hsure hsafe).2

/-- What holds when a procedure has failed. -/
theorem Sure.failed {x : Proc Op Res μ ε α} {e : ε} {m' : μ} {w' : σ}
    (hsure : Sure env safe Q E x m w) (hsafe : safe w)
    (hreach : (x.start m).Reaches env w (.ret (.error e, m')) w') : E e m' w' :=
  (Prog.Sure.reaches hreach hsure hsafe).2

/-! ## What a procedure leaves alone -/

section Frame

variable {φ : Type} {f : μ → φ}

/-- From every safe world, the procedure ends in a safe world and keeps a part of
its memory. -/
def Frame (env : Answers Op Res σ) (safe : σ → Prop) (f : μ → φ) (x : Proc Op Res μ ε α) : Prop :=
  ∀ m w, safe w → Sure env safe (fun _ m' w' => f m' = f m ∧ safe w')
    (fun _ m' w' => f m' = f m ∧ safe w') x m w

/-- A value changes nothing. -/
theorem frame_pure {a : α} : Frame env safe f (pure a : Proc Op Res μ ε α) :=
  fun _ _ hsafe => ⟨rfl, hsafe⟩

/-- An error changes nothing. -/
theorem frame_throw {e : ε} : Frame env safe f (throw e : Proc Op Res μ ε α) :=
  fun _ _ hsafe => ⟨rfl, hsafe⟩

/-- Reading the memory changes nothing. -/
theorem frame_get : Frame env safe f (get : Proc Op Res μ ε μ) :=
  fun _ _ hsafe => ⟨rfl, hsafe⟩

/-- A change of the memory that spares the view. -/
theorem frame_modify {g : μ → μ} (hg : ∀ m, f (g m) = f m) :
    Frame env safe f (modify g : Proc Op Res μ ε PUnit) :=
  fun m _ hsafe => ⟨hg m, hsafe⟩

/-- An operation touches the world only. -/
theorem frame_ask {op : Op} (hop : ∀ w r w', safe w → env op w r w' → safe w') :
    Frame env safe f (ask op : Proc Op Res μ ε (Res op)) :=
  fun _ w hsafe r w' henv => ⟨hop w r w' hsafe henv, rfl, hop w r w' hsafe henv⟩

/-- Two procedures that spare the view, one after the other. -/
theorem frame_bind {x : Proc Op Res μ ε α} {g : α → Proc Op Res μ ε β}
    (hx : Frame env safe f x) (hg : ∀ a, Frame env safe f (g a)) :
    Frame env safe f (x >>= g) := by
  intro m w hsafe
  refine sure_bind ((hx m w hsafe).mono ?_ fun _ _ _ h => h)
  intro a m' w' h
  obtain ⟨hkept, hsafe'⟩ := h
  rw [← hkept]
  exact hg a m' w' hsafe'

/-- An attempt spares what its procedure spares. -/
theorem frame_attempt {x : Proc Op Res μ ε α} (hx : Frame env safe f x) :
    Frame env safe f (attempt x : Proc Op Res μ ε' (Except ε α)) :=
  fun m w hsafe => sure_attempt (hx m w hsafe)

/-- Go on after a procedure that keeps its frame. -/
theorem Frame.sure_bind {x : Proc Op Res μ ε α} {g : α → Proc Op Res μ ε β}
    {Q' : β → μ → σ → Prop} {kept : φ} (hx : Frame env safe f x) (hm : f m = kept) (hsafe : safe w)
    (herr : ∀ e m' w', f m' = kept → safe w' → E e m' w')
    (hok : ∀ a m' w', f m' = kept → safe w' → Sure env safe Q' E (g a) m' w') :
    Sure env safe Q' E (x >>= g) m w := by
  apply Proc.sure_bind
  apply (hx m w hsafe).mono
  · exact fun a m' w' h => hok a m' w' (h.1.trans hm) h.2
  · exact fun e m' w' h => herr e m' w' (h.1.trans hm) h.2

/-- A procedure with a frame ends in a safe world. -/
theorem Frame.ends {x : Proc Op Res μ ε α} (hx : Frame env safe f x) (hsafe : safe w)
    (hok : ∀ a m' w', safe w' → Q a m' w') (herr : ∀ e m' w', safe w' → E e m' w') :
    Sure env (fun _ => True) Q E x m w := by
  have hframe : Sure env safe Q E x m w := by
    apply (hx m w hsafe).mono
    · exact fun a m' w' h => hok a m' w' h.2
    · exact fun e m' w' h => herr e m' w' h.2
  exact Prog.Sure.weaken (fun _ _ => trivial) hframe

end Frame

/-! ## Procedures as threads -/

section Follows

variable {S : Type} {move : S → (op : Op) → Res op → S → Prop} {s : S}

/-- Every call of the procedure is a move of the automaton, which ends in `Q` when
the procedure returns and in `E` when it fails. -/
def Follows (move : S → (op : Op) → Res op → S → Prop) (Q : S → α → μ → Prop)
    (E : S → ε → μ → Prop) (x : Proc Op Res μ ε α) (s : S) (m : μ) : Prop :=
  (x.start m).Follows move
    (fun s r => match r.1 with
      | .ok a => Q s a r.2
      | .error e => E s e r.2) s

variable {Q : S → α → μ → Prop} {E : S → ε → μ → Prop}

/-- A value, without a move. -/
theorem follows_pure {a : α} (h : Q s a m) :
    Follows move Q E (pure a : Proc Op Res μ ε α) s m := h

/-- An error, without a move. -/
theorem follows_throw {e : ε} (h : E s e m) :
    Follows move Q E (throw e : Proc Op Res μ ε α) s m := h

/-- Reading the memory, without a move. -/
theorem follows_get {Q : S → μ → μ → Prop} (h : Q s m m) :
    Follows move Q E (get : Proc Op Res μ ε μ) s m := h

/-- Changing the memory, without a move. -/
theorem follows_modify {Q : S → PUnit → μ → Prop} {f : μ → μ} (h : Q s ⟨⟩ (f m)) :
    Follows move Q E (modify f : Proc Op Res μ ε PUnit) s m := h

/-- One operation is one move, whatever its answer. -/
theorem follows_ask {op : Op} {Q : S → Res op → μ → Prop}
    (h : ∀ r, ∃ s', move s op r s' ∧ Q s' r m) :
    Follows move Q E (ask op : Proc Op Res μ ε (Res op)) s m := h

/-- An operation and the decoding of its answer are one move. -/
theorem follows_request {op : Op} {decode : Res op → Except ε α}
    (h : ∀ r, ∃ s', move s op r s' ∧ match decode r with
      | .ok a => Q s' a m
      | .error e => E s' e m) :
    Follows move Q E (request op decode : Proc Op Res μ ε α) s m := h

/-- Sequential composition. -/
theorem follows_bind {Q' : S → β → μ → Prop} {x : Proc Op Res μ ε α}
    {f : α → Proc Op Res μ ε β}
    (h : Follows move (fun s a m => Follows move Q' E (f a) s m) E x s m) :
    Follows move Q' E (x >>= f) s m := by
  refine Prog.Follows.bind ?_ h
  rintro s' ⟨e | a, m'⟩ hpost
  · exact hpost
  · exact hpost

/-- An attempt moves as its procedure does. -/
theorem follows_attempt {x : Proc Op Res μ ε α} {Q : S → Except ε α → μ → Prop}
    {E' : S → ε' → μ → Prop}
    (h : Follows move (fun s a m => Q s (.ok a) m) (fun s e m => Q s (.error e) m) x s m) :
    Follows move Q E' (attempt x : Proc Op Res μ ε' (Except ε α)) s m := by
  refine Prog.Follows.bind ?_ h
  rintro s' ⟨e | a, m'⟩ hpost
  · exact hpost
  · exact hpost

/-- Both postconditions may be weakened. -/
theorem Follows.mono {Q' : S → α → μ → Prop} {E' : S → ε → μ → Prop} {x : Proc Op Res μ ε α}
    (h : Follows move Q E x s m) (hok : ∀ s a m, Q s a m → Q' s a m)
    (herr : ∀ s e m, E s e m → E' s e m) : Follows move Q' E' x s m := by
  refine Prog.Follows.mono ?_ h
  rintro s' ⟨e | a, m'⟩ hpost
  · exact herr _ _ _ hpost
  · exact hok _ _ _ hpost

end Follows

/-! ## Executions -/

/-- Execute a procedure against a handler. -/
def exec (handle : (op : Op) → σ → Res op × σ) (x : Proc Op Res μ ε α) (m : μ) (w : σ) :
    (Except ε α × μ) × σ := (x.start m).exec handle w

variable {handle : (op : Op) → σ → Res op × σ}

/-- Running a value. -/
@[simp] theorem exec_pure {a : α} :
    (pure a : Proc Op Res μ ε α).exec handle m w = ((.ok a, m), w) := rfl

/-- Running a reading of the memory. -/
@[simp] theorem exec_get : (get : Proc Op Res μ ε μ).exec handle m w = ((.ok m, m), w) := rfl

/-- Running a change of the memory. -/
@[simp] theorem exec_modify {f : μ → μ} :
    (modify f : Proc Op Res μ ε PUnit).exec handle m w = ((.ok ⟨⟩, f m), w) := rfl

/-- Running one operation. -/
@[simp] theorem exec_ask {op : Op} :
    (ask op : Proc Op Res μ ε (Res op)).exec handle m w =
      ((.ok (handle op w).1, m), (handle op w).2) := rfl

/-- Running a request. -/
@[simp] theorem exec_request {op : Op} {decode : Res op → Except ε α} :
    (request op decode : Proc Op Res μ ε α).exec handle m w =
      ((decode (handle op w).1, m), (handle op w).2) := rfl

/-- Running two procedures: the second only if the first has not failed. -/
@[simp] theorem exec_bind {x : Proc Op Res μ ε α} {f : α → Proc Op Res μ ε β} :
    (x >>= f).exec handle m w =
      match x.exec handle m w with
      | ((.ok a, m'), w') => (f a).exec handle m' w'
      | ((.error e, m'), w') => ((.error e, m'), w') := by
  refine (Prog.exec_bind w).trans ?_
  change _ = match Prog.exec handle (x m) w with
    | ((.ok a, m'), w') => (f a).exec handle m' w'
    | ((.error e, m'), w') => ((.error e, m'), w')
  generalize Prog.exec handle (x m) w = r
  obtain ⟨⟨_ | a, m'⟩, w'⟩ := r
  · rfl
  · rfl

/-- Running an attempt, which does not fail. -/
@[simp] theorem exec_attempt {x : Proc Op Res μ ε α} :
    (attempt x : Proc Op Res μ ε' (Except ε α)).exec handle m w =
      ((.ok (x.exec handle m w).1.1, (x.exec handle m w).1.2), (x.exec handle m w).2) :=
  Prog.exec_bind w

/-- An execution whose answers the environment allows is a run. -/
theorem reaches_exec_view {τ : Type} {handle : (op : Op) → τ → Res op × τ} {view : τ → σ}
    (hallow : ∀ op s, env op (view s) (handle op s).1 (view (handle op s).2))
    {x : Proc Op Res μ ε α} {r : Except ε α × μ} {s s' : τ} (h : x.exec handle m s = (r, s')) :
    (x.start m).Reaches env (view s) (.ret r) (view s') := by
  have hreach := Prog.reaches_exec_view hallow (x.start m) s
  unfold exec at h
  rwa [h] at hreach

/-- What a procedure comes to with an allowed handler, it can reach. -/
theorem reaches_exec (hallow : ∀ op w, env op w (handle op w).1 (handle op w).2)
    {x : Proc Op Res μ ε α} {r : Except ε α × μ} {w' : σ} (h : x.exec handle m w = (r, w')) :
    (x.start m).Reaches env w (.ret r) w' := by
  have hreach := Prog.reaches_exec hallow (x.start m) w
  unfold exec at h
  rwa [h] at hreach

end Proc

end Procedures

end Interaction
