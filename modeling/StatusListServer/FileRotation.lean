import Mathlib.Logic.Function.Basic
import StatusListServer.BitStream

/-!
# Rotation of a watched file

The file watcher of `utils/file_watcher.rs` between a file that changes and an
application that has loaded it: `spawn` installs the watcher and starts the
debouncer, which takes a baseline fingerprint when its task first runs and then
receives an event, drains the ones that follow, takes a fingerprint, compares it
with the one it remembers, remembers it and runs the callback, in which the
application loads the file again.  Every change of the file after the watcher is
installed puts an event into the queue; there may be events without a change.

The application loads the file by reads of its own: once before the watcher is
installed, and once in every callback.  What the debouncer remembers is the
fingerprint of another read.  Nothing is lost as long as the two agree at the
baseline, and no write puts back the remembered content while the application
holds another one.
-/

namespace StatusListServer

/-- Where the debouncer stands, with the fingerprints it holds. -/
inductive DebouncerPhase (F : Type)
  | unwatched
  | unstarted
  | waiting (last : F)
  | draining (last : F)
  | settled (last : F)
  | fingerprinted (last current : F)
  | dispatching (last : F)
deriving DecidableEq, Repr

/-- The watcher is installed. -/
def DebouncerPhase.watched {F : Type} : DebouncerPhase F → Bool
  | .unwatched => false
  | _ => true

/-- The watched file, the event queue, the content the application has loaded, and
the debouncer. -/
structure Rotation (C F : Type) where
  file : C
  events : Nat
  loaded : C
  phase : DebouncerPhase F
deriving DecidableEq, Repr

/-- A write of the file, an event without a change, or a step of the watcher. -/
inductive RotationAction (C : Type)
  | write (content : C)
  | spuriousEvent
  | install
  | baseline
  | receive
  | drain
  | settle
  | fingerprint
  | compare
  | callback
deriving DecidableEq, Repr

namespace Rotation

variable {C F : Type} (fingerprint : C → F)

/-- The application has loaded the file, and the watcher is not yet installed. -/
def started (content : C) : Rotation C F := ⟨content, 0, content, .unwatched⟩

section Steps

variable [DecidableEq F]

/-- One step.  The drain ends when no event is left, an equal fingerprint skips the
callback, and the callback loads the file. -/
def step (s : Rotation C F) : RotationAction C → Option (Rotation C F)
  | .write content =>
      some { s with
        file := content
        events := if s.phase.watched then s.events + 1 else s.events }
  | .spuriousEvent => if s.phase.watched then some { s with events := s.events + 1 } else none
  | .install =>
      match s.phase with
      | .unwatched => some { s with phase := .unstarted }
      | _ => none
  | .baseline =>
      match s.phase with
      | .unstarted => some { s with phase := .waiting (fingerprint s.file) }
      | _ => none
  | .receive =>
      match s.phase, s.events with
      | .waiting last, events + 1 => some { s with events := events, phase := .draining last }
      | _, _ => none
  | .drain =>
      match s.phase, s.events with
      | .draining _, events + 1 => some { s with events := events }
      | _, _ => none
  | .settle =>
      match s.phase, s.events with
      | .draining last, 0 => some { s with phase := .settled last }
      | _, _ => none
  | .fingerprint =>
      match s.phase with
      | .settled last => some { s with phase := .fingerprinted last (fingerprint s.file) }
      | _ => none
  | .compare =>
      match s.phase with
      | .fingerprinted last current =>
          if current = last then some { s with phase := .waiting last }
          else some { s with phase := .dispatching current }
      | _ => none
  | .callback =>
      match s.phase with
      | .dispatching last => some { s with loaded := s.file, phase := .waiting last }
      | _ => none

/-- Any number of steps, each of which is allowed where it is taken. -/
inductive Run (may : Rotation C F → RotationAction C → Prop) (s₀ : Rotation C F) :
    List (RotationAction C) → Rotation C F → Prop
  | nil : Run may s₀ [] s₀
  | snoc {actions : List (RotationAction C)} {s s' : Rotation C F} {action : RotationAction C}
      (hrun : Run may s₀ actions s) (hmay : may s action)
      (hstep : s.step fingerprint action = some s') : Run may s₀ (actions ++ [action]) s'

end Steps

/-- The debouncer is waiting for an event, and there is none. -/
def quiet (s : Rotation C F) : Bool :=
  match s.phase with
  | .waiting _ => s.events == 0
  | _ => false

/-- The fingerprint that the next comparison is made with, unless a callback is about
to run. -/
def remembered (s : Rotation C F) : Option F :=
  match s.phase with
  | .waiting last | .draining last | .settled last => some last
  | _ => none

/-- The file holds what the application has loaded when the baseline is taken, and no
write puts the remembered content back while the application holds another one. -/
def Unmistaken (s : Rotation C F) : RotationAction C → Prop
  | .baseline => s.file = s.loaded
  | .write content => s.remembered = some (fingerprint content) → content = s.loaded
  | _ => True

/-- A file whose fingerprint is remembered is the loaded one, and a file that has
changed since its last fingerprint has left an event. -/
def Tracked (s : Rotation C F) : Prop :=
  match s.phase with
  | .unwatched | .unstarted => True
  | .waiting last =>
      (fingerprint s.file = last ∨ 0 < s.events) ∧ (fingerprint s.file = last → s.file = s.loaded)
  | .draining last | .settled last => fingerprint s.file = last → s.file = s.loaded
  | .fingerprinted last current =>
      (fingerprint s.file = current ∨ 0 < s.events) ∧
        (current = last → fingerprint s.loaded = last)
  | .dispatching last => fingerprint s.file = last ∨ 0 < s.events

variable {fingerprint} {s s' s₀ : Rotation C F} {action : RotationAction C}

/-- A write that puts back no mistaken content keeps the invariant. -/
theorem Tracked.write (h : s.Tracked fingerprint) {content : C}
    (hmay : s.Unmistaken fingerprint (.write content)) :
    Tracked fingerprint { s with
      file := content
      events := if s.phase.watched then s.events + 1 else s.events } := by
  obtain ⟨file, events, loaded, phase⟩ := s
  cases phase with
  | unwatched => trivial
  | unstarted => trivial
  | waiting last =>
      refine ⟨.inr (Nat.succ_pos _), ?_⟩
      intro hsame
      exact hmay (congrArg some hsame.symm)
  | draining last => exact fun hsame => hmay (congrArg some hsame.symm)
  | settled last => exact fun hsame => hmay (congrArg some hsame.symm)
  | fingerprinted last current => exact ⟨.inr (Nat.succ_pos _), h.2⟩
  | dispatching last => exact .inr (Nat.succ_pos _)

/-- Another event disturbs nothing. -/
theorem Tracked.event (h : s.Tracked fingerprint) :
    Tracked fingerprint { s with events := s.events + 1 } := by
  obtain ⟨file, events, loaded, phase⟩ := s
  cases phase with
  | unwatched => trivial
  | unstarted => trivial
  | waiting last => exact ⟨.inr (Nat.succ_pos _), h.2⟩
  | draining last => exact h
  | settled last => exact h
  | fingerprinted last current => exact ⟨.inr (Nat.succ_pos _), h.2⟩
  | dispatching last => exact .inr (Nat.succ_pos _)

variable [DecidableEq F]

/-- One step keeps the invariant, if it is not mistaken. -/
theorem Tracked.step (hinj : Function.Injective fingerprint) (h : s.Tracked fingerprint)
    (hmay : s.Unmistaken fingerprint action) (hstep : s.step fingerprint action = some s') :
    s'.Tracked fingerprint := by
  obtain ⟨file, events, loaded, phase⟩ := s
  cases action with
  | write content =>
      cases hstep
      exact h.write hmay
  | spuriousEvent =>
      simp only [Rotation.step] at hstep
      split at hstep
      · cases hstep
        exact h.event
      · cases hstep
  | install =>
      cases phase with
      | unwatched =>
          cases hstep
          trivial
      | _ => cases hstep
  | baseline =>
      cases phase with
      | unstarted =>
          cases hstep
          exact ⟨.inl rfl, fun _ => hmay⟩
      | _ => cases hstep
  | receive =>
      cases phase with
      | waiting last =>
          cases events with
          | zero => cases hstep
          | succ events =>
              cases hstep
              exact h.2
      | _ => cases hstep
  | drain =>
      cases phase with
      | draining last =>
          cases events with
          | zero => cases hstep
          | succ events =>
              cases hstep
              exact h
      | _ => cases hstep
  | settle =>
      cases phase with
      | draining last =>
          cases events with
          | zero =>
              cases hstep
              exact h
          | succ events => cases hstep
      | _ => cases hstep
  | fingerprint =>
      cases phase with
      | settled last =>
          cases hstep
          refine ⟨.inl rfl, ?_⟩
          intro hsame
          have hloaded : file = loaded := h hsame
          rwa [hloaded] at hsame
      | _ => cases hstep
  | compare =>
      cases phase with
      | fingerprinted last current =>
          obtain ⟨hevent, hloaded⟩ := h
          simp only [Rotation.step] at hstep
          split at hstep
          · rename_i hsame
            subst hsame
            cases hstep
            refine ⟨hevent, ?_⟩
            intro hfile
            exact hinj (hfile.trans (hloaded rfl).symm)
          · cases hstep
            exact hevent
      | _ => cases hstep
  | callback =>
      cases phase with
      | dispatching last =>
          cases hstep
          exact ⟨h, fun _ => rfl⟩
      | _ => cases hstep

/-- In every run whose changes are told apart the server is tracked. -/
theorem Run.tracked (hinj : Function.Injective fingerprint) (h₀ : s₀.Tracked fingerprint)
    {actions : List (RotationAction C)}
    (hrun : Run fingerprint (Unmistaken fingerprint) s₀ actions s) : s.Tracked fingerprint := by
  induction hrun with
  | nil => exact h₀
  | snoc _ hmay hstep ih => exact ih.step hinj hmay hstep

/-- **File rotation loses no change unless the debouncer is mistaken about what the
application holds.**  In every interleaving of writes with the steps of the watcher,
if the file holds what the application has loaded when the baseline is taken, and no
write puts the remembered content back while the application holds another one, then
whenever the debouncer waits on an empty queue the application holds the file. -/
theorem rotation_loses_no_change (hinj : Function.Injective fingerprint) {content : C}
    {actions : List (RotationAction C)}
    (hrun : Run fingerprint (Unmistaken fingerprint) (started content) actions s)
    (hquiet : s.quiet = true) : s.loaded = s.file := by
  have hstart : Tracked fingerprint (started content) := trivial
  have htracked := hrun.tracked hinj hstart
  obtain ⟨file, events, loaded, phase⟩ := s
  cases phase with
  | waiting last =>
      obtain ⟨hsame | hevent, hloaded⟩ := htracked
      · exact (hloaded hsame).symm
      · have hempty : events = 0 := by simpa [quiet] using hquiet
        exact absurd hempty (Nat.ne_of_gt hevent)
  | _ => cases hquiet

/-- A run that starts with a given step. -/
theorem Run.cons {may : Rotation C F → RotationAction C → Prop} {s₁ : Rotation C F}
    {actions : List (RotationAction C)} (action : RotationAction C) (hmay : may s₀ action)
    (hstep : s₀.step fingerprint action = some s₁) (hrun : Run fingerprint may s₁ actions s) :
    Run fingerprint may s₀ (action :: actions) s := by
  induction hrun with
  | nil =>
      have hfirst : Run fingerprint may s₀ ([] ++ [action]) s₁ := .snoc .nil hmay hstep
      exact hfirst
  | snoc _ hmay' hstep' ih => exact .snoc ih hmay' hstep'

/-- No step of the run writes the file. -/
def Unwritten (_ : Rotation C F) (action : RotationAction C) : Prop :=
  ∀ content, action ≠ .write content

section Mistakes

variable (fingerprint) (file loaded : C)

/-- An equal fingerprint is passed over. -/
theorem step_compare_same (events : Nat) :
    Rotation.step fingerprint
      ⟨file, events, loaded, .fingerprinted (fingerprint file) (fingerprint file)⟩ .compare =
      some ⟨file, events, loaded, .waiting (fingerprint file)⟩ := if_pos rfl

/-- The events of a file whose fingerprint is remembered run to nothing. -/
theorem drains_unnoticed (events : Nat) :
    ∃ actions, Run fingerprint Unwritten ⟨file, events, loaded, .draining (fingerprint file)⟩
      actions ⟨file, 0, loaded, .waiting (fingerprint file)⟩ := by
  induction events with
  | zero =>
      exact ⟨_, .cons .settle (by simp [Unwritten]) rfl
        (.cons .fingerprint (by simp [Unwritten]) rfl
          (.cons .compare (by simp [Unwritten]) (step_compare_same fingerprint file loaded 0)
            .nil))⟩
  | succ events ih =>
      obtain ⟨actions, hrun⟩ := ih
      exact ⟨_, .cons .drain (by simp [Unwritten]) rfl hrun⟩

/-- Waiting for the events of a file that has not changed. -/
theorem waits_unnoticed (events : Nat) :
    ∃ actions, Run fingerprint Unwritten ⟨file, events, loaded, .waiting (fingerprint file)⟩
      actions ⟨file, 0, loaded, .waiting (fingerprint file)⟩ := by
  cases events with
  | zero => exact ⟨_, .nil⟩
  | succ events =>
      obtain ⟨actions, hrun⟩ := drains_unnoticed fingerprint file loaded events
      exact ⟨_, .cons .receive (by simp [Unwritten]) rfl hrun⟩

/-- Settling on a file that has not changed. -/
theorem settles_unnoticed (events : Nat) :
    ∃ actions, Run fingerprint Unwritten ⟨file, events, loaded, .settled (fingerprint file)⟩
      actions ⟨file, 0, loaded, .waiting (fingerprint file)⟩ := by
  obtain ⟨actions, hrun⟩ := waits_unnoticed fingerprint file loaded events
  exact ⟨_, .cons .fingerprint (by simp [Unwritten]) rfl (.cons .compare (by simp [Unwritten])
    (step_compare_same fingerprint file loaded events) hrun)⟩

variable {fingerprint}

/-- After a mistaken step the application is left behind unless the file is written
again. -/
theorem mistake_is_lost (hmistake : ¬s.Unmistaken fingerprint action)
    (hstep : s.step fingerprint action = some s') :
    ∃ actions s'', Run fingerprint Unwritten s' actions s'' ∧ s''.quiet = true ∧
      s''.loaded ≠ s''.file := by
  obtain ⟨file, events, loaded, phase⟩ := s
  cases action with
  | baseline =>
      cases phase with
      | unstarted =>
          cases hstep
          obtain ⟨actions, hrun⟩ := waits_unnoticed fingerprint file loaded events
          exact ⟨actions, _, hrun, rfl, fun hsame => hmistake hsame.symm⟩
      | _ => cases hstep
  | write content =>
      cases hstep
      obtain ⟨hremembered, hother⟩ := Classical.not_imp.mp hmistake
      have hbehind : loaded ≠ content := fun hsame => hother hsame.symm
      cases phase with
      | waiting last =>
          cases hremembered
          obtain ⟨actions, hrun⟩ := waits_unnoticed fingerprint content loaded (events + 1)
          exact ⟨actions, _, hrun, rfl, hbehind⟩
      | draining last =>
          cases hremembered
          obtain ⟨actions, hrun⟩ := drains_unnoticed fingerprint content loaded (events + 1)
          exact ⟨actions, _, hrun, rfl, hbehind⟩
      | settled last =>
          cases hremembered
          obtain ⟨actions, hrun⟩ := settles_unnoticed fingerprint content loaded (events + 1)
          exact ⟨actions, _, hrun, rfl, hbehind⟩
      | _ => cases hremembered
  | _ => exact absurd trivial hmistake

end Mistakes

section Samples

/-- Three passwords. -/
def oldPassword : List BitStream.Byte := [111, 108, 100]

/-- The password that is loaded. -/
def newPassword : List BitStream.Byte := [110, 101, 119]

/-- The password after it. -/
def nextPassword : List BitStream.Byte := [110, 101, 120, 116]

/-- The first two passwords differ. -/
theorem oldPassword_ne : oldPassword ≠ newPassword := by
  decide

/-- The theorem where one password replaces another. -/
theorem rotation_loses_no_change_sample :
    ∃ actions s, Run id (Unmistaken id) (started oldPassword) actions s ∧ s.quiet = true ∧
      s.file = newPassword ∧ s.loaded = s.file := by
  have hwrite : Unmistaken id ⟨oldPassword, 0, oldPassword, .waiting oldPassword⟩
      (.write newPassword) :=
    fun hremembered => absurd (Option.some.inj hremembered) oldPassword_ne
  have hrun : Run id (Unmistaken id) (started oldPassword) [.install, .baseline,
      .write newPassword, .receive, .settle, .fingerprint, .compare, .callback]
      ⟨newPassword, 0, newPassword, .waiting newPassword⟩ := by
    apply Run.cons .install trivial rfl
    apply Run.cons .baseline rfl rfl
    apply Run.cons (.write newPassword) hwrite rfl
    apply Run.cons .receive trivial rfl
    apply Run.cons .settle trivial rfl
    apply Run.cons .fingerprint trivial rfl
    apply Run.cons .compare trivial rfl
    apply Run.cons .callback trivial rfl
    exact .nil
  exact ⟨_, _, hrun, rfl, rfl, rotation_loses_no_change Function.injective_id hrun rfl⟩

/-- A change is lost when it falls between the initial load and the baseline, and when
a callback loads a content that is taken back before its own fingerprint. -/
theorem rotation_loses_changes :
    (∃ s, Run id (fun _ _ => True) (started oldPassword)
        [.install, .write newPassword, .baseline, .receive, .settle, .fingerprint, .compare] s ∧
      s.quiet = true ∧ s.file = newPassword ∧ s.loaded = oldPassword) ∧
    (∃ s, Run id (fun _ _ => True) (started oldPassword)
        [.install, .baseline, .write nextPassword, .receive, .settle, .fingerprint, .compare,
          .write newPassword, .callback, .write nextPassword, .receive, .drain, .settle,
          .fingerprint, .compare] s ∧
      s.quiet = true ∧ s.file = nextPassword ∧ s.loaded = newPassword) ∧
    oldPassword ≠ newPassword ∧ newPassword ≠ nextPassword := by
  refine ⟨⟨⟨newPassword, 0, oldPassword, .waiting newPassword⟩, ?_, rfl, rfl, rfl⟩,
    ⟨⟨nextPassword, 0, newPassword, .waiting nextPassword⟩, ?_, rfl, rfl, rfl⟩, oldPassword_ne,
    by decide⟩
  · apply Run.cons .install trivial rfl
    apply Run.cons (.write newPassword) trivial rfl
    apply Run.cons .baseline trivial rfl
    apply Run.cons .receive trivial rfl
    apply Run.cons .settle trivial rfl
    apply Run.cons .fingerprint trivial rfl
    apply Run.cons .compare trivial rfl
    exact .nil
  · apply Run.cons .install trivial rfl
    apply Run.cons .baseline trivial rfl
    apply Run.cons (.write nextPassword) trivial rfl
    apply Run.cons .receive trivial rfl
    apply Run.cons .settle trivial rfl
    apply Run.cons .fingerprint trivial rfl
    apply Run.cons .compare trivial rfl
    apply Run.cons (.write newPassword) trivial rfl
    apply Run.cons .callback trivial rfl
    apply Run.cons (.write nextPassword) trivial rfl
    apply Run.cons .receive trivial rfl
    apply Run.cons .drain trivial rfl
    apply Run.cons .settle trivial rfl
    apply Run.cons .fingerprint trivial rfl
    apply Run.cons .compare trivial rfl
    exact .nil

end Samples

end Rotation

end StatusListServer
