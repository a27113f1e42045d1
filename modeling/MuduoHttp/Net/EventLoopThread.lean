import MuduoHttp.Support.Transition

/-!
# Quitting the loop of a thread

`EventLoopThread` runs a loop in a thread of its own.  `startLoop` returns as
soon as the thread has published the loop, and the destructor calls `quit` and
joins.  The thread enters `loop()` after publishing, and `loop()` begins by
clearing `quit_`.  A request is heard exactly when it does not come before
that.
-/

namespace MuduoHttp

open Support

/-- The owner: in front of `startLoop`, waiting in it, behind it, in the
destructor in front of `quit_ = true`, of the wakeup and of the join, and
behind the join. -/
inductive OwnerPc
  | created
  | waiting
  | started
  | quitting
  | waking
  | joining
  | joined
  deriving DecidableEq, Repr

/-- The thread: not started, in front of the constructor of the loop, of its
publication, of `looping_ = true` and of `quit_ = false`, at the test of the
loop, in `poll`, behind it with or without the eventfd readable, and returned
from `loop()`. -/
inductive ThreadPc
  | notStarted
  | constructing
  | publishing
  | entering
  | clearing
  | testing
  | polling
  | working (readable : Bool)
  | returned
  deriving DecidableEq, Repr

/-- `quit()` has written the flag. -/
def OwnerPc.HasQuit : OwnerPc → Prop
  | .waking | .joining | .joined => True
  | .created | .waiting | .started | .quitting => False

/-- The thread runs and has `quit_ = false` of `loop()` in front of it. -/
def ThreadPc.Early : ThreadPc → Prop
  | .constructing | .publishing | .entering | .clearing => True
  | .notStarted | .testing | .polling | .working _ | .returned => False

/-- `published` says that `loop_` is set, and `wakeups` is the counter of the
eventfd. -/
structure EventLoopThread where
  owner : OwnerPc := .created
  thread : ThreadPc := .notStarted
  published : Bool := false
  exiting : Bool := false
  looping : Bool := false
  quit : Bool := false
  wakeups : ℕ := 0

namespace EventLoopThread

/-- `startLoop`, then the destructor. -/
def ownerStep (s : EventLoopThread) : EventLoopThread :=
  match s.owner with
  | .created => { s with owner := .waiting, thread := .constructing }
  | .waiting => if s.published then { s with owner := .started } else s
  | .started => { s with owner := .quitting, exiting := true }
  | .quitting => { s with owner := .waking, quit := true }
  | .waking => { s with owner := .joining, wakeups := s.wakeups + 1 }
  | .joining => if s.thread = .returned then { s with owner := .joined } else s
  | .joined => s

/-- `threadFunc`.  In `poll`, it goes on when the eventfd is readable. -/
def threadStep (s : EventLoopThread) : EventLoopThread :=
  match s.thread with
  | .notStarted => s
  | .constructing =>
      { s with thread := .publishing, looping := false, quit := false }
  | .publishing => { s with thread := .entering, published := true }
  | .entering => { s with thread := .clearing, looping := true }
  | .clearing => { s with thread := .testing, quit := false }
  | .testing =>
      if s.quit then { s with thread := .returned, looping := false }
      else { s with thread := .polling }
  | .polling =>
      if s.wakeups = 0 then s else { s with thread := .working true }
  | .working readable =>
      { s with
        thread := .testing
        wakeups := if readable then 0 else s.wakeups }
  | .returned => s

/-- `poll` returns for another descriptor, or because the time is over. -/
def eventStep (s : EventLoopThread) : EventLoopThread :=
  if s.thread = .polling then
    { s with thread := .working (s.wakeups ≠ 0) }
  else s

inductive Action
  | owner
  | thread
  | event

def step (s : EventLoopThread) : Action → EventLoopThread
  | .owner => s.ownerStep
  | .thread => s.threadStep
  | .event => s.eventStep

/-- The request is not taken back by any later step, and the loop returns
once the owner has written to the eventfd. -/
structure Heard (s : EventLoopThread) : Prop where
  stays : ∀ later, (run step s later).quit = true
  returns :
    (run step s [.owner, .thread, .thread, .thread]).thread = .returned

/-- A request that was made is heard. -/
def QuitKept (s : EventLoopThread) : Prop := s.owner.HasQuit → s.Heard

/-- The step is not a `quit()` in front of the `quit_ = false` of `loop()`. -/
def QuitsLate (s : EventLoopThread) : Action → Prop
  | .owner => s.owner = .quitting → ¬ s.thread.Early
  | .thread | .event => True

variable {s : EventLoopThread}

/-! ## Requests that are heard -/

/-- The request stands in front of a loop that tests it, and the loop does not
stay in `poll` once the owner waits for it. -/
structure Requested (s : EventLoopThread) : Prop where
  owner : s.owner.HasQuit
  quit : s.quit = true
  started : s.thread ≠ .notStarted
  late : ¬ s.thread.Early
  woken : s.owner ≠ .waking → s.thread = .polling → s.wakeups ≠ 0

theorem Requested.ownerStep (h : s.Requested) : s.ownerStep.Requested := by
  have howner := h.owner
  unfold EventLoopThread.ownerStep
  cases hpc : s.owner with
  | waking =>
      exact ⟨trivial, h.quit, h.started, h.late, fun _ _ => Nat.succ_ne_zero _⟩
  | joining =>
      dsimp only
      split
      · exact ⟨trivial, h.quit, h.started, h.late,
          fun _ => h.woken (by simp [hpc])⟩
      · exact h
  | joined => exact h
  | _ => simp [hpc, OwnerPc.HasQuit] at howner

theorem Requested.threadStep (h : s.Requested) : s.threadStep.Requested := by
  have hlate := h.late
  unfold EventLoopThread.threadStep
  cases hpc : s.thread with
  | notStarted => exact absurd hpc h.started
  | testing =>
      simp only [h.quit, if_true]
      exact ⟨h.owner, rfl, by simp, id, by simp⟩
  | polling =>
      dsimp only
      split
      · exact h
      · exact ⟨h.owner, h.quit, by simp, id, by simp⟩
  | working readable => exact ⟨h.owner, h.quit, by simp, id, by simp⟩
  | returned => exact h
  | _ => simp [hpc, ThreadPc.Early] at hlate

theorem Requested.eventStep (h : s.Requested) : s.eventStep.Requested := by
  unfold EventLoopThread.eventStep
  split
  · exact ⟨h.owner, h.quit, by simp, id, by simp⟩
  · exact h

theorem Requested.step (h : s.Requested) (a : Action) :
    (s.step a).Requested := by
  cases a with
  | owner => exact h.ownerStep
  | thread => exact h.threadStep
  | event => exact h.eventStep

/-- The owner writes to the eventfd once. -/
theorem ownerStep_ne_waking (h : s.owner.HasQuit) :
    s.ownerStep.owner ≠ .waking := by
  unfold ownerStep
  cases hpc : s.owner with
  | waking => simp
  | joining =>
      dsimp only
      split
      · simp
      · simp [hpc]
  | joined => simp [hpc]
  | _ => simp [hpc, OwnerPc.HasQuit] at h

theorem Requested.heard (h : s.Requested) : s.Heard where
  stays later :=
    (run_invariant_of_forall Requested (fun _ a hs => hs.step a) h later).quit
  returns := by
    have hnext := h.ownerStep
    have hlate := hnext.late
    have hwoken := hnext.woken (ownerStep_ne_waking h.owner)
    simp only [run_cons, run_nil, EventLoopThread.step]
    generalize s.ownerStep = s' at *
    cases hpc : s'.thread with
    | notStarted => exact absurd hpc hnext.started
    | testing => simp [EventLoopThread.threadStep, hpc, hnext.quit]
    | polling =>
        simp [EventLoopThread.threadStep, hpc, hnext.quit, hwoken hpc]
    | working readable =>
        simp [EventLoopThread.threadStep, hpc, hnext.quit]
    | returned => simp [EventLoopThread.threadStep, hpc]
    | _ => simp [hpc, ThreadPc.Early] at hlate

/-! ## Requests that are lost -/

/-- The request is taken back, or will be. -/
def Doomed (s : EventLoopThread) : Prop :=
  s.owner.HasQuit ∧ (s.thread.Early ∨ s.quit = false)

theorem Doomed.ownerStep (h : s.Doomed) : s.ownerStep.Doomed := by
  obtain ⟨howner, hlost⟩ := h
  unfold EventLoopThread.ownerStep
  cases hpc : s.owner with
  | waking => exact ⟨trivial, hlost⟩
  | joining =>
      dsimp only
      split
      · exact ⟨trivial, hlost⟩
      · exact ⟨howner, hlost⟩
  | joined => exact ⟨howner, hlost⟩
  | _ => simp [hpc, OwnerPc.HasQuit] at howner

theorem Doomed.threadStep (h : s.Doomed) : s.threadStep.Doomed := by
  obtain ⟨howner, hlost⟩ := h
  unfold EventLoopThread.threadStep
  cases hpc : s.thread with
  | notStarted => exact ⟨howner, hlost⟩
  | constructing => exact ⟨howner, .inl trivial⟩
  | publishing => exact ⟨howner, .inl trivial⟩
  | entering => exact ⟨howner, .inl trivial⟩
  | clearing => exact ⟨howner, .inr rfl⟩
  | testing =>
      have hquit : s.quit = false := by simpa [hpc, ThreadPc.Early] using hlost
      simp only [hquit, Bool.false_eq_true, if_false]
      exact ⟨howner, .inr rfl⟩
  | polling =>
      have hquit : s.quit = false := by simpa [hpc, ThreadPc.Early] using hlost
      dsimp only
      split
      · exact ⟨howner, hlost⟩
      · exact ⟨howner, .inr hquit⟩
  | working readable =>
      have hquit : s.quit = false := by simpa [hpc, ThreadPc.Early] using hlost
      exact ⟨howner, .inr hquit⟩
  | returned => exact ⟨howner, hlost⟩

theorem Doomed.step (h : s.Doomed) (a : Action) : (s.step a).Doomed := by
  cases a with
  | owner => exact h.ownerStep
  | thread => exact h.threadStep
  | event =>
      simp only [EventLoopThread.step, eventStep]
      split
      next hpolling =>
        have hquit : s.quit = false := by
          simpa [hpolling, ThreadPc.Early] using h.2
        exact ⟨h.1, .inr hquit⟩
      · exact h

/-- A loop whose request is lost goes on. -/
theorem Doomed.ne_returned_step (h : s.Doomed) (hne : s.thread ≠ .returned)
    (a : Action) : (s.step a).thread ≠ .returned := by
  have howner := h.1
  cases a with
  | owner =>
      simp only [EventLoopThread.step, EventLoopThread.ownerStep]
      cases hpc : s.owner with
      | waking => exact hne
      | joining => simp [hne]
      | joined => exact hne
      | _ => simp [hpc, OwnerPc.HasQuit] at howner
  | thread =>
      simp only [EventLoopThread.step, EventLoopThread.threadStep]
      cases hpc : s.thread with
      | testing =>
          have hquit : s.quit = false := by
            simpa [hpc, ThreadPc.Early] using h.2
          simp [hquit]
      | polling =>
          dsimp only
          split
          · simp [hpc]
          · simp
      | returned => exact absurd hpc hne
      | _ => simp [hpc]
  | event =>
      simp only [EventLoopThread.step, eventStep]
      split
      · simp
      · exact hne

/-- The thread goes on to clear the flag. -/
theorem exists_cleared (h : s.thread.Early) :
    ∃ n, (run step s (List.replicate n .thread)).quit = false := by
  cases hpc : s.thread with
  | constructing => exact ⟨4, by simp [List.replicate, step, threadStep, hpc]⟩
  | publishing => exact ⟨3, by simp [List.replicate, step, threadStep, hpc]⟩
  | entering => exact ⟨2, by simp [List.replicate, step, threadStep, hpc]⟩
  | clearing => exact ⟨1, by simp [List.replicate, step, threadStep, hpc]⟩
  | _ => simp [hpc, ThreadPc.Early] at h

theorem Doomed.not_heard (h : s.Doomed) : ¬ s.Heard := by
  intro hheard
  rcases h.2 with hearly | hquit
  · obtain ⟨n, hcleared⟩ := exists_cleared hearly
    have hstays := hheard.stays (List.replicate n .thread)
    simp [hcleared] at hstays
  · have hstays := hheard.stays []
    simp [hquit] at hstays

/-! ## Runs -/

/-- Before the request the thread is started by the owner, and a request that
was made stands. -/
structure Timely (s : EventLoopThread) : Prop where
  started : s.owner ≠ .created → s.thread ≠ .notStarted
  requested : s.owner.HasQuit → s.Requested

theorem timely_init : Timely {} := ⟨fun h => absurd rfl h, False.elim⟩

theorem threadStep_ne_notStarted (h : s.thread ≠ .notStarted) :
    s.threadStep.thread ≠ .notStarted := by
  unfold threadStep
  cases hpc : s.thread with
  | notStarted => exact absurd hpc h
  | testing => dsimp only; split <;> simp
  | polling => dsimp only; split <;> simp [hpc]
  | returned => simp [hpc]
  | _ => simp

theorem eventStep_ne_notStarted (h : s.thread ≠ .notStarted) :
    s.eventStep.thread ≠ .notStarted := by
  unfold eventStep
  split
  · simp
  · exact h

@[simp] theorem owner_threadStep (s : EventLoopThread) :
    s.threadStep.owner = s.owner := by
  unfold threadStep
  split <;> try rfl
  all_goals split <;> rfl

@[simp] theorem owner_eventStep (s : EventLoopThread) :
    s.eventStep.owner = s.owner := by
  unfold eventStep
  split <;> rfl

theorem Timely.ownerStep (h : s.Timely)
    (hlate : s.owner = .quitting → ¬ s.thread.Early) :
    s.ownerStep.Timely := by
  have hrequested := fun hquit : s.owner.HasQuit =>
    (h.requested hquit).ownerStep
  unfold EventLoopThread.ownerStep at hrequested ⊢
  cases hpc : s.owner with
  | created => exact ⟨by simp, False.elim⟩
  | waiting =>
      have hstarted := h.started (by simp [hpc])
      dsimp only
      split
      · exact ⟨fun _ => hstarted, False.elim⟩
      · exact h
  | started => exact ⟨fun _ => h.started (by simp [hpc]), False.elim⟩
  | quitting =>
      have hstarted := h.started (by simp [hpc])
      exact ⟨fun _ => hstarted, fun _ =>
        ⟨trivial, rfl, hstarted, hlate hpc, fun hne => absurd rfl hne⟩⟩
  | _ =>
      simp only [hpc] at hrequested
      exact ⟨fun _ => (hrequested trivial).started, fun _ =>
        hrequested trivial⟩

theorem Timely.step (h : s.Timely) {a : Action} (ha : s.QuitsLate a) :
    (s.step a).Timely := by
  cases a with
  | owner => exact h.ownerStep ha
  | thread =>
      refine ⟨fun hne => ?_, fun hquit => ?_⟩
      · exact threadStep_ne_notStarted
          (h.started (owner_threadStep s ▸ hne))
      · exact (h.requested (owner_threadStep s ▸ hquit)).threadStep
  | event =>
      refine ⟨fun hne => ?_, fun hquit => ?_⟩
      · exact eventStep_ne_notStarted (h.started (owner_eventStep s ▸ hne))
      · exact (h.requested (owner_eventStep s ▸ hquit)).eventStep

/-- A `quit()` in front of `quit_ = false` is lost. -/
theorem doomed_step {a : Action} (ha : ¬ s.QuitsLate a) :
    (s.step a).Doomed := by
  cases a with
  | owner =>
      obtain ⟨hquitting, hearly⟩ := Classical.not_imp.mp ha
      have hthread := not_not.mp hearly
      simp only [EventLoopThread.step, EventLoopThread.ownerStep, hquitting]
      exact ⟨trivial, .inl hthread⟩
  | thread => exact absurd trivial ha
  | event => exact absurd trivial ha

theorem Timely.not_doomed (h : s.Timely) : ¬ s.Doomed := by
  rintro ⟨hquit, hearly | hlost⟩
  · exact (h.requested hquit).late hearly
  · simp [(h.requested hquit).quit] at hlost

end EventLoopThread

/-- In a run, a quit request that was made stands, and the loop returns, if and
only if `quit()` does not come before the `quit_ = false` of `loop()`. -/
theorem quitKept_run_iff (actions : List EventLoopThread.Action) :
    (run EventLoopThread.step {} actions).QuitKept ↔
      EveryStep EventLoopThread.step EventLoopThread.QuitsLate {} actions := by
  constructor
  · intro hkept
    have hnot : ¬ (run EventLoopThread.step {} actions).Doomed :=
      fun hdoomed => hdoomed.not_heard (hkept hdoomed.1)
    exact (not_damaged_run_iff EventLoopThread.step EventLoopThread.QuitsLate
      EventLoopThread.Timely EventLoopThread.Doomed
      (fun s a h ha => h.step ha)
      (fun s a _ ha => EventLoopThread.doomed_step ha)
      (fun s a h => h.step a) (fun s h => h.not_doomed)
      EventLoopThread.timely_init actions).mp hnot
  · intro hrun hquit
    have htimely := run_invariant EventLoopThread.Timely
      (fun s a h ha => h.step ha) EventLoopThread.timely_init hrun
    exact (htimely.requested hquit).heard

/-! ## A request in front of `loop()` -/

/-- The owner is back from `startLoop` and destroys the object, while the
thread has published the loop and not entered it yet. -/
def quitBeforeLoop : List EventLoopThread.Action :=
  [.owner, .thread, .thread, .owner, .owner, .owner]

theorem doomed_quitBeforeLoop :
    (run EventLoopThread.step {} quitBeforeLoop).Doomed :=
  ⟨trivial, .inl trivial⟩

/-- The request is lost, and the loop never returns. -/
theorem not_quitKept_quitBeforeLoop :
    ¬ (run EventLoopThread.step {} quitBeforeLoop).QuitKept ∧
      ∀ later, (run EventLoopThread.step {}
        (quitBeforeLoop ++ later)).thread ≠ .returned := by
  have hdoomed := doomed_quitBeforeLoop
  refine ⟨fun hkept => hdoomed.not_heard (hkept hdoomed.1), ?_⟩
  intro later
  have hruns := run_invariant_of_forall
    (fun s : EventLoopThread => s.Doomed ∧ s.thread ≠ .returned)
    (fun s a h => ⟨h.1.step a, h.1.ne_returned_step h.2 a⟩)
    ⟨hdoomed, by decide⟩ later
  rw [run_append]
  exact hruns.2

end MuduoHttp
