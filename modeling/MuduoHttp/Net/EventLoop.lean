import MuduoHttp.Support.Transition

/-!
# The functors of an event loop

`EventLoop::loop` polls, calls the handlers, and runs the pending functors.
Other threads push functors under the mutex and write to the eventfd
afterwards; the loop's own thread writes to it only when it queues from a
functor.  However these steps interleave, the functors run once each in the
order of the pushes, and the loop does not block in `poll` on top of them.
-/

namespace MuduoHttp

open Support

/-- Where the thread of the loop is: blocked in `poll`, calling the handlers,
in `doPendingFunctors` before the swap, or behind it. -/
inductive LoopPhase
  | polling
  | handling
  | swapping
  | calling
  deriving DecidableEq, Repr

/-- An event loop with the threads that use it.  `functors` are the swapped
functors not yet called, `wakeups` is the counter of the eventfd, `waking`
counts the threads that have pushed and not yet written to the eventfd, and
`deciding` says that the loop's own thread is at that point of
`queueInLoop`. -/
structure EventLoop (F : Type*) where
  phase : LoopPhase := .polling
  pendingFunctors : List F := []
  functors : List F := []
  callingPendingFunctors : Bool := false
  wakeups : ℕ := 0
  waking : ℕ := 0
  deciding : Bool := false

namespace EventLoop

variable {F : Type*}

/-- The locked part of `queueInLoop`. -/
def push (s : EventLoop F) (f : F) : EventLoop F :=
  { s with pendingFunctors := s.pendingFunctors ++ [f] }

def wakeup (s : EventLoop F) : EventLoop F :=
  { s with wakeups := s.wakeups + 1 }

inductive Action (F : Type*)
  | push (f : F)
  | wakeup
  | poll
  | handleRead
  | queueInLoop (f : F)
  | decide
  | startCalling
  | swap
  | call
  | finish

/-- One step: `push` and `wakeup` are those of other threads, the others those
of the loop's thread.  Its own `queueInLoop` comes from a handler or a functor
and goes on to `decide` about the wakeup before anything else.  An action that
is not enabled changes nothing. -/
def step (s : EventLoop F) : Action F → EventLoop F
  | .push f => { s.push f with waking := s.waking + 1 }
  | .wakeup =>
      if s.waking = 0 then s else { s.wakeup with waking := s.waking - 1 }
  | .poll => if s.phase = .polling then { s with phase := .handling } else s
  | .handleRead =>
      if s.phase = .handling ∧ !s.deciding then { s with wakeups := 0 } else s
  | .queueInLoop f =>
      if (s.phase = .handling ∨ s.phase = .calling) ∧ !s.deciding then
        { s.push f with deciding := true }
      else s
  | .decide =>
      if s.deciding then
        let s := { s with deciding := false }
        if s.callingPendingFunctors then s.wakeup else s
      else s
  | .startCalling =>
      if s.phase = .handling ∧ !s.deciding then
        { s with phase := .swapping, callingPendingFunctors := true }
      else s
  | .swap =>
      if s.phase = .swapping then
        { s with
          phase := .calling
          functors := s.pendingFunctors
          pendingFunctors := [] }
      else s
  | .call =>
      if s.phase = .calling ∧ !s.deciding then
        match s.functors with
        | [] => s
        | _ :: functors => { s with functors := functors }
      else s
  | .finish =>
      if s.phase = .calling ∧ !s.deciding ∧ s.functors.isEmpty then
        { s with phase := .polling, callingPendingFunctors := false }
      else s

/-! ## What a schedule pushes and calls -/

/-- The functor that an action pushes: one of another thread, or one of the
loop's own thread while it may queue. -/
def pushes (s : EventLoop F) : Action F → List F
  | .push f => [f]
  | .queueInLoop f =>
      if (s.phase = .handling ∨ s.phase = .calling) ∧ !s.deciding then [f]
      else []
  | _ => []

/-- The functor that an action calls: the next one of the functor loop. -/
def calls (s : EventLoop F) : Action F → List F
  | .call =>
      if s.phase = .calling ∧ !s.deciding then s.functors.take 1 else []
  | _ => []

/-- The functors that are to be called, in order. -/
def waiting (s : EventLoop F) : List F := s.functors ++ s.pendingFunctors

/-! ## The invariant -/

/-- The eventfd is readable, or somebody is about to write to it. -/
def WillWake (s : EventLoop F) : Prop :=
  0 < s.wakeups ∨ 0 < s.waking ∨
    (s.deciding = true ∧ s.callingPendingFunctors = true)

/-- Between the swap and the next handlers, what is pending wakes the loop. -/
structure Awake (s : EventLoop F) : Prop where
  swapped : s.phase ≠ .calling → s.functors = []
  flag : s.callingPendingFunctors = true ↔
    s.phase = .swapping ∨ s.phase = .calling
  decides : s.deciding = true → s.phase = .handling ∨ s.phase = .calling
  wakes : s.phase = .polling ∨ s.phase = .calling →
    s.pendingFunctors ≠ [] → s.WillWake

variable {s : EventLoop F}

theorem awake_init : Awake ({} : EventLoop F) where
  swapped _ := rfl
  flag := by simp
  decides := by simp
  wakes _ h := absurd rfl h

theorem Awake.push (h : s.Awake) (f : F) :
    Awake { s.push f with waking := s.waking + 1 } where
  swapped := h.swapped
  flag := h.flag
  decides := h.decides
  wakes _ _ := .inr (.inl (Nat.succ_pos _))

theorem Awake.wakeup (h : s.Awake) (waking : ℕ) :
    Awake { s.wakeup with waking := waking } where
  swapped := h.swapped
  flag := h.flag
  decides := h.decides
  wakes _ _ := .inl (Nat.succ_pos _)

/-- The loop's own push wakes the loop if it comes from a functor, and is
swapped before the next `poll` if it comes from a handler. -/
theorem Awake.queueInLoop (h : s.Awake) (f : F)
    (hphase : s.phase = .handling ∨ s.phase = .calling) :
    Awake { s.push f with deciding := true } where
  swapped := h.swapped
  flag := h.flag
  decides _ := hphase
  wakes hpolling _ := by
    have hcalling : s.phase = .calling := by
      rcases hphase with hhandling | hcalling
      · rcases hpolling with hpolling | hcalling
        · exact absurd (hhandling.symm.trans hpolling) (by decide)
        · exact hcalling
      · exact hcalling
    exact .inr (.inr ⟨rfl, h.flag.mpr (.inr hcalling)⟩)

theorem Awake.decide (h : s.Awake) : (s.step .decide).Awake := by
  simp only [step]
  split
  next hdeciding =>
    cases hflag : s.callingPendingFunctors with
    | true =>
        have hdone : Awake
            { s with deciding := false, wakeups := s.wakeups + 1 } :=
          ⟨h.swapped, h.flag, by simp, fun _ _ => .inl (Nat.succ_pos _)⟩
        simpa [EventLoop.wakeup, hflag] using hdone
    | false =>
        -- Only a handler decides without the flag, and the swap is to come.
        have hphase : s.phase = .handling := by
          rcases h.decides hdeciding with hhandling | hcalling
          · exact hhandling
          · have hset := h.flag.mpr (.inr hcalling)
            simp [hflag] at hset
        have hdone : Awake { s with deciding := false } :=
          ⟨h.swapped, h.flag, by simp, by simp [hphase]⟩
        simpa [hflag] using hdone
  · exact h

theorem Awake.step (h : s.Awake) (a : Action F) : (s.step a).Awake := by
  cases a with
  | push f => exact h.push f
  | wakeup =>
      simp only [EventLoop.step]
      split
      · exact h
      · exact h.wakeup _
  | poll =>
      simp only [EventLoop.step]
      split
      next hpolling =>
        refine ⟨fun _ => h.swapped (by simp [hpolling]), ?_,
          fun _ => .inl rfl, by simp⟩
        simpa [hpolling] using h.flag
      · exact h
  | handleRead =>
      simp only [EventLoop.step]
      split
      next hhandling =>
        exact ⟨h.swapped, h.flag, h.decides, by simp [hhandling.1]⟩
      · exact h
  | queueInLoop f =>
      simp only [EventLoop.step]
      split
      next hphase => exact h.queueInLoop f hphase.1
      · exact h
  | decide => exact h.decide
  | startCalling =>
      simp only [EventLoop.step]
      split
      next hhandling =>
        have hidle : s.deciding = false := by simpa using hhandling.2
        exact ⟨fun _ => h.swapped (by simp [hhandling.1]), by simp,
          by simp [hidle], by simp⟩
      · exact h
  | swap =>
      simp only [EventLoop.step]
      split
      next hswapping =>
        refine ⟨fun hne => absurd rfl hne, ?_, fun _ => .inr rfl, ?_⟩
        · simpa [hswapping] using h.flag
        · exact fun _ hpending => absurd rfl hpending
      · exact h
  | call =>
      simp only [EventLoop.step]
      split
      next hcalling =>
        split
        · exact h
        · exact ⟨fun hne => absurd hcalling.1 hne, h.flag, h.decides, h.wakes⟩
      · exact h
  | finish =>
      simp only [EventLoop.step]
      split
      next hdone =>
        have hidle : s.deciding = false := by simpa using hdone.2.1
        refine ⟨fun _ => by simpa using hdone.2.2, by simp,
          by simp [hidle], ?_⟩
        intro _ hpending
        rcases h.wakes (.inr hdone.1) hpending with hwoken | hwaking | hboth
        · exact .inl hwoken
        · exact .inr (.inl hwaking)
        · simp [hidle] at hboth
      · exact h

/-- A step calls the functor in front and pushes behind the others. -/
theorem Awake.calls_append_waiting (h : s.Awake) (a : Action F) :
    s.calls a ++ (s.step a).waiting = s.waiting ++ s.pushes a := by
  cases a with
  | push f => simp [calls, pushes, EventLoop.step, waiting, EventLoop.push]
  | queueInLoop f =>
      simp only [calls, pushes, EventLoop.step, waiting]
      split
      · simp [EventLoop.push]
      · simp
  | swap =>
      simp only [calls, pushes, EventLoop.step, waiting]
      split
      next hswapping =>
        -- nothing is left of the batch before
        have hnil := h.swapped (by simp [hswapping])
        simp [hnil]
      · simp
  | call =>
      simp only [calls, pushes, EventLoop.step, waiting]
      split
      · cases hfunctors : s.functors with
        | nil => simp [hfunctors]
        | cons f functors => simp
      · simp
  | wakeup =>
      simp only [calls, pushes, EventLoop.step, waiting]
      split <;> simp [EventLoop.wakeup]
  | decide =>
      simp only [calls, pushes, EventLoop.step, waiting]
      split
      · split <;> simp [EventLoop.wakeup]
      · simp
  | poll =>
      simp only [calls, pushes, EventLoop.step, waiting]
      split <;> simp
  | handleRead =>
      simp only [calls, pushes, EventLoop.step, waiting]
      split <;> simp
  | startCalling =>
      simp only [calls, pushes, EventLoop.step, waiting]
      split <;> simp
  | finish =>
      simp only [calls, pushes, EventLoop.step, waiting]
      split <;> simp

end EventLoop

end MuduoHttp
