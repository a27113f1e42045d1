import MuduoHttp.Net.TimerReset
import MuduoHttp.Support.Transition

/-!
# Timers of an event loop

Timers are added and cancelled in the loop thread, also by the callbacks that
`handleRead` runs, and from other threads through the functor queue of the
loop.  A step is what happens between two points where another thread or a
callback can act.
-/

namespace MuduoHttp

open Support

/-- The functors of the timer queue. -/
inductive TimerFunctor (T : Type*)
  | addTimerInLoop (t : T)
  | cancelInLoop (t : T)
  deriving DecidableEq, Repr

def TimerFunctor.timer {T : Type*} : TimerFunctor T → T
  | .addTimerInLoop t | .cancelInLoop t => t

/-- The timer that a functor adds. -/
def TimerFunctor.added? {T : Type*} : TimerFunctor T → Option T
  | .addTimerInLoop t => some t
  | .cancelInLoop _ => none

/-- An executed `addTimerInLoop` or `cancelInLoop`, or the start of a
callback. -/
inductive TimerEvent (T : Type*)
  | added (t : T)
  | canceled (t : T)
  | started (t : T)
  deriving DecidableEq, Repr

/-- The timer that is cancelled. -/
def TimerEvent.canceled? {T : Type*} : TimerEvent T → Option T
  | .canceled t => some t
  | .added _ | .started _ => none

/-- The timer whose callback is started. -/
def TimerEvent.started? {T : Type*} : TimerEvent T → Option T
  | .started t => some t
  | .added _ | .canceled _ => none

/-- The loop thread is outside `handleRead`, or in the loop that runs the
callbacks: at the last of the entries `ran`, in front of `rest`. -/
inductive ReadPhase (T : Type*)
  | idle
  | reading (now : ℤ) (ran rest : List (Entry T))

namespace ReadPhase

variable {T : Type*}

/-- The vector `expired`. -/
def expired : ReadPhase T → List (Entry T)
  | idle => []
  | reading _ ran rest => ran ++ rest

/-- The entries whose callbacks are still to be run. -/
def rest : ReadPhase T → List (Entry T)
  | idle => []
  | reading _ _ rest => rest

/-- The loop thread runs code of the user: a handler, a functor or the
callback of a timer. -/
def userCode : ReadPhase T → Bool
  | idle => true
  | reading _ ran _ => !ran.isEmpty

end ReadPhase

structure TimerLoop (T : Type*) [LinearOrder T] where
  queue : TimerQueue T
  phase : ReadPhase T := .idle
  pendingFunctors : List (TimerFunctor T) := []
  created : List T := []
  log : List (TimerEvent T) := []

namespace TimerLoop

variable {T : Type*} [LinearOrder T]

/-- `inLoop` says whether the call is made in the loop thread; `held` whether
somebody else has a pointer to the timer, as functors have that were called
but not destroyed yet. -/
inductive Action (T : Type*)
  | addTimer (t : T) (when : ℤ) (interval : Option ℕ) (inLoop : Bool)
      (clock : ℤ)
  | cancel (t : T) (inLoop held : Bool)
  | pendingFunctor (held : Bool) (clock : ℤ)
  | handleRead (now : Clock) (readAt : ℤ)
  | callback
  | reset (clock : ℤ)

def runAt (t : T) (time : ℤ) (inLoop : Bool) (clock : ℤ) : Action T :=
  .addTimer t time none inLoop clock

def runAfter (t : T) (delay : ℤ) (inLoop : Bool) (clock : ℤ) : Action T :=
  runAt t (clock + delay) inLoop clock

/-- `interval` is positive. -/
def runEvery (t : T) (interval : ℕ) (inLoop : Bool) (clock : ℤ) : Action T :=
  .addTimer t (clock + interval) (some interval) inLoop clock

/-- `lock` of the pointer in a `TimerId`. -/
def alive (s : TimerLoop T) (t : T) (held : Bool) : Bool :=
  held || s.queue.owns t || s.phase.expired.any (fun e => e.timer = t) ||
    s.pendingFunctors.any fun f => f.added? = some t

def record (s : TimerLoop T) (event : TimerEvent T) : TimerLoop T :=
  { s with log := s.log ++ [event] }

def addTimerInLoop (s : TimerLoop T) (t : T) (clock : ℤ) : TimerLoop T :=
  { s with queue := s.queue.addTimerInLoop t clock }.record (.added t)

def cancelInLoop (s : TimerLoop T) (t : T) (held : Bool) : TimerLoop T :=
  { s with queue := s.queue.cancelInLoop t (s.alive t held) }.record
    (.canceled t)

/-- `new Timer`. -/
def create (s : TimerLoop T) (t : T) (when : ℤ) (interval : Option ℕ) :
    TimerLoop T :=
  { s with
    queue := s.queue.setTimer t { expiration := when, interval := interval }
    created := t :: s.created }

def queueInLoop (s : TimerLoop T) (f : TimerFunctor T) : TimerLoop T :=
  { s with pendingFunctors := s.pendingFunctors ++ [f] }

def addTimer (s : TimerLoop T) (t : T) (when : ℤ) (interval : Option ℕ)
    (inLoop : Bool) (clock : ℤ) : TimerLoop T :=
  let s := s.create t when interval
  if inLoop then s.addTimerInLoop t clock
  else s.queueInLoop (.addTimerInLoop t)

def cancel (s : TimerLoop T) (t : T) (inLoop held : Bool) : TimerLoop T :=
  if inLoop then s.cancelInLoop t held else s.queueInLoop (.cancelInLoop t)

/-- One functor of `doPendingFunctors`. -/
def pendingFunctor (s : TimerLoop T) (held : Bool) (clock : ℤ) :
    TimerLoop T :=
  match s.pendingFunctors with
  | [] => s
  | f :: rest =>
      let s := { s with pendingFunctors := rest }
      match f with
      | .addTimerInLoop t => s.addTimerInLoop t clock
      | .cancelInLoop t => s.cancelInLoop t held

/-- `handleRead` up to the loop that runs the callbacks. -/
def handleRead (s : TimerLoop T) (now readAt : ℤ) : TimerLoop T :=
  let (expired, queue) := s.queue.startRead now readAt
  { s with queue := queue, phase := .reading now [] expired }

def step (s : TimerLoop T) : Action T → TimerLoop T
  | .addTimer t when interval inLoop clock =>
      if t ∉ s.created ∧ (inLoop → s.phase.userCode) then
        s.addTimer t when interval inLoop clock
      else s
  | .cancel t inLoop held =>
      if t ∈ s.created ∧ (inLoop → s.phase.userCode) then
        s.cancel t inLoop held
      else s
  | .pendingFunctor held clock =>
      match s.phase with
      | .idle => s.pendingFunctor held clock
      | .reading _ _ _ => s
  | .handleRead now readAt =>
      match s.phase with
      | .idle => s.handleRead now readAt
      | .reading _ _ _ => s
  | .callback =>
      match s.phase with
      | .reading now ran (e :: rest) =>
          { s with phase := .reading now (ran ++ [e]) rest }.record
            (.started e.timer)
      | _ => s
  | .reset clock =>
      match s.phase with
      | .reading now ran [] =>
          { s with
            queue := s.queue.finishRead ran now clock
            phase := .idle }
      | _ => s

/-- The timer for which the step executes `cancelInLoop`. -/
def cancels? (s : TimerLoop T) : Action T → Option T
  | .cancel t inLoop _ =>
      if t ∈ s.created ∧ inLoop ∧ s.phase.userCode then some t else none
  | .pendingFunctor _ _ =>
      match s.phase, s.pendingFunctors with
      | .idle, .cancelInLoop t :: _ => some t
      | _, _ => none
  | _ => none

/-- What holds after every kind of step holds after a step. -/
theorem step_cases {P : TimerLoop T → Prop} {s : TimerLoop T} {a : Action T}
    (hsame : P s)
    (hadd : ∀ t when interval clock, t ∉ s.created →
      P ((s.create t when interval).addTimerInLoop t clock))
    (hqueueAdd : ∀ t when interval, t ∉ s.created →
      P ((s.create t when interval).queueInLoop (.addTimerInLoop t)))
    (hcancel : ∀ t held, s.cancels? a = some t → P (s.cancelInLoop t held))
    (hqueueCancel : ∀ t, t ∈ s.created → P (s.queueInLoop (.cancelInLoop t)))
    (hpopAdd : ∀ t rest clock, s.phase = .idle →
      s.pendingFunctors = .addTimerInLoop t :: rest →
        P (TimerLoop.addTimerInLoop { s with pendingFunctors := rest } t
          clock))
    (hpopCancel : ∀ t rest held, s.phase = .idle →
      s.pendingFunctors = .cancelInLoop t :: rest → s.cancels? a = some t →
        P (TimerLoop.cancelInLoop { s with pendingFunctors := rest } t held))
    (hread : ∀ (now : Clock) readAt, s.phase = .idle →
      P (s.handleRead now readAt))
    (hcallback : ∀ now ran e rest, s.phase = .reading now ran (e :: rest) →
      P (TimerLoop.record { s with phase := .reading now (ran ++ [e]) rest }
        (.started e.timer)))
    (hreset : ∀ now ran clock, s.phase = .reading now ran [] →
      a = .reset clock →
        P { s with
          queue := s.queue.finishRead ran now clock
          phase := .idle }) :
    P (s.step a) := by
  cases a with
  | addTimer t when interval inLoop clock =>
      unfold step
      dsimp only
      split
      next hready =>
        unfold addTimer
        dsimp only
        split
        · exact hadd t when interval clock hready.1
        · exact hqueueAdd t when interval hready.1
      · exact hsame
  | cancel t inLoop held =>
      unfold step
      dsimp only
      split
      next hready =>
        unfold cancel
        split
        next hloop =>
          exact hcancel t held (if_pos ⟨hready.1, hloop, hready.2 hloop⟩)
        · exact hqueueCancel t hready.1
      · exact hsame
  | pendingFunctor held clock =>
      unfold step
      dsimp only
      split
      next hphase =>
        unfold pendingFunctor
        split
        · exact hsame
        next f rest hf =>
          cases f with
          | addTimerInLoop t => exact hpopAdd t rest clock hphase hf
          | cancelInLoop t =>
              refine hpopCancel t rest held hphase hf ?_
              simp only [cancels?, hphase, hf]
      · exact hsame
  | handleRead now readAt =>
      unfold step
      dsimp only
      split
      next hphase => exact hread now readAt hphase
      · exact hsame
  | callback =>
      unfold step
      dsimp only
      split
      next now ran e rest hphase => exact hcallback now ran e rest hphase
      · exact hsame
  | reset clock =>
      unfold step
      dsimp only
      split
      next now ran hphase => exact hreset now ran clock hphase rfl
      · exact hsame

/-- A new queue; the timers are not created yet, and the flag is arbitrary. -/
def start (timer : T → Timer) (callingExpiredTimers : Bool) : TimerLoop T where
  queue := { timer, callingExpiredTimers }

end TimerLoop

end MuduoHttp
