import MuduoHttp.Support.Condition
import MuduoHttp.Support.Transition
import Mathlib.Data.Int.Notation

/-!
# The count down latch

A thread that waits for the latch goes on when the count has come to zero, and
not before.  `countDown` wakes the waiting threads only when it reaches zero
itself; since the count does not grow, no thread waits after that.
-/

namespace MuduoHttp

open Support

/-- `CountDownLatch` with the threads in `wait`.  The calls of `wait` that have
returned are counted. -/
structure CountDownLatch where
  count_ : ℤ
  condition_ : Condition Unit := {}
  returned : ℕ := 0

namespace CountDownLatch

/-- `wait` from the test of the loop on, with the mutex. -/
def waitLocked (s : CountDownLatch) : CountDownLatch :=
  if s.count_ > 0 then { s with condition_ := s.condition_.wait () }
  else { s with returned := s.returned + 1 }

def countDown (s : CountDownLatch) : CountDownLatch :=
  let s := { s with count_ := s.count_ - 1 }
  if s.count_ = 0 then { s with condition_ := s.condition_.notifyAll } else s

inductive Action
  | wait
  | goOn (who : ℕ)
  | wake (who : ℕ)
  | countDown

def Action.isWait : Action → Bool
  | .wait => true
  | _ => false

def Action.isCountDown : Action → Bool
  | .countDown => true
  | _ => false

def step (s : CountDownLatch) : Action → CountDownLatch
  | .wait => s.waitLocked
  | .goOn who =>
      match s.condition_.resume who with
      | none => s
      | some (_, condition) => waitLocked { s with condition_ := condition }
  | .wake who => { s with condition_ := s.condition_.notify who }
  | .countDown => s.countDown

/-- What holds of the latch that was made for `n` after so many calls. -/
structure Sound (n : ℤ) (waits downs : ℕ) (s : CountDownLatch) : Prop where
  count : s.count_ = n - downs
  calls : s.returned + s.condition_.waiting.length = waits
  closed : s.condition_.asleep ≠ [] → 0 < s.count_
  opened : 0 < s.returned → s.count_ ≤ 0

variable {n : ℤ} {waits downs : ℕ} {s : CountDownLatch}

theorem sound_new (n : ℤ) : Sound n 0 0 { count_ := n } where
  count := (Int.sub_zero n).symm
  calls := rfl
  closed hasleep := absurd rfl hasleep
  opened := by simp

/-- The thread that tests the count has not returned and does not wait. -/
theorem sound_waitLocked (h : s.Sound n waits downs) :
    s.waitLocked.Sound n (waits + 1) downs := by
  unfold waitLocked
  split
  next hcount =>
    refine ⟨h.count, ?_, fun _ => hcount, h.opened⟩
    rw [← h.calls, (Condition.waiting_wait _ _).length_eq, List.length_cons]
    exact (Nat.add_assoc ..).symm
  next hcount =>
    refine ⟨h.count, ?_, h.closed, fun _ => Int.not_lt.mp hcount⟩
    rw [← h.calls]
    exact Nat.add_right_comm ..

theorem sound_countDown (h : s.Sound n waits downs) :
    s.countDown.Sound n waits (downs + 1) := by
  have hcount : s.count_ - 1 = n - (downs + 1 : ℕ) := by
    have hcount := h.count
    omega
  simp only [countDown]
  split
  next hzero =>
    refine ⟨hcount, ?_, fun hasleep => absurd rfl hasleep, fun _ => ?_⟩
    · rw [(Condition.waiting_notifyAll _).length_eq]
      exact h.calls
    · exact Int.le_of_eq hzero
  next hzero =>
    refine ⟨hcount, h.calls, fun hasleep => ?_, fun hreturned => ?_⟩
    · have hpos := h.closed hasleep
      show 0 < s.count_ - 1
      omega
    · have hopen := h.opened hreturned
      show s.count_ - 1 ≤ 0
      omega

theorem sound_goOn (h : s.Sound n waits downs) (who : ℕ) :
    (s.step (.goOn who)).Sound n waits downs := by
  simp only [step]
  split
  · exact h
  next w condition hresume =>
    have hwaiting : s.condition_.waiting.length =
        condition.waiting.length + 1 :=
      (Condition.waiting_resume hresume).length_eq
    have hasleep : condition.asleep = s.condition_.asleep :=
      (Condition.resume_eq_some hresume).1
    have hcalls : s.returned + condition.waiting.length + 1 = waits := by
      have hcalls := h.calls
      omega
    rw [← hcalls]
    refine sound_waitLocked ⟨h.count, rfl, ?_, h.opened⟩
    rw [hasleep]
    exact h.closed

theorem sound_wake (h : s.Sound n waits downs) (who : ℕ) :
    (s.step (.wake who)).Sound n waits downs := by
  refine ⟨h.count, ?_, fun hasleep => h.closed fun hnone => ?_, h.opened⟩
  · rw [← h.calls]
    exact congrArg _ (Condition.waiting_notify _ who).length_eq
  · exact hasleep (Condition.asleep_notify hnone who)

theorem sound_step {past : List Action}
    (h : s.Sound n (past.countP Action.isWait)
      (past.countP Action.isCountDown)) (a : Action) :
    (s.step a).Sound n ((past ++ [a]).countP Action.isWait)
      ((past ++ [a]).countP Action.isCountDown) := by
  rw [List.countP_append, List.countP_append]
  cases a with
  | wait => exact sound_waitLocked h
  | goOn who => exact sound_goOn h who
  | wake who => exact sound_wake h who
  | countDown => exact sound_countDown h

/-- Every call of `wait` waits or has returned.  None returns before
`countDown` was called `n` times; after that no thread sleeps on, and a woken
one that goes on returns. -/
theorem run_latch (n : ℕ) (actions : List Action) :
    let s := run step { count_ := n } actions
    let downs := actions.countP Action.isCountDown
    s.returned + s.condition_.waiting.length =
        actions.countP Action.isWait ∧
      (0 < s.returned → n ≤ downs) ∧
      (n ≤ downs → s.condition_.asleep = [] ∧
        ∀ who, s.condition_.woken ≠ [] →
          (s.step (.goOn who)).returned = s.returned + 1) := by
  intro s downs
  have h : s.Sound n (actions.countP Action.isWait) downs :=
    run_history
      (fun past s => Sound n (past.countP Action.isWait)
        (past.countP Action.isCountDown) s)
      (fun _ _ a hs => sound_step hs a) (sound_new n) actions
  have hcount := h.count
  refine ⟨h.calls, fun hreturned => ?_, fun hdowns => ⟨?_, ?_⟩⟩
  · have hopen := h.opened hreturned
    omega
  · by_contra hasleep
    have hclosed := h.closed hasleep
    omega
  · intro who hwoken
    obtain ⟨w, condition, hresume⟩ := Condition.exists_resume hwoken who
    have hopen : ¬ s.count_ > 0 := by omega
    simp only [step, hresume, waitLocked, hopen, if_false]

end CountDownLatch

end MuduoHttp
