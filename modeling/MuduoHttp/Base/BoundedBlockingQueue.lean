import MuduoHttp.Support.Condition
import MuduoHttp.Support.Transition

/-!
# The bounded blocking queue

Any number of threads put into the queue and take from it.  Each passes from
the lock to `wait`, or to the unlock, in one step, since it holds the mutex.
Everything that is put is taken in that order, nothing twice; and a thread
never sleeps on while it could go on.
-/

namespace MuduoHttp

open Support

/-- `BoundedBlockingQueue<T>` with the threads in its calls.  A thread in `put`
waits with its element. -/
structure BoundedBlockingQueue (T : Type*) where
  capacity : ℕ
  queue_ : List T := []
  notEmpty_ : Condition Unit := {}
  notFull_ : Condition T := {}

namespace BoundedBlockingQueue

variable {T : Type*}

def full (s : BoundedBlockingQueue T) : Bool :=
  s.queue_.length = s.capacity

/-- `put` from the test of the loop on, with the mutex.  `choice` is the
thread that the notification wakes. -/
def putLocked (s : BoundedBlockingQueue T) (x : T) (choice : ℕ) :
    BoundedBlockingQueue T :=
  if s.full then { s with notFull_ := s.notFull_.wait x }
  else
    { s with
      queue_ := s.queue_ ++ [x]
      notEmpty_ := s.notEmpty_.notify choice }

/-- `take` from the test of the loop on, with the mutex. -/
def takeLocked (s : BoundedBlockingQueue T) (choice : ℕ) :
    BoundedBlockingQueue T :=
  match s.queue_ with
  | [] => { s with notEmpty_ := s.notEmpty_.wait () }
  | _ :: queue =>
      { s with queue_ := queue, notFull_ := s.notFull_.notify choice }

/-- A call, a woken thread that goes on, or a thread that wakes by itself.
The scheduler picks the threads. -/
inductive Action (T : Type*)
  | put (x : T) (choice : ℕ)
  | goOnPutting (who choice : ℕ)
  | wakePutting (who : ℕ)
  | take (choice : ℕ)
  | goOnTaking (who choice : ℕ)
  | wakeTaking (who : ℕ)

def step (s : BoundedBlockingQueue T) : Action T → BoundedBlockingQueue T
  | .put x choice => s.putLocked x choice
  | .goOnPutting who choice =>
      match s.notFull_.resume who with
      | none => s
      | some (x, notFull) => putLocked { s with notFull_ := notFull } x choice
  | .wakePutting who => { s with notFull_ := s.notFull_.notify who }
  | .take choice => s.takeLocked choice
  | .goOnTaking who choice =>
      match s.notEmpty_.resume who with
      | none => s
      | some (_, notEmpty) => takeLocked { s with notEmpty_ := notEmpty } choice
  | .wakeTaking who => { s with notEmpty_ := s.notEmpty_.notify who }

/-! ## What is put and taken -/

/-- The element of a call of `put`. -/
def Action.element : Action T → List T
  | .put x _ => [x]
  | _ => []

def Action.isTake : Action T → Bool
  | .take _ => true
  | _ => false

/-- The element whose call of `put` returns in this step. -/
def pushes (s : BoundedBlockingQueue T) : Action T → List T
  | .put x _ => if s.full then [] else [x]
  | .goOnPutting who _ =>
      match s.notFull_.resume who with
      | none => []
      | some (x, _) => if s.full then [] else [x]
  | _ => []

/-- The element that a call of `take` returns in this step. -/
def takes (s : BoundedBlockingQueue T) : Action T → List T
  | .take _ => s.queue_.take 1
  | .goOnTaking who _ =>
      match s.notEmpty_.resume who with
      | none => []
      | some _ => s.queue_.take 1
  | _ => []

section

variable (s : BoundedBlockingQueue T) (x : T) (choice : ℕ)

theorem queue_putLocked :
    (s.putLocked x choice).queue_ =
      s.queue_ ++ if s.full then [] else [x] := by
  unfold putLocked
  split
  · exact (List.append_nil _).symm
  · rfl

theorem queue_takeLocked :
    s.queue_.take 1 ++ (s.takeLocked choice).queue_ = s.queue_ := by
  unfold takeLocked
  split
  next hqueue => simp [hqueue]
  next front queue hqueue => simp [hqueue]

@[simp] theorem capacity_putLocked :
    (s.putLocked x choice).capacity = s.capacity := by
  unfold putLocked
  split <;> rfl

@[simp] theorem capacity_takeLocked :
    (s.takeLocked choice).capacity = s.capacity := by
  unfold takeLocked
  split <;> rfl

/-- The element is pushed, or its thread waits with it. -/
theorem putters_putLocked :
    ((if s.full then [] else [x]) ++
      (s.putLocked x choice).notFull_.waiting).Perm
        (x :: s.notFull_.waiting) := by
  unfold putLocked
  split
  · exact Condition.waiting_wait _ _
  · exact .refl _

theorem putters_takeLocked :
    (s.takeLocked choice).notFull_.waiting.Perm s.notFull_.waiting := by
  unfold takeLocked
  split
  · exact .refl _
  · exact Condition.waiting_notify _ _

theorem takers_putLocked :
    (s.putLocked x choice).notEmpty_.waiting.length =
      s.notEmpty_.waiting.length := by
  unfold putLocked
  split
  · rfl
  · exact (Condition.waiting_notify _ _).length_eq

/-- The thread takes an element, or it waits. -/
theorem takers_takeLocked :
    (s.queue_.take 1).length + (s.takeLocked choice).notEmpty_.waiting.length =
      s.notEmpty_.waiting.length + 1 := by
  unfold takeLocked
  split
  next hqueue =>
    rw [hqueue, (Condition.waiting_wait _ _).length_eq]
    exact Nat.zero_add _
  next front queue hqueue =>
    rw [hqueue]
    exact Nat.add_comm ..

end

/-- What is taken comes from the front, and what is put goes behind. -/
theorem takes_append_queue (s : BoundedBlockingQueue T) (a : Action T) :
    s.takes a ++ (s.step a).queue_ = s.queue_ ++ s.pushes a := by
  cases a with
  | put x choice => exact queue_putLocked s x choice
  | goOnPutting who choice =>
      cases hresume : s.notFull_.resume who with
      | none => simp only [takes, step, pushes, hresume, List.append_nil,
          List.nil_append]
      | some found =>
          simp only [takes, step, pushes, hresume, List.nil_append]
          exact queue_putLocked ..
  | wakePutting who => exact (List.append_nil _).symm
  | take choice =>
      exact (queue_takeLocked s choice).trans (List.append_nil _).symm
  | goOnTaking who choice =>
      cases hresume : s.notEmpty_.resume who with
      | none => simp only [takes, step, pushes, hresume, List.append_nil,
          List.nil_append]
      | some found =>
          simp only [takes, step, pushes, hresume, List.append_nil]
          exact queue_takeLocked { s with notEmpty_ := found.2 } choice
  | wakeTaking who => exact (List.append_nil _).symm

/-- An element that is not pushed yet waits with its thread. -/
theorem pushes_append_waiting (s : BoundedBlockingQueue T) (a : Action T) :
    (s.pushes a ++ (s.step a).notFull_.waiting).Perm
      (s.notFull_.waiting ++ a.element) := by
  cases a with
  | put x choice =>
      exact (putters_putLocked s x choice).trans
        (List.perm_append_singleton ..).symm
  | goOnPutting who choice =>
      cases hresume : s.notFull_.resume who with
      | none =>
          simp only [step, pushes, hresume, Action.element, List.append_nil,
            List.nil_append, List.Perm.refl]
      | some found =>
          simp only [step, pushes, hresume, Action.element, List.append_nil]
          exact (putters_putLocked { s with notFull_ := found.2 } ..).trans
            (Condition.waiting_resume hresume).symm
  | wakePutting who =>
      simp only [Action.element, List.append_nil]
      exact Condition.waiting_notify _ _
  | take choice =>
      simp only [Action.element, List.append_nil]
      exact putters_takeLocked ..
  | goOnTaking who choice =>
      simp only [step, pushes, Action.element, List.append_nil]
      split
      · exact .refl _
      · exact putters_takeLocked ..
  | wakeTaking who =>
      simp only [Action.element, List.append_nil]
      exact .refl _

/-- A call of `take` that has not returned waits. -/
theorem takes_add_waiting (s : BoundedBlockingQueue T) (a : Action T) :
    (s.takes a).length + (s.step a).notEmpty_.waiting.length =
      s.notEmpty_.waiting.length + if a.isTake then 1 else 0 := by
  cases a with
  | put x choice =>
      exact (Nat.zero_add _).trans (takers_putLocked s x choice)
  | goOnPutting who choice =>
      simp only [step]
      split
      · exact Nat.zero_add _
      · exact (Nat.zero_add _).trans (takers_putLocked ..)
  | wakePutting who => exact Nat.zero_add _
  | take choice => exact takers_takeLocked s choice
  | goOnTaking who choice =>
      cases hresume : s.notEmpty_.resume who with
      | none =>
          simp only [takes, step, hresume]
          exact Nat.zero_add _
      | some found =>
          simp only [takes, step, hresume]
          rw [(Condition.waiting_resume hresume).length_eq]
          exact takers_takeLocked { s with notEmpty_ := found.2 } choice
  | wakeTaking who =>
      exact (Nat.zero_add _).trans (Condition.waiting_notify _ _).length_eq

/-! ## Who sleeps -/

/-- What holds between two steps. -/
structure Sound (s : BoundedBlockingQueue T) : Prop where
  bound : s.queue_.length ≤ s.capacity
  takers : s.notEmpty_.Alert s.queue_.length
  putters : s.notFull_.Alert (s.capacity - s.queue_.length)

variable {s : BoundedBlockingQueue T} {x : T}

theorem sound_new (n : ℕ) : Sound ({ capacity := n } : BoundedBlockingQueue T) where
  bound := Nat.zero_le n
  takers := .inl rfl
  putters := .inl rfl

/-- A thread in `put` may have been woken for one free place. -/
theorem sound_putLocked (choice : ℕ)
    (bound : s.queue_.length ≤ s.capacity)
    (takers : s.notEmpty_.Alert s.queue_.length)
    (putters : s.notFull_.Alert (s.capacity - s.queue_.length - 1)) :
    (s.putLocked x choice).Sound := by
  by_cases hfull : s.full
  · have hzero : s.capacity - s.queue_.length = 0 := by
      have hlength : s.queue_.length = s.capacity := by simpa [full] using hfull
      omega
    rw [putLocked, if_pos hfull]
    refine ⟨bound, takers, ?_⟩
    rw [hzero]
    exact Condition.alert_zero _
  · have hroom : s.queue_.length ≠ s.capacity := by simpa [full] using hfull
    rw [putLocked, if_neg hfull]
    refine ⟨?_, ?_, ?_⟩
    · rw [List.length_append]
      exact Nat.lt_of_le_of_ne bound hroom
    · rw [List.length_append]
      exact takers.notify choice
    · rw [List.length_append]
      exact putters.mono (Nat.le_of_eq (Nat.sub_add_eq ..))

/-- A thread in `take` may have been woken for one element. -/
theorem sound_takeLocked (choice : ℕ)
    (bound : s.queue_.length ≤ s.capacity)
    (takers : s.notEmpty_.Alert (s.queue_.length - 1))
    (putters : s.notFull_.Alert (s.capacity - s.queue_.length)) :
    (s.takeLocked choice).Sound := by
  unfold takeLocked
  split
  next hqueue =>
    refine ⟨bound, ?_, putters⟩
    rw [hqueue]
    exact Condition.alert_zero _
  next front queue hqueue =>
    rw [hqueue, List.length_cons] at takers putters bound
    refine ⟨Nat.le_of_succ_le bound, takers, ?_⟩
    have hplace : s.capacity - queue.length
        = s.capacity - (queue.length + 1) + 1 := by omega
    rw [hplace]
    exact putters.notify choice

theorem sound_step (h : s.Sound) (a : Action T) : (s.step a).Sound := by
  cases a with
  | put x choice =>
      exact sound_putLocked choice h.bound h.takers
        (h.putters.mono (Nat.sub_le _ 1))
  | goOnPutting who choice =>
      simp only [step]
      split
      · exact h
      next x notFull hresume =>
        exact sound_putLocked choice h.bound h.takers
          (h.putters.resume hresume)
  | wakePutting who =>
      exact ⟨h.bound, h.takers,
        (h.putters.notify who).mono (Nat.le_succ _)⟩
  | take choice =>
      exact sound_takeLocked choice h.bound
        (h.takers.mono (Nat.sub_le _ 1)) h.putters
  | goOnTaking who choice =>
      simp only [step]
      split
      · exact h
      next w notEmpty hresume =>
        exact sound_takeLocked choice h.bound
          (h.takers.resume hresume) h.putters
  | wakeTaking who =>
      exact ⟨h.bound, (h.takers.notify who).mono (Nat.le_succ _), h.putters⟩

theorem capacity_step (s : BoundedBlockingQueue T) (a : Action T) :
    (s.step a).capacity = s.capacity := by
  cases a <;> simp only [step] <;> (try split) <;>
    simp only [capacity_putLocked, capacity_takeLocked]

/-! ## Runs -/

/-- Whatever the threads do, the elements are taken in the order in which they
were put, and the queue does not outgrow its capacity.  Every element of a
call of `put` is put or waits with its caller, and every call of `take` has
taken one element or waits.  Threads sleep only while the queue is empty or
full, or some other thread is on its way for what is there; so `put` and
`take` never all sleep at once. -/
theorem run_bounded_queue (n : ℕ) (actions : List (Action T)) :
    let start : BoundedBlockingQueue T := { capacity := n }
    let s := run step start actions
    let pushed := yields step pushes start actions
    let taken := yields step takes start actions
    taken ++ s.queue_ = pushed ∧
      s.queue_.length ≤ n ∧
      (pushed ++ s.notFull_.waiting).Perm (actions.flatMap Action.element) ∧
      taken.length + s.notEmpty_.waiting.length =
        actions.countP Action.isTake ∧
      (s.notEmpty_.asleep ≠ [] →
        s.queue_.length ≤ s.notEmpty_.woken.length) ∧
      (s.notFull_.asleep ≠ [] →
        n - s.queue_.length ≤ s.notFull_.woken.length) ∧
      (0 < n → s.notEmpty_.asleep ≠ [] → s.notFull_.asleep ≠ [] →
        s.notEmpty_.woken ≠ [] ∨ s.notFull_.woken ≠ []) := by
  intro start s pushed taken
  have hsound : s.Sound :=
    run_invariant_of_forall Sound (fun _ a h => sound_step h a) (sound_new n)
      actions
  have hcapacity : s.capacity = n :=
    run_invariant_of_forall (fun s => s.capacity = n)
      (fun s a h => (capacity_step s a).trans h) rfl actions
  have hputters := hsound.putters
  rw [hcapacity] at hputters
  refine ⟨?_, hcapacity ▸ hsound.bound, ?_, ?_, hsound.takers.resolve_left,
    hputters.resolve_left, ?_⟩
  · exact yields_append_stored takes pushes queue_ (fun _ => True)
      (fun _ _ _ => trivial) (fun s a _ => takes_append_queue s a) trivial
      actions
  · have hgiven : yields step (fun _ a => a.element) start actions =
        actions.flatMap Action.element := yields_of_action ..
    rw [← hgiven]
    exact yields_perm_stored pushes _ (fun s => s.notFull_.waiting)
      pushes_append_waiting start actions
  · have hcalls := length_yields_add_stored takes
      (fun s => s.notEmpty_.waiting.length) Action.isTake takes_add_waiting
      start actions
    exact hcalls.trans (Nat.zero_add _)
  · intro hn htakers hputting
    by_contra hnone
    rw [not_or, not_not, not_not] at hnone
    have hempty := hsound.takers.eq_zero htakers hnone.1
    have hroom := hputters.eq_zero hputting hnone.2
    omega

end BoundedBlockingQueue

end MuduoHttp
