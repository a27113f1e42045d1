import MuduoHttp.Support.Condition
import MuduoHttp.Support.Transition
import Mathlib.Data.List.ReduceOption

/-!
# The thread pool

Any thread may call `run`, which blocks while a bounded queue is full.  The
workers of the pool take tasks from the queue until `running_` is false.  A
task is called at most once, the workers take the tasks in the order in which
they were put into the queue, and none is lost between `run` and its call.

`stop` wakes the workers, not the callers of `run`.
-/

namespace MuduoHttp

open Support

/-- `ThreadPool::Task`, which may be an empty `boost::function`. -/
abbrev Task (F : Type*) := Option F

/-- `ThreadPool` with the threads in its calls.  A caller of `run` waits with
its task.  The workers are counted by where they stand in `runInThread`.  The
tasks of all calls of `run`, those put into the queue, those taken from it and
those called are recorded in their order. -/
structure ThreadPool (F : Type*) where
  maxQueueSize_ : ℕ := 0
  running_ : Bool := false
  /-- `threads_.size()`. -/
  threads_ : ℕ := 0
  queue_ : List (Task F) := []
  notEmpty_ : Condition Unit := {}
  notFull_ : Condition (Task F) := {}
  /-- Workers before the test of `running_` in `runInThread`. -/
  testing : ℕ := 0
  /-- Workers that call `take` and have not got the mutex. -/
  taking : ℕ := 0
  /-- The tasks that workers have taken and not come back from. -/
  holding : List (Task F) := []
  exited : ℕ := 0
  called : List (Task F) := []
  pushed : List (Task F) := []
  taken : List (Task F) := []
  executed : List F := []

namespace ThreadPool

variable {F : Type*}

def isFull (s : ThreadPool F) : Bool :=
  0 < s.maxQueueSize_ && s.maxQueueSize_ ≤ s.queue_.length

/-- `run` from the test of the loop on, with the mutex.  `choice` is the
worker that the notification wakes. -/
def runLocked (s : ThreadPool F) (task : Task F) (choice : ℕ) : ThreadPool F :=
  if s.isFull then { s with notFull_ := s.notFull_.wait task }
  else
    { s with
      queue_ := s.queue_ ++ [task]
      pushed := s.pushed ++ [task]
      notEmpty_ := s.notEmpty_.notify choice }

/-- `take` from the test of the loop on, with the mutex.  Without a task the
worker goes back to the test of `running_`. -/
def takeLocked (s : ThreadPool F) (choice : ℕ) : ThreadPool F :=
  match s.queue_ with
  | [] =>
      if s.running_ then { s with notEmpty_ := s.notEmpty_.wait () }
      else { s with testing := s.testing + 1 }
  | task :: queue =>
      { s with
        queue_ := queue
        taken := s.taken ++ [task]
        holding := s.holding ++ [task]
        notFull_ :=
          if 0 < s.maxQueueSize_ then s.notFull_.notify choice
          else s.notFull_ }

/-- A step of the threads.  The scheduler picks which of them. -/
inductive Action (F : Type*)
  | start (numThreads : ℕ)
  | run (task : Task F) (choice : ℕ)
  | goOnRunning (who choice : ℕ)
  | wakeRunning (who : ℕ)
  /-- A worker tests `running_` in `runInThread`. -/
  | test
  | take (choice : ℕ)
  | goOnTaking (who choice : ℕ)
  | wakeTaking (who : ℕ)
  /-- A worker comes back from its task; an empty one is not called. -/
  | finish (who : ℕ)
  /-- `stop`, before it joins the workers. -/
  | stop

/-- The task of a call of `run`. -/
def Action.task : Action F → List (Task F)
  | .run task _ => [task]
  | _ => []

def step (s : ThreadPool F) : Action F → ThreadPool F
  | .start numThreads =>
      -- `assert(threads_.empty())`
      if s.threads_ = 0 then
        { s with running_ := true, threads_ := numThreads,
                 testing := numThreads }
      else s
  | .run task choice =>
      if s.threads_ = 0 then
        { s with called := s.called ++ [task],
                 executed := s.executed ++ task.toList }
      else runLocked { s with called := s.called ++ [task] } task choice
  | .goOnRunning who choice =>
      match s.notFull_.resume who with
      | none => s
      | some (task, notFull) =>
          runLocked { s with notFull_ := notFull } task choice
  | .wakeRunning who => { s with notFull_ := s.notFull_.notify who }
  | .test =>
      match s.testing with
      | 0 => s
      | testing + 1 =>
          if s.running_ then
            { s with testing := testing, taking := s.taking + 1 }
          else { s with testing := testing, exited := s.exited + 1 }
  | .take choice =>
      match s.taking with
      | 0 => s
      | taking + 1 => takeLocked { s with taking := taking } choice
  | .goOnTaking who choice =>
      match s.notEmpty_.resume who with
      | none => s
      | some (_, notEmpty) => takeLocked { s with notEmpty_ := notEmpty } choice
  | .wakeTaking who => { s with notEmpty_ := s.notEmpty_.notify who }
  | .finish who =>
      match pick s.holding who with
      | none => s
      | some (task, holding) =>
          { s with
            holding := holding
            executed := s.executed ++ task.toList
            testing := s.testing + 1 }
  | .stop => { s with running_ := false, notEmpty_ := s.notEmpty_.notifyAll }

/-- Every kind of thread that waits for its turn gets it. -/
structure Round (round : List (Action F)) : Prop where
  test : .test ∈ round
  take : ∃ choice, .take choice ∈ round
  goOnTaking : ∃ who choice, .goOnTaking who choice ∈ round
  finish : ∃ who, .finish who ∈ round
  goOnRunning : ∃ who choice, .goOnRunning who choice ∈ round

/-- One turn for every kind of thread. -/
def everyTurn : List (Action F) :=
  [.test, .take 0, .goOnTaking 0 0, .finish 0, .goOnRunning 0 0]

theorem round_everyTurn : Round (everyTurn : List (Action F)) where
  test := by simp [everyTurn]
  take := ⟨0, by simp [everyTurn]⟩
  goOnTaking := ⟨0, 0, by simp [everyTurn]⟩
  finish := ⟨0, by simp [everyTurn]⟩
  goOnRunning := ⟨0, 0, by simp [everyTurn]⟩

/-- The tasks of `run` that were not called. -/
def pending (s : ThreadPool F) : List (Task F) :=
  s.holding ++ s.queue_ ++ s.notFull_.waiting

/-! ## The settings -/

@[simp] theorem maxQueueSize_runLocked (s : ThreadPool F) (task : Task F)
    (choice : ℕ) :
    (s.runLocked task choice).maxQueueSize_ = s.maxQueueSize_ := by
  unfold runLocked
  split <;> rfl

@[simp] theorem threads_runLocked (s : ThreadPool F) (task : Task F)
    (choice : ℕ) : (s.runLocked task choice).threads_ = s.threads_ := by
  unfold runLocked
  split <;> rfl

@[simp] theorem running_runLocked (s : ThreadPool F) (task : Task F)
    (choice : ℕ) : (s.runLocked task choice).running_ = s.running_ := by
  unfold runLocked
  split <;> rfl

@[simp] theorem maxQueueSize_takeLocked (s : ThreadPool F) (choice : ℕ) :
    (s.takeLocked choice).maxQueueSize_ = s.maxQueueSize_ := by
  unfold takeLocked
  split
  · split <;> rfl
  · rfl

@[simp] theorem threads_takeLocked (s : ThreadPool F) (choice : ℕ) :
    (s.takeLocked choice).threads_ = s.threads_ := by
  unfold takeLocked
  split
  · split <;> rfl
  · rfl

@[simp] theorem running_takeLocked (s : ThreadPool F) (choice : ℕ) :
    (s.takeLocked choice).running_ = s.running_ := by
  unfold takeLocked
  split
  · split <;> rfl
  · rfl

theorem maxQueueSize_step (s : ThreadPool F) (a : Action F) :
    (s.step a).maxQueueSize_ = s.maxQueueSize_ := by
  cases a <;> simp only [step] <;> (repeat' split) <;>
    simp only [maxQueueSize_runLocked, maxQueueSize_takeLocked]

@[simp] theorem called_runLocked (s : ThreadPool F) (task : Task F)
    (choice : ℕ) : (s.runLocked task choice).called = s.called := by
  unfold runLocked
  split <;> rfl

@[simp] theorem called_takeLocked (s : ThreadPool F) (choice : ℕ) :
    (s.takeLocked choice).called = s.called := by
  unfold takeLocked
  split
  · split <;> rfl
  · rfl

theorem called_step (s : ThreadPool F) (a : Action F) :
    (s.step a).called = s.called ++ a.task := by
  cases a <;> simp only [step, Action.task, List.append_nil] <;>
    (repeat' split) <;> simp only [called_runLocked, called_takeLocked]

/-- `start` is called at most once. -/
theorem threads_step {s : ThreadPool F} (h : s.threads_ ≠ 0) (a : Action F) :
    (s.step a).threads_ = s.threads_ := by
  cases a <;> simp only [step, h, if_false] <;> (repeat' split) <;>
    simp only [threads_runLocked, threads_takeLocked]

/-- Only `stop` changes `running_` of a pool that was started. -/
theorem running_step {s : ThreadPool F} (h : s.threads_ ≠ 0) {a : Action F}
    (ha : a ≠ .stop) : (s.step a).running_ = s.running_ := by
  cases a <;> simp only [ne_eq, not_true_eq_false] at ha <;>
    simp only [step, h, if_false] <;> (repeat' split) <;>
    simp only [running_runLocked, running_takeLocked]

/-- What holds while some thread has the mutex: the callers of `run` have the
tasks `inRun`, and `inTake` workers are in `take`. -/
structure Locked (s : ThreadPool F) (inRun : List (Task F)) (inTake : ℕ) :
    Prop where
  order : s.taken ++ s.queue_ = s.pushed
  bound : 0 < s.maxQueueSize_ → s.queue_.length ≤ s.maxQueueSize_
  takers : s.notEmpty_.Alert (s.queue_.length - inTake)
  stopped : s.running_ = false → s.notEmpty_.asleep = []
  runners : s.notFull_.Alert
    (s.maxQueueSize_ - s.queue_.length - inRun.length)
  unbounded : s.maxQueueSize_ = 0 → s.notFull_.waiting = []
  idle : s.threads_ = 0 → s.queue_ = [] ∧ s.notFull_.waiting = []
  workers : s.testing + (s.taking + inTake) + s.notEmpty_.waiting.length
    + s.holding.length + s.exited = s.threads_
  alive : s.running_ = true → s.exited = 0
  calls : (s.executed ++ (inRun ++ s.pending).reduceOption).Perm
    s.called.reduceOption

/-- What holds between two steps. -/
abbrev Sound (s : ThreadPool F) : Prop := s.Locked [] 0

variable {s : ThreadPool F} {task : Task F}

theorem sound_new (n : ℕ) : Sound ({ maxQueueSize_ := n } : ThreadPool F) where
  order := rfl
  bound _ := Nat.zero_le n
  takers := .inl rfl
  stopped _ := rfl
  runners := .inl rfl
  unbounded _ := rfl
  idle _ := ⟨rfl, rfl⟩
  workers := rfl
  alive := by simp
  calls := .refl _

/-! ## A thread with the mutex -/

/-- A caller of `run` has the mutex again. -/
theorem Locked.resume_run {notFull : Condition (Task F)} {who : ℕ}
    (h : s.Sound) (hresume : s.notFull_.resume who = some (task, notFull)) :
    Locked { s with notFull_ := notFull } [task] 0 where
  order := h.order
  bound := h.bound
  takers := h.takers
  stopped := h.stopped
  runners := h.runners.resume hresume
  unbounded hzero := by
    have hperm := Condition.waiting_resume hresume
    rw [h.unbounded hzero] at hperm
    cases hperm.symm.eq_nil
  idle hzero := by
    have hperm := Condition.waiting_resume hresume
    rw [(h.idle hzero).2] at hperm
    cases hperm.symm.eq_nil
  workers := h.workers
  alive := h.alive
  calls := by
    refine .trans (.append_left _ (.filterMap id ?_)) h.calls
    calc
      List.Perm (task :: (s.holding ++ s.queue_ ++ notFull.waiting))
          (s.holding ++ s.queue_ ++ task :: notFull.waiting) :=
        List.perm_middle.symm
      List.Perm _ s.pending :=
        (Condition.waiting_resume hresume).symm.append_left _

/-- A worker that was not asleep has the mutex in `take`. -/
theorem Locked.take {taking : ℕ} (h : s.Sound) (htaking : s.taking = taking + 1) :
    Locked { s with taking := taking } [] 1 :=
  { h with
    takers := h.takers.mono (Nat.sub_le _ 1)
    workers := by rw [← h.workers, htaking] }

/-- A woken worker has the mutex again. -/
theorem Locked.resume_take {notEmpty : Condition Unit} {who : ℕ}
    (h : s.Sound) (hresume : s.notEmpty_.resume who = some ((), notEmpty)) :
    Locked { s with notEmpty_ := notEmpty } [] 1 :=
  { h with
    takers := h.takers.resume hresume
    stopped := fun hstopped =>
      (Condition.resume_eq_some hresume).1.trans (h.stopped hstopped)
    workers := by
      have hlength := (Condition.waiting_resume hresume).length_eq
      rw [List.length_cons] at hlength
      have hworkers := h.workers
      simp only at *
      omega }

/-- `run` gives the mutex back. -/
theorem Locked.runLocked (h : s.Locked [task] 0) (hthreads : s.threads_ ≠ 0)
    (choice : ℕ) : (s.runLocked task choice).Sound := by
  unfold ThreadPool.runLocked
  split
  next hfull =>
    have hfull : 0 < s.maxQueueSize_ ∧ s.maxQueueSize_ ≤ s.queue_.length := by
      simpa [isFull] using hfull
    refine { h with runners := ?_, unbounded := ?_, idle := ?_, calls := ?_ }
    · rw [Nat.sub_eq_zero_of_le hfull.2]
      exact Condition.alert_zero _
    · intro hzero
      exact absurd hzero (Nat.ne_of_gt hfull.1)
    · intro hzero
      exact absurd hzero hthreads
    · refine .trans (.append_left _ (.filterMap id ?_)) h.calls
      exact ((Condition.waiting_wait _ _).append_left _).trans
        List.perm_middle
  next hfull =>
    have hroom : 0 < s.maxQueueSize_ → s.queue_.length < s.maxQueueSize_ := by
      intro hpos
      simpa [isFull, hpos] using hfull
    refine { h with order := ?_, bound := ?_, takers := ?_, stopped := ?_,
                    runners := ?_, idle := ?_, workers := ?_, calls := ?_ }
    · rw [← List.append_assoc, h.order]
    · rw [List.length_append]
      exact hroom
    · rw [List.length_append]
      exact h.takers.notify choice
    · intro hstopped
      exact Condition.asleep_notify (h.stopped hstopped) choice
    · rw [List.length_append]
      exact h.runners.mono (Nat.le_of_eq (Nat.sub_add_eq ..))
    · intro hzero
      exact absurd hzero hthreads
    · rw [← h.workers, (Condition.waiting_notify _ choice).length_eq]
    · refine .trans (.append_left _ (.filterMap id ?_)) h.calls
      calc
        List.Perm (s.holding ++ (s.queue_ ++ [task]) ++ s.notFull_.waiting)
            (s.holding ++ s.queue_ ++ task :: s.notFull_.waiting) := by simp
        List.Perm _ (task :: s.pending) := List.perm_middle

/-- `take` gives the mutex back. -/
theorem Locked.takeLocked (h : s.Locked [] 1) (choice : ℕ) :
    (s.takeLocked choice).Sound := by
  unfold ThreadPool.takeLocked
  split
  next hqueue =>
    split
    next hrunning =>
      refine { h with takers := ?_, stopped := ?_, workers := ?_ }
      · rw [hqueue]
        exact Condition.alert_zero _
      · intro hstopped
        cases hrunning.symm.trans hstopped
      · have hlength := (Condition.waiting_wait s.notEmpty_ ()).length_eq
        rw [List.length_cons] at hlength
        have hworkers := h.workers
        simp only at *
        omega
    next =>
      refine { h with takers := ?_, workers := ?_ }
      · rw [hqueue]
        exact Condition.alert_zero _
      · have hworkers := h.workers
        simp only
        omega
  next task queue hqueue =>
    have horder := h.order
    have hbound := h.bound
    have htakers := h.takers
    have hrunners := h.runners
    rw [hqueue] at horder hbound htakers hrunners
    rw [List.length_cons] at hbound htakers hrunners
    refine { h with order := ?_, bound := ?_, takers := htakers, runners := ?_,
                    unbounded := ?_, idle := ?_, workers := ?_, calls := ?_ }
    · rw [List.append_assoc]
      exact horder
    · exact fun hpos => Nat.le_of_succ_le (hbound hpos)
    · split
      · refine (hrunners.notify choice).mono ?_
        simp only [List.length_nil]
        omega
      next hzero =>
        rw [Nat.eq_zero_of_not_pos hzero, Nat.zero_sub]
        exact Condition.alert_zero _
    · intro (hzero : s.maxQueueSize_ = 0)
      rw [if_neg (by omega)]
      exact h.unbounded hzero
    · intro hzero
      cases hqueue.symm.trans (h.idle hzero).1
    · have hworkers := h.workers
      simp only [List.length_append, List.length_singleton]
      omega
    · refine .trans (.append_left _ (.filterMap id ?_)) h.calls
      have hwaiting : (if 0 < s.maxQueueSize_ then s.notFull_.notify choice
          else s.notFull_).waiting.Perm s.notFull_.waiting := by
        split
        · exact Condition.waiting_notify _ choice
        · exact .refl _
      rw [pending, pending, hqueue]
      simpa using hwaiting.append_left (s.holding ++ task :: queue)

/-! ## Runs -/

theorem sound_finish {holding : List (Task F)} {who : ℕ} (h : s.Sound)
    (hpick : pick s.holding who = some (task, holding)) :
    Sound { s with
      holding := holding
      executed := s.executed ++ task.toList
      testing := s.testing + 1 } := by
  refine { h with workers := ?_, calls := ?_ }
  · have hlength := length_of_pick hpick
    have hworkers := h.workers
    simp only
    omega
  · refine .trans ?_ h.calls
    have hpending : (task :: (holding ++ s.queue_ ++ s.notFull_.waiting)).Perm
        s.pending :=
      ((pick_perm hpick).symm.append_right _).append_right _
    have hreal := hpending.filterMap id
    show List.Perm (s.executed ++ task.toList ++ List.reduceOption _) _
    rw [List.append_assoc]
    refine .append_left _ ?_
    cases task <;> simpa [List.reduceOption, pending] using hreal

theorem sound_step (h : s.Sound) (a : Action F) : (s.step a).Sound := by
  cases a with
  | start numThreads =>
      simp only [step]
      split
      next hnone =>
        have hworkers := h.workers
        obtain ⟨hqueue, hwaiting⟩ := h.idle hnone
        have hasleep : s.notEmpty_.waiting = [] :=
          List.eq_nil_of_length_eq_zero (by omega)
        refine { h with stopped := ?_, idle := ?_, workers := ?_, alive := ?_ }
        · simp
        · exact fun _ => ⟨hqueue, hwaiting⟩
        · simp only
          omega
        · intro _
          show s.exited = 0
          omega
      next => exact h
  | run task choice =>
      simp only [step]
      split
      next hnone =>
        refine { h with calls := ?_ }
        have hworkers := h.workers
        have hpending : s.pending = [] := by
          have hholding : s.holding = [] :=
            List.eq_nil_of_length_eq_zero (by omega)
          rw [pending, hholding, (h.idle hnone).1, (h.idle hnone).2]
          rfl
        have hcalls := h.calls
        simp only [List.nil_append] at hcalls ⊢
        show List.Perm (s.executed ++ task.toList ++ s.pending.reduceOption) _
        rw [hpending] at hcalls ⊢
        rw [List.reduceOption_nil, List.append_nil] at hcalls ⊢
        rw [List.reduceOption_append, List.reduceOption_singleton]
        exact hcalls.append_right _
      next hsome =>
        suffices hlocked : Locked { s with called := s.called ++ [task] }
            [task] 0 from hlocked.runLocked hsome choice
        refine { h with runners := h.runners.mono (Nat.sub_le _ _),
                        calls := ?_ }
        calc
          List.Perm
              (s.executed ++ ([task] ++ s.pending).reduceOption)
              ([task].reduceOption ++ (s.executed ++ s.pending.reduceOption)) := by
            rw [List.reduceOption_append, ← List.append_assoc,
              ← List.append_assoc]
            exact List.perm_append_comm.append_right _
          List.Perm _ ([task].reduceOption ++ s.called.reduceOption) :=
            h.calls.append_left _
          List.Perm _ (s.called ++ [task]).reduceOption := by
            rw [List.reduceOption_append]
            exact List.perm_append_comm
  | goOnRunning who choice =>
      simp only [step]
      split
      · exact h
      next task notFull hresume =>
        refine (Locked.resume_run h hresume).runLocked ?_ choice
        intro hnone
        have hperm := Condition.waiting_resume hresume
        rw [(h.idle hnone).2] at hperm
        cases hperm.symm.eq_nil
  | wakeRunning who =>
      have hwaiting := Condition.waiting_notify s.notFull_ who
      refine { h with runners := ?_, unbounded := ?_, idle := ?_, calls := ?_ }
      · exact (h.runners.notify who).mono (Nat.le_succ _)
      · intro hzero
        have hperm := hwaiting
        rw [h.unbounded hzero] at hperm
        exact hperm.eq_nil
      · intro hzero
        have hperm := hwaiting
        rw [(h.idle hzero).2] at hperm
        exact ⟨(h.idle hzero).1, hperm.eq_nil⟩
      · exact .trans (.append_left _ (.filterMap id
          (hwaiting.append_left _))) h.calls
  | test =>
      simp only [step]
      split
      · exact h
      next testing htesting =>
        have hworkers := h.workers
        split
        next hrunning =>
          refine { h with workers := ?_ }
          simp only
          omega
        next hstopped =>
          refine { h with workers := ?_, alive := ?_ }
          · simp only
            omega
          · intro hrunning
            exact absurd hrunning hstopped
  | take choice =>
      simp only [step]
      split
      · exact h
      next taking htaking => exact (Locked.take h htaking).takeLocked choice
  | goOnTaking who choice =>
      simp only [step]
      split
      · exact h
      next w notEmpty hresume =>
        exact (Locked.resume_take h hresume).takeLocked choice
  | wakeTaking who =>
      simp only [step]
      refine { h with takers := ?_, stopped := ?_, workers := ?_ }
      · exact (h.takers.notify who).mono (Nat.le_succ _)
      · exact fun hstopped => Condition.asleep_notify (h.stopped hstopped) who
      · rw [← h.workers, (Condition.waiting_notify _ who).length_eq]
  | finish who =>
      simp only [step]
      split
      · exact h
      next task holding hpick => exact sound_finish h hpick
  | stop =>
      simp only [step]
      refine { h with takers := ?_, stopped := ?_, workers := ?_, alive := ?_ }
      · exact Condition.alert_notifyAll _ _
      · exact fun _ => rfl
      · rw [← h.workers, (Condition.waiting_notifyAll _).length_eq]
      · simp

theorem sound_run (n : ℕ) (actions : List (Action F)) :
    (run step ({ maxQueueSize_ := n } : ThreadPool F) actions).Sound :=
  run_invariant_of_forall Sound (fun _ a h => sound_step h a) (sound_new n)
    actions

/-- Whatever the threads do, the workers take the tasks in the order in which
they were put into the queue, and a bounded queue does not outgrow its size.
The task of every call of `run` is called once, or held by a worker, or in the
queue, or waits with its caller.  No worker is lost; and while threads sleep
that could go on, as many others are on their way for what is there. -/
theorem run_thread_pool (n : ℕ) (actions : List (Action F)) :
    let s := run step ({ maxQueueSize_ := n } : ThreadPool F) actions
    s.taken ++ s.queue_ = s.pushed ∧
      (0 < n → s.queue_.length ≤ n) ∧
      s.called = actions.flatMap Action.task ∧
      (s.executed ++ s.pending.reduceOption).Perm s.called.reduceOption ∧
      s.testing + s.taking + s.notEmpty_.waiting.length + s.holding.length
        + s.exited = s.threads_ ∧
      (s.notEmpty_.asleep ≠ [] →
        s.running_ ∧ s.queue_.length ≤ s.notEmpty_.woken.length) ∧
      (s.notFull_.asleep ≠ [] →
        0 < n ∧ n - s.queue_.length ≤ s.notFull_.woken.length) := by
  intro s
  have h : s.Sound := sound_run n actions
  have hmax : s.maxQueueSize_ = n :=
    run_invariant_of_forall (fun s => s.maxQueueSize_ = n)
      (fun s a h => (maxQueueSize_step s a).trans h) rfl actions
  have hbound := h.bound
  have hrunners := h.runners
  have hunbounded := h.unbounded
  have hcalled : s.called = actions.flatMap Action.task := by
    refine run_history
      (fun past (s : ThreadPool F) => s.called = past.flatMap Action.task)
      (fun past s a hs => ?_) rfl actions
    rw [called_step, hs, List.flatMap_append, List.flatMap_singleton]
  rw [hmax] at hbound hrunners hunbounded
  refine ⟨h.order, hbound, hcalled, h.calls, h.workers, ?_, ?_⟩
  · intro hasleep
    refine ⟨?_, h.takers.resolve_left hasleep⟩
    by_contra hstopped
    exact hasleep (h.stopped (by simpa using hstopped))
  · intro hasleep
    refine ⟨?_, hrunners.resolve_left hasleep⟩
    by_contra hzero
    have hwaiting := hunbounded (Nat.eq_zero_of_not_pos hzero)
    exact hasleep (List.append_eq_nil_iff.mp hwaiting).1

end ThreadPool

end MuduoHttp
