import MuduoHttp.Base.ThreadPool
import MuduoHttp.Support.Progress

/-!
# Progress of the running thread pool

Let every kind of thread that waits for its turn get it in each round of the
scheduler, among anything else that happens.  Then the tasks of all calls of
`run` are called after enough rounds: no notification is lost on the way, and
threads that wake by themselves hinder nobody.
-/

namespace MuduoHttp.ThreadPool

open Support

variable {F : Type*} {s : ThreadPool F}

structure Running (s : ThreadPool F) : Prop where
  sound : s.Sound
  running : s.running_ = true
  threads : s.threads_ ≠ 0

/-- A step of the threads that are in the pool already. -/
def Action.Internal : Action F → Prop
  | .start _ | .run _ _ | .stop => False
  | _ => True

/-- What is left to do for the tasks of the pool.  The last summand is for the
workers that come back from a task. -/
def outstanding (s : ThreadPool F) : ℕ :=
  2 * (3 * s.notFull_.waiting.length + 2 * s.queue_.length + s.holding.length)
    + s.testing

/-- The action brings some task further. -/
def Advancing (s : ThreadPool F) : Action F → Prop
  | .test => 0 < s.testing
  | .take _ => 0 < s.taking ∧ s.queue_ ≠ []
  | .goOnTaking _ _ => 0 < s.notEmpty_.woken.length ∧ s.queue_ ≠ []
  | .finish _ => 0 < s.holding.length
  | .goOnRunning _ _ => 0 < s.notFull_.woken.length ∧ s.isFull = false
  | _ => False

/-- An action that brings no task further does not hinder the others. -/
def Idles (s : ThreadPool F) (a : Action F) : Prop :=
  (s.step a).outstanding = s.outstanding ∧ ¬ s.Advancing a ∧
    ∀ b, s.Advancing b → (s.step a).Advancing b

theorem idles_of_eq {a : Action F} (h : s.step a = s)
    (hnot : ¬ s.Advancing a) : s.Idles a := by
  rw [Idles, h]
  exact ⟨rfl, hnot, fun _ => id⟩

/-- A worker in `take` of the running pool takes a task if there is one. -/
theorem outstanding_takeLocked_lt (h : s.queue_ ≠ []) (choice : ℕ) :
    (s.takeLocked choice).outstanding < s.outstanding := by
  unfold takeLocked
  split
  next hnone => exact absurd hnone h
  next task queue hqueue =>
    have hwaiting : (if 0 < s.maxQueueSize_ then s.notFull_.notify choice
        else s.notFull_).waiting.length = s.notFull_.waiting.length := by
      split
      · exact (Condition.waiting_notify _ choice).length_eq
      · rfl
    simp only [outstanding, hwaiting, hqueue, List.length_cons,
      List.length_append, List.length_nil]
    omega

theorem takeLocked_of_empty (hqueue : s.queue_ = [])
    (hrunning : s.running_ = true) (choice : ℕ) :
    s.takeLocked choice = { s with notEmpty_ := s.notEmpty_.wait () } := by
  simp [takeLocked, hqueue, hrunning]

theorem Running.step (h : s.Running) {a : Action F} (ha : a.Internal) :
    (s.step a).Running := by
  refine ⟨sound_step h.sound a, ?_, ?_⟩
  · have hrunning := h.running
    have hstop : a ≠ .stop := by
      rintro rfl
      exact ha
    rw [running_step h.threads hstop, hrunning]
  · rw [threads_step h.threads a]
    exact h.threads

/-- A caller of `run` puts its task into the queue that has room. -/
theorem outstanding_runLocked (h : s.isFull = false) (task : Task F)
    (choice : ℕ) :
    (s.runLocked task choice).outstanding = s.outstanding + 4 := by
  simp only [runLocked, h, outstanding, List.length_append,
    List.length_singleton, Bool.false_eq_true, if_false]
  omega

theorem Running.step_tasks (h : s.Running) {a : Action F} (ha : a.Internal) :
    (s.step a).outstanding < s.outstanding ∨ s.Idles a := by
  cases a with
  | start numThreads => exact ha.elim
  | run task choice => exact ha.elim
  | stop => exact ha.elim
  | goOnRunning who choice =>
      cases hresume : s.notFull_.resume who with
      | none =>
          refine .inr (idles_of_eq ?_ ?_)
          · simp only [ThreadPool.step, hresume]
          · simp [Advancing, Condition.resume_eq_none hresume]
      | some found =>
          obtain ⟨task, notFull⟩ := found
          have hlength := (Condition.waiting_resume hresume).length_eq
          rw [List.length_cons] at hlength
          by_cases hfull : s.isFull
          · right
            have hstep : s.step (.goOnRunning who choice) =
                { s with notFull_ := notFull.wait task } := by
              simp only [ThreadPool.step, hresume]
              exact if_pos hfull
            rw [Idles, hstep]
            refine ⟨?_, by simp [Advancing, hfull], ?_⟩
            · simp only [outstanding, hlength,
                (Condition.waiting_wait notFull task).length_eq,
                List.length_cons]
            · intro b hb
              cases b <;> first | exact hb | simp [Advancing, hfull] at hb
          · left
            have hroom : s.isFull = false := by simpa using hfull
            have hle := outstanding_runLocked
              (s := { s with notFull_ := notFull }) hroom task choice
            simp only [ThreadPool.step, hresume, hle]
            simp only [outstanding, hlength]
            omega
  | wakeRunning who =>
      refine .inr ⟨?_, id, ?_⟩
      · simp only [ThreadPool.step, outstanding,
          (Condition.waiting_notify _ who).length_eq]
      · intro b hb
        have hwoken := Condition.length_woken_notify_le s.notFull_ who
        cases b <;> first
          | exact hb
          | exact ⟨Nat.lt_of_lt_of_le hb.1 hwoken, hb.2⟩
  | test =>
      cases htesting : s.testing with
      | zero =>
          refine .inr (idles_of_eq ?_ ?_)
          · simp only [ThreadPool.step, htesting]
          · simp [Advancing, htesting]
      | succ testing =>
          left
          simp only [ThreadPool.step, htesting, h.running, if_true,
            outstanding]
          omega
  | take choice =>
      cases htaking : s.taking with
      | zero =>
          refine .inr (idles_of_eq ?_ ?_)
          · simp only [ThreadPool.step, htaking]
          · simp [Advancing, htaking]
      | succ taking =>
          by_cases hqueue : s.queue_ = []
          · have hstep : s.step (.take choice) =
                { s with taking := taking,
                         notEmpty_ := s.notEmpty_.wait () } := by
              simp only [ThreadPool.step, htaking]
              exact takeLocked_of_empty (s := { s with taking := taking })
                hqueue h.running choice
            rw [Idles, hstep]
            refine .inr ⟨rfl, by simp [Advancing, hqueue], ?_⟩
            intro b hb
            cases b <;> first | exact hb | simp [Advancing, hqueue] at hb
          · left
            simp only [ThreadPool.step, htaking]
            exact outstanding_takeLocked_lt (s := { s with taking := taking })
              hqueue choice
  | goOnTaking who choice =>
      cases hresume : s.notEmpty_.resume who with
      | none =>
          refine .inr (idles_of_eq ?_ ?_)
          · simp only [ThreadPool.step, hresume]
          · simp [Advancing, Condition.resume_eq_none hresume]
      | some found =>
          obtain ⟨w, notEmpty⟩ := found
          by_cases hqueue : s.queue_ = []
          · have hstep : s.step (.goOnTaking who choice) =
                { s with notEmpty_ := notEmpty.wait () } := by
              simp only [ThreadPool.step, hresume]
              exact takeLocked_of_empty (s := { s with notEmpty_ := notEmpty })
                hqueue h.running choice
            rw [Idles, hstep]
            refine .inr ⟨rfl, by simp [Advancing, hqueue], ?_⟩
            intro b hb
            cases b <;> first | exact hb | simp [Advancing, hqueue] at hb
          · left
            simp only [ThreadPool.step, hresume]
            exact outstanding_takeLocked_lt
              (s := { s with notEmpty_ := notEmpty }) hqueue choice
  | wakeTaking who =>
      refine .inr ⟨rfl, id, ?_⟩
      intro b hb
      have hwoken := Condition.length_woken_notify_le s.notEmpty_ who
      cases b <;> first
        | exact hb
        | exact ⟨Nat.lt_of_lt_of_le hb.1 hwoken, hb.2⟩
  | finish who =>
      cases hpick : pick s.holding who with
      | none =>
          refine .inr (idles_of_eq ?_ ?_)
          · simp only [ThreadPool.step, hpick]
          · simp [Advancing, eq_nil_of_pick hpick]
      | some found =>
          left
          have hlength := length_of_pick hpick
          simp only [ThreadPool.step, hpick, outstanding, hlength]
          omega

theorem running_progress : Progress (@step F) Action.Internal Running
    Advancing outstanding where
  invariant _ _ h ha := h.step ha
  lowers s a h hadvancing := by
    have ha : a.Internal := by
      cases a <;> trivial
    exact (h.step_tasks ha).resolve_right fun hidles => hidles.2.1 hadvancing
  stays _ _ h ha :=
    (h.step_tasks ha).imp_right fun hidles => ⟨hidles.1, hidles.2.2⟩

/-- As long as some task is not called, some thread brings one further. -/
theorem Round.advancing {round : List (Action F)} (h : Round round) :
    FairRound Running Advancing outstanding round := by
  intro s hs houtstanding
  obtain ⟨choice, htake⟩ := h.take
  obtain ⟨who, goOnChoice, hgoOn⟩ := h.goOnTaking
  obtain ⟨finisher, hfinish⟩ := h.finish
  obtain ⟨runner, runChoice, hrun⟩ := h.goOnRunning
  by_cases htesting : 0 < s.testing
  · exact ⟨_, h.test, htesting⟩
  by_cases hholding : 0 < s.holding.length
  · exact ⟨_, hfinish, hholding⟩
  by_cases hqueue : s.queue_ = []
  · -- every task waits with its caller, and the queue has room for it
    have hwaiting : 0 < s.notFull_.waiting.length := by
      simp only [outstanding, hqueue, List.length_nil] at houtstanding
      omega
    have hbounded : s.maxQueueSize_ ≠ 0 := by
      intro hzero
      rw [hs.sound.unbounded hzero] at hwaiting
      exact Nat.lt_irrefl 0 hwaiting
    refine ⟨_, hrun, ?_, ?_⟩
    · obtain hasleep | hwoken := hs.sound.runners
      · simpa [Condition.waiting, hasleep] using hwaiting
      · simp only [hqueue, List.length_nil] at hwoken
        omega
    · simp [isFull, hqueue, hbounded]
  by_cases htaking : 0 < s.taking
  · exact ⟨_, htake, htaking, hqueue⟩
  · -- all workers wait, and so many are woken as there are tasks
    refine ⟨_, hgoOn, ?_, hqueue⟩
    have hlength := List.length_pos_iff.mpr hqueue
    obtain hasleep | hwoken := hs.sound.takers
    · have hworkers := hs.sound.workers
      rw [hs.sound.alive hs.running] at hworkers
      simp only [Condition.waiting, hasleep, List.nil_append] at hworkers
      have hthreads := hs.threads
      omega
    · exact Nat.lt_of_lt_of_le hlength hwoken

theorem Action.task_of_internal {a : Action F} (ha : a.Internal) :
    a.task = [] := by
  cases a <;> first | exact ha.elim | rfl

/-- Let a pool with workers run, and no further task be added.  Then the tasks
of all calls of `run` were called after enough rounds, whether they were in
the queue, held, or waiting with a blocked caller. -/
theorem all_tasks_executed (n : ℕ) (actions : List (Action F))
    (rounds : List (List (Action F)))
    (hrunning :
      (run step ({ maxQueueSize_ := n } : ThreadPool F) actions).running_
        = true)
    (hthreads :
      (run step ({ maxQueueSize_ := n } : ThreadPool F) actions).threads_ ≠ 0)
    (hrounds : ∀ round ∈ rounds, Round round)
    (hinternal : ∀ round ∈ rounds, ∀ a ∈ round, a.Internal)
    (hmany :
      6 * (run step
            ({ maxQueueSize_ := n } : ThreadPool F) actions).pending.length
        + (run step ({ maxQueueSize_ := n } : ThreadPool F) actions).threads_
        ≤ rounds.length) :
    let s := run step ({ maxQueueSize_ := n } : ThreadPool F) actions
    let t := run step s rounds.flatten
    t.pending = [] ∧ t.executed.Perm s.called.reduceOption := by
  intro s t
  have hs : s.Running := ⟨sound_run n actions, hrunning, hthreads⟩
  have hall : ∀ a ∈ rounds.flatten, a.Internal := by
    intro a ha
    obtain ⟨round, hround, hmem⟩ := List.mem_flatten.mp ha
    exact hinternal round hround a hmem
  have ht : t.Running := running_progress.run_invariant hs hall
  have hnone : t.outstanding = 0 := by
    refine running_progress.measure_rounds_eq_zero hs hinternal
      (fun round hround => (hrounds round hround).advancing) ?_
    refine Nat.le_trans ?_ hmany
    show s.outstanding ≤ 6 * s.pending.length + s.threads_
    have hworkers := hs.sound.workers
    simp only [outstanding, pending, List.length_append]
    omega
  have hpending : t.pending = [] := by
    apply List.eq_nil_of_length_eq_zero
    simp only [outstanding] at hnone
    simp only [pending, List.length_append]
    omega
  have hcalled : t.called = s.called := by
    have hinv : t.called = s.called :=
      Support.run_invariant (fun t => t.called = s.called)
        (fun t a h ha => by
          rw [called_step, Action.task_of_internal ha, List.append_nil, h])
        rfl
        (everyStep_of_mem (fun a ha _ => hall a ha) s)
    exact hinv
  have hcalls := ht.sound.calls
  rw [hpending, hcalled] at hcalls
  exact ⟨hpending, by simpa [List.reduceOption] using hcalls⟩

/-- The second caller is blocked. -/
theorem all_tasks_executed_one_worker :
    let s := run step ({ maxQueueSize_ := 1 } : ThreadPool ℕ)
      [.start 1, .run (some 7) 0, .run (some 8) 0]
    let t := run step s (List.replicate 13 everyTurn).flatten
    t.pending = [] ∧ t.executed.Perm [7, 8] :=
  all_tasks_executed 1 [.start 1, .run (some 7) 0, .run (some 8) 0]
    (List.replicate 13 everyTurn) rfl (by decide)
    (fun round hround => List.eq_of_mem_replicate hround ▸ round_everyTurn)
    (by
      intro round hround a ha
      rw [List.eq_of_mem_replicate hround] at ha
      simp only [everyTurn, List.mem_cons, List.not_mem_nil, or_false] at ha
      rcases ha with rfl | rfl | rfl | rfl | rfl <;> trivial)
    (by decide)

end MuduoHttp.ThreadPool
