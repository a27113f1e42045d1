import MuduoHttp.Base.ThreadPool
import MuduoHttp.Support.Progress

/-!
# Stopping the thread pool

Once `stop` was called, no worker sleeps, and each of them comes nearer to its
exit with every step.  So all have exited after enough rounds of the
scheduler, and `stop` can join them.  Each worker takes one more task at most;
what is left in the queue then stays there.

`stop` does not wake the callers of `run`.  Those that wait for a full queue
when the workers have exited wait forever.
-/

namespace MuduoHttp.ThreadPool

open Support

variable {F : Type*} {s : ThreadPool F}

/-- The pool was stopped while it had workers. -/
structure Stopped (s : ThreadPool F) : Prop where
  sound : s.Sound
  running : s.running_ = false
  threads : s.threads_ ≠ 0

/-- What the workers still have to do before they exit. -/
def remaining (s : ThreadPool F) : ℕ :=
  3 * (s.taking + s.notEmpty_.woken.length) + 2 * s.holding.length + s.testing

/-- The worker that the action is about can go on. -/
def Exiting (s : ThreadPool F) : Action F → Prop
  | .test => 0 < s.testing
  | .take _ => 0 < s.taking
  | .goOnTaking _ _ => 0 < s.notEmpty_.woken.length
  | .finish _ => 0 < s.holding.length
  | _ => False

/-- Where the workers stand that have not exited. -/
def crew (s : ThreadPool F) : ℕ × ℕ × ℕ × ℕ :=
  (s.testing, s.taking, s.notEmpty_.woken.length, s.holding.length)

theorem remaining_eq_of_crew {t : ThreadPool F} (h : t.crew = s.crew) :
    t.remaining = s.remaining := by
  simp only [crew, Prod.mk.injEq] at h
  simp only [remaining, h]

theorem exiting_of_crew {t : ThreadPool F} (h : t.crew = s.crew)
    {b : Action F} (hb : s.Exiting b) : t.Exiting b := by
  simp only [crew, Prod.mk.injEq] at h
  cases b <;> simp only [Exiting, h] at hb ⊢ <;> exact hb

theorem notify_eq_self {W : Type*} {c : Condition W} (h : c.asleep = [])
    (choice : ℕ) : c.notify choice = c := by
  simp [Condition.notify, h, pick_nil]

theorem crew_runLocked (h : s.notEmpty_.asleep = []) (task : Task F)
    (choice : ℕ) : (s.runLocked task choice).crew = s.crew := by
  unfold runLocked
  split
  · rfl
  · simp only [crew, notify_eq_self h]

/-- A stopped pool lets no worker wait. -/
theorem remaining_takeLocked_le (h : s.running_ = false) (choice : ℕ) :
    (s.takeLocked choice).remaining ≤ s.remaining + 2 := by
  unfold takeLocked
  split
  · rw [if_neg (by simp [h])]
    simp only [remaining]
    omega
  · simp only [remaining, List.length_append, List.length_singleton]
    omega

theorem Stopped.step (h : s.Stopped) (a : Action F) : (s.step a).Stopped where
  sound := sound_step h.sound a
  running := by
    by_cases ha : a = .stop
    · rw [ha]
      rfl
    · rw [running_step h.threads ha, h.running]
  threads := by
    rw [threads_step h.threads a]
    exact h.threads

/-- A step brings a worker of the stopped pool further, or changes nothing for
the workers. -/
theorem Stopped.step_crew (h : s.Stopped) (a : Action F) :
    (s.step a).remaining < s.remaining ∨
      (s.step a).crew = s.crew ∧ ¬ s.Exiting a := by
  have hasleep := h.sound.stopped h.running
  cases a with
  | start numThreads =>
      right
      simp [ThreadPool.step, h.threads, Exiting]
  | run task choice =>
      right
      simp only [ThreadPool.step, h.threads, if_false]
      exact ⟨crew_runLocked (s := { s with called := s.called ++ [task] })
        hasleep task choice, id⟩
  | goOnRunning who choice =>
      right
      refine ⟨?_, id⟩
      simp only [ThreadPool.step]
      split
      · rfl
      next task notFull _ =>
        exact crew_runLocked (s := { s with notFull_ := notFull })
          hasleep task choice
  | wakeRunning who => exact .inr ⟨rfl, id⟩
  | test =>
      simp only [ThreadPool.step, h.running]
      split
      next hnone => exact .inr ⟨rfl, by simp [Exiting, hnone]⟩
      next testing htesting =>
        left
        simp [remaining, htesting]
  | take choice =>
      simp only [ThreadPool.step]
      split
      next hnone => exact .inr ⟨rfl, by simp [Exiting, hnone]⟩
      next taking htaking =>
        left
        have hle := remaining_takeLocked_le (s := { s with taking := taking })
          h.running choice
        simp only [remaining, htaking] at hle ⊢
        omega
  | goOnTaking who choice =>
      simp only [ThreadPool.step]
      split
      next hnone =>
        refine .inr ⟨rfl, fun hwoken => ?_⟩
        obtain ⟨w, c, hsome⟩ :=
          Condition.exists_resume (List.length_pos_iff.mp hwoken) who
        cases hnone.symm.trans hsome
      next w notEmpty hresume =>
        left
        have hle := remaining_takeLocked_le
          (s := { s with notEmpty_ := notEmpty }) h.running choice
        have hlength := (Condition.resume_eq_some hresume).2.length_eq
        rw [List.length_cons] at hlength
        simp only [remaining, hlength] at hle ⊢
        omega
  | wakeTaking who =>
      right
      simp [ThreadPool.step, crew, notify_eq_self hasleep, Exiting]
  | finish who =>
      simp only [ThreadPool.step]
      split
      next hnone =>
        refine .inr ⟨rfl, fun hholding => ?_⟩
        obtain ⟨x, rest, hsome⟩ :=
          exists_pick (List.length_pos_iff.mp hholding) who
        cases hnone.symm.trans hsome
      next task holding hpick =>
        left
        have hlength := length_of_pick hpick
        simp only [remaining, hlength]
        omega
  | stop =>
      right
      simp [ThreadPool.step, crew, Condition.notifyAll, hasleep, Exiting]

theorem stopped_progress : Progress (@step F) (fun _ => True) Stopped
    Exiting remaining where
  invariant _ a h _ := h.step a
  lowers _ a h hexiting :=
    (h.step_crew a).resolve_right fun hcrew => hcrew.2 hexiting
  stays _ a h _ :=
    (h.step_crew a).imp_right fun hcrew =>
      ⟨remaining_eq_of_crew hcrew.1, fun _ => exiting_of_crew hcrew.1⟩

/-- The stopped pool needs the turns of its workers only. -/
theorem Round.exiting {round : List (Action F)} (h : Round round) :
    FairRound Stopped Exiting remaining round := by
  intro s hs hremaining
  have hsome : 0 < s.testing ∨ 0 < s.taking ∨ 0 < s.notEmpty_.woken.length ∨
      0 < s.holding.length := by
    simp only [remaining] at hremaining
    omega
  obtain ⟨choice, htake⟩ := h.take
  obtain ⟨who, goOnChoice, hgoOn⟩ := h.goOnTaking
  obtain ⟨finisher, hfinish⟩ := h.finish
  rcases hsome with htesting | htaking | hwoken | hholding
  · exact ⟨_, h.test, htesting⟩
  · exact ⟨_, htake, htaking⟩
  · exact ⟨_, hgoOn, hwoken⟩
  · exact ⟨_, hfinish, hholding⟩

/-- The workers that may still take a task from the stopped pool. -/
def turns (s : ThreadPool F) : ℕ :=
  s.taking + s.notEmpty_.waiting.length

theorem turns_runLocked (s : ThreadPool F) (task : Task F) (choice : ℕ) :
    (s.runLocked task choice).turns = s.turns := by
  unfold runLocked
  split
  · rfl
  · simp only [turns, (Condition.waiting_notify _ choice).length_eq]

theorem taken_runLocked (s : ThreadPool F) (task : Task F) (choice : ℕ) :
    (s.runLocked task choice).taken = s.taken := by
  unfold runLocked
  split <;> rfl

theorem taken_takeLocked (h : s.running_ = false) (choice : ℕ) :
    ∃ more, (s.takeLocked choice).taken = s.taken ++ more ∧
      more.length + (s.takeLocked choice).turns ≤ s.turns + 1 := by
  unfold takeLocked
  split
  · rw [if_neg (by simp [h])]
    exact ⟨[], (List.append_nil _).symm, by simp [turns]⟩
  next task queue _ =>
    exact ⟨[task], rfl, Nat.le_of_eq (Nat.add_comm 1 _)⟩

/-- A task that is taken from the stopped pool is a turn of its worker. -/
theorem Stopped.step_taken (h : s.Stopped) (a : Action F) :
    ∃ more, (s.step a).taken = s.taken ++ more ∧
      more.length + (s.step a).turns ≤ s.turns := by
  have hnone : ∀ t : ThreadPool F, t.taken = s.taken → t.turns ≤ s.turns →
      ∃ more, t.taken = s.taken ++ more ∧ more.length + t.turns ≤ s.turns :=
    fun t htaken hturns =>
      ⟨[], by rw [htaken, List.append_nil], by simpa using hturns⟩
  cases a with
  | start numThreads =>
      refine hnone _ ?_ ?_ <;> simp [ThreadPool.step, h.threads]
  | run task choice =>
      simp only [ThreadPool.step, h.threads, if_false]
      exact hnone _ (taken_runLocked ..) (Nat.le_of_eq (turns_runLocked ..))
  | goOnRunning who choice =>
      simp only [ThreadPool.step]
      split
      · exact hnone _ rfl (Nat.le_refl _)
      · exact hnone _ (taken_runLocked ..) (Nat.le_of_eq (turns_runLocked ..))
  | wakeRunning who => exact hnone _ rfl (Nat.le_refl _)
  | test =>
      simp only [ThreadPool.step, h.running]
      split <;> exact hnone _ rfl (Nat.le_refl _)
  | take choice =>
      simp only [ThreadPool.step]
      split
      · exact hnone _ rfl (Nat.le_refl _)
      next taking htaking =>
        have hturn := taken_takeLocked (s := { s with taking := taking })
          h.running choice
        have hturns : turns { s with taking := taking } + 1 = s.turns := by
          simp only [turns, htaking]
          omega
        rwa [hturns] at hturn
  | goOnTaking who choice =>
      simp only [ThreadPool.step]
      split
      · exact hnone _ rfl (Nat.le_refl _)
      next w notEmpty hresume =>
        have hturn := taken_takeLocked (s := { s with notEmpty_ := notEmpty })
          h.running choice
        have hturns : turns { s with notEmpty_ := notEmpty } + 1 = s.turns := by
          have hlength := (Condition.waiting_resume hresume).length_eq
          rw [List.length_cons] at hlength
          simp only [turns, hlength]
          omega
        rwa [hturns] at hturn
  | wakeTaking who =>
      refine hnone _ rfl (Nat.le_of_eq ?_)
      simp only [ThreadPool.step, turns,
        (Condition.waiting_notify _ who).length_eq]
  | finish who =>
      simp only [ThreadPool.step]
      split <;> exact hnone _ rfl (Nat.le_refl _)
  | stop =>
      refine hnone _ rfl (Nat.le_of_eq ?_)
      simp only [ThreadPool.step, turns,
        (Condition.waiting_notifyAll _).length_eq]

theorem Stopped.run_taken (h : s.Stopped) (actions : List (Action F)) :
    ∃ more, (run ThreadPool.step s actions).taken = s.taken ++ more ∧
      more.length + (run ThreadPool.step s actions).turns ≤ s.turns := by
  have hinv : ∀ (t : ThreadPool F) (a : Action F),
      (t.Stopped ∧ ∃ more, t.taken = s.taken ++ more ∧
        more.length + t.turns ≤ s.turns) →
      (t.step a).Stopped ∧ ∃ more, (t.step a).taken = s.taken ++ more ∧
        more.length + (t.step a).turns ≤ s.turns := by
    rintro t a ⟨ht, more, htaken, hturns⟩
    obtain ⟨next, hnext, hnextTurns⟩ := ht.step_taken a
    refine ⟨ht.step a, more ++ next, ?_, ?_⟩
    · rw [hnext, htaken, List.append_assoc]
    · rw [List.length_append]
      omega
  have hrefl : s.Stopped ∧ ∃ more, s.taken = s.taken ++ more ∧
      more.length + s.turns ≤ s.turns :=
    ⟨h, [], (List.append_nil _).symm, by simp⟩
  exact (run_invariant_of_forall _ hinv hrefl actions).2

theorem Stopped.run (h : s.Stopped) (actions : List (Action F)) :
    (run ThreadPool.step s actions).Stopped :=
  run_invariant_of_forall Stopped (fun _ a ht => ht.step a) h actions

/-- Nothing is left to do for the workers when they have all exited. -/
theorem Stopped.exited_eq (h : s.Stopped) (hremaining : s.remaining = 0) :
    s.exited = s.threads_ ∧ s.turns = 0 ∧ s.holding = [] := by
  have hworkers := h.sound.workers
  have hasleep := h.sound.stopped h.running
  simp only [remaining] at hremaining
  simp only [Condition.waiting, hasleep, List.nil_append] at hworkers
  refine ⟨by omega, ?_, List.eq_nil_of_length_eq_zero (by omega)⟩
  simp only [turns, Condition.waiting, hasleep, List.nil_append]
  omega

/-- What lasts in a full pool whose workers have exited: the calls of `run`
since it was `s` wait with the others. -/
structure Blocked (s t : ThreadPool F) : Prop where
  stopped : t.Stopped
  exited : t.exited = t.threads_
  full : t.isFull = true
  pushed : t.pushed = s.pushed
  waits : ∃ calls, t.called = s.called ++ calls ∧
    t.notFull_.waiting.Perm (s.notFull_.waiting ++ calls)

variable {t : ThreadPool F}

theorem runLocked_of_full (h : t.isFull = true) (task : Task F) (choice : ℕ) :
    t.runLocked task choice = { t with notFull_ := t.notFull_.wait task } := by
  rw [runLocked, if_pos h]

/-- The workers that have exited take no step. -/
theorem Blocked.workers (h : Blocked s t) :
    t.testing = 0 ∧ t.taking = 0 ∧ t.notEmpty_.woken = [] ∧ t.holding = [] := by
  have hworkers := h.stopped.sound.workers
  have hexited := h.exited
  simp only [Condition.waiting, List.length_append] at hworkers
  refine ⟨by omega, by omega, ?_, ?_⟩ <;>
    exact List.eq_nil_of_length_eq_zero (by omega)

theorem Blocked.step (h : Blocked s t) (a : Action F) :
    Blocked s (t.step a) := by
  have hstopped := h.stopped.step a
  obtain ⟨htesting, htaking, hwoken, hholding⟩ := h.workers
  obtain ⟨calls, hcalled, hwaits⟩ := h.waits
  cases a with
  | start numThreads =>
      simp only [ThreadPool.step, h.stopped.threads, if_false]
      exact h
  | run task choice =>
      have hstep : t.step (.run task choice) =
          { t with called := t.called ++ [task],
                   notFull_ := t.notFull_.wait task } := by
        simp only [ThreadPool.step, h.stopped.threads, if_false]
        exact runLocked_of_full (t := { t with called := t.called ++ [task] })
          h.full task choice
      rw [hstep] at hstopped ⊢
      refine ⟨hstopped, h.exited, h.full, h.pushed, calls ++ [task], ?_, ?_⟩
      · rw [hcalled, List.append_assoc]
      · calc
          List.Perm (t.notFull_.wait task).waiting
              (task :: t.notFull_.waiting) := Condition.waiting_wait ..
          List.Perm _ (t.notFull_.waiting ++ [task]) :=
            (List.perm_append_singleton ..).symm
          List.Perm _ (s.notFull_.waiting ++ calls ++ [task]) :=
            hwaits.append_right _
          _ = s.notFull_.waiting ++ (calls ++ [task]) :=
            List.append_assoc ..
  | goOnRunning who choice =>
      cases hresume : t.notFull_.resume who with
      | none =>
          simp only [ThreadPool.step, hresume]
          exact h
      | some found =>
          obtain ⟨task, notFull⟩ := found
          have hstep : t.step (.goOnRunning who choice) =
              { t with notFull_ := notFull.wait task } := by
            simp only [ThreadPool.step, hresume]
            exact runLocked_of_full (t := { t with notFull_ := notFull })
              h.full task choice
          rw [hstep] at hstopped ⊢
          refine ⟨hstopped, h.exited, h.full, h.pushed, calls, hcalled, ?_⟩
          exact ((Condition.waiting_wait ..).trans
            (Condition.waiting_resume hresume).symm).trans hwaits
  | wakeRunning who =>
      exact ⟨hstopped, h.exited, h.full, h.pushed, calls, hcalled,
        (Condition.waiting_notify ..).trans hwaits⟩
  | test =>
      simp only [ThreadPool.step, htesting]
      exact h
  | take choice =>
      simp only [ThreadPool.step, htaking]
      exact h
  | goOnTaking who choice =>
      simp only [ThreadPool.step, Condition.resume, hwoken, pick_nil,
        Option.map_none]
      exact h
  | wakeTaking who => exact ⟨hstopped, h.exited, h.full, h.pushed, h.waits⟩
  | finish who =>
      simp only [ThreadPool.step, hholding, pick_nil]
      exact h
  | stop => exact ⟨hstopped, h.exited, h.full, h.pushed, h.waits⟩

end MuduoHttp.ThreadPool
