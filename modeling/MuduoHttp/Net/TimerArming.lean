import MuduoHttp.Net.TimerPlaces

/-!
# No timer is forgotten

Between two steps of the loop thread the timerfd is armed, or readable, as
long as the set has a timer, and no later than for the earliest one.  Inside
`handleRead`, which arms the timerfd only at its end, this holds as long as
the set has a timer that `reset` would not arm it for.
-/

namespace MuduoHttp

open Support

theorem howMuchTimeFromNow_spec (when now : ℤ) :
    let value := howMuchTimeFromNow when now
    value.Valid ∧ value ≠ { tv_sec := 0, tv_nsec := 0 } ∧
      value.microseconds = max 100 (when - now) ∧
      value.tv_sec * 1000000000 + value.tv_nsec =
        1000 * max 100 (when - now) := by
  intro value
  obtain ⟨u, hu, hmax, hvalue⟩ : ∃ u : ℤ, 100 ≤ u ∧
      max 100 (when - now) = u ∧ value =
        { tv_sec := u.tdiv 1000000, tv_nsec := u.tmod 1000000 * 1000 } := by
    refine ⟨if when - now < 100 then 100 else when - now, ?_, ?_, rfl⟩
    · split <;> omega
    · split <;> omega
  have hdiv : u.tdiv 1000000 = u / 1000000 :=
    Int.tdiv_eq_ediv_of_nonneg (by omega)
  have hmod : u.tmod 1000000 = u % 1000000 :=
    Int.tmod_eq_emod_of_nonneg (by omega)
  rw [hmax, hvalue, hdiv, hmod]
  refine ⟨?_, ?_, ?_, ?_⟩
  · simp only [Timespec.Valid]
    omega
  · intro hzero
    obtain ⟨hsec, hnsec⟩ := Timespec.mk.inj hzero
    omega
  · simp only [Timespec.microseconds]
    omega
  · dsimp only
    omega

namespace TimerQueue

variable {T : Type*} [LinearOrder T] {s s' : TimerQueue T} {t : T}
  {e : Entry T} {now : ℤ}

/-- The timerfd is armed early enough for every entry. -/
def Covered (s : TimerQueue T) : Prop :=
  ∃ armed, s.timerfd = some armed ∧
    ∀ e ∈ s.timers, armed.expiry ≤ max e.when (armed.armedAt + 100)

theorem Covered.of_subset (h : s.Covered) (htimerfd : s'.timerfd = s.timerfd)
    (hsub : ∀ e ∈ s'.timers, ∃ e' ∈ s.timers, e'.when ≤ e.when) :
    s'.Covered := by
  obtain ⟨armed, harmed, hcover⟩ := h
  refine ⟨armed, htimerfd.trans harmed, ?_⟩
  intro e he
  obtain ⟨e', he', hle⟩ := hsub e he
  have hexpiry := hcover e' he'
  omega

/-- Arming the timerfd for the earliest entry. -/
theorem covered_resetTimerfd {expiration : ℤ}
    (hfirst : ∀ e ∈ s.timers, expiration ≤ e.when) (now : ℤ) :
    (s.resetTimerfd expiration now).Covered := by
  obtain ⟨hvalid, hzero, hmicroseconds, -⟩ :=
    howMuchTimeFromNow_spec expiration now
  refine ⟨{ armedAt := now, expiry := now + max 100 (expiration - now) },
    ?_, ?_⟩
  · simp only [resetTimerfd, timerfdSettime, if_pos hvalid, if_neg hzero,
      hmicroseconds]
  · intro e he
    have hle := hfirst e he
    dsimp only
    omega

/-- Every value passed to `timerfd_settime` is the time left. -/
def SettimesValid (s : TimerQueue T) : Prop :=
  ∀ c ∈ s.settimes, c.value.Valid ∧
    c.value ≠ { tv_sec := 0, tv_nsec := 0 } ∧
    c.value.tv_sec * 1000000000 + c.value.tv_nsec =
      1000 * max 100 (c.expiration - c.now)

theorem SettimesValid.resetTimerfd (h : s.SettimesValid) (expiration now : ℤ) :
    (s.resetTimerfd expiration now).SettimesValid := by
  intro c hc
  rcases List.mem_append.mp hc with hold | hnew
  · exact h c hold
  · obtain rfl := List.mem_singleton.mp hnew
    obtain ⟨hvalid, hzero, -, hvalue⟩ := howMuchTimeFromNow_spec expiration now
    exact ⟨hvalid, hzero, hvalue⟩

/-- Inserting the earliest timer arms the timerfd; otherwise an entry that is
not later is there already. -/
theorem addTimerInLoop_cases (s : TimerQueue T) (t : T) (now : ℤ) :
    ((s.addTimerInLoop t now).Covered ∧
        s.addTimerInLoop t now =
          (s.insert t).2.resetTimerfd (s.timer t).expiration now) ∨
      s.addTimerInLoop t now = (s.insert t).2 ∧
        ∃ first ∈ s.timers, first.when ≤ (s.timer t).expiration := by
  cases hfirst : s.timers.first? with
  | none =>
      have hempty := OrderedSet.first?_eq_none_iff.mp hfirst
      have hadd : s.addTimerInLoop t now =
          (s.insert t).2.resetTimerfd (s.timer t).expiration now := by
        simp [addTimerInLoop, insert, hfirst]
      refine .inl ⟨?_, hadd⟩
      rw [hadd]
      apply covered_resetTimerfd
      intro e he
      rcases mem_insert.mp he with rfl | hin
      · exact le_rfl
      · exact absurd hin (hempty e)
  | some first =>
      obtain ⟨hmem, hleast⟩ := OrderedSet.first?_eq_some_iff.mp hfirst
      by_cases hlt : (s.timer t).expiration < first.when
      · have hadd : s.addTimerInLoop t now =
            (s.insert t).2.resetTimerfd (s.timer t).expiration now := by
          simp [addTimerInLoop, insert, hfirst, hlt]
        refine .inl ⟨?_, hadd⟩
        rw [hadd]
        apply covered_resetTimerfd
        intro e he
        rcases mem_insert.mp he with rfl | hin
        · exact le_rfl
        · exact hlt.le.trans (Entry.when_le (hleast e hin))
      · refine .inr ⟨?_, first, hmem, not_lt.mp hlt⟩
        simp [addTimerInLoop, insert, hfirst, hlt]

end TimerQueue

namespace TimerLoop

variable {T : Type*} [LinearOrder T] {s s' : TimerLoop T} {t : T}
  {e : Entry T} {clock : ℤ}

/-- The timerfd is armed for the entry: between two steps for each, and inside
`handleRead` for those that are not after the epoch. -/
structure Watched (s : TimerLoop T) : Prop where
  sound : s.Sound
  positive : ∀ now ran rest, s.phase = .reading now ran rest → 0 < now
  covered : ∀ e ∈ s.queue.timers, s.phase = .idle ∨ e.when ≤ 0 →
    s.queue.Covered
  settimes : s.queue.SettimesValid

theorem watched_start (timer : T → Timer) (callingExpiredTimers : Bool) :
    (start timer callingExpiredTimers).Watched where
  sound := sound_start timer callingExpiredTimers
  positive _ _ _ h := nomatch h
  covered _ he _ := absurd he Std.ExtTreeSet.not_mem_empty
  settimes _ hc := absurd hc List.not_mem_nil

/-- A step that adds no entry and does not touch the timerfd. -/
theorem Watched.of_subset (h : s.Watched) (hsound : s'.Sound)
    (hphase : s'.phase = s.phase)
    (hsub : ∀ e ∈ s'.queue.timers, e ∈ s.queue.timers)
    (htimerfd : s'.queue.timerfd = s.queue.timerfd)
    (hsettimes : s'.queue.settimes = s.queue.settimes) : s'.Watched where
  sound := hsound
  positive := hphase ▸ h.positive
  covered e he hcond := by
    rw [hphase] at hcond
    exact (h.covered e (hsub e he) hcond).of_subset htimerfd
      fun e' he' => ⟨e', hsub e' he', le_rfl⟩
  settimes c hc := h.settimes c (hsettimes ▸ hc)

theorem Watched.addTimerInLoop (h : s.Watched) (ht : s.Loose t) (clock : ℤ) :
    (s.addTimerInLoop t clock).Watched := by
  have hsound := h.sound.addTimerInLoop ht clock
  rcases TimerQueue.addTimerInLoop_cases s.queue t clock with
    ⟨hcovered, hadd⟩ | ⟨hadd, first, hfirst, hle⟩
  · refine ⟨hsound, h.positive, fun _ _ _ => hcovered, ?_⟩
    change (s.queue.addTimerInLoop t clock).SettimesValid
    rw [hadd]
    exact TimerQueue.SettimesValid.resetTimerfd h.settimes _ _
  · refine ⟨hsound, h.positive, ?_, ?_⟩
    · intro e he hcond
      change e ∈ (s.queue.addTimerInLoop t clock).timers at he
      have hsub : ∀ e ∈ (s.queue.insert t).2.timers,
          ∃ e' ∈ s.queue.timers, e'.when ≤ e.when := by
        intro e he
        rcases TimerQueue.mem_insert.mp he with rfl | hin
        · exact ⟨first, hfirst, hle⟩
        · exact ⟨e, hin, le_rfl⟩
      rw [hadd] at he
      obtain ⟨e', he', hle'⟩ := hsub e he
      have hcovered := h.covered e' he'
        (hcond.imp_right fun hneg => hle'.trans hneg)
      change (s.queue.addTimerInLoop t clock).Covered
      rw [hadd]
      exact hcovered.of_subset rfl hsub
    · change (s.queue.addTimerInLoop t clock).SettimesValid
      rw [hadd]
      exact h.settimes

theorem Watched.cancelInLoop (h : s.Watched) (t : T) (held : Bool) :
    (s.cancelInLoop t held).Watched := by
  obtain ⟨cancelingTimers, heq⟩ :=
    TimerQueue.cancelInLoop_eq s.queue t (s.alive t held)
  refine h.of_subset (h.sound.cancelInLoop t held) rfl
    (fun _ he => TimerQueue.mem_of_mem_cancelInLoop he) ?_ ?_
  · change (s.queue.cancelInLoop t (s.alive t held)).timerfd = _
    rw [heq]
  · change (s.queue.cancelInLoop t (s.alive t held)).settimes = _
    rw [heq]

theorem Watched.handleRead (h : s.Watched) (now : Clock) (readAt : ℤ) :
    (s.handleRead now readAt).Watched where
  sound := h.sound.handleRead now readAt
  positive now' ran rest hphase := by
    obtain ⟨rfl, -, -⟩ := ReadPhase.reading.inj hphase
    exact now.2
  covered e he hcond := by
    -- What stays in the set is later than `now`.
    have hlater := ((mem_timers_handleRead s now readAt).mp he).2
    have hnow := now.2
    rcases hcond with hidle | hneg
    · exact nomatch hidle
    · omega
  settimes := by
    obtain ⟨timerfd, hread⟩ := TimerQueue.readTimerfd_eq s.queue readAt
    intro c hc
    change c ∈ ((s.queue.readTimerfd readAt).getExpired now).2.settimes at hc
    rw [hread] at hc
    exact h.settimes c hc

/-- A timer that is put back is after the epoch. -/
theorem renewed_pos {queue : TimerQueue T} {b : Entry T} {now : ℤ}
    (hnow : 0 < now) (hrenews : queue.Renews b) :
    0 < (queue.renewed now b).when := by
  obtain ⟨interval, hinterval⟩ := Option.isSome_iff_exists.mp hrenews.1
  simp only [TimerQueue.renewed, Timer.restart, hinterval]
  omega

/-- At the end of `handleRead` the timerfd is armed for the first entry, unless
it was armed for it when the entry was added. -/
theorem Watched.finishRead (h : s.Watched) {now : ℤ} {ran : List (Entry T)}
    (hphase : s.phase = .reading now ran []) (clock : ℤ) :
    (∀ e ∈ (s.queue.finishRead ran now clock).timers,
      (s.queue.finishRead ran now clock).Covered) ∧
        (s.queue.finishRead ran now clock).SettimesValid := by
  have hreset := h.sound.resetsTo hphase
  have hnow := h.positive now ran [] hphase
  set queue := ran.foldl (TimerQueue.resetEntry now)
    { s.queue with callingExpiredTimers := false } with hqueue
  have hsettimes : queue.SettimesValid := by
    intro c hc
    rw [hreset.settimes] at hc
    exact h.settimes c hc
  rcases s.queue.finishRead_cases ran now clock hqueue with
    ⟨hnone, hfinish⟩ | ⟨first, hfirst, hfinish⟩
  · rw [hfinish]
    exact ⟨fun e he => absurd he (OrderedSet.first?_eq_none_iff.mp hnone e),
      hsettimes⟩
  · obtain ⟨hmem, hleast⟩ := OrderedSet.first?_eq_some_iff.mp hfirst
    have hkey : (queue.timer first.timer).expiration = first.when :=
      (congrArg Entry.when (hreset.keyed first hmem)).symm
    rw [hfinish, hkey]
    by_cases hpos : 0 < first.when
    · rw [if_pos hpos]
      exact ⟨fun _ _ => TimerQueue.covered_resetTimerfd
        (fun e he => Entry.when_le (hleast e he)) clock,
        hsettimes.resetTimerfd _ _⟩
    · rw [if_neg hpos]
      refine ⟨fun _ _ => ?_, hsettimes⟩
      have hold : first ∈ s.queue.timers := by
        rcases (hreset.mem first).mp hmem with hin | ⟨b, -, hrenews, rfl⟩
        · exact hin
        · exact absurd (renewed_pos hnow hrenews) hpos
      refine (h.covered first hold (.inr (not_lt.mp hpos))).of_subset
        hreset.timerfd ?_
      exact fun e he => ⟨first, hold, Entry.when_le (hleast e he)⟩

theorem Watched.reset (h : s.Watched) {now : ℤ} {ran : List (Entry T)}
    (hphase : s.phase = .reading now ran []) (clock : ℤ) :
    TimerLoop.Watched
      { s with queue := s.queue.finishRead ran now clock, phase := .idle } where
  sound := h.sound.reset hphase clock
  positive _ _ _ hreading := nomatch hreading
  covered e he _ := (h.finishRead hphase clock).1 e he
  settimes := (h.finishRead hphase clock).2

theorem Watched.create (h : s.Watched) (ht : t ∉ s.created) (when : ℤ)
    (interval : Option ℕ) : (s.create t when interval).Watched :=
  h.of_subset (h.sound.create ht when interval).1 rfl (fun _ he => he) rfl rfl

theorem Watched.queueInLoop (h : s.Watched) {f : TimerFunctor T}
    (hsound : (s.queueInLoop f).Sound) : (s.queueInLoop f).Watched :=
  h.of_subset hsound rfl (fun _ he => he) rfl rfl

theorem Watched.pop (h : s.Watched) {f : TimerFunctor T}
    {rest : List (TimerFunctor T)} (hf : s.pendingFunctors = f :: rest) :
    TimerLoop.Watched { s with pendingFunctors := rest } :=
  h.of_subset (h.sound.pop hf).1 rfl (fun _ he => he) rfl rfl

theorem Watched.callback (h : s.Watched) {now : ℤ} {ran rest : List (Entry T)}
    (hphase : s.phase = .reading now ran (e :: rest)) (event : TimerEvent T) :
    (TimerLoop.record { s with phase := .reading now (ran ++ [e]) rest }
      event).Watched := by
  refine ⟨(h.sound.callback hphase).record event, ?_, ?_, h.settimes⟩
  · intro now' ran' rest' hreading
    obtain ⟨rfl, -, -⟩ := ReadPhase.reading.inj hreading
    exact h.positive now ran (e :: rest) hphase
  · intro e' he' hcond
    refine h.covered e' he' (.inr ?_)
    rcases hcond with hidle | hneg
    · exact nomatch hidle
    · exact hneg

theorem Watched.step (h : s.Watched) (a : Action T) : (s.step a).Watched := by
  apply step_cases
  · exact h
  · intro t when interval clock ht
    have hloose := (h.sound.create ht when interval).2
    exact (h.create ht when interval).addTimerInLoop hloose clock
  · intro t when interval ht
    obtain ⟨hcreate, hloose⟩ := h.sound.create ht when interval
    exact (h.create ht when interval).queueInLoop (hcreate.queueAdd hloose)
  · exact fun t held _ => h.cancelInLoop t held
  · exact fun t ht => h.queueInLoop (h.sound.queueCancel ht)
  · intro t rest clock _ hf
    exact (h.pop hf).addTimerInLoop ((h.sound.pop hf).2 t rfl) clock
  · exact fun t rest held _ hf _ => (h.pop hf).cancelInLoop t held
  · exact fun now readAt _ => h.handleRead now readAt
  · exact fun now ran e rest hphase => h.callback hphase _
  · exact fun now ran clock hphase _ => h.reset hphase clock

end TimerLoop

/-- Between two steps of the loop thread, a set that has a timer has a timerfd
that is armed, or readable, for the first one; and `timerfd_settime` is only
given the time that is left. -/
theorem timerfd_armed {T : Type*} [LinearOrder T] (timer : T → Timer)
    (callingExpiredTimers : Bool) (actions : List (TimerLoop.Action T)) :
    let s := run TimerLoop.step (.start timer callingExpiredTimers) actions
    (s.phase = .idle → ∀ first, s.queue.timers.first? = some first →
      ∃ armed, s.queue.timerfd = some armed ∧
        armed.expiry ≤ max first.when (armed.armedAt + 100)) ∧
    ∀ c ∈ s.queue.settimes, c.value.Valid ∧
      c.value ≠ { tv_sec := 0, tv_nsec := 0 } ∧
      c.value.tv_sec * 1000000000 + c.value.tv_nsec =
        1000 * max 100 (c.expiration - c.now) := by
  have h := run_invariant_of_forall TimerLoop.Watched (fun s a hs => hs.step a)
    (TimerLoop.watched_start timer callingExpiredTimers) actions
  refine ⟨?_, h.settimes⟩
  intro hidle first hfirst
  obtain ⟨hmem, -⟩ := OrderedSet.first?_eq_some_iff.mp hfirst
  obtain ⟨armed, harmed, hcover⟩ := h.covered first hmem (.inl hidle)
  exact ⟨armed, harmed, hcover first hmem⟩

end MuduoHttp
