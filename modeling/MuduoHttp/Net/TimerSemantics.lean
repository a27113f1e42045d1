import MuduoHttp.Net.TimerEnded

/-!
# What `handleRead` does

A `handleRead` runs the callbacks of the timers that are due when it starts,
whatever its callbacks and other threads add and cancel meanwhile.  A repeating
timer is put back unless it was cancelled; a timer that is not put back never
runs again.
-/

namespace MuduoHttp

open Support

namespace TimerLoop

variable {T : Type*} [LinearOrder T]

/-- The step may end a `handleRead`. -/
def Action.IsReset : Action T → Prop
  | .reset _ => True
  | _ => False

/-- A `handleRead` at `now` that started in `s` ended in `s'`, and `new` is
what happened in it. -/
structure HandledRead (s : TimerLoop T) (now : ℤ) (new : List (TimerEvent T))
    (s' : TimerLoop T) : Prop where
  started_iff : ∀ t, .started t ∈ new ↔
    ∃ e ∈ s.queue.timers, e.timer = t ∧ e.when ≤ now
  once : (new.filterMap TimerEvent.started?).Nodup
  order : (new.filterMap TimerEvent.started?).Pairwise fun t u =>
    (s.queue.timer t).expiration ≤ (s.queue.timer u).expiration
  oneShot : ∀ t, .started t ∈ new → (s.queue.timer t).interval = none →
    ¬ s'.queue.Scheduled t ∧ ∀ later,
      (Support.run step s' later).log.count (.started t) = s'.log.count (.started t)
  repeating : ∀ t interval, .started t ∈ new →
    (s.queue.timer t).interval = some interval → .canceled t ∉ new →
      { when := now + interval, timer := t } ∈ s'.queue.timers
  canceled : ∀ t, .started t ∈ new → .canceled t ∈ new →
    ¬ s'.queue.Scheduled t
  untouched : ∀ e, .started e.timer ∉ new → .added e.timer ∉ new →
    .canceled e.timer ∉ new → (e ∈ s'.queue.timers ↔ e ∈ s.queue.timers)

variable {s s₀ : TimerLoop T} {t u : T} {e : Entry T} {now : ℤ}
  {batch : List (Entry T)} {new : List (TimerEvent T)}

/-! ## Inside `handleRead` -/

/-- A `handleRead` at `now` with the given batch started in `s₀`, and `new` is
what happened since. -/
structure During (s₀ : TimerLoop T) (now : ℤ) (batch : List (Entry T))
    (s : TimerLoop T) (new : List (TimerEvent T)) : Prop where
  sound : s.Sound
  phase : ∃ ran rest, s.phase = .reading now ran rest ∧ ran ++ rest = batch ∧
    new.filterMap TimerEvent.started? = ran.map Entry.timer
  log : s.log = s₀.log ++ new
  timer : ∀ t ∈ s₀.created, s.queue.timer t = s₀.queue.timer t
  created : ∀ t ∈ s₀.created, t ∈ s.created
  noted : ∀ e ∈ batch,
    e ∈ s.queue.cancelingTimers ↔ .canceled e.timer ∈ new
  others : ∀ e, e.timer ∉ batch.map Entry.timer → .added e.timer ∉ new →
    .canceled e.timer ∉ new → (e ∈ s.queue.timers ↔ e ∈ s₀.queue.timers)

theorem Sound.during_handleRead (h : s.Sound) (now readAt : ℤ) :
    During s now (s.handleRead now readAt).phase.expired
      (s.handleRead now readAt) [] where
  sound := h.handleRead now readAt
  phase := ⟨[], _, rfl, rfl, rfl⟩
  log := (List.append_nil _).symm
  timer t _ := by
    have hentry := congrFun (entry_handleRead s now readAt) t
    obtain ⟨timerfd, hread⟩ := TimerQueue.readTimerfd_eq s.queue readAt
    change ((s.queue.readTimerfd readAt).getExpired now).2.timer t = _
    rw [hread]
    rfl
  created _ ht := ht
  noted e _ := by
    constructor
    · exact fun hin => absurd hin Std.ExtTreeSet.not_mem_empty
    · exact fun hin => absurd hin List.not_mem_nil
  others e hbatch _ _ := by
    rw [mem_timers_handleRead]
    constructor
    · exact And.left
    · intro hmem
      refine ⟨hmem, not_le.mp fun hle => hbatch ?_⟩
      exact List.mem_map_of_mem
        ((mem_expired_handleRead s now readAt).mpr ⟨hmem, hle⟩)

/-- A step that leaves the set, the batch and the log alone. -/
theorem During.frame (h : During s₀ now batch s new) {s' : TimerLoop T}
    (hsound : s'.Sound) (hphase : s'.phase = s.phase)
    (hlog : s'.log = s.log)
    (htimer : ∀ t ∈ s.created, s'.queue.timer t = s.queue.timer t)
    (hcreated : ∀ t ∈ s.created, t ∈ s'.created)
    (hcanceling : s'.queue.cancelingTimers = s.queue.cancelingTimers)
    (htimers : s'.queue.timers = s.queue.timers) :
    During s₀ now batch s' new where
  sound := hsound
  phase := hphase ▸ h.phase
  log := hlog.trans h.log
  timer t ht := (htimer t (h.created t ht)).trans (h.timer t ht)
  created t ht := hcreated t (h.created t ht)
  noted e he := hcanceling ▸ h.noted e he
  others e hbatch hadded hcanceled := by
    rw [htimers]
    exact h.others e hbatch hadded hcanceled

theorem During.create (h : During s₀ now batch s new) (ht : t ∉ s.created)
    (when : ℤ) (interval : Option ℕ) :
    During s₀ now batch (s.create t when interval) new := by
  refine h.frame (h.sound.create ht when interval).1 rfl rfl ?_
    (fun u hu => .tail _ hu) rfl rfl
  intro u hu
  have hne : u ≠ t := fun heq => ht (heq ▸ hu)
  exact Function.update_of_ne hne _ _

/-- An event that is not the start of a callback leaves the batch alone. -/
theorem During.phase_append (h : During s₀ now batch s new)
    {event : TimerEvent T} (hevent : event.started? = none) :
    ∃ ran rest, s.phase = .reading now ran rest ∧ ran ++ rest = batch ∧
      (new ++ [event]).filterMap TimerEvent.started? =
        ran.map Entry.timer := by
  obtain ⟨ran, rest, hphase, hbatch, hstarted⟩ := h.phase
  refine ⟨ran, rest, hphase, hbatch, ?_⟩
  simp [hstarted, hevent]

theorem During.log_append (h : During s₀ now batch s new)
    (event : TimerEvent T) : s.log ++ [event] = s₀.log ++ (new ++ [event]) := by
  rw [h.log, List.append_assoc]

theorem During.addTimerInLoop (h : During s₀ now batch s new)
    (ht : s.Loose t) (clock : ℤ) :
    During s₀ now batch (s.addTimerInLoop t clock) (new ++ [.added t]) where
  sound := h.sound.addTimerInLoop ht clock
  phase := h.phase_append rfl
  log := h.log_append _
  timer u hu := by
    change (s.queue.addTimerInLoop t clock).timer u = _
    rw [TimerQueue.timer_addTimerInLoop]
    exact h.timer u hu
  created := h.created
  noted e he := by
    change e ∈ (s.queue.addTimerInLoop t clock).cancelingTimers ↔ _
    rw [TimerQueue.cancelingTimers_addTimerInLoop, h.noted e he]
    simp
  others e hbatch hadded hcanceled := by
    rw [List.mem_append, not_or] at hadded hcanceled
    have hne : e ≠ s.queue.entry t := by
      rintro rfl
      exact hadded.2 (.head _)
    change e ∈ (s.queue.addTimerInLoop t clock).timers ↔ _
    rw [TimerQueue.timers_addTimerInLoop, TimerQueue.mem_insert,
      or_iff_right hne]
    exact h.others e hbatch hadded.1 hcanceled.1

theorem During.expired_eq (h : During s₀ now batch s new) :
    s.phase.expired = batch := by
  obtain ⟨ran, rest, hphase, hbatch, -⟩ := h.phase
  rw [hphase]
  exact hbatch

/-- A cancelled timer of the batch is noted. -/
theorem During.cancelInLoop (h : During s₀ now batch s new) (t : T)
    (held : Bool) :
    During s₀ now batch (s.cancelInLoop t held) (new ++ [.canceled t]) where
  sound := h.sound.cancelInLoop t held
  phase := h.phase_append rfl
  log := h.log_append _
  timer u hu := by
    obtain ⟨cancelingTimers, heq⟩ :=
      TimerQueue.cancelInLoop_eq s.queue t (s.alive t held)
    change (s.queue.cancelInLoop t (s.alive t held)).timer u = _
    rw [heq]
    exact h.timer u hu
  created := h.created
  noted e he := by
    have hexpired : e ∈ s.phase.expired := h.expired_eq ▸ he
    by_cases heq : e.timer = t
    · have hin : s.InBatch t := ⟨e, hexpired, heq⟩
      have hentry : e = s.queue.entry t := heq ▸ h.sound.batch e hexpired
      have hmem : e ∈ (s.queue.cancelInLoop t true).cancelingTimers := by
        refine (TimerQueue.mem_cancelingTimers_cancelInLoop
          (h.sound.calling (List.ne_nil_of_mem hexpired)) ?_).mpr (.inl hentry)
        exact fun hmem => h.sound.apart t hin ⟨_, hmem, rfl⟩
      rw [← alive_of_inBatch hin held] at hmem
      exact iff_of_true hmem (by simp [heq])
    · change e ∈ (s.queue.cancelInLoop t _).cancelingTimers ↔ _
      rw [(TimerQueue.mem_cancelInLoop_of_ne heq).2, h.noted e he]
      simp [heq]
  others e hbatch hadded hcanceled := by
    rw [List.mem_append, not_or] at hadded hcanceled
    have hne : e.timer ≠ t := by
      rintro rfl
      exact hcanceled.2 (.head _)
    change e ∈ (s.queue.cancelInLoop t _).timers ↔ _
    rw [(TimerQueue.mem_cancelInLoop_of_ne hne).1]
    exact h.others e hbatch hadded.1 hcanceled.1

theorem During.queueInLoop (h : During s₀ now batch s new)
    {f : TimerFunctor T} (hsound : (s.queueInLoop f).Sound) :
    During s₀ now batch (s.queueInLoop f) new :=
  h.frame hsound rfl rfl (fun _ _ => rfl) (fun _ hu => hu) rfl rfl

theorem During.callback (h : During s₀ now batch s new) {now' : ℤ}
    {ran rest : List (Entry T)}
    (hphase : s.phase = .reading now' ran (e :: rest)) :
    During s₀ now batch
      (TimerLoop.record { s with phase := .reading now' (ran ++ [e]) rest }
        (.started e.timer)) (new ++ [.started e.timer]) where
  sound := (h.sound.callback hphase).record _
  phase := by
    obtain ⟨ran', rest', hphase', hbatch, hstarted⟩ := h.phase
    obtain ⟨rfl, rfl, rfl⟩ :=
      ReadPhase.reading.inj (hphase'.symm.trans hphase)
    refine ⟨ran' ++ [e], rest, rfl, ?_, ?_⟩
    · rw [← hbatch, List.append_assoc]
      rfl
    · rw [List.filterMap_append, hstarted, List.map_append]
      rfl
  log := h.log_append _
  timer := h.timer
  created := h.created
  noted b hb := by
    change b ∈ s.queue.cancelingTimers ↔ _
    rw [h.noted b hb]
    simp
  others b hbatch hadded hcanceled := by
    rw [List.mem_append, not_or] at hadded hcanceled
    exact h.others b hbatch hadded.1 hcanceled.1

/-- Whatever the callbacks and other threads do. -/
theorem During.step (h : During s₀ now batch s new) {a : Action T}
    (ha : ¬ a.IsReset) : ∃ new', During s₀ now batch (s.step a) new' := by
  obtain ⟨ran, rest, hphase, -, -⟩ := h.phase
  have hbusy : s.phase ≠ .idle := by simp [hphase]
  apply step_cases (P := fun s' => ∃ new', During s₀ now batch s' new')
  · exact ⟨_, h⟩
  · intro t when interval clock ht
    have hloose := (h.sound.create ht when interval).2
    exact ⟨_, (h.create ht when interval).addTimerInLoop hloose clock⟩
  · intro t when interval ht
    have hcreate := h.create ht when interval
    have hloose := (h.sound.create ht when interval).2
    exact ⟨_, hcreate.queueInLoop (hcreate.sound.queueAdd hloose)⟩
  · exact fun t held _ => ⟨_, h.cancelInLoop t held⟩
  · exact fun t ht => ⟨_, h.queueInLoop (h.sound.queueCancel ht)⟩
  · exact fun _ _ _ hidle => absurd hidle hbusy
  · exact fun _ _ _ hidle => absurd hidle hbusy
  · exact fun _ _ hidle => absurd hidle hbusy
  · exact fun _ _ _ _ hturn => ⟨_, h.callback hturn⟩
  · rintro _ _ _ - rfl
    exact absurd trivial ha

theorem During.run (h : During s₀ now batch s new)
    {actions : List (Action T)} (hactions : ∀ a ∈ actions, ¬ a.IsReset) :
    ∃ new', During s₀ now batch (Support.run TimerLoop.step s actions) new' := by
  induction actions generalizing s new with
  | nil => exact ⟨new, h⟩
  | cons a rest ih =>
      obtain ⟨new', h'⟩ := h.step (hactions a (.head _))
      exact ih h' fun b hb => hactions b (.tail _ hb)

/-! ## The whole of `handleRead` -/

omit [LinearOrder T] in
/-- The started timers are those of the entries that were run. -/
theorem started_mem_iff {ran : List (Entry T)}
    (hstarted : new.filterMap TimerEvent.started? = ran.map Entry.timer) :
    .started t ∈ new ↔ t ∈ ran.map Entry.timer := by
  rw [← hstarted, List.mem_filterMap]
  constructor
  · exact fun hin => ⟨_, hin, rfl⟩
  · rintro ⟨event, hin, hevent⟩
    cases event with
    | started u => exact Option.some.inj hevent ▸ hin
    | added u => exact absurd hevent (by simp [TimerEvent.started?])
    | canceled u => exact absurd hevent (by simp [TimerEvent.started?])

/-- The entries that `reset` puts back, in terms of the start. -/
theorem During.mem_reset (h : During s₀ now batch s new)
    (hbatch : ∀ e ∈ batch, e.timer ∈ s₀.created)
    (hphase : s.phase = .reading now batch []) {clock : ℤ} :
    e ∈ (s.queue.finishRead batch now clock).timers ↔ e ∈ s.queue.timers ∨
      ∃ b ∈ batch, (s₀.queue.timer b.timer).repeat_ = true ∧
        .canceled b.timer ∉ new ∧ e = s₀.queue.renewed now b := by
  rw [h.sound.mem_finishRead hphase]
  refine or_congr_right (exists_congr fun b => and_congr_right fun hb => ?_)
  have htimer := h.timer b.timer (hbatch b hb)
  rw [TimerQueue.Renews, TimerQueue.renewed, TimerQueue.renewed, htimer,
    h.noted b hb, and_assoc]

theorem step_reset (hphase : s.phase = .reading now batch []) (clock : ℤ) :
    s.step (.reset clock) =
      { s with
        queue := s.queue.finishRead batch now clock
        phase := .idle } := by
  simp only [TimerLoop.step, hphase]

/-- A started timer is in the batch, so after `reset` it is scheduled only if
it is put back. -/
theorem During.scheduled_reset (h : During s₀ now batch s new)
    (hcreated : ∀ e ∈ batch, e.timer ∈ s₀.created)
    (hphase : s.phase = .reading now batch [])
    (ht : t ∈ batch.map Entry.timer) {clock : ℤ}
    (hin : (s.step (.reset clock)).queue.Scheduled t) :
    (s₀.queue.timer t).repeat_ = true ∧ .canceled t ∉ new := by
  rw [step_reset hphase] at hin
  obtain ⟨e, he, rfl⟩ := hin
  rcases (h.mem_reset hcreated hphase).mp he with
    hold | ⟨b, -, hrepeat, hnot, rfl⟩
  · obtain ⟨b, hb, heq⟩ := List.mem_map.mp ht
    refine absurd ⟨e, hold, rfl⟩ (h.sound.apart e.timer ⟨b, ?_, heq⟩)
    rwa [h.expired_eq]
  · exact ⟨hrepeat, hnot⟩

/-- A timer of the batch that is not put back is nowhere. -/
theorem During.loose_reset (h : During s₀ now batch s new)
    (hphase : s.phase = .reading now batch [])
    (ht : t ∈ batch.map Entry.timer) {clock : ℤ}
    (hnot : ¬ (s.step (.reset clock)).queue.Scheduled t) :
    (s.step (.reset clock)).Loose t := by
  obtain ⟨e, he, rfl⟩ := List.mem_map.mp ht
  have hin : s.InBatch e.timer := ⟨e, h.expired_eq ▸ he, rfl⟩
  have hstep := step_reset hphase clock
  refine ⟨?_, hnot, ?_, ?_⟩
  · rw [hstep]
    exact h.sound.batchCreated _ hin
  · rw [hstep]
    rintro ⟨b, hb, -⟩
    exact absurd hb List.not_mem_nil
  · rw [hstep]
    exact fun hpending => (h.sound.pendingApart _ hpending).2 hin

theorem During.handledRead (h : During s₀ now batch s new)
    (hs₀ : s₀.Sound)
    (hbatch : ∀ e, e ∈ batch ↔ e ∈ s₀.queue.timers ∧ e.when ≤ now)
    (hsorted : batch.Pairwise (· < ·))
    (hphase : s.phase = .reading now batch [])
    (hstarted : new.filterMap TimerEvent.started? = batch.map Entry.timer)
    (clock : ℤ) : HandledRead s₀ now new (s.step (.reset clock)) := by
  have hcreated : ∀ e ∈ batch, e.timer ∈ s₀.created := by
    intro e he
    exact hs₀.scheduledCreated _ ⟨e, ((hbatch e).mp he).1, rfl⟩
  have hentry : ∀ e ∈ batch, e = s₀.queue.entry e.timer :=
    fun e he => hs₀.keyed e ((hbatch e).mp he).1
  have hmem : ∀ e, e ∈ (s.step (.reset clock)).queue.timers ↔
      e ∈ s.queue.timers ∨ ∃ b ∈ batch,
        (s₀.queue.timer b.timer).repeat_ = true ∧ .canceled b.timer ∉ new ∧
          e = s₀.queue.renewed now b := by
    intro e
    rw [step_reset hphase]
    exact h.mem_reset hcreated hphase
  have hback : ∀ t, .started t ∈ new →
      (s.step (.reset clock)).queue.Scheduled t →
        (s₀.queue.timer t).repeat_ = true ∧ .canceled t ∉ new :=
    fun t ht => h.scheduled_reset hcreated hphase
      ((started_mem_iff hstarted).mp ht)
  refine ⟨?_, ?_, ?_, ?_, ?_, ?_, ?_⟩
  · intro t
    rw [started_mem_iff hstarted, List.mem_map]
    constructor
    · rintro ⟨e, he, heq⟩
      exact ⟨e, ((hbatch e).mp he).1, heq, ((hbatch e).mp he).2⟩
    · rintro ⟨e, he, heq, hle⟩
      exact ⟨e, (hbatch e).mpr ⟨he, hle⟩, heq⟩
  · rw [hstarted, ← h.expired_eq]
    exact h.sound.nodup_batch
  · rw [hstarted, List.pairwise_map]
    apply hsorted.imp_of_mem
    intro a b ha hb hlt
    have hle := Entry.when_le hlt.le
    rw [hentry a ha, hentry b hb] at hle
    exact hle
  · intro t ht hinterval
    have hnot : ¬ (s.step (.reset clock)).queue.Scheduled t := by
      intro hin
      have hrepeat := (hback t ht hin).1
      rw [Timer.repeat_, hinterval] at hrepeat
      exact Bool.false_ne_true hrepeat
    have hloose := h.loose_reset hphase ((started_mem_iff hstarted).mp ht) hnot
    exact ⟨hnot, fun later => hloose.ended.run (h.sound.step _) later⟩
  · intro t interval ht hinterval hnot
    obtain ⟨e, he, rfl⟩ :=
      List.mem_map.mp ((started_mem_iff hstarted).mp ht)
    refine (hmem _).mpr (.inr ⟨e, he, ?_, hnot, ?_⟩)
    · rw [Timer.repeat_, hinterval]
      rfl
    · rw [TimerQueue.renewed, Timer.restart, hinterval]
  · exact fun t ht hcanceled hin => (hback t ht hin).2 hcanceled
  · intro e hnot hadded hcanceled
    have houtside : e.timer ∉ batch.map Entry.timer :=
      fun hin => hnot ((started_mem_iff hstarted).mpr hin)
    rw [hmem, ← h.others e houtside hadded hcanceled]
    refine or_iff_left ?_
    rintro ⟨b, hb, -, -, rfl⟩
    exact houtside (List.mem_map.mpr ⟨b, hb, rfl⟩)

end TimerLoop

/-- In every state the timers stand under their own expirations, each at most
once, and no assert failed; and every `handleRead`, whatever its callbacks and
other threads do, runs the timers that are due. -/
theorem timerQueue_semantics {T : Type*} [LinearOrder T] (timer : T → Timer)
    (callingExpiredTimers : Bool) (actions : List (TimerLoop.Action T)) :
    let s := run TimerLoop.step (.start timer callingExpiredTimers) actions
    (s.queue.asserts = true ∧
      (∀ e ∈ s.queue.timers,
        e.when = (s.queue.timer e.timer).expiration) ∧
      ∀ e ∈ s.queue.timers, ∀ e' ∈ s.queue.timers,
        e.timer = e'.timer → e = e') ∧
    ∀ (now : Clock) (readAt : ℤ) (body : List (TimerLoop.Action T))
      (clock : ℤ), s.phase = .idle → (∀ a ∈ body, ¬ a.IsReset) →
        let s' := run TimerLoop.step s (.handleRead now readAt :: body)
        s'.phase.rest = [] →
          ∃ new, (s'.step (.reset clock)).log = s.log ++ new ∧
            s.HandledRead now new (s'.step (.reset clock)) := by
  intro s
  have hs : s.Sound := (TimerLoop.sound_start timer callingExpiredTimers).run
    actions
  refine ⟨⟨hs.asserts, ?_, ?_⟩, ?_⟩
  · exact fun e he => congrArg Entry.when (hs.keyed e he)
  · exact fun e he e' he' => hs.keyed.eq_of_timer_eq he he'
  · intro now readAt body clock hidle hbody s' hrest
    have hstart : s.step (.handleRead now readAt) =
        s.handleRead now readAt := by
      simp only [TimerLoop.step, hidle]
    obtain ⟨new, hduring⟩ := (hs.during_handleRead now readAt).run hbody
    rw [← hstart] at hduring
    change TimerLoop.During s now _ s' new at hduring
    obtain ⟨ran, rest, hphase, hbatch, hstarted⟩ := hduring.phase
    have hdone : rest = [] := by
      rw [hphase] at hrest
      exact hrest
    rw [hdone, List.append_nil] at hbatch
    rw [hdone, hbatch] at hphase
    rw [hbatch] at hstarted
    refine ⟨new, ?_, hduring.handledRead hs ?_ ?_ hphase hstarted clock⟩
    · rw [← hduring.log]
      simp only [TimerLoop.step, hphase]
    · intro e
      rw [hstart]
      exact TimerLoop.mem_expired_handleRead s now readAt
    · rw [hstart]
      exact (hs.handleRead now readAt).sorted

/-- A one-shot timer and a repeating one, due at the same time. -/
def twoTimers : List (TimerLoop.Action ℕ) :=
  [TimerLoop.runAt 0 10 true 1, .addTimer 1 10 (some 5) true 1]

/-- The first callback adds a timer that is due already, the second cancels
the first. -/
def twoCallbacks : List (TimerLoop.Action ℕ) :=
  [.callback, TimerLoop.runAt 2 3 true 12, .callback, .cancel 0 true false]

theorem timerQueue_semantics_twoTimers :
    let s := run TimerLoop.step
      (.start (fun _ => { expiration := 0, interval := none }) true) twoTimers
    let s' := run TimerLoop.step s
      (.handleRead ⟨12, by decide⟩ 12 :: twoCallbacks)
    ∃ new, (s'.step (.reset 13)).log = s.log ++ new ∧
      s.HandledRead 12 new (s'.step (.reset 13)) := by
  intro s s'
  refine (timerQueue_semantics (fun _ => { expiration := 0, interval := none })
    true twoTimers).2 ⟨12, by decide⟩ 12 twoCallbacks 13 rfl ?_ ?_
  · simp [twoCallbacks, TimerLoop.Action.IsReset, TimerLoop.runAt]
  · decide

end MuduoHttp
