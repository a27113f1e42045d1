import Mathlib.Data.List.Nodup
import MuduoHttp.Net.TimerLoop

/-!
# Where a timer can be

A timer is in the set, in the batch that `handleRead` took out of it, in a
functor that is still to add it, or nowhere.  It is in one of these places at
most, and its entry stands under its own expiration, so the assert of `insert`
holds.
-/

namespace MuduoHttp

open Support

namespace TimerLoop

variable {T : Type*} [LinearOrder T] {s : TimerLoop T} {t u : T}
  {e : Entry T} {clock : ℤ}

/-- The timers that functors are still to add. -/
def pendingTimers (s : TimerLoop T) : List T :=
  s.pendingFunctors.filterMap TimerFunctor.added?

/-- The timer is in the batch of `handleRead`. -/
def InBatch (s : TimerLoop T) (t : T) : Prop :=
  ∃ e ∈ s.phase.expired, e.timer = t

structure Sound (s : TimerLoop T) : Prop where
  asserts : s.queue.asserts = true
  keyed : s.queue.Keyed
  batch : ∀ e ∈ s.phase.expired, e = s.queue.entry e.timer
  sorted : s.phase.expired.Pairwise (· < ·)
  apart : ∀ t, s.InBatch t → ¬ s.queue.Scheduled t
  pending : s.pendingTimers.Nodup
  pendingApart : ∀ t ∈ s.pendingTimers,
    ¬ s.queue.Scheduled t ∧ ¬ s.InBatch t
  scheduledCreated : ∀ t, s.queue.Scheduled t → t ∈ s.created
  batchCreated : ∀ t, s.InBatch t → t ∈ s.created
  functorsCreated : ∀ f ∈ s.pendingFunctors, f.timer ∈ s.created
  calling : s.phase.expired ≠ [] → s.queue.callingExpiredTimers = true

/-- The timer was created and is nowhere. -/
structure Loose (s : TimerLoop T) (t : T) : Prop where
  created : t ∈ s.created
  scheduled : ¬ s.queue.Scheduled t
  batch : ¬ s.InBatch t
  pending : t ∉ s.pendingTimers

theorem Sound.pendingCreated (h : s.Sound) (t : T)
    (ht : t ∈ s.pendingTimers) : t ∈ s.created := by
  obtain ⟨f, hf, hadded⟩ := List.mem_filterMap.mp ht
  cases f with
  | addTimerInLoop u =>
      obtain rfl := Option.some.inj hadded
      exact h.functorsCreated _ hf
  | cancelInLoop u => exact nomatch hadded

/-- The timers of a batch are distinct. -/
theorem Sound.nodup_batch (h : s.Sound) :
    (s.phase.expired.map Entry.timer).Nodup := by
  rw [List.Nodup, List.pairwise_map]
  apply h.sorted.imp_of_mem
  intro a b ha hb hlt heq
  rw [h.batch a ha, h.batch b hb, heq] at hlt
  exact lt_irrefl _ hlt

theorem sound_start (timer : T → Timer) (callingExpiredTimers : Bool) :
    (start timer callingExpiredTimers).Sound := by
  refine ⟨rfl, ?_, ?_, .nil, ?_, .nil, ?_, ?_, ?_, ?_, ?_⟩
  · intro e he
    exact absurd he Std.ExtTreeSet.not_mem_empty
  · intro e he
    exact absurd he List.not_mem_nil
  · rintro t ⟨e, he, -⟩
    exact absurd he List.not_mem_nil
  · intro t ht
    exact absurd ht List.not_mem_nil
  · rintro t ⟨e, he, -⟩
    exact absurd he Std.ExtTreeSet.not_mem_empty
  · rintro t ⟨e, he, -⟩
    exact absurd he List.not_mem_nil
  · intro t ht
    exact absurd ht List.not_mem_nil
  · intro hne
    exact absurd rfl hne

/-! ## Adding -/

/-- A created timer disturbs no entry. -/
theorem Sound.create (h : s.Sound) (ht : t ∉ s.created) (when : ℤ)
    (interval : Option ℕ) :
    (s.create t when interval).Sound ∧
      (s.create t when interval).Loose t := by
  have hentry : ∀ u, u ≠ t →
      (s.create t when interval).queue.entry u = s.queue.entry u := by
    intro u hu
    simp [TimerLoop.create, TimerQueue.entry, TimerQueue.setTimer, hu]
  have hscheduled : ¬ s.queue.Scheduled t :=
    fun hin => ht (h.scheduledCreated t hin)
  have hbatch : ¬ s.InBatch t := fun hin => ht (h.batchCreated t hin)
  have hpending : t ∉ s.pendingTimers := fun hin => ht (h.pendingCreated t hin)
  refine ⟨⟨h.asserts, ?_, ?_, h.sorted, h.apart, h.pending, h.pendingApart,
    ?_, ?_, ?_, h.calling⟩, ⟨.head _, hscheduled, hbatch, hpending⟩⟩
  · intro e he
    have hne : e.timer ≠ t := fun heq => hscheduled ⟨e, he, heq⟩
    rw [hentry _ hne]
    exact h.keyed e he
  · intro e he
    have hne : e.timer ≠ t := fun heq => hbatch ⟨e, he, heq⟩
    rw [hentry _ hne]
    exact h.batch e he
  · exact fun u hu => .tail _ (h.scheduledCreated u hu)
  · exact fun u hu => .tail _ (h.batchCreated u hu)
  · exact fun f hf => .tail _ (h.functorsCreated f hf)

theorem scheduled_addTimerInLoop :
    (s.addTimerInLoop t clock).queue.Scheduled u ↔
      u = t ∨ s.queue.Scheduled u := by
  have hmem : ∀ e, e ∈ (s.addTimerInLoop t clock).queue.timers ↔
      e = s.queue.entry t ∨ e ∈ s.queue.timers := by
    intro e
    change e ∈ (s.queue.addTimerInLoop t clock).timers ↔ _
    rw [TimerQueue.timers_addTimerInLoop, TimerQueue.mem_insert]
  constructor
  · rintro ⟨e, he, rfl⟩
    rcases (hmem e).mp he with rfl | hin
    · exact .inl rfl
    · exact .inr ⟨e, hin, rfl⟩
  · rintro (rfl | ⟨e, he, rfl⟩)
    · exact ⟨_, (hmem _).mpr (.inl rfl), rfl⟩
    · exact ⟨e, (hmem e).mpr (.inr he), rfl⟩

theorem Sound.addTimerInLoop (h : s.Sound) (ht : s.Loose t) (clock : ℤ) :
    (s.addTimerInLoop t clock).Sound := by
  have hentry : ∀ u, (s.addTimerInLoop t clock).queue.entry u =
      s.queue.entry u := by
    intro u
    simp [TimerLoop.addTimerInLoop, record, TimerQueue.entry]
  have hother : ∀ u, u ≠ t → ¬ s.queue.Scheduled u →
      ¬ (s.addTimerInLoop t clock).queue.Scheduled u := by
    intro u hne hnot hin
    rcases scheduled_addTimerInLoop.mp hin with heq | hin
    · exact hne heq
    · exact hnot hin
  refine ⟨?_, ?_, ?_, h.sorted, ?_, h.pending, ?_, ?_, h.batchCreated,
    h.functorsCreated, ?_⟩
  · change (s.queue.addTimerInLoop t clock).asserts = true
    rw [TimerQueue.asserts_addTimerInLoop, TimerQueue.asserts_insert,
      h.asserts]
    exact fun hin => ht.scheduled ⟨_, hin, rfl⟩
  · intro e he
    change e ∈ (s.queue.addTimerInLoop t clock).timers at he
    rw [TimerQueue.timers_addTimerInLoop] at he
    rw [hentry]
    exact h.keyed.insert t e he
  · intro e he
    rw [hentry]
    exact h.batch e he
  · intro u hu
    exact hother u (fun heq => ht.batch (heq ▸ hu)) (h.apart u hu)
  · intro u hu
    obtain ⟨hscheduled, hbatch⟩ := h.pendingApart u hu
    exact ⟨hother u (fun heq => ht.pending (heq ▸ hu)) hscheduled, hbatch⟩
  · intro u hu
    rcases scheduled_addTimerInLoop.mp hu with rfl | hin
    · exact ht.created
    · exact h.scheduledCreated u hin
  · intro hne
    change (s.queue.addTimerInLoop t clock).callingExpiredTimers = true
    rw [TimerQueue.callingExpiredTimers_addTimerInLoop]
    exact h.calling hne

theorem pendingTimers_queueInLoop (s : TimerLoop T) (f : TimerFunctor T) :
    (s.queueInLoop f).pendingTimers = s.pendingTimers ++ f.added?.toList := by
  cases f <;> simp [pendingTimers, queueInLoop, TimerFunctor.added?]

theorem Sound.queueAdd (h : s.Sound) (ht : s.Loose t) :
    (s.queueInLoop (.addTimerInLoop t)).Sound := by
  have hpending := pendingTimers_queueInLoop s (.addTimerInLoop t)
  have hmem : ∀ u ∈ (s.queueInLoop (.addTimerInLoop t)).pendingTimers,
      u ∈ s.pendingTimers ∨ u = t := by
    intro u hu
    rw [hpending] at hu
    simpa [TimerFunctor.added?] using hu
  refine ⟨h.asserts, h.keyed, h.batch, h.sorted, h.apart, ?_, ?_,
    h.scheduledCreated, h.batchCreated, ?_, h.calling⟩
  · rw [hpending]
    exact h.pending.append (List.nodup_singleton t)
      (List.disjoint_singleton.mpr ht.pending)
  · intro u hu
    rcases hmem u hu with hin | rfl
    · exact h.pendingApart u hin
    · exact ⟨ht.scheduled, ht.batch⟩
  · intro f hf
    rcases List.mem_append.mp hf with hin | hnew
    · exact h.functorsCreated f hin
    · obtain rfl := List.mem_singleton.mp hnew
      exact ht.created

theorem Sound.queueCancel (h : s.Sound) (ht : t ∈ s.created) :
    (s.queueInLoop (.cancelInLoop t)).Sound := by
  have hpending : (s.queueInLoop (.cancelInLoop t)).pendingTimers =
      s.pendingTimers := by
    rw [pendingTimers_queueInLoop]
    exact List.append_nil _
  refine ⟨h.asserts, h.keyed, h.batch, h.sorted, h.apart, hpending ▸ h.pending,
    hpending ▸ h.pendingApart, h.scheduledCreated, h.batchCreated, ?_,
    h.calling⟩
  intro f hf
  rcases List.mem_append.mp hf with hin | hnew
  · exact h.functorsCreated f hin
  · obtain rfl := List.mem_singleton.mp hnew
    exact ht

/-! ## Cancelling -/

/-- The batch of `handleRead` owns its timers. -/
theorem alive_of_inBatch (h : s.InBatch t) (held : Bool) :
    s.alive t held = true := by
  have hany : s.phase.expired.any (fun e => e.timer = t) = true := by
    obtain ⟨e, he, heq⟩ := h
    exact List.any_eq_true.mpr ⟨e, he, decide_eq_true heq⟩
  simp only [alive, hany, Bool.or_true, Bool.true_or]

/-- The set owns its timers. -/
theorem alive_of_scheduled (h : s.queue.Scheduled t) (held : Bool) :
    s.alive t held = true := by
  have howns : s.queue.owns t = true := by
    obtain ⟨e, he, heq⟩ := h
    refine List.any_eq_true.mpr ⟨e, ?_, decide_eq_true heq⟩
    exact List.mem_append_left _ (Std.ExtTreeSet.mem_toList.mpr he)
  simp only [alive, howns, Bool.or_true, Bool.true_or]

theorem scheduled_of_cancelInLoop {held : Bool}
    (h : (s.cancelInLoop t held).queue.Scheduled u) : s.queue.Scheduled u := by
  obtain ⟨e, he, heq⟩ := h
  exact ⟨e, TimerQueue.mem_of_mem_cancelInLoop he, heq⟩

/-- A cancelled timer has no entry. -/
theorem Sound.not_scheduled_cancelInLoop (h : s.Sound) (t : T) (held : Bool) :
    ¬ (s.cancelInLoop t held).queue.Scheduled t := by
  intro hin
  obtain ⟨cancelingTimers, heq⟩ :=
    TimerQueue.cancelInLoop_eq s.queue t (s.alive t held)
  have halive := alive_of_scheduled (scheduled_of_cancelInLoop hin) held
  obtain ⟨e, he, rfl⟩ := hin
  have hkey := h.keyed e (TimerQueue.mem_of_mem_cancelInLoop he)
  change e ∈ (s.queue.cancelInLoop e.timer _).timers at he
  rw [heq, halive] at he
  exact (OrderedSet.mem_erase_iff.mp he).1 hkey

theorem Sound.cancelInLoop (h : s.Sound) (t : T) (held : Bool) :
    (s.cancelInLoop t held).Sound := by
  obtain ⟨cancelingTimers, heq⟩ :=
    TimerQueue.cancelInLoop_eq s.queue t (s.alive t held)
  have hentry : ∀ u, (s.cancelInLoop t held).queue.entry u =
      s.queue.entry u := by
    intro u
    change (s.queue.cancelInLoop t (s.alive t held)).entry u = _
    rw [heq]
    rfl
  refine ⟨?_, ?_, ?_, h.sorted, ?_, h.pending, ?_, ?_, h.batchCreated,
    h.functorsCreated, ?_⟩
  · change (s.queue.cancelInLoop t (s.alive t held)).asserts = true
    rw [heq]
    exact h.asserts
  · intro e he
    rw [hentry]
    exact h.keyed e (TimerQueue.mem_of_mem_cancelInLoop he)
  · intro e he
    rw [hentry]
    exact h.batch e he
  · exact fun u hu hin => h.apart u hu (scheduled_of_cancelInLoop hin)
  · intro u hu
    obtain ⟨hnot, hbatch⟩ := h.pendingApart u hu
    exact ⟨fun hin => hnot (scheduled_of_cancelInLoop hin), hbatch⟩
  · exact fun u hu => h.scheduledCreated u (scheduled_of_cancelInLoop hu)
  · intro hne
    change (s.queue.cancelInLoop t (s.alive t held)).callingExpiredTimers = _
    rw [heq]
    exact h.calling hne

/-! ## Functors -/

/-- The queue without its first functor. -/
theorem Sound.pop (h : s.Sound) {f : TimerFunctor T}
    {rest : List (TimerFunctor T)} (hf : s.pendingFunctors = f :: rest) :
    TimerLoop.Sound { s with pendingFunctors := rest } ∧
      ∀ t, f = .addTimerInLoop t →
        TimerLoop.Loose { s with pendingFunctors := rest } t := by
  have hpending : s.pendingTimers =
      f.added?.toList ++ rest.filterMap TimerFunctor.added? := by
    rw [pendingTimers, hf, List.filterMap_cons]
    cases f.added? <;> rfl
  have hsub : ∀ u ∈ rest.filterMap TimerFunctor.added?,
      u ∈ s.pendingTimers := by
    intro u hu
    rw [hpending]
    exact List.mem_append_right _ hu
  have hnodup := h.pending
  rw [hpending, List.nodup_append'] at hnodup
  refine ⟨⟨h.asserts, h.keyed, h.batch, h.sorted, h.apart, hnodup.2.1,
    fun u hu => h.pendingApart u (hsub u hu), h.scheduledCreated,
    h.batchCreated, fun g hg => h.functorsCreated g (hf ▸ .tail _ hg),
    h.calling⟩, ?_⟩
  rintro t rfl
  have ht : t ∈ s.pendingTimers := by
    rw [hpending]
    exact List.mem_append_left _ (List.mem_singleton_self t)
  obtain ⟨hscheduled, hbatch⟩ := h.pendingApart t ht
  exact ⟨h.pendingCreated t ht, hscheduled, hbatch,
    hnodup.2.2 (List.mem_singleton_self t)⟩

/-! ## The run of `handleRead` -/

/-- The entries that are due leave the set for the batch. -/
theorem mem_expired_handleRead (s : TimerLoop T) (now readAt : ℤ) :
    e ∈ (s.handleRead now readAt).phase.expired ↔
      e ∈ s.queue.timers ∧ e.when ≤ now := by
  obtain ⟨timerfd, hread⟩ := TimerQueue.readTimerfd_eq s.queue readAt
  change e ∈ ((s.queue.readTimerfd readAt).getExpired now).1 ↔ _
  rw [hread, TimerQueue.mem_expired]

theorem mem_timers_handleRead (s : TimerLoop T) (now readAt : ℤ) :
    e ∈ (s.handleRead now readAt).queue.timers ↔
      e ∈ s.queue.timers ∧ now < e.when := by
  obtain ⟨timerfd, hread⟩ := TimerQueue.readTimerfd_eq s.queue readAt
  change e ∈ ((s.queue.readTimerfd readAt).getExpired now).2.timers ↔ _
  rw [hread, TimerQueue.mem_getExpired]

theorem entry_handleRead (s : TimerLoop T) (now readAt : ℤ) :
    (s.handleRead now readAt).queue.entry = s.queue.entry := by
  obtain ⟨timerfd, hread⟩ := TimerQueue.readTimerfd_eq s.queue readAt
  change ((s.queue.readTimerfd readAt).getExpired now).2.entry = _
  rw [hread]
  rfl

theorem Sound.handleRead (h : s.Sound) (now readAt : ℤ) :
    (s.handleRead now readAt).Sound := by
  have hbatch : ∀ u, (s.handleRead now readAt).InBatch u →
      s.queue.Scheduled u :=
    fun u ⟨e, he, hu⟩ => ⟨e, ((mem_expired_handleRead s now readAt).mp he).1, hu⟩
  have hscheduled : ∀ u, (s.handleRead now readAt).queue.Scheduled u →
      s.queue.Scheduled u :=
    fun u ⟨e, he, hu⟩ => ⟨e, ((mem_timers_handleRead s now readAt).mp he).1, hu⟩
  refine ⟨?_, ?_, ?_, ?_, ?_, h.pending, ?_, ?_, ?_, h.functorsCreated, ?_⟩
  · obtain ⟨timerfd, hread⟩ := TimerQueue.readTimerfd_eq s.queue readAt
    change ((s.queue.readTimerfd readAt).getExpired now).2.asserts = true
    rw [hread, TimerQueue.asserts_getExpired]
    exact h.asserts
  · intro e he
    rw [entry_handleRead]
    exact h.keyed e ((mem_timers_handleRead s now readAt).mp he).1
  · intro e he
    rw [entry_handleRead]
    exact h.keyed e ((mem_expired_handleRead s now readAt).mp he).1
  · exact TimerQueue.pairwise_expired
  · -- An entry cannot be due and not due.
    rintro u ⟨e, he, rfl⟩ ⟨e', he', heq⟩
    obtain ⟨hmem, hle⟩ := (mem_expired_handleRead s now readAt).mp he
    obtain ⟨hmem', hlt⟩ := (mem_timers_handleRead s now readAt).mp he'
    obtain rfl := h.keyed.eq_of_timer_eq hmem' hmem heq
    omega
  · intro u hu
    have hnot := (h.pendingApart u hu).1
    exact ⟨fun hin => hnot (hscheduled u hin), fun hin => hnot (hbatch u hin)⟩
  · exact fun u hu => h.scheduledCreated u (hscheduled u hu)
  · exact fun u hu => h.scheduledCreated u (hbatch u hu)
  · exact fun _ => rfl

/-- `reset` puts timers of the batch back, and the batch is gone. -/
theorem Sound.resetsTo (h : s.Sound) {now : ℤ} {ran : List (Entry T)}
    (hphase : s.phase = .reading now ran []) :
    TimerQueue.ResetsTo now ran { s.queue with callingExpiredTimers := false }
      (ran.foldl (TimerQueue.resetEntry now)
        { s.queue with callingExpiredTimers := false }) := by
  have hexpired : s.phase.expired = ran := by
    rw [hphase]
    exact List.append_nil ran
  apply TimerQueue.resetsTo_foldl
  · exact h.keyed
  · rw [← hexpired]
    exact h.nodup_batch
  · intro b hb
    exact h.apart b.timer ⟨b, hexpired ▸ hb, rfl⟩

/-- The entries after `reset`. -/
theorem Sound.mem_finishRead (h : s.Sound) {now : ℤ} {ran : List (Entry T)}
    (hphase : s.phase = .reading now ran []) :
    e ∈ (s.queue.finishRead ran now clock).timers ↔ e ∈ s.queue.timers ∨
      ∃ b ∈ ran, s.queue.Renews b ∧ e = s.queue.renewed now b := by
  obtain ⟨timerfd, settimes, heq⟩ :=
    TimerQueue.finishRead_eq s.queue ran now clock
  rw [heq]
  exact (h.resetsTo hphase).mem e

theorem Sound.scheduled_of_finishRead (h : s.Sound) {now : ℤ}
    {ran : List (Entry T)} (hphase : s.phase = .reading now ran [])
    (ht : (s.queue.finishRead ran now clock).Scheduled t) :
    s.queue.Scheduled t ∨ s.InBatch t := by
  obtain ⟨e, he, rfl⟩ := ht
  rcases (h.mem_finishRead hphase).mp he with hin | ⟨b, hb, -, rfl⟩
  · exact .inl ⟨e, hin, rfl⟩
  · refine .inr ⟨b, ?_, rfl⟩
    rw [hphase]
    exact List.mem_append_left _ hb

theorem Sound.reset (h : s.Sound) {now : ℤ} {ran : List (Entry T)}
    (hphase : s.phase = .reading now ran []) (clock : ℤ) :
    TimerLoop.Sound
      { s with queue := s.queue.finishRead ran now clock, phase := .idle } := by
  obtain ⟨timerfd, settimes, heq⟩ :=
    TimerQueue.finishRead_eq s.queue ran now clock
  have hreset := h.resetsTo hphase
  have hscheduled : ∀ u, (s.queue.finishRead ran now clock).Scheduled u →
      s.queue.Scheduled u ∨ s.InBatch u :=
    fun u hin => h.scheduled_of_finishRead hphase hin
  refine ⟨?_, ?_, ?_, .nil, ?_, h.pending, ?_, ?_, ?_, h.functorsCreated, ?_⟩
  · dsimp only
    rw [heq]
    exact hreset.asserts.trans h.asserts
  · dsimp only
    rw [heq]
    exact hreset.keyed
  · exact fun e he => absurd he List.not_mem_nil
  · rintro u ⟨e, he, -⟩
    exact absurd he List.not_mem_nil
  · intro u hu
    obtain ⟨hnot, hbatch⟩ := h.pendingApart u hu
    refine ⟨fun hin => (hscheduled u hin).elim hnot hbatch, ?_⟩
    rintro ⟨e, he, -⟩
    exact absurd he List.not_mem_nil
  · exact fun u hu => (hscheduled u hu).elim (h.scheduledCreated u)
      (h.batchCreated u)
  · rintro u ⟨e, he, -⟩
    exact absurd he List.not_mem_nil
  · exact fun hne => absurd rfl hne

omit [LinearOrder T] in
theorem expired_callback {now : ℤ} {ran rest : List (Entry T)} :
    (ReadPhase.reading now (ran ++ [e]) rest).expired =
      (ReadPhase.reading now ran (e :: rest)).expired :=
  List.append_assoc _ _ _

/-- Which entry of the batch is at its turn does not matter. -/
theorem Sound.callback (h : s.Sound) {now : ℤ} {ran rest : List (Entry T)}
    (hphase : s.phase = .reading now ran (e :: rest)) :
    TimerLoop.Sound { s with phase := .reading now (ran ++ [e]) rest } := by
  have hexpired : (ReadPhase.reading now (ran ++ [e]) rest).expired =
      s.phase.expired := by
    rw [expired_callback, hphase]
  have hbatch : ∀ u, TimerLoop.InBatch
      { s with phase := .reading now (ran ++ [e]) rest } u ↔
        s.InBatch u := by
    intro u
    simp only [InBatch, hexpired]
  exact ⟨h.asserts, h.keyed, hexpired ▸ h.batch, hexpired ▸ h.sorted,
    fun u hu => h.apart u ((hbatch u).mp hu), h.pending,
    fun u hu => ⟨(h.pendingApart u hu).1,
      fun hin => (h.pendingApart u hu).2 ((hbatch u).mp hin)⟩,
    h.scheduledCreated, fun u hu => h.batchCreated u ((hbatch u).mp hu),
    h.functorsCreated, hexpired ▸ h.calling⟩

theorem Sound.record (h : s.Sound) (event : TimerEvent T) :
    (s.record event).Sound :=
  ⟨h.asserts, h.keyed, h.batch, h.sorted, h.apart, h.pending, h.pendingApart,
    h.scheduledCreated, h.batchCreated, h.functorsCreated, h.calling⟩

theorem Sound.step (h : s.Sound) (a : Action T) : (s.step a).Sound := by
  apply step_cases
  · exact h
  · intro t when interval clock ht
    obtain ⟨hcreate, hloose⟩ := h.create ht when interval
    exact hcreate.addTimerInLoop hloose clock
  · intro t when interval ht
    obtain ⟨hcreate, hloose⟩ := h.create ht when interval
    exact hcreate.queueAdd hloose
  · exact fun t held _ => h.cancelInLoop t held
  · exact fun t ht => h.queueCancel ht
  · intro t rest clock _ hf
    obtain ⟨hpop, hloose⟩ := h.pop hf
    exact hpop.addTimerInLoop (hloose t rfl) clock
  · exact fun t rest held _ hf _ => (h.pop hf).1.cancelInLoop t held
  · exact fun now readAt _ => h.handleRead now readAt
  · exact fun now ran e rest hphase => (h.callback hphase).record _
  · exact fun now ran clock hphase _ => h.reset hphase clock

theorem Sound.run (h : s.Sound) (actions : List (Action T)) :
    (Support.run TimerLoop.step s actions).Sound :=
  run_invariant_of_forall Sound (fun _ a hs => hs.step a) h actions

end TimerLoop

end MuduoHttp
