import MuduoHttp.Net.TimerPlaces

/-!
# Timers that never run again

The callback of a timer is not started again once the timer is in no place
from which it is started or put back.
-/

namespace MuduoHttp

open Support

namespace TimerLoop

variable {T : Type*} [LinearOrder T] {s s' : TimerLoop T} {t u : T}
  {e : Entry T}

/-- The callback of the timer is not to come, and `reset` does not put the
timer back. -/
structure Ended (s : TimerLoop T) (t : T) : Prop where
  created : t ∈ s.created
  scheduled : ¬ s.queue.Scheduled t
  rest : t ∉ s.phase.rest.map Entry.timer
  pending : t ∉ s.pendingTimers
  kept : ∀ e ∈ s.phase.expired, e.timer = t → ¬ s.queue.Renews e

theorem Loose.ended (h : s.Loose t) : s.Ended t where
  created := h.created
  scheduled := h.scheduled
  rest hin := by
    obtain ⟨e, he, heq⟩ := List.mem_map.mp hin
    refine h.batch ⟨e, ?_, heq⟩
    cases hphase : s.phase with
    | idle => rw [hphase] at he; exact absurd he List.not_mem_nil
    | reading now ran rest =>
        rw [hphase] at he
        exact List.mem_append_right _ he
  pending := h.pending
  kept e he heq := absurd ⟨e, he, heq⟩ h.batch

/-- A step inside one `handleRead`, or outside of it, that brings the timer to
no other place. -/
theorem Ended.of_subset (h : s.Ended t) (hphase : s'.phase = s.phase)
    (hcreated : t ∈ s.created → t ∈ s'.created)
    (hscheduled : s'.queue.Scheduled t → s.queue.Scheduled t)
    (hpending : t ∈ s'.pendingTimers → t ∈ s.pendingTimers)
    (hrenews : ∀ e, e.timer = t → s'.queue.Renews e → s.queue.Renews e) :
    s'.Ended t where
  created := hcreated h.created
  scheduled hin := h.scheduled (hscheduled hin)
  rest := hphase ▸ h.rest
  pending hin := h.pending (hpending hin)
  kept e he heq hin := h.kept e (hphase ▸ he) heq (hrenews e heq hin)

theorem Ended.record (h : s.Ended t) (event : TimerEvent T) :
    (s.record event).Ended t :=
  ⟨h.created, h.scheduled, h.rest, h.pending, h.kept⟩

theorem Ended.create (h : s.Ended t) (hne : t ≠ u) (when : ℤ)
    (interval : Option ℕ) : (s.create u when interval).Ended t := by
  refine h.of_subset rfl (.tail _) id id ?_
  rintro e rfl hin
  have htimer : (s.create u when interval).queue.timer e.timer =
      s.queue.timer e.timer := Function.update_of_ne hne _ _
  rw [TimerQueue.Renews, htimer] at hin
  exact hin

theorem Ended.addTimerInLoop (h : s.Ended t) (hne : t ≠ u) (clock : ℤ) :
    (s.addTimerInLoop u clock).Ended t := by
  refine h.of_subset rfl id ?_ id ?_
  · exact fun hin => (scheduled_addTimerInLoop.mp hin).resolve_left hne
  · intro e _ hin
    change (s.queue.addTimerInLoop u clock).Renews e at hin
    rw [TimerQueue.Renews, TimerQueue.timer_addTimerInLoop,
      TimerQueue.cancelingTimers_addTimerInLoop] at hin
    exact hin

theorem Ended.cancelInLoop (h : s.Ended t) (u : T) (held : Bool) :
    (s.cancelInLoop u held).Ended t :=
  h.of_subset rfl id scheduled_of_cancelInLoop id
    fun _ _ hin => TimerQueue.renews_of_cancelInLoop hin

theorem Ended.queueInLoop (h : s.Ended t) {f : TimerFunctor T}
    (hne : f.added? ≠ some t) : (s.queueInLoop f).Ended t := by
  refine h.of_subset rfl id id ?_ fun _ _ hin => hin
  intro hin
  rw [pendingTimers_queueInLoop, List.mem_append] at hin
  exact hin.resolve_right fun hf => hne (Option.mem_toList.mp hf)

theorem Ended.pop (h : s.Ended t) {f : TimerFunctor T}
    {rest : List (TimerFunctor T)} (hf : s.pendingFunctors = f :: rest) :
    TimerLoop.Ended { s with pendingFunctors := rest } t := by
  refine h.of_subset rfl id id ?_ fun _ _ hin => hin
  intro hin
  rw [pendingTimers, hf]
  exact List.mem_filterMap.mpr
    ((List.mem_filterMap.mp hin).imp fun g hg => ⟨.tail _ hg.1, hg.2⟩)

/-- The timer is not in the new batch. -/
theorem Ended.handleRead (h : s.Ended t) (now readAt : ℤ) :
    (s.handleRead now readAt).Ended t := by
  have hbatch : ∀ e ∈ (s.handleRead now readAt).phase.expired,
      e.timer ≠ t := by
    intro e he heq
    exact h.scheduled ⟨e, ((mem_expired_handleRead s now readAt).mp he).1, heq⟩
  refine ⟨h.created, ?_, ?_, h.pending, ?_⟩
  · rintro ⟨e, he, heq⟩
    exact h.scheduled ⟨e, ((mem_timers_handleRead s now readAt).mp he).1, heq⟩
  · intro hin
    obtain ⟨e, he, heq⟩ := List.mem_map.mp hin
    exact hbatch e he heq
  · exact fun e he heq => absurd heq (hbatch e he)

theorem Ended.callback (h : s.Ended t) {now : ℤ} {ran rest : List (Entry T)}
    (hphase : s.phase = .reading now ran (e :: rest)) :
    TimerLoop.Ended { s with phase := .reading now (ran ++ [e]) rest } t where
  created := h.created
  scheduled := h.scheduled
  rest hin := by
    apply h.rest
    rw [hphase]
    exact .tail _ hin
  pending := h.pending
  kept b hb := by
    apply h.kept b
    rw [hphase, ← expired_callback]
    exact hb

/-- `reset` does not put the timer back. -/
theorem Ended.reset (h : s.Ended t) (hs : s.Sound) {now : ℤ}
    {ran : List (Entry T)} (hphase : s.phase = .reading now ran [])
    (clock : ℤ) :
    TimerLoop.Ended
      { s with queue := s.queue.finishRead ran now clock, phase := .idle }
      t where
  created := h.created
  scheduled := by
    rintro ⟨e, he, heq⟩
    rcases (hs.mem_finishRead hphase).mp he with hin | ⟨b, hb, hrenews, rfl⟩
    · exact h.scheduled ⟨e, hin, heq⟩
    · refine h.kept b ?_ heq hrenews
      rw [hphase]
      exact List.mem_append_left _ hb
  rest := List.not_mem_nil
  pending := h.pending
  kept e he := absurd he List.not_mem_nil

/-- What no step does: bring the timer back, or start its callback. -/
theorem Ended.step (h : s.Ended t) (hs : s.Sound) (a : Action T) :
    (s.step a).Ended t ∧
      (s.step a).log.count (.started t) = s.log.count (.started t) := by
  have hcount : ∀ event, event ≠ TimerEvent.started t →
      (s.log ++ [event]).count (.started t) = s.log.count (.started t) := by
    intro event hne
    rw [List.count_append, List.count_singleton, if_neg (by simpa using hne),
      Nat.add_zero]
  apply step_cases (P := fun s' : TimerLoop T => s'.Ended t ∧
    s'.log.count (.started t) = s.log.count (.started t))
  · exact ⟨h, rfl⟩
  · intro u when interval clock hu
    have hne : t ≠ u := fun heq => hu (heq ▸ h.created)
    exact ⟨(h.create hne when interval).addTimerInLoop hne clock,
      hcount (.added u) (by simp)⟩
  · intro u when interval hu
    have hne : t ≠ u := fun heq => hu (heq ▸ h.created)
    have hother : (TimerFunctor.addTimerInLoop u).added? ≠ some t :=
      fun heq => hne (Option.some.inj heq).symm
    exact ⟨(h.create hne when interval).queueInLoop hother, rfl⟩
  · intro u held _
    exact ⟨h.cancelInLoop u held, hcount (.canceled u) (by simp)⟩
  · intro u _
    exact ⟨h.queueInLoop (by simp [TimerFunctor.added?]), rfl⟩
  · intro u rest clock _ hf
    have hne : t ≠ u := by
      rintro rfl
      exact h.pending (List.mem_filterMap.mpr
        ⟨.addTimerInLoop t, hf ▸ .head _, rfl⟩)
    exact ⟨(h.pop hf).addTimerInLoop hne clock, hcount (.added u) (by simp)⟩
  · intro u rest held _ hf _
    exact ⟨(h.pop hf).cancelInLoop u held, hcount (.canceled u) (by simp)⟩
  · exact fun now readAt _ => ⟨h.handleRead now readAt, rfl⟩
  · intro now ran e rest hphase
    have hne : e.timer ≠ t := by
      rintro rfl
      apply h.rest
      rw [hphase]
      exact .head _
    exact ⟨(h.callback hphase).record _,
      hcount (.started e.timer) (by simpa using hne)⟩
  · exact fun now ran clock hphase _ => ⟨h.reset hs hphase clock, rfl⟩

/-- The callback of such a timer is never started again. -/
theorem Ended.run (h : s.Ended t) (hs : s.Sound) (actions : List (Action T)) :
    (Support.run TimerLoop.step s actions).log.count (.started t) =
      s.log.count (.started t) := by
  have hquiet := run_invariant_of_forall
    (fun s' : TimerLoop T => s'.Sound ∧ s'.Ended t ∧
      s'.log.count (.started t) = s.log.count (.started t))
    (fun s' a h' => ⟨h'.1.step a, (h'.2.1.step h'.1 a).1,
      (h'.2.1.step h'.1 a).2.trans h'.2.2⟩) ⟨hs, h, rfl⟩ actions
  exact hquiet.2.2

end TimerLoop

end MuduoHttp
