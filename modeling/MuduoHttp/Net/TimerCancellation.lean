import MuduoHttp.Net.TimerEnded

/-!
# Whether a cancellation is final

`cancelInLoop` takes a timer out of the set, and keeps a timer of the running
batch from being put back.  It does not keep the batch from running a callback
that is still to come, nor a queued `addTimerInLoop` from adding the timer.
Where it never meets such a timer, no cancelled timer runs again.
-/

namespace MuduoHttp

open Support

namespace TimerLoop

variable {T : Type*} [LinearOrder T] {s : TimerLoop T} {t : T}

/-- No callback is started after its timer was cancelled. -/
def CancelFinal (s : TimerLoop T) : Prop :=
  s.log.Pairwise fun a b => a.canceled? = none ∨ b.started? ≠ a.canceled?

instance (s : TimerLoop T) : Decidable s.CancelFinal :=
  inferInstanceAs (Decidable (s.log.Pairwise _))

/-- A timer that the step cancels is neither in the batch with its callback
still to come, nor in a functor that is to add it. -/
def CancelsReached (s : TimerLoop T) (a : Action T) : Prop :=
  ∀ t, s.cancels? a = some t →
    t ∉ s.phase.rest.map Entry.timer ∧ t ∉ s.pendingTimers

instance (s : TimerLoop T) (a : Action T) : Decidable (s.CancelsReached a) :=
  inferInstanceAs (Decidable (∀ t, s.cancels? a = some t → _ ∧ _))

/-- Every cancelled timer has ended. -/
structure Canceled (s : TimerLoop T) : Prop where
  sound : s.Sound
  final : s.CancelFinal
  ended : ∀ t, .canceled t ∈ s.log → s.Ended t

/-- A timer that is cancelled in the set, or in the batch behind its callback,
has ended. -/
theorem Sound.ended_cancelInLoop (h : s.Sound) (hcreated : t ∈ s.created)
    (hrest : t ∉ s.phase.rest.map Entry.timer) (hpending : t ∉ s.pendingTimers)
    (held : Bool) : (s.cancelInLoop t held).Ended t where
  created := hcreated
  scheduled := h.not_scheduled_cancelInLoop t held
  rest := hrest
  pending := hpending
  kept e he heq := by
    have hin : s.InBatch t := ⟨e, he, heq⟩
    have hentry : e = s.queue.entry t := heq ▸ h.batch e he
    have hnoted : e ∈ (s.queue.cancelInLoop t true).cancelingTimers := by
      refine (TimerQueue.mem_cancelingTimers_cancelInLoop
        (h.calling (List.ne_nil_of_mem he)) ?_).mpr (.inl hentry)
      exact fun hmem => h.apart t hin ⟨_, hmem, rfl⟩
    rw [← alive_of_inBatch hin held] at hnoted
    exact fun hrenews => hrenews.2 hnoted

/-- A step that cancels nothing records nothing as cancelled. -/
theorem log_step (s : TimerLoop T) {a : Action T} (ha : s.cancels? a = none) :
    ∃ new, (s.step a).log = s.log ++ new ∧
      ∀ event ∈ new, event.canceled? = none := by
  have hsame : ∃ new, s.log = s.log ++ new ∧
      ∀ event ∈ new, event.canceled? = none :=
    ⟨[], (List.append_nil _).symm, by simp⟩
  have hone : ∀ event : TimerEvent T, event.canceled? = none →
      ∃ new, s.log ++ [event] = s.log ++ new ∧
        ∀ event ∈ new, event.canceled? = none :=
    fun event hevent => ⟨[event], rfl, by simpa using hevent⟩
  have hnot : ∀ t, s.cancels? a ≠ some t := by simp [ha]
  apply step_cases (P := fun s' : TimerLoop T => ∃ new,
    s'.log = s.log ++ new ∧ ∀ event ∈ new, event.canceled? = none)
  · exact hsame
  · exact fun t _ _ _ _ => hone (.added t) rfl
  · exact fun _ _ _ _ => hsame
  · exact fun t _ hcancels => absurd hcancels (hnot t)
  · exact fun _ _ => hsame
  · exact fun t _ _ _ _ => hone (.added t) rfl
  · exact fun t _ _ _ _ hcancels => absurd hcancels (hnot t)
  · exact fun _ _ _ => hsame
  · exact fun _ _ e _ _ => hone (.started e.timer) rfl
  · exact fun _ _ _ _ _ => hsame

theorem Canceled.step_of_none (h : s.Canceled) {a : Action T}
    (ha : s.cancels? a = none) : (s.step a).Canceled := by
  obtain ⟨new, hlog, hnew⟩ := s.log_step ha
  have hstarted : ∀ t, s.Ended t → TimerEvent.started t ∉ new := by
    intro t ht
    have hcount := (ht.step h.sound a).2
    rw [hlog, List.count_append] at hcount
    exact List.count_eq_zero.mp (by omega)
  refine ⟨h.sound.step a, ?_, ?_⟩
  · rw [CancelFinal, hlog, List.pairwise_append]
    refine ⟨h.final, ?_, ?_⟩
    · exact List.pairwise_of_forall_mem_list fun b hb _ _ => .inl (hnew b hb)
    · intro a ha b hb
      cases a with
      | canceled t =>
          refine .inr fun hsame => ?_
          cases b with
          | started u =>
              obtain rfl := Option.some.inj hsame
              exact hstarted u (h.ended u ha) hb
          | added u => exact nomatch hsame
          | canceled u => exact nomatch hsame
      | added t => exact .inl rfl
      | started t => exact .inl rfl
  · intro t ht
    rw [hlog] at ht
    rcases List.mem_append.mp ht with hold | hin
    · exact ((h.ended t hold).step h.sound a).1
    · exact nomatch hnew _ hin

theorem Canceled.cancelInLoop (h : s.Canceled) (hcreated : t ∈ s.created)
    (hrest : t ∉ s.phase.rest.map Entry.timer) (hpending : t ∉ s.pendingTimers)
    (held : Bool) : (s.cancelInLoop t held).Canceled where
  sound := h.sound.cancelInLoop t held
  final := by
    change (s.log ++ [TimerEvent.canceled t]).Pairwise _
    rw [List.pairwise_append]
    refine ⟨h.final, List.pairwise_singleton _ _, ?_⟩
    intro a _ b hb
    obtain rfl := List.mem_singleton.mp hb
    cases a with
    | canceled u => exact .inr nofun
    | added u => exact .inl rfl
    | started u => exact .inl rfl
  ended u hu := by
    rcases List.mem_append.mp hu with hold | hnew
    · exact (h.ended u hold).cancelInLoop t held
    · obtain rfl : u = t :=
        TimerEvent.canceled.inj (List.mem_singleton.mp hnew)
      exact h.sound.ended_cancelInLoop hcreated hrest hpending held

theorem Canceled.pop (h : s.Canceled) {f : TimerFunctor T}
    {rest : List (TimerFunctor T)} (hf : s.pendingFunctors = f :: rest) :
    TimerLoop.Canceled { s with pendingFunctors := rest } where
  sound := (h.sound.pop hf).1
  final := h.final
  ended t ht := (h.ended t ht).pop hf

theorem Canceled.step (h : s.Canceled) {a : Action T}
    (ha : s.CancelsReached a) : (s.step a).Canceled := by
  cases hcancels : s.cancels? a with
  | none => exact h.step_of_none hcancels
  | some t =>
      obtain ⟨hrest, hpending⟩ := ha t hcancels
      cases a with
      | cancel u inLoop held =>
          simp only [cancels?] at hcancels
          split at hcancels
          next hready =>
            obtain rfl := Option.some.inj hcancels
            obtain ⟨hcreated, hloop, huser⟩ := hready
            have hstep : s.step (.cancel u inLoop held) =
                s.cancelInLoop u held := by
              simp [TimerLoop.step, TimerLoop.cancel, hcreated, hloop, huser]
            rw [hstep]
            exact h.cancelInLoop hcreated hrest hpending held
          · simp at hcancels
      | pendingFunctor held clock =>
          simp only [cancels?] at hcancels
          split at hcancels
          next u rest hphase hf =>
            obtain rfl := Option.some.inj hcancels
            have hstep : s.step (.pendingFunctor held clock) =
                TimerLoop.cancelInLoop { s with pendingFunctors := rest } u
                  held := by
              simp only [TimerLoop.step, hphase, TimerLoop.pendingFunctor, hf]
            have hcreated : u ∈ s.created :=
              h.sound.functorsCreated (.cancelInLoop u) (hf ▸ .head _)
            have hpop : u ∉ TimerLoop.pendingTimers
                { s with pendingFunctors := rest } := by
              intro hin
              apply hpending
              rw [pendingTimers, hf]
              exact hin
            rw [hstep]
            exact (h.pop hf).cancelInLoop hcreated hrest hpop held
          · simp at hcancels
      | addTimer u when interval inLoop clock => simp [cancels?] at hcancels
      | handleRead now readAt => simp [cancels?] at hcancels
      | callback => simp [cancels?] at hcancels
      | reset clock => simp [cancels?] at hcancels

theorem canceled_start (timer : T → Timer) (callingExpiredTimers : Bool) :
    (start timer callingExpiredTimers).Canceled where
  sound := sound_start timer callingExpiredTimers
  final := .nil
  ended _ ht := absurd ht List.not_mem_nil

end TimerLoop

/-- In a run in which no `cancelInLoop` meets a timer whose callback the
running batch still has to start, or that a functor is still to add, no
callback is started after its timer was cancelled. -/
theorem cancelFinal_run {T : Type*} [LinearOrder T] (timer : T → Timer)
    (callingExpiredTimers : Bool) {actions : List (TimerLoop.Action T)}
    (hrun : EveryStep TimerLoop.step TimerLoop.CancelsReached
      (.start timer callingExpiredTimers) actions) :
    (run TimerLoop.step (.start timer callingExpiredTimers)
      actions).CancelFinal :=
  (run_invariant TimerLoop.Canceled (fun _ _ hs ha => hs.step ha)
    (TimerLoop.canceled_start timer callingExpiredTimers) hrun).final

/-- A repeating timer whose callback cancels the timer itself, and a timer that
another thread adds and cancels. -/
def cancelSelf : List (TimerLoop.Action ℕ) :=
  [.addTimer 0 10 (some 5) true 1, TimerLoop.runAt 1 30 false 1,
    .pendingFunctor false 2, .handleRead ⟨12, by decide⟩ 12, .callback,
    .cancel 0 true false, .reset 13, .cancel 1 false false,
    .pendingFunctor false 14, .handleRead ⟨40, by decide⟩ 40, .callback]

theorem cancelFinal_run_cancelSelf :
    EveryStep TimerLoop.step TimerLoop.CancelsReached
        (.start (fun _ => { expiration := 0, interval := none }) true)
        cancelSelf ∧
      (run TimerLoop.step
        (.start (fun _ => { expiration := 0, interval := none }) true)
        cancelSelf).CancelFinal := by
  have hrun : EveryStep TimerLoop.step TimerLoop.CancelsReached
      (.start (fun _ => { expiration := 0, interval := none }) true)
      cancelSelf := by
    exact ⟨by decide, by decide, by decide, by decide, by decide, by decide,
      by decide, by decide, by decide, by decide, by decide, trivial⟩
  exact ⟨hrun, cancelFinal_run _ _ hrun⟩

/-- Two timers are due together, and the first callback cancels the second. -/
def cancelLaterMember : List (TimerLoop.Action ℕ) :=
  [TimerLoop.runAt 0 10 true 1, TimerLoop.runAt 1 10 true 1,
    .handleRead ⟨12, by decide⟩ 12, .callback, .cancel 1 true false, .callback]

/-- Another thread adds a timer, and the loop thread cancels it before it comes
to the functor. -/
def cancelBeforeAdd : List (TimerLoop.Action ℕ) :=
  [TimerLoop.runAt 0 10 false 1, .cancel 0 true false,
    .pendingFunctor false 2, .handleRead ⟨12, by decide⟩ 12, .callback]

theorem not_cancelFinal_cancelLaterMember :
    ¬ (run TimerLoop.step
        (.start (fun _ => { expiration := 0, interval := none }) true)
        cancelLaterMember).CancelFinal ∧
      ¬ (run TimerLoop.step
        (.start (fun _ => { expiration := 0, interval := none }) true)
        cancelBeforeAdd).CancelFinal := by
  decide

end MuduoHttp
