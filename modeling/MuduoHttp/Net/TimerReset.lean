import MuduoHttp.Net.TimerQueue

/-!
# The end of `handleRead`

`reset` puts the repeating timers of the batch back, under new expirations,
unless they are noted as cancelled.
-/

namespace MuduoHttp

open Support

namespace TimerQueue

variable {T : Type*} [LinearOrder T] {s s' : TimerQueue T} {b b' e : Entry T}
  {batch : List (Entry T)} {now clock : ℤ}

/-- The timer of the entry is put back. -/
def Renews (s : TimerQueue T) (b : Entry T) : Prop :=
  (s.timer b.timer).repeat_ = true ∧ b ∉ s.cancelingTimers

/-- The entry with which a timer is put back. -/
def renewed (s : TimerQueue T) (now : ℤ) (b : Entry T) : Entry T where
  when := ((s.timer b.timer).restart now).expiration
  timer := b.timer

/-- What is noted as cancelled stays so. -/
theorem mem_cancelingTimers_of_mem {t : T} {alive : Bool}
    (h : e ∈ s.cancelingTimers) :
    e ∈ (s.cancelInLoop t alive).cancelingTimers := by
  unfold cancelInLoop
  split
  · dsimp only
    split
    · exact h
    · split
      · exact OrderedSet.mem_insert_iff.mpr (.inr h)
      · exact h
  · exact h

theorem renews_of_cancelInLoop {t : T} {alive : Bool}
    (h : (s.cancelInLoop t alive).Renews b) : s.Renews b := by
  obtain ⟨cancelingTimers, heq⟩ := cancelInLoop_eq s t alive
  refine ⟨?_, fun hin => h.2 (mem_cancelingTimers_of_mem hin)⟩
  rw [heq] at h
  exact h.1

theorem interval_restart (timer : Timer) (now : ℤ) :
    (timer.restart now).interval = timer.interval := by
  unfold Timer.restart
  split
  next hinterval => rw [hinterval]
  next hinterval => rw [hinterval]

/-- What the loop of `reset` does with a batch. -/
structure ResetsTo (now : ℤ) (batch : List (Entry T)) (s s' : TimerQueue T) :
    Prop where
  keyed : s'.Keyed
  asserts : s'.asserts = s.asserts
  mem : ∀ e, e ∈ s'.timers ↔
    e ∈ s.timers ∨ ∃ b ∈ batch, s.Renews b ∧ e = s.renewed now b
  timer : ∀ t, t ∉ batch.map Entry.timer → s'.timer t = s.timer t
  interval : ∀ t, (s'.timer t).interval = (s.timer t).interval
  cancelingTimers : s'.cancelingTimers = s.cancelingTimers
  callingExpiredTimers : s'.callingExpiredTimers = s.callingExpiredTimers
  timerfd : s'.timerfd = s.timerfd
  settimes : s'.settimes = s.settimes

theorem resetsTo_nil (h : s.Keyed) : ResetsTo now [] s s where
  keyed := h
  asserts := rfl
  mem e := by simp
  timer _ _ := rfl
  interval _ := rfl
  cancelingTimers := rfl
  callingExpiredTimers := rfl
  timerfd := rfl
  settimes := rfl

theorem resetEntry_of_not (h : ¬ s.Renews b) : resetEntry now s b = s := by
  unfold resetEntry
  apply if_neg
  rintro hrenews
  rw [Bool.and_eq_true, Bool.not_eq_true'] at hrenews
  refine h ⟨hrenews.1, ?_⟩
  rw [Std.ExtTreeSet.mem_iff_contains, hrenews.2]
  exact Bool.false_ne_true

theorem resetEntry_of_renews (h : s.Renews b) :
    resetEntry now s b =
      ((s.setTimer b.timer ((s.timer b.timer).restart now)).insert
        b.timer).2 := by
  unfold resetEntry
  apply if_pos
  rw [Bool.and_eq_true, OrderedSet.contains_eq_false h.2]
  exact ⟨h.1, rfl⟩

/-- One turn of the loop, for a timer that has no entry. -/
theorem resetsTo_resetEntry (h : s.Keyed) (hapart : ¬ s.Scheduled b.timer) :
    ResetsTo now [b] s (resetEntry now s b) := by
  by_cases hrenews : s.Renews b
  · rw [resetEntry_of_renews hrenews]
    have hself : (s.setTimer b.timer ((s.timer b.timer).restart now)).entry
        b.timer = s.renewed now b := by
      simp [entry, setTimer, renewed]
    have hkeyed : (s.setTimer b.timer
        ((s.timer b.timer).restart now)).Keyed := by
      intro e he
      have hne : e.timer ≠ b.timer := fun heq => hapart ⟨e, he, heq⟩
      rw [h e he]
      simp [entry, setTimer, hne]
    refine ⟨hkeyed.insert b.timer, ?_, ?_, ?_, ?_, rfl, rfl, rfl, rfl⟩
    · rw [asserts_insert]
      · rfl
      · intro hmem
        exact hapart ⟨_, hmem, rfl⟩
    · intro e
      rw [mem_insert, hself]
      simp only [List.mem_singleton, exists_eq_left, hrenews, true_and]
      exact or_comm
    · intro t ht
      have hne : t ≠ b.timer := by simpa using ht
      exact Function.update_of_ne hne _ _
    · intro t
      by_cases ht : t = b.timer
      · subst ht
        have hnew : ((s.setTimer b.timer ((s.timer b.timer).restart
            now)).insert b.timer).2.timer b.timer =
              (s.timer b.timer).restart now := Function.update_self _ _ _
        rw [hnew, interval_restart]
      · exact congrArg Timer.interval (Function.update_of_ne ht _ _)
  · rw [resetEntry_of_not hrenews]
    refine ⟨h, rfl, ?_, fun _ _ => rfl, fun _ => rfl, rfl, rfl, rfl, rfl⟩
    intro e
    simp [hrenews]

theorem ResetsTo.renews_iff (h : ResetsTo now [b] s s') :
    s'.Renews b' ↔ s.Renews b' := by
  simp only [Renews, Timer.repeat_, h.interval, h.cancelingTimers]

theorem ResetsTo.renewed_eq (h : ResetsTo now [b] s s')
    (hne : b'.timer ≠ b.timer) : s'.renewed now b' = s.renewed now b' := by
  simp only [renewed, h.timer b'.timer (by simpa using hne)]

theorem ResetsTo.not_scheduled (h : ResetsTo now [b] s s')
    (hne : b'.timer ≠ b.timer) (hapart : ¬ s.Scheduled b'.timer) :
    ¬ s'.Scheduled b'.timer := by
  rintro ⟨e, he, heq⟩
  rcases (h.mem e).mp he with hmem | ⟨c, hc, -, rfl⟩
  · exact hapart ⟨e, hmem, heq⟩
  · obtain rfl := List.mem_singleton.mp hc
    exact hne heq.symm

/-- The loop of `reset`, for a batch of timers without entries. -/
theorem resetsTo_foldl (h : s.Keyed) (hnodup : (batch.map Entry.timer).Nodup)
    (hapart : ∀ b ∈ batch, ¬ s.Scheduled b.timer) :
    ResetsTo now batch s (batch.foldl (resetEntry now) s) := by
  induction batch generalizing s with
  | nil => exact resetsTo_nil h
  | cons b rest ih =>
      rw [List.map_cons, List.nodup_cons] at hnodup
      have hne : ∀ b' ∈ rest, b'.timer ≠ b.timer := by
        intro b' hb' heq
        exact hnodup.1 (heq ▸ List.mem_map_of_mem hb')
      have hfirst : ResetsTo now [b] s (resetEntry now s b) :=
        resetsTo_resetEntry h (hapart b (.head _))
      have hrest := ih hfirst.keyed hnodup.2 fun b' hb' =>
        hfirst.not_scheduled (hne b' hb') (hapart b' (.tail _ hb'))
      rw [List.foldl_cons]
      refine ⟨hrest.keyed, hrest.asserts.trans hfirst.asserts, ?_, ?_, ?_,
        hrest.cancelingTimers.trans hfirst.cancelingTimers,
        hrest.callingExpiredTimers.trans hfirst.callingExpiredTimers,
        hrest.timerfd.trans hfirst.timerfd,
        hrest.settimes.trans hfirst.settimes⟩
      · intro e
        have hlater : (∃ b' ∈ rest, (resetEntry now s b).Renews b' ∧
            e = (resetEntry now s b).renewed now b') ↔
              ∃ b' ∈ rest, s.Renews b' ∧ e = s.renewed now b' := by
          constructor
          · rintro ⟨b', hb', hrenews, rfl⟩
            exact ⟨b', hb', hfirst.renews_iff.mp hrenews,
              hfirst.renewed_eq (hne b' hb')⟩
          · rintro ⟨b', hb', hrenews, rfl⟩
            exact ⟨b', hb', hfirst.renews_iff.mpr hrenews,
              (hfirst.renewed_eq (hne b' hb')).symm⟩
        rw [hrest.mem, hfirst.mem, hlater, or_assoc]
        simp only [List.mem_cons, List.not_mem_nil, or_false,
          exists_eq_or_imp, exists_eq_left]
      · intro t ht
        rw [List.map_cons, List.mem_cons, not_or] at ht
        rw [hrest.timer t ht.2, hfirst.timer t (by simpa using ht.1)]
      · intro t
        rw [hrest.interval, hfirst.interval]

/-- After its loop, `reset` arms the timerfd for the first timer, unless its
expiration is not valid. -/
theorem finishRead_cases (s : TimerQueue T) (batch : List (Entry T))
    (now clock : ℤ) {queue : TimerQueue T}
    (hqueue : queue = batch.foldl (resetEntry now)
      { s with callingExpiredTimers := false }) :
    (queue.timers.first? = none ∧ s.finishRead batch now clock = queue) ∨
    ∃ first, queue.timers.first? = some first ∧
      s.finishRead batch now clock =
        if 0 < (queue.timer first.timer).expiration then
          queue.resetTimerfd (queue.timer first.timer).expiration clock
        else queue := by
  subst hqueue
  unfold finishRead reset
  dsimp only
  split
  next hnone => exact .inl ⟨hnone, rfl⟩
  next first hfirst => exact .inr ⟨first, hfirst, rfl⟩

/-- Besides its loop, `reset` only arms the timerfd. -/
theorem finishRead_eq (s : TimerQueue T) (batch : List (Entry T))
    (now clock : ℤ) :
    ∃ timerfd settimes, s.finishRead batch now clock =
      { batch.foldl (resetEntry now) { s with callingExpiredTimers := false }
          with
        timerfd := timerfd
        settimes := settimes } := by
  rcases s.finishRead_cases batch now clock rfl with
    ⟨-, hfinish⟩ | ⟨first, -, hfinish⟩
  · exact ⟨_, _, hfinish⟩
  · rw [hfinish]
    split
    · exact ⟨_, _, rfl⟩
    · exact ⟨_, _, rfl⟩

end TimerQueue

end MuduoHttp
