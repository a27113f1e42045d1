import Mathlib.Data.Prod.Lex
import Mathlib.Logic.Function.Basic
import MuduoHttp.Support.OrderedSet

/-!
# The timer queue

`TimerQueue` keeps its timers in a set ordered by expiration and address, and
arms one `timerfd` for the earliest of them.  `handleRead` takes the expired
timers out of the set, runs their callbacks and puts the repeating ones back.

Time is counted in microseconds.  A timer is identified with its object, so
two timers are never the same even when one is created at the address of
another that was destroyed.
-/

namespace MuduoHttp

open Support

/-- A reading of `Timestamp::now()`, which is valid. -/
abbrev Clock := {now : ℤ // 0 < now}

/-- A `Timer` without its callback.  `interval_` is in whole microseconds, none
when it is not positive. -/
structure Timer where
  expiration : ℤ
  interval : Option ℕ
  deriving DecidableEq, Repr

def Timer.repeat_ (timer : Timer) : Bool := timer.interval.isSome

def Timer.restart (timer : Timer) (now : ℤ) : Timer :=
  match timer.interval with
  | some interval => { timer with expiration := now + interval }
  | none => { timer with expiration := 0 }

/-- `std::pair<Timestamp, TimerPtr>`. -/
structure Entry (T : Type*) where
  when : ℤ
  timer : T
  deriving DecidableEq, Repr

namespace Entry

variable {T : Type*} [LinearOrder T]

/-- Entries are compared by time first, then by address. -/
instance : LinearOrder (Entry T) :=
  LinearOrder.lift' (fun e => toLex (e.when, e.timer)) fun a b h => by
    obtain ⟨hwhen, htimer⟩ := Prod.mk.inj (toLex.injective h)
    cases a
    cases b
    simp_all

instance : Std.TransCmp (compare : Entry T → Entry T → Ordering) :=
  inferInstance

theorem le_iff {a b : Entry T} :
    a ≤ b ↔ a.when < b.when ∨ a.when = b.when ∧ a.timer ≤ b.timer :=
  Prod.Lex.toLex_le_toLex

theorem when_le {a b : Entry T} (h : a ≤ b) : a.when ≤ b.when := by
  rcases le_iff.mp h with hlt | ⟨heq, -⟩
  · exact hlt.le
  · exact heq.le

end Entry

/-- `struct timespec`. -/
structure Timespec where
  tv_sec : ℤ
  tv_nsec : ℤ
  deriving DecidableEq, Repr

def Timespec.Valid (ts : Timespec) : Prop :=
  0 ≤ ts.tv_sec ∧ 0 ≤ ts.tv_nsec ∧ ts.tv_nsec < 1000000000

instance (ts : Timespec) : Decidable ts.Valid :=
  inferInstanceAs (Decidable (_ ∧ _ ∧ _))

def Timespec.microseconds (ts : Timespec) : ℤ :=
  ts.tv_sec * 1000000 + ts.tv_nsec / 1000

def howMuchTimeFromNow (when now : ℤ) : Timespec :=
  let microseconds := if when - now < 100 then 100 else when - now
  { tv_sec := microseconds.tdiv 1000000
    tv_nsec := microseconds.tmod 1000000 * 1000 }

/-- An armed timerfd.  It is readable from its expiry on, until it is read. -/
structure Armed where
  armedAt : ℤ
  expiry : ℤ
  deriving DecidableEq, Repr

/-- `::timerfd_settime` without an interval. -/
def timerfdSettime (timerfd : Option Armed) (value : Timespec) (now : ℤ) :
    Option Armed :=
  if value.Valid then
    if value = { tv_sec := 0, tv_nsec := 0 } then none
    else some { armedAt := now, expiry := now + value.microseconds }
  else timerfd

/-- A call of `timerfd_settime`, for the timer with the expiration. -/
structure Settime where
  value : Timespec
  expiration : ℤ
  now : ℤ
  deriving DecidableEq, Repr

/-- `callingExpiredTimers_` is not initialised. -/
structure TimerQueue (T : Type*) [LinearOrder T] where
  timer : T → Timer
  timers : OrderedSet (Entry T) := ∅
  cancelingTimers : OrderedSet (Entry T) := ∅
  callingExpiredTimers : Bool
  timerfd : Option Armed := none
  settimes : List Settime := []
  asserts : Bool := true

namespace TimerQueue

variable {T : Type*} [LinearOrder T]

def setTimer (s : TimerQueue T) (t : T) (timer : Timer) : TimerQueue T :=
  { s with timer := Function.update s.timer t timer }

def readTimerfd (s : TimerQueue T) (now : ℤ) : TimerQueue T :=
  match s.timerfd with
  | some armed =>
      if armed.expiry ≤ now then { s with timerfd := none } else s
  | none => s

def resetTimerfd (s : TimerQueue T) (expiration now : ℤ) : TimerQueue T :=
  let value := howMuchTimeFromNow expiration now
  { s with
    timerfd := timerfdSettime s.timerfd value now
    settimes := s.settimes ++ [{ value, expiration, now }] }

/-- The result says whether the timer is the earliest. -/
def insert (s : TimerQueue T) (t : T) : Bool × TimerQueue T :=
  let entry : Entry T := { when := (s.timer t).expiration, timer := t }
  let earliestChanged :=
    match s.timers.first? with
    | none => true
    | some first => entry.when < first.when
  (earliestChanged,
    { s with
      timers := s.timers.insert entry
      asserts := s.asserts && !s.timers.contains entry })

def addTimerInLoop (s : TimerQueue T) (t : T) (now : ℤ) : TimerQueue T :=
  let (earliestChanged, s) := s.insert t
  if earliestChanged then s.resetTimerfd (s.timer t).expiration now else s

/-- Whether the queue itself owns the timer. -/
def owns (s : TimerQueue T) (t : T) : Bool :=
  (s.timers.toList ++ s.cancelingTimers.toList).any fun e => e.timer = t

/-- `alive` says whether `lock` gives the timer. -/
def cancelInLoop (s : TimerQueue T) (t : T) (alive : Bool) : TimerQueue T :=
  if alive then
    let entry : Entry T := { when := (s.timer t).expiration, timer := t }
    if s.timers.contains entry then
      { s with timers := s.timers.erase entry }
    else if s.callingExpiredTimers then
      { s with cancelingTimers := s.cancelingTimers.insert entry }
    else s
  else s

def getExpired (s : TimerQueue T) (now : ℤ) : List (Entry T) × TimerQueue T :=
  let expired := s.timers.front fun e => e.when ≤ now
  let bound := s.timers.bound? fun e => e.when ≤ now
  (expired,
    { s with
      timers := s.timers.eraseAll expired
      asserts := s.asserts && bound.all fun e => now < e.when })

/-- `handleRead` up to the loop that runs the callbacks.  The timerfd is read
at `readAt`. -/
def startRead (s : TimerQueue T) (now readAt : ℤ) :
    List (Entry T) × TimerQueue T :=
  let (expired, s) := (s.readTimerfd readAt).getExpired now
  (expired, { s with callingExpiredTimers := true, cancelingTimers := ∅ })

/-- One turn of the loop of `reset`. -/
def resetEntry (now : ℤ) (s : TimerQueue T) (entry : Entry T) :
    TimerQueue T :=
  let timer := s.timer entry.timer
  if timer.repeat_ && !s.cancelingTimers.contains entry then
    ((s.setTimer entry.timer (timer.restart now)).insert entry.timer).2
  else s

/-- `clock` is what `howMuchTimeFromNow` reads. -/
def reset (s : TimerQueue T) (expired : List (Entry T)) (now clock : ℤ) :
    TimerQueue T :=
  let s := expired.foldl (resetEntry now) s
  match s.timers.first? with
  | none => s
  | some first =>
      let nextExpire := (s.timer first.timer).expiration
      if 0 < nextExpire then s.resetTimerfd nextExpire clock else s

/-- `handleRead` after the loop that runs the callbacks. -/
def finishRead (s : TimerQueue T) (expired : List (Entry T))
    (now clock : ℤ) : TimerQueue T :=
  { s with callingExpiredTimers := false }.reset expired now clock

/-! ## What the operations do -/

/-- The entry of a timer under its own expiration. -/
def entry (s : TimerQueue T) (t : T) : Entry T where
  when := (s.timer t).expiration
  timer := t

/-- Every entry stands under the expiration of its timer, so no timer has two
entries. -/
def Keyed (s : TimerQueue T) : Prop := ∀ e ∈ s.timers, e = s.entry e.timer

/-- The timer has an entry. -/
def Scheduled (s : TimerQueue T) (t : T) : Prop := ∃ e ∈ s.timers, e.timer = t

variable {s : TimerQueue T} {t u : T} {e : Entry T} {now clock : ℤ}

theorem Keyed.eq_of_timer_eq (h : s.Keyed) {e e' : Entry T}
    (he : e ∈ s.timers) (he' : e' ∈ s.timers) (heq : e.timer = e'.timer) :
    e = e' := by
  rw [h e he, h e' he', heq]

theorem mem_insert : e ∈ (s.insert t).2.timers ↔ e = s.entry t ∨ e ∈ s.timers :=
  OrderedSet.mem_insert_iff

theorem asserts_insert (h : s.entry t ∉ s.timers) :
    (s.insert t).2.asserts = s.asserts := by
  have hcontains := OrderedSet.contains_eq_false h
  change (s.asserts && !s.timers.contains (s.entry t)) = s.asserts
  rw [hcontains, Bool.not_false, Bool.and_true]

theorem Keyed.insert (h : s.Keyed) (t : T) : (s.insert t).2.Keyed := by
  intro e he
  rcases mem_insert.mp he with rfl | hmem
  · rfl
  · exact h e hmem

/-- `addTimerInLoop` inserts the timer, whether or not it arms the timerfd. -/
theorem addTimerInLoop_eq (s : TimerQueue T) (t : T) (now : ℤ) :
    ∃ timerfd settimes, s.addTimerInLoop t now =
      { (s.insert t).2 with timerfd := timerfd, settimes := settimes } := by
  unfold addTimerInLoop
  dsimp only
  split
  · exact ⟨_, _, rfl⟩
  · exact ⟨_, _, rfl⟩

@[simp] theorem timers_addTimerInLoop :
    (s.addTimerInLoop t now).timers = (s.insert t).2.timers := by
  obtain ⟨timerfd, settimes, heq⟩ := addTimerInLoop_eq s t now
  rw [heq]

@[simp] theorem timer_addTimerInLoop :
    (s.addTimerInLoop t now).timer = s.timer := by
  obtain ⟨timerfd, settimes, heq⟩ := addTimerInLoop_eq s t now
  rw [heq]
  rfl

@[simp] theorem asserts_addTimerInLoop :
    (s.addTimerInLoop t now).asserts = (s.insert t).2.asserts := by
  obtain ⟨timerfd, settimes, heq⟩ := addTimerInLoop_eq s t now
  rw [heq]

@[simp] theorem cancelingTimers_addTimerInLoop :
    (s.addTimerInLoop t now).cancelingTimers = s.cancelingTimers := by
  obtain ⟨timerfd, settimes, heq⟩ := addTimerInLoop_eq s t now
  rw [heq]
  rfl

@[simp] theorem callingExpiredTimers_addTimerInLoop :
    (s.addTimerInLoop t now).callingExpiredTimers =
      s.callingExpiredTimers := by
  obtain ⟨timerfd, settimes, heq⟩ := addTimerInLoop_eq s t now
  rw [heq]
  rfl

/-- The queue with the timer cancelled. -/
theorem cancelInLoop_eq (s : TimerQueue T) (t : T) (alive : Bool) :
    ∃ cancelingTimers, s.cancelInLoop t alive =
      { s with
        timers := if alive then s.timers.erase (s.entry t) else s.timers
        cancelingTimers := cancelingTimers } := by
  unfold cancelInLoop
  split
  next halive =>
    dsimp only
    split
    · exact ⟨_, rfl⟩
    next hcontains =>
      have hnot : s.entry t ∉ s.timers := by
        rwa [Std.ExtTreeSet.mem_iff_contains]
      have herase : s.timers.erase (s.entry t) = s.timers := by
        apply Std.ExtTreeSet.ext_mem
        intro e
        rw [OrderedSet.mem_erase_iff]
        constructor
        · exact And.right
        · intro he
          exact ⟨fun heq => hnot (heq ▸ he), he⟩
      split
      · exact ⟨_, by rw [herase]⟩
      · exact ⟨_, by rw [herase]⟩
  · exact ⟨_, rfl⟩

theorem mem_of_mem_cancelInLoop {alive : Bool}
    (h : e ∈ (s.cancelInLoop t alive).timers) : e ∈ s.timers := by
  obtain ⟨cancelingTimers, heq⟩ := cancelInLoop_eq s t alive
  rw [heq] at h
  dsimp only at h
  split at h
  · exact (OrderedSet.mem_erase_iff.mp h).2
  · exact h

/-- Cancelling a timer is nothing to the entries of the others. -/
theorem mem_cancelInLoop_of_ne (hne : e.timer ≠ t) {alive : Bool} :
    (e ∈ (s.cancelInLoop t alive).timers ↔ e ∈ s.timers) ∧
      (e ∈ (s.cancelInLoop t alive).cancelingTimers ↔
        e ∈ s.cancelingTimers) := by
  have hentry : e ≠ s.entry t := fun heq => hne (congrArg Entry.timer heq)
  unfold cancelInLoop
  split
  · dsimp only
    split
    · refine ⟨?_, Iff.rfl⟩
      rw [OrderedSet.mem_erase_iff]
      exact and_iff_right hentry
    · split
      · refine ⟨Iff.rfl, ?_⟩
        rw [OrderedSet.mem_insert_iff]
        exact or_iff_right hentry
      · exact ⟨Iff.rfl, Iff.rfl⟩
  · exact ⟨Iff.rfl, Iff.rfl⟩

/-- The timers in the batch of `handleRead` are noted as cancelled. -/
theorem mem_cancelingTimers_cancelInLoop
    (hcalling : s.callingExpiredTimers = true) (hnot : s.entry t ∉ s.timers) :
    e ∈ (s.cancelInLoop t true).cancelingTimers ↔
      e = s.entry t ∨ e ∈ s.cancelingTimers := by
  have hcontains := OrderedSet.contains_eq_false hnot
  have heq : s.cancelInLoop t true =
      { s with cancelingTimers := s.cancelingTimers.insert (s.entry t) } := by
    change (if s.timers.contains (s.entry t) then _ else _) = _
    rw [hcontains, hcalling]
    rfl
  rw [heq]
  exact OrderedSet.mem_insert_iff

theorem readTimerfd_eq (s : TimerQueue T) (now : ℤ) :
    ∃ timerfd, s.readTimerfd now = { s with timerfd := timerfd } := by
  unfold readTimerfd
  split
  · split
    · exact ⟨_, rfl⟩
    · exact ⟨_, rfl⟩
  · exact ⟨_, rfl⟩

theorem mem_expired :
    e ∈ (s.getExpired now).1 ↔ e ∈ s.timers ∧ e.when ≤ now := by
  have hdown : ∀ a b : Entry T, a ≤ b → decide (b.when ≤ now) = true →
      decide (a.when ≤ now) = true := by
    intro a b hab hb
    simp only [decide_eq_true_eq] at hb ⊢
    exact (Entry.when_le hab).trans hb
  have hmem := OrderedSet.mem_front (s := s.timers) (a := e) hdown
  rwa [decide_eq_true_eq] at hmem

theorem pairwise_expired : (s.getExpired now).1.Pairwise (· < ·) :=
  OrderedSet.pairwise_front _ _

theorem mem_getExpired :
    e ∈ (s.getExpired now).2.timers ↔ e ∈ s.timers ∧ now < e.when := by
  change e ∈ s.timers.eraseAll (s.getExpired now).1 ↔ _
  rw [OrderedSet.mem_eraseAll, mem_expired, not_and, not_le]
  constructor
  · rintro ⟨himp, hmem⟩
    exact ⟨hmem, himp hmem⟩
  · rintro ⟨hmem, hlt⟩
    exact ⟨fun _ => hlt, hmem⟩

theorem asserts_getExpired : (s.getExpired now).2.asserts = s.asserts := by
  have hbound : ((s.timers.bound? fun e => e.when ≤ now).all
      fun e => now < e.when) = true := by
    cases hfirst : s.timers.bound? fun e => e.when ≤ now with
    | none => rfl
    | some first =>
        have hnot := OrderedSet.not_of_bound? hfirst
        simpa using hnot
  change (s.asserts && _) = s.asserts
  rw [hbound, Bool.and_true]

end TimerQueue

end MuduoHttp
