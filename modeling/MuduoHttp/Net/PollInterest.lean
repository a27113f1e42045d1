import MuduoHttp.Net.ActiveChannels

/-!
# The interest of a channel and its poll entry

`enableReading`, `enableWriting`, `disableWriting` and `disableAll` change the
interest of a channel and pass it to `updateChannel`.  The descriptor of the
entry is negated there when no interest is left, and is not put back when some
interest returns.
-/

namespace MuduoHttp

open Support

/-- The calls with which a channel changes its interest. -/
inductive InterestCall
  | enableReading
  | enableWriting
  | disableWriting
  | disableAll
  deriving DecidableEq, Repr

namespace PollChannel

def enableReading (ch : PollChannel) : PollChannel :=
  { ch with events := { ch.events with reading := true } }

def enableWriting (ch : PollChannel) : PollChannel :=
  { ch with events := { ch.events with writing := true } }

def disableWriting (ch : PollChannel) : PollChannel :=
  { ch with events := { ch.events with writing := false } }

def disableAll (ch : PollChannel) : PollChannel :=
  { ch with events := {} }

/-- The channel with its new `events_`, before `update()`. -/
def call (ch : PollChannel) : InterestCall → PollChannel
  | .enableReading => ch.enableReading
  | .enableWriting => ch.enableWriting
  | .disableWriting => ch.disableWriting
  | .disableAll => ch.disableAll

/-- The descriptor that the entry of a channel should carry. -/
def pollFd (ch : PollChannel) : ℤ :=
  if ch.events.IsNone then Poller.negated ch.fd else ch.fd

end PollChannel

namespace PollTable

variable {C : Type*} [DecidableEq C]

/-- What the owners of channels do, and the polls of the loop. -/
inductive Use (C : Type*)
  | call (c : C) (k : InterestCall)
  | remove (c : C)
  | poll (report : ℕ → ℕ)

/-- A call on the channel is `updateChannel` with its new interest. -/
def Use.action (s : PollTable C) : Use C → Action C
  | .call c k => .update c ((s.poller.channel c).call k).events
  | .remove c => .remove c
  | .poll report => .poll report

def useStep (s : PollTable C) (u : Use C) : PollTable C :=
  s.step (u.action s)

def UseReady (s : PollTable C) (u : Use C) : Prop :=
  s.Ready (u.action s)

/-- The entry of a channel carries the descriptor that it should. -/
def EntryInEffect (p : Poller C) (c : C) : Prop :=
  (p.pollFd? c).map PollFd.fd = some (p.channel c).pollFd

/-- The interest of every registered channel is in effect. -/
def InEffect (s : PollTable C) : Prop :=
  ∀ c, s.life c = .registered → EntryInEffect s.poller c

/-- The call gives some interest to a registered channel that has none. -/
def Revives (s : PollTable C) : Use C → Prop
  | .call c k =>
      s.life c = .registered ∧ (s.poller.channel c).events.IsNone ∧
        ¬ ((s.poller.channel c).call k).events.IsNone
  | .remove _ => False
  | .poll _ => False

variable {p p' : Poller C} {life : C → ChannelLife} {c d : C}

/-! ## One call -/

omit [DecidableEq C] in
theorem entryInEffect_congr (hentry : (p'.pollFd? c).map PollFd.fd =
    (p.pollFd? c).map PollFd.fd) (hfd : (p'.channel c).fd = (p.channel c).fd)
    (hevents : (p'.channel c).events = (p.channel c).events) :
    EntryInEffect p' c ↔ EntryInEffect p c := by
  simp only [EntryInEffect, hentry, PollChannel.pollFd, hfd, hevents]

/-- The new entry carries the descriptor it should unless some interest came
back to a channel without one. -/
theorem entryInEffect_updated (events : Interest) {i : ℕ} {pfd : PollFd}
    (hindex : (p.channel c).index = i) (hpfd : p.pollfds[i]? = some pfd)
    (hold : EntryInEffect p c) :
    EntryInEffect (updated p c events i pfd) c ↔
      ((p.channel c).events.IsNone → events.IsNone) := by
  have hlt := (List.getElem?_eq_some_iff.mp hpfd).1
  have hfd : pfd.fd = (p.channel c).pollFd := by
    rw [EntryInEffect, Poller.pollFd?, hindex, Int.toNat_natCast, hpfd] at hold
    exact Option.some.inj hold
  have hentry : Poller.pollFd? (updated p c events i pfd) c = some
      { fd := if events.IsNone then Poller.negated (p.channel c).fd else pfd.fd
        events := events } := by
    simp [Poller.pollFd?, updated, hindex, List.getElem?_set_self hlt]
  have hchannel : (updated p c events i pfd).channel c =
      { p.channel c with events := events } := by
    simp [updated]
  have hne : Poller.negated (p.channel c).fd ≠ (p.channel c).fd := by
    rw [Poller.negated]
    omega
  simp only [EntryInEffect, hentry, hchannel, PollChannel.pollFd,
    Option.map_some, Option.some.injEq]
  by_cases hnone : events.IsNone
  · simp [hnone]
  · rw [if_neg hnone, if_neg hnone, hfd, PollChannel.pollFd]
    by_cases hbefore : (p.channel c).events.IsNone
    · simp [hbefore, hnone, hne]
    · simp [hbefore]

theorem Bijective.entryInEffect_updated_ne (h : Bijective p life)
    (hc : life c = .registered) (hd : life d = .registered) (hdc : d ≠ c)
    (events : Interest) {i : ℕ} (pfd : PollFd)
    (hindex : (p.channel c).index = i) :
    EntryInEffect (updated p c events i pfd) d ↔ EntryInEffect p d := by
  obtain ⟨j, pfd', hj, -, -⟩ := h.entry d hd
  have hij : i ≠ j := by
    rintro rfl
    exact hdc (h.eq_of_index_eq hd hc (hj.trans hindex.symm))
  have hchannel : (updated p c events i pfd).channel d = p.channel d := by
    simp [updated, hdc]
  apply entryInEffect_congr
  · rw [Poller.pollFd?, Poller.pollFd?, hchannel, hj, Int.toNat_natCast]
    simp only [updated]
    rw [List.getElem?_set_ne hij]
  · rw [hchannel]
  · rw [hchannel]

/-! ## Registration and removal -/

theorem entryInEffect_registered (p : Poller C) (c : C) {events : Interest}
    (hevents : ¬ events.IsNone) : EntryInEffect (registered p c events) c := by
  simp [EntryInEffect, Poller.pollFd?, registered, PollChannel.pollFd, hevents]

theorem Bijective.entryInEffect_registered_ne (h : Bijective p life)
    (hd : life d = .registered) (hdc : d ≠ c) (events : Interest) :
    EntryInEffect (registered p c events) d ↔ EntryInEffect p d := by
  obtain ⟨j, pfd, hj, hpfd, -⟩ := h.entry d hd
  have hlt := (List.getElem?_eq_some_iff.mp hpfd).1
  have hchannel : (registered p c events).channel d = p.channel d := by
    simp [registered, hdc]
  apply entryInEffect_congr
  · rw [Poller.pollFd?, Poller.pollFd?, hchannel, hj, Int.toNat_natCast]
    simp only [registered]
    rw [List.getElem?_append_left hlt]
  · rw [hchannel]
  · rw [hchannel]

/-- The last entry moves into the hole together with the index of its
channel. -/
theorem Bijective.entryInEffect_removed (h : Bijective p life)
    (hc : life c = .registered) {i : ℕ} (hindex : (p.channel c).index = i)
    (hi : i < p.pollfds.length) {last : C} (hlast : life last = .registered)
    (hlastIndex : (p.channel last).index = (p.pollfds.length - 1 : ℕ))
    (hd : life d = .registered) (hdc : d ≠ c) :
    EntryInEffect (removed p c last i) d ↔ EntryInEffect p d := by
  obtain ⟨back, hback⟩ : ∃ back, p.pollfds.getLast? = some back :=
    Option.isSome_iff_exists.mp (by simp; rintro hnil; simp [hnil] at hi)
  obtain ⟨j, pfd, hj, hpfd, -⟩ := h.entry d hd
  have hjlt := (List.getElem?_eq_some_iff.mp hpfd).1
  have hij : j ≠ i := by
    rintro rfl
    exact hdc (h.eq_of_index_eq hd hc (hj.trans hindex.symm))
  have hevents : ((removed p c last i).channel d).events =
      (p.channel d).events := by
    by_cases hdl : d = last
    · subst hdl
      simp [removed]
    · simp [removed, hdl]
  refine entryInEffect_congr ?_ (fd_removed p c last i d) hevents
  rw [Poller.pollFd?, Poller.pollFd?, hj, Int.toNat_natCast]
  by_cases hdl : d = last
  · subst hdl
    have hjlast : j = p.pollfds.length - 1 := by omega
    have hmoved : ((removed p c d i).channel d).index = i := by
      simp [removed]
    rw [hmoved, Int.toNat_natCast]
    simp only [removed]
    rw [getElem?_swapRemove hback hi (by omega), if_pos rfl, hjlast, ← hback,
      List.getLast?_eq_getElem?]
  · have hjl : j ≠ p.pollfds.length - 1 := by
      intro heq
      apply hdl
      apply h.eq_of_index_eq hd hlast
      rw [hj, hlastIndex, heq]
    have hkept : ((removed p c last i).channel d).index = j := by
      simpa [removed, hdl] using hj
    rw [hkept, Int.toNat_natCast]
    simp only [removed]
    rw [getElem?_swapRemove hback hi (by omega), if_neg hij]

omit [DecidableEq C] in
theorem Bijective.entryInEffect_sameTable (h : Bijective p life)
    (hsame : Poller.SameTable p p') (hd : life d = .registered) :
    EntryInEffect p' d ↔ EntryInEffect p d := by
  obtain ⟨j, pfd, hj, hpfd, -⟩ := h.entry d hd
  obtain ⟨pfd', hpfd', hfd, -⟩ := hsame.entry j pfd hpfd
  apply entryInEffect_congr
  · rw [Poller.pollFd?, Poller.pollFd?, hsame.index, hj,
      Int.toNat_natCast, hpfd, hpfd', Option.map_some, Option.map_some, hfd]
  · exact hsame.fd d
  · exact hsame.events d

/-! ## Runs -/

theorem inEffect_call {s : PollTable C} (h : s.Sound) (hs : s.InEffect)
    {c : C} {k : InterestCall} (hready : s.UseReady (.call c k)) :
    (s.useStep (.call c k)).InEffect ↔ ¬ s.Revives (.call c k) := by
  obtain ⟨-, h⟩ := h
  set events := ((s.poller.channel c).call k).events with hevents
  rcases hready with hc | ⟨hc, hsome, hdistinct⟩
  · obtain ⟨i, pfd, hindex, hpfd, hfor⟩ := h.entry c hc
    have hupdate := h.updateChannel_registered hc events hindex hpfd hfor
    have hlife : Function.update s.life c .registered = s.life := by
      rw [← hc, Function.update_eq_self]
    have hself := entryInEffect_updated events hindex hpfd (hs c hc)
    have hiff : (s.useStep (.call c k)).InEffect ↔
        EntryInEffect (updated s.poller c events i pfd) c := by
      simp only [useStep, Use.action, PollTable.step, ← hevents, hupdate,
        InEffect, hlife]
      constructor
      · intro hall
        exact hall c hc
      · intro hself d hd
        by_cases hdc : d = c
        · subst hdc
          exact hself
        · exact (h.entryInEffect_updated_ne hc hd hdc events pfd hindex).mpr
            (hs d hd)
    rw [hiff, hself]
    simp [Revives, hc, ← hevents]
  · have hupdate := h.updateChannel_fresh hc hdistinct events
    have hfresh : ¬ s.Revives (.call c k) := by
      simp [Revives, hc]
    have hall : (s.useStep (.call c k)).InEffect := by
      simp only [useStep, Use.action, PollTable.step, ← hevents, hupdate]
      intro d hd
      by_cases hdc : d = c
      · subst hdc
        exact entryInEffect_registered s.poller d hsome
      · have hold : s.life d = .registered := by simpa [hdc] using hd
        exact (h.entryInEffect_registered_ne hold hdc events).mpr (hs d hold)
    exact iff_of_true hall hfresh

theorem inEffect_remove {s : PollTable C} (h : s.Sound) (hs : s.InEffect)
    {c : C} (hready : s.UseReady (.remove c)) :
    (s.useStep (.remove c)).InEffect := by
  obtain ⟨-, h⟩ := h
  obtain ⟨hc, hnone⟩ := hready
  obtain ⟨i, pfd, hindex, hpfd, -⟩ := h.entry c hc
  have hi := (List.getElem?_eq_some_iff.mp hpfd).1
  obtain ⟨last, hlast, hlastIndex, hremove⟩ :=
    h.removeChannel hc hnone hindex hi
  simp only [useStep, Use.action, PollTable.step, hremove]
  intro d hd
  have hdc : d ≠ c := by
    rintro rfl
    simp at hd
  have hold : s.life d = .registered := by simpa [hdc] using hd
  exact (h.entryInEffect_removed hc hindex hi hlast hlastIndex hold hdc).mpr
    (hs d hold)

theorem inEffect_poll {s : PollTable C} (h : s.Sound) (hs : s.InEffect)
    (report : ℕ → ℕ) : (s.useStep (.poll report)).InEffect := by
  obtain ⟨-, h⟩ := h
  obtain ⟨active, p', hpoll, hsame⟩ := h.poll report
  simp only [useStep, Use.action, PollTable.step, hpoll]
  intro d hd
  exact (h.entryInEffect_sameTable hsame hd).mpr (hs d hd)

theorem inEffect_useStep {s : PollTable C} (h : s.Sound) (hs : s.InEffect)
    {u : Use C} (hready : s.UseReady u) :
    (s.useStep u).InEffect ↔ ¬ s.Revives u := by
  cases u with
  | call c k => exact inEffect_call h hs hready
  | remove c => exact iff_of_true (inEffect_remove h hs hready) id
  | poll report => exact iff_of_true (inEffect_poll h hs report) id

end PollTable

/-- After every call, removal and poll each registered channel has in its
entry the real descriptor when it has some interest and the negated one when
it has none, exactly when no call brings interest back to a channel without
one. -/
theorem interest_takes_effect_iff {C : Type*} [DecidableEq C] (fds : C → ℕ)
    {uses : List (PollTable.Use C)}
    (hready : EveryStep PollTable.useStep PollTable.UseReady
      (PollTable.fresh fds) uses) :
    EveryStep PollTable.useStep (fun s u => (s.useStep u).InEffect)
        (PollTable.fresh fds) uses ↔
      EveryStep PollTable.useStep (fun s u => ¬ s.Revives u)
        (PollTable.fresh fds) uses := by
  have hstart : (PollTable.fresh fds).InEffect := by
    intro c hc
    simp [PollTable.fresh] at hc
  exact everyStep_good_iff PollTable.useStep _ PollTable.Sound
    PollTable.InEffect (fun s u hs hu => hs.step hu)
    (fun s u hs hg hu => PollTable.inEffect_useStep hs hg hu)
    (PollTable.sound_fresh fds) hstart hready

theorem interest_takes_effect_iff_disabled :
    EveryStep PollTable.useStep (fun s u => (s.useStep u).InEffect)
      (PollTable.fresh fun _ : Fin 1 => 5)
      [.call 0 .enableReading, .call 0 .enableWriting, .call 0 .disableAll] := by
  refine (interest_takes_effect_iff (fun _ : Fin 1 => 5) ?_).mpr ?_
  · exact ⟨.inr ⟨rfl, by decide, by decide⟩, .inl (by decide),
      .inl (by decide), trivial⟩
  · exact ⟨fun h => absurd h.1 (by decide), fun h => absurd h.2.1 (by decide),
      fun h => absurd h.2.1 (by decide), trivial⟩

/-- The only channel is disabled and enabled again. -/
def disableAndEnable : List (PollTable.Use (Fin 1)) :=
  [.call 0 .enableReading, .call 0 .disableAll, .call 0 .enableReading]

/-- Its entry keeps the negated descriptor, and `poll` has no events for it. -/
theorem interest_lost_disableAndEnable :
    EveryStep PollTable.useStep PollTable.UseReady
        (PollTable.fresh fun _ => 5) disableAndEnable ∧
      let s := run PollTable.useStep (PollTable.fresh fun _ => 5)
        disableAndEnable
      (s.poller.channel 0).events = { reading := true } ∧
        (s.poller.pollFd? 0).map PollFd.fd = some (-6) ∧
        (∀ report, (Poller.pollFd? (s.poller.polled report) 0).map PollFd.revents =
          some 0) ∧
        ¬ EveryStep PollTable.useStep (fun s u => (s.useStep u).InEffect)
          (PollTable.fresh fun _ => 5) disableAndEnable := by
  refine ⟨⟨.inr ⟨rfl, by decide, by decide⟩, .inl (by decide),
    .inl (by decide), trivial⟩, by decide, by decide, fun report => rfl, ?_⟩
  rintro ⟨-, -, hlast, -⟩
  have hentry := hlast 0 (by decide)
  revert hentry
  unfold PollTable.EntryInEffect
  decide

end MuduoHttp
