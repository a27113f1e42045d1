import MuduoHttp.Net.Poller
import MuduoHttp.Support.SwapRemove

/-!
# The poll table is a bijection

Over any sequence of registrations, updates, removals and polls, the entries of the
table and the registered channels correspond one to one, through the map of
descriptors and through the indices in the channels.
-/

namespace MuduoHttp

open Support

/-- Whether a channel was registered, and removed again. -/
inductive ChannelLife
  | fresh
  | registered
  | removed
  deriving DecidableEq, Repr

/-- A poller with the lives of its channels, and whether all asserts held. -/
structure PollTable (C : Type*) where
  poller : Poller C
  life : C → ChannelLife := fun _ => .fresh
  asserts : Bool := true

/-- The entry of a channel: the descriptor, negated when there is no interest,
and the events. -/
structure PollFd.IsFor (pfd : PollFd) (ch : PollChannel) : Prop where
  fd : pfd.fd = ch.fd ∨ pfd.fd = Poller.negated ch.fd
  events : pfd.events = ch.events
  none : ch.events.IsNone → pfd.fd = Poller.negated ch.fd

namespace PollTable

variable {C : Type*} [DecidableEq C]

inductive Action (C : Type*)
  | update (c : C) (events : Interest)
  | remove (c : C)
  | poll (report : ℕ → ℕ)

/-- `update` is a new interest set of a channel, then `updateChannel`. -/
def step (s : PollTable C) : Action C → PollTable C
  | .update c events =>
      match (s.poller.setChannel c
        { s.poller.channel c with events := events }).updateChannel c with
      | some poller =>
          { s with
            poller := poller
            life := Function.update s.life c .registered }
      | none => { s with asserts := false }
  | .remove c =>
      match s.poller.removeChannel c with
      | some poller =>
          { s with poller := poller, life := Function.update s.life c .removed }
      | none => { s with asserts := false }
  | .poll report =>
      match s.poller.poll report with
      | some (_, poller) => { s with poller := poller }
      | none => { s with asserts := false }

/-- Channels registered at the same time have distinct descriptors, a channel
is registered with some interest, removed when it has none, and not used
afterwards. -/
def Ready (s : PollTable C) : Action C → Prop
  | .update c events =>
      s.life c = .registered ∨
        (s.life c = .fresh ∧ ¬ events.IsNone ∧
          ∀ d, s.life d = .registered →
            (s.poller.channel d).fd ≠ (s.poller.channel c).fd)
  | .remove c =>
      s.life c = .registered ∧ (s.poller.channel c).events.IsNone
  | .poll _ => True

/-- The table of a poller whose channels have the given lives. -/
structure Bijective (p : Poller C) (life : C → ChannelLife) : Prop where
  size : p.pollfds.length = p.channels.size
  fresh : ∀ c, life c = .fresh → (p.channel c).index = -1
  mapped : ∀ (k : ℤ) c, p.channels[k]? = some c ↔
    life c = .registered ∧ k = (p.channel c).fd
  entry : ∀ c, life c = .registered →
    ∃ (i : ℕ) (pfd : PollFd), (p.channel c).index = i ∧
      p.pollfds[i]? = some pfd ∧ pfd.IsFor (p.channel c)
  owner : ∀ i, i < p.pollfds.length →
    ∃ c, life c = .registered ∧ (p.channel c).index = i

variable {p : Poller C} {life : C → ChannelLife} {c d : C}

omit [DecidableEq C] in
theorem channelFd_of_isFor {pfd : PollFd} {ch : PollChannel}
    (h : pfd.IsFor ch) : Poller.channelFd pfd.fd = ch.fd := by
  unfold Poller.channelFd
  rcases h.fd with hfd | hfd
  · rw [hfd, if_neg (by omega)]
  · rw [hfd, Poller.negated, if_pos (by omega)]
    omega

omit [DecidableEq C] in
/-- The descriptor of an entry determines its channel. -/
theorem Bijective.eq_of_fd_eq (h : Bijective p life)
    (hc : life c = .registered) (hd : life d = .registered)
    (hfd : (p.channel c).fd = (p.channel d).fd) : c = d := by
  have hc' := (h.mapped (p.channel c).fd c).mpr ⟨hc, rfl⟩
  have hd' := (h.mapped (p.channel d).fd d).mpr ⟨hd, rfl⟩
  rw [hfd, hd'] at hc'
  exact (Option.some.inj hc').symm

omit [DecidableEq C] in
/-- The index of a channel determines it. -/
theorem Bijective.eq_of_index_eq (h : Bijective p life)
    (hc : life c = .registered) (hd : life d = .registered)
    (hindex : (p.channel c).index = (p.channel d).index) : c = d := by
  obtain ⟨i, pfd, hi, hpfd, hfor⟩ := h.entry c hc
  obtain ⟨j, pfd', hj, hpfd', hfor'⟩ := h.entry d hd
  have hij : i = j := by omega
  subst hij
  obtain rfl : pfd = pfd' := Option.some.inj (hpfd.symm.trans hpfd')
  have hfd := (channelFd_of_isFor hfor).symm.trans (channelFd_of_isFor hfor')
  exact h.eq_of_fd_eq hc hd (by exact_mod_cast hfd)

/-! ## Registration -/

/-- The poller with the channel registered at the end of the table. -/
def registered (p : Poller C) (c : C) (events : Interest) : Poller C where
  channel := Function.update p.channel c
    { p.channel c with events := events, index := p.pollfds.length }
  pollfds := p.pollfds ++ [{ fd := (p.channel c).fd, events := events }]
  channels := p.channels.insert (p.channel c).fd c

omit [DecidableEq C] in
/-- A descriptor that no registered channel has is not in the map. -/
theorem Bijective.not_mem_channels (h : Bijective p life) {fd : ℕ}
    (hdistinct : ∀ d, life d = .registered → (p.channel d).fd ≠ fd) :
    (fd : ℤ) ∉ p.channels := by
  intro hmem
  obtain ⟨d, hd⟩ := Option.isSome_iff_exists.mp
    (Std.ExtTreeMap.mem_iff_isSome_getElem?.mp hmem)
  obtain ⟨hlife, hfd⟩ := (h.mapped _ d).mp hd
  exact hdistinct d hlife (by exact_mod_cast hfd.symm)

theorem Bijective.updateChannel_fresh (h : Bijective p life)
    (hc : life c = .fresh)
    (hdistinct : ∀ d, life d = .registered →
      (p.channel d).fd ≠ (p.channel c).fd) (events : Interest) :
    (p.setChannel c { p.channel c with events := events }).updateChannel c =
      some (registered p c events) := by
  have habsent := h.not_mem_channels hdistinct
  simp [Poller.updateChannel, Poller.setChannel, h.fresh c hc, habsent,
    registered]

theorem Bijective.mapped_register (h : Bijective p life)
    (hc : life c = .fresh)
    (hdistinct : ∀ d, life d = .registered →
      (p.channel d).fd ≠ (p.channel c).fd) (events : Interest) (k : ℤ)
    (d : C) :
    (registered p c events).channels[k]? = some d ↔
      Function.update life c .registered d = .registered ∧
        k = ((registered p c events).channel d).fd := by
  simp only [registered, Std.ExtTreeMap.getElem?_insert,
    Std.LawfulEqCmp.compare_eq_iff_eq]
  by_cases hdc : d = c
  · subst hdc
    by_cases hk : ((p.channel d).fd : ℤ) = k
    · simp [hk]
    · have hnot : p.channels[k]? ≠ some d := fun hd => by
        simpa [hc] using ((h.mapped k d).mp hd).1
      simp [hk, hnot, Ne.symm hk]
  · by_cases hk : ((p.channel c).fd : ℤ) = k
    · have hnot : ¬ (life d = .registered ∧ k = (p.channel d).fd) := by
        rintro ⟨hlife, hfd⟩
        exact hdistinct d hlife (by exact_mod_cast (hk.trans hfd).symm)
      simp [hk, hdc, Ne.symm hdc, hnot]
    · simp [hk, hdc, h.mapped]

theorem Bijective.entry_register (h : Bijective p life) {events : Interest}
    (hevents : ¬ events.IsNone)
    (hd : Function.update life c .registered d = .registered) :
    ∃ (i : ℕ) (pfd : PollFd), ((registered p c events).channel d).index = i ∧
      (registered p c events).pollfds[i]? = some pfd ∧
        pfd.IsFor ((registered p c events).channel d) := by
  by_cases hdc : d = c
  · subst hdc
    refine ⟨p.pollfds.length, _, by simp [registered],
      List.getElem?_concat_length, .inl ?_, ?_, ?_⟩
    · simp [registered]
    · simp [registered]
    · intro hnone
      exact absurd (by simpa [registered] using hnone) hevents
  · obtain ⟨i, pfd, hi, hpfd, hfor⟩ := h.entry d (by simpa [hdc] using hd)
    have hlt : i < p.pollfds.length := (List.getElem?_eq_some_iff.mp hpfd).1
    refine ⟨i, pfd, by simpa [registered, hdc] using hi, ?_,
      by simpa [registered, hdc] using hfor⟩
    simp only [registered]
    rw [List.getElem?_append_left hlt]
    exact hpfd

theorem Bijective.register (h : Bijective p life) (hc : life c = .fresh)
    (hdistinct : ∀ d, life d = .registered →
      (p.channel d).fd ≠ (p.channel c).fd)
    {events : Interest} (hevents : ¬ events.IsNone) :
    Bijective (registered p c events)
      (Function.update life c .registered) := by
  have hother : ∀ d, life d = .registered → d ≠ c := by
    rintro d hd rfl
    simp [hc] at hd
  have habsent := h.not_mem_channels hdistinct
  refine ⟨?_, ?_, h.mapped_register hc hdistinct events,
    fun d => h.entry_register hevents, ?_⟩
  · simp [registered, Std.ExtTreeMap.size_insert, habsent, h.size]
  · intro d hd
    have hdc : d ≠ c := by
      rintro rfl
      simp at hd
    simpa [registered, hdc] using h.fresh d (by simpa [hdc] using hd)
  · intro i hi
    simp only [registered, List.length_append, List.length_singleton] at hi
    by_cases hlast : i = p.pollfds.length
    · exact ⟨c, by simp, by simp [registered, hlast]⟩
    · obtain ⟨d, hd, hindex⟩ := h.owner i (by omega)
      exact ⟨d, by simp [hother d hd, hd],
        by simpa [registered, hother d hd] using hindex⟩

/-! ## Updates -/

/-- The poller with the new interest of a channel in entry `i`. -/
def updated (p : Poller C) (c : C) (events : Interest) (i : ℕ)
    (pfd : PollFd) : Poller C :=
  { p with
    channel := Function.update p.channel c { p.channel c with events := events }
    pollfds := p.pollfds.set i
      { fd :=
          if events.IsNone then Poller.negated (p.channel c).fd else pfd.fd
        events := events } }

theorem Bijective.updateChannel_registered (h : Bijective p life)
    (hc : life c = .registered) (events : Interest) {i : ℕ} {pfd : PollFd}
    (hindex : (p.channel c).index = i) (hpfd : p.pollfds[i]? = some pfd)
    (hfor : pfd.IsFor (p.channel c)) :
    (p.setChannel c { p.channel c with events := events }).updateChannel c =
      some (updated p c events i pfd) := by
  have hmapped := (h.mapped (p.channel c).fd c).mpr ⟨hc, rfl⟩
  have hpos : ¬ (i : ℤ) < 0 := by omega
  simp [Poller.updateChannel, Poller.setChannel, hindex, hpos, hmapped, hpfd,
    hfor.fd, updated]

theorem Bijective.update (h : Bijective p life) (hc : life c = .registered)
    (events : Interest) {i : ℕ} {pfd : PollFd}
    (hindex : (p.channel c).index = i) (hpfd : p.pollfds[i]? = some pfd)
    (hfor : pfd.IsFor (p.channel c)) :
    Bijective (updated p c events i pfd) life := by
  have hlt := (List.getElem?_eq_some_iff.mp hpfd).1
  have hsame : ∀ d, ((updated p c events i pfd).channel d).fd =
      (p.channel d).fd ∧ ((updated p c events i pfd).channel d).index =
        (p.channel d).index := by
    intro d
    by_cases hdc : d = c
    · subst hdc
      simp [updated]
    · simp [updated, hdc]
  refine ⟨?_, ?_, ?_, ?_, ?_⟩
  · simpa [updated] using h.size
  · intro d hd
    rw [(hsame d).2]
    exact h.fresh d hd
  · intro k d
    rw [(hsame d).1]
    exact h.mapped k d
  · intro d hd
    by_cases hdc : d = c
    · subst hdc
      refine ⟨i, _, by rw [(hsame d).2, hindex],
        List.getElem?_set_self hlt, ?_⟩
      have hch : (updated p d events i pfd).channel d =
          { p.channel d with events := events } := by
        simp [updated]
      rw [hch]
      by_cases hnone : events.IsNone
      · exact ⟨by simp [hnone], rfl, fun _ => by simp [hnone]⟩
      · exact ⟨by simpa [hnone] using hfor.fd, rfl,
          fun habs => absurd habs hnone⟩
    · obtain ⟨j, pfd', hj, hpfd', hfor'⟩ := h.entry d hd
      have hij : i ≠ j := by
        rintro rfl
        exact hdc (h.eq_of_index_eq hd hc (hj.trans hindex.symm))
      refine ⟨j, pfd', by rw [(hsame d).2, hj], ?_,
        by simpa [updated, hdc] using hfor'⟩
      simp only [updated]
      rw [List.getElem?_set_ne hij]
      exact hpfd'
  · intro j hj
    obtain ⟨d, hd, hindex'⟩ := h.owner j (by simpa [updated] using hj)
    exact ⟨d, hd, (hsame d).2.trans hindex'⟩

/-! ## Removal -/

/-- The poller without channel `c` in entry `i`, where the channel `last` of
the last entry now has its entry. -/
def removed (p : Poller C) (c last : C) (i : ℕ) : Poller C where
  channel := Function.update p.channel last { p.channel last with index := i }
  pollfds := swapRemove p.pollfds i
  channels := p.channels.erase (p.channel c).fd

/-- The channel of the last entry is found through its descriptor, negated or
not, whether it is the removed one or another. -/
theorem Bijective.removeChannel (h : Bijective p life)
    (hc : life c = .registered) (hnone : (p.channel c).events.IsNone)
    {i : ℕ} (hindex : (p.channel c).index = i) (hi : i < p.pollfds.length) :
    ∃ last, life last = .registered ∧
      (p.channel last).index = (p.pollfds.length - 1 : ℕ) ∧
        p.removeChannel c = some (removed p c last i) := by
  obtain ⟨i', pfd, hi', hpfd, hfor⟩ := h.entry c hc
  obtain rfl : i' = i := by omega
  obtain ⟨last, hlast, hlastIndex⟩ := h.owner (p.pollfds.length - 1) (by omega)
  refine ⟨last, hlast, hlastIndex, ?_⟩
  obtain ⟨j, back, hj, hback, hbackFor⟩ := h.entry last hlast
  obtain rfl : j = p.pollfds.length - 1 := by omega
  have hmapped := (h.mapped (p.channel c).fd c).mpr ⟨hc, rfl⟩
  have hgetLast : p.pollfds.getLast? = some back := by
    rw [List.getLast?_eq_getElem?, hback]
  have hne : p.pollfds ≠ [] := List.ne_nil_of_length_pos (by omega)
  have hfd := hfor.none hnone
  by_cases hend : i' = p.pollfds.length - 1
  · have hsame : c = last := by
      apply h.eq_of_index_eq hc hlast
      rw [hindex, hend, hlastIndex]
    subst hsame
    have hchannel : { p.channel c with index := (i' : ℤ) } = p.channel c := by
      rw [← hindex]
    have hpop : swapRemove p.pollfds i' = p.pollfds.dropLast := by
      rw [hend, swapRemove_last hne]
    simp [Poller.removeChannel, hmapped, hnone, hindex, hpfd, hgetLast, hfd,
      hfor.events, removed, hchannel, hpop, ← hend]
  · have hother : last ≠ c := by
      rintro rfl
      omega
    have hfdNe : ((p.channel c).fd : ℤ) ≠ (p.channel last).fd := by
      intro heq
      exact hother (h.eq_of_fd_eq hlast hc (by exact_mod_cast heq.symm))
    have hfound : (p.channels.erase ((p.channel c).fd : ℤ))[
        Poller.channelFd back.fd]? = some last := by
      rw [channelFd_of_isFor hbackFor, Std.ExtTreeMap.getElem?_erase]
      simp only [Std.LawfulEqCmp.compare_eq_iff_eq, hfdNe, if_false]
      exact (h.mapped _ last).mpr ⟨hlast, rfl⟩
    have hswap : ((p.pollfds.set i' back).set (p.pollfds.length - 1)
        pfd).dropLast = swapRemove p.pollfds i' := by
      have hdrop := dropLast_set_last (p.pollfds.set i' back) pfd
      rw [List.length_set] at hdrop
      rw [hdrop, swapRemove_of_getLast? hgetLast]
    simp [Poller.removeChannel, hmapped, hnone, hindex, hpfd, hgetLast, hfd,
      hfor.events, hend, hfound, hswap, removed, Poller.setChannel]

theorem fd_removed (p : Poller C) (c last : C) (i : ℕ)
    (d : C) : ((removed p c last i).channel d).fd = (p.channel d).fd := by
  by_cases hd : d = last
  · subst hd
    simp [removed]
  · simp [removed, hd]

theorem Bijective.mapped_remove (h : Bijective p life)
    (hc : life c = .registered) (last : C) (i : ℕ) (k : ℤ) (d : C) :
    (removed p c last i).channels[k]? = some d ↔
      Function.update life c .removed d = .registered ∧
        k = ((removed p c last i).channel d).fd := by
  rw [fd_removed]
  simp only [removed, Std.ExtTreeMap.getElem?_erase,
    Std.LawfulEqCmp.compare_eq_iff_eq]
  by_cases hdc : d = c
  · subst hdc
    have hnot : ¬ ((p.channel d).fd : ℤ) = k → p.channels[k]? ≠ some d :=
      fun hk hd => hk ((h.mapped k d).mp hd).2.symm
    by_cases hk : ((p.channel d).fd : ℤ) = k
    · simp [hk]
    · simp [hk, hnot hk]
  · by_cases hk : ((p.channel c).fd : ℤ) = k
    · have hnot : ¬ (life d = .registered ∧ k = (p.channel d).fd) := by
        rintro ⟨hlife, hfd⟩
        exact hdc (h.eq_of_fd_eq hlife hc
          (by exact_mod_cast (hk.trans hfd).symm))
      simp [hk, hdc, hnot]
    · simp [hk, hdc, h.mapped]

/-- The channel of the last entry moves into the hole, the others stay. -/
theorem Bijective.entry_remove (h : Bijective p life)
    (hc : life c = .registered) {i : ℕ} (hindex : (p.channel c).index = i)
    (hi : i < p.pollfds.length) {last : C} (hlast : life last = .registered)
    (hlastIndex : (p.channel last).index = (p.pollfds.length - 1 : ℕ))
    (hdc : d ≠ c) (hreg : life d = .registered) :
    ∃ (j : ℕ) (pfd : PollFd), ((removed p c last i).channel d).index = j ∧
      (removed p c last i).pollfds[j]? = some pfd ∧
        pfd.IsFor ((removed p c last i).channel d) := by
  obtain ⟨back, hback⟩ : ∃ back, p.pollfds.getLast? = some back :=
    Option.isSome_iff_exists.mp (by simp; rintro hnil; simp [hnil] at hi)
  obtain ⟨j, pfd, hj, hpfd, hfor⟩ := h.entry d hreg
  have hjlt := (List.getElem?_eq_some_iff.mp hpfd).1
  have hij : j ≠ i := by
    rintro rfl
    exact hdc (h.eq_of_index_eq hreg hc (hj.trans hindex.symm))
  by_cases hdl : d = last
  · subst hdl
    have hjlast : j = p.pollfds.length - 1 := by omega
    have hmoved : pfd = back := by
      rw [List.getLast?_eq_getElem?, ← hjlast, hpfd] at hback
      exact Option.some.inj hback
    refine ⟨i, back, by simp [removed], ?_, ?_⟩
    · simp only [removed]
      rw [getElem?_swapRemove hback hi (by omega), if_pos rfl]
    · rw [← hmoved]
      simpa [removed] using ⟨hfor.fd, hfor.events, hfor.none⟩
  · have hjl : j ≠ p.pollfds.length - 1 := by
      intro heq
      apply hdl
      apply h.eq_of_index_eq hreg hlast
      rw [hj, hlastIndex, heq]
    refine ⟨j, pfd, by simpa [removed, hdl] using hj, ?_,
      by simpa [removed, hdl] using hfor⟩
    simp only [removed]
    rw [getElem?_swapRemove hback hi (by omega), if_neg hij]
    exact hpfd

theorem Bijective.owner_remove (h : Bijective p life) {i : ℕ}
    (hindex : (p.channel c).index = i) {last : C}
    (hlast : life last = .registered)
    (hlastIndex : (p.channel last).index = (p.pollfds.length - 1 : ℕ))
    {j : ℕ} (hj : j < p.pollfds.length - 1) :
    ∃ d, Function.update life c .removed d = .registered ∧
      ((removed p c last i).channel d).index = j := by
  by_cases hij : j = i
  · subst hij
    have hlc : last ≠ c := by
      rintro rfl
      omega
    exact ⟨last, by simp [hlc, hlast], by simp [removed]⟩
  · obtain ⟨d, hd, hindex'⟩ := h.owner j (by omega)
    have hdc : d ≠ c := by
      rintro rfl
      omega
    have hdl : d ≠ last := by
      rintro rfl
      omega
    exact ⟨d, by simp [hdc, hd], by simpa [removed, hdl] using hindex'⟩

theorem Bijective.remove (h : Bijective p life) (hc : life c = .registered)
    {i : ℕ} (hindex : (p.channel c).index = i) (hi : i < p.pollfds.length)
    {last : C} (hlast : life last = .registered)
    (hlastIndex : (p.channel last).index = (p.pollfds.length - 1 : ℕ)) :
    Bijective (removed p c last i) (Function.update life c .removed) := by
  have hmem : ((p.channel c).fd : ℤ) ∈ p.channels := by
    rw [Std.ExtTreeMap.mem_iff_isSome_getElem?,
      (h.mapped _ c).mpr ⟨hc, rfl⟩]
    rfl
  refine ⟨?_, ?_, h.mapped_remove hc last i, ?_, ?_⟩
  · simp [removed, Std.ExtTreeMap.size_erase, hmem, h.size]
  · intro d hd
    have hdc : d ≠ c := by
      rintro rfl
      simp at hd
    have hfresh : life d = .fresh := by simpa [hdc] using hd
    have hdl : d ≠ last := by
      rintro rfl
      simp [hlast] at hfresh
    simpa [removed, hdl] using h.fresh d hfresh
  · intro d hd
    have hdc : d ≠ c := by
      rintro rfl
      simp at hd
    exact h.entry_remove hc hindex hi hlast hlastIndex hdc
      (by simpa [hdc] using hd)
  · intro j hj
    simp only [removed, length_swapRemove] at hj
    exact h.owner_remove hindex hlast hlastIndex hj

end PollTable

end MuduoHttp
