import MuduoHttp.Net.PollTable

/-!
# The active channels

`fillActiveChannels` looks the descriptor of every ready entry up in the map.
On a table that is a bijection it finds the channel whose own entry is ready.
-/

namespace MuduoHttp

open Support

namespace Poller

variable {C : Type*} [DecidableEq C]

/-- The entry at the index of a channel. -/
def pollFd? (p : Poller C) (c : C) : Option PollFd :=
  p.pollfds[(p.channel c).index.toNat]?

/-- The channel of a ready entry. -/
def readyChannel? (p : Poller C) (pfd : PollFd) : Option C :=
  if 0 < pfd.revents then p.channels[pfd.fd]? else none

/-- The poller with the events of an entry noted in its channel. -/
def note (p : Poller C) (pfd : PollFd) : Poller C :=
  match p.readyChannel? pfd with
  | some c => p.setChannel c { p.channel c with revents := pfd.revents }
  | none => p

/-- Every ready entry has a channel with its descriptor. -/
def Resolves (p : Poller C) (table : List PollFd) : Prop :=
  ∀ pfd ∈ table, 0 < pfd.revents →
    ∃ c, p.channels[pfd.fd]? = some c ∧ ((p.channel c).fd : ℤ) = pfd.fd

/-- The two pollers differ in reported events only. -/
structure SameTable (p p' : Poller C) : Prop where
  channels : p'.channels = p.channels
  fd : ∀ c, (p'.channel c).fd = (p.channel c).fd
  events : ∀ c, (p'.channel c).events = (p.channel c).events
  index : ∀ c, (p'.channel c).index = (p.channel c).index
  length : p'.pollfds.length = p.pollfds.length
  entry : ∀ (i : ℕ) pfd, p.pollfds[i]? = some pfd →
    ∃ pfd', p'.pollfds[i]? = some pfd' ∧ pfd'.fd = pfd.fd ∧
      pfd'.events = pfd.events

variable {p p' p'' : Poller C}

omit [DecidableEq C] in
theorem SameTable.refl (p : Poller C) : SameTable p p where
  channels := rfl
  fd _ := rfl
  events _ := rfl
  index _ := rfl
  length := rfl
  entry _ pfd h := ⟨pfd, h, rfl, rfl⟩

omit [DecidableEq C] in
theorem SameTable.trans (h : SameTable p p') (h' : SameTable p' p'') :
    SameTable p p'' where
  channels := h'.channels.trans h.channels
  fd c := (h'.fd c).trans (h.fd c)
  events c := (h'.events c).trans (h.events c)
  index c := (h'.index c).trans (h.index c)
  length := h'.length.trans h.length
  entry i pfd hpfd := by
    obtain ⟨pfd', hpfd', hfd, hevents⟩ := h.entry i pfd hpfd
    obtain ⟨pfd'', hpfd'', hfd', hevents'⟩ := h'.entry i pfd' hpfd'
    exact ⟨pfd'', hpfd'', hfd'.trans hfd, hevents'.trans hevents⟩

omit [DecidableEq C] in
theorem sameTable_polled (p : Poller C) (report : ℕ → ℕ) :
    SameTable p (p.polled report) where
  channels := rfl
  fd _ := rfl
  events _ := rfl
  index _ := rfl
  length := by simp [polled]
  entry i pfd h := by
    refine ⟨{ pfd with revents := if pfd.fd < 0 then 0 else report i }, ?_,
      rfl, rfl⟩
    simp [polled, h]

theorem sameTable_setRevents (p : Poller C) (c : C) (revents : ℕ) :
    SameTable p
      (p.setChannel c { p.channel c with revents := revents }) := by
  have hchannel : ∀ d, (Function.update p.channel c
      { p.channel c with revents := revents } d).fd = (p.channel d).fd ∧
      (Function.update p.channel c
        { p.channel c with revents := revents } d).events =
          (p.channel d).events ∧
      (Function.update p.channel c
        { p.channel c with revents := revents } d).index =
          (p.channel d).index := by
    intro d
    by_cases hd : d = c
    · subst hd
      simp
    · simp [hd]
  exact ⟨rfl, fun d => (hchannel d).1, fun d => (hchannel d).2.1,
    fun d => (hchannel d).2.2, rfl, fun i pfd h => ⟨pfd, h, rfl, rfl⟩⟩

theorem sameTable_note (p : Poller C) (pfd : PollFd) :
    SameTable p (p.note pfd) := by
  unfold note
  split
  · exact sameTable_setRevents p _ _
  · exact .refl p

theorem sameTable_foldl_note (p : Poller C) (table : List PollFd) :
    SameTable p (table.foldl note p) := by
  induction table generalizing p with
  | nil => exact .refl p
  | cons pfd rest ih => exact (sameTable_note p pfd).trans (ih (p.note pfd))

omit [DecidableEq C] in
theorem SameTable.readyChannel?_eq (h : SameTable p p') :
    p'.readyChannel? = p.readyChannel? := by
  funext pfd
  simp only [readyChannel?, h.channels]

omit [DecidableEq C] in
theorem Resolves.of_sameTable {table : List PollFd} (hr : p.Resolves table)
    (h : SameTable p p') : p'.Resolves table := by
  intro pfd hmem hpos
  obtain ⟨c, hc, hfd⟩ := hr pfd hmem hpos
  exact ⟨c, by rw [h.channels, hc], by rw [h.fd, hfd]⟩

@[simp] theorem fillActive_zero (p : Poller C) (table : List PollFd) :
    p.fillActive table 0 = some ([], p) := by
  cases table <;> rfl

/-- The loop finds the channels of the ready entries, one after the other. -/
theorem fillActive_eq {table : List PollFd} (hr : p.Resolves table) :
    p.fillActive table (table.countP fun pfd => 0 < pfd.revents) =
      some (table.filterMap p.readyChannel?, table.foldl note p) := by
  induction table generalizing p with
  | nil => simp [fillActive]
  | cons pfd rest ih =>
      have hrest : p.Resolves rest := fun e he => hr e (.tail _ he)
      by_cases hpos : 0 < pfd.revents
      · obtain ⟨c, hc, hfd⟩ := hr pfd (.head _) hpos
        have hready : p.readyChannel? pfd = some c := by
          rw [readyChannel?, if_pos hpos, hc]
        have hnote : p.note pfd =
            p.setChannel c { p.channel c with revents := pfd.revents } := by
          simp only [note, hready]
        have hsame := sameTable_note p pfd
        have hloop := ih (hrest.of_sameTable hsame)
        rw [hsame.readyChannel?_eq, hnote] at hloop
        simp [fillActive, hpos, hc, hfd, hloop, hready, hnote]
      · have hready : p.readyChannel? pfd = none := by
          rw [readyChannel?, if_neg hpos]
        have hnote : p.note pfd = p := by simp only [note, hready]
        have hcount : (pfd :: rest).countP (fun e => 0 < e.revents) =
            rest.countP fun e => 0 < e.revents := by
          simp [hpos]
        rw [hcount, List.filterMap_cons_none hready, List.foldl_cons, hnote,
          ← ih hrest]
        cases rest.countP fun e => 0 < e.revents with
        | zero => exact (fillActive_zero p rest).symm
        | succ n => simp [fillActive, hpos]

/-- The events noted in a channel are those of its entry. -/
theorem revents_foldl_note {table : List PollFd} {c : C} {revents : ℕ}
    (hall : ∀ pfd ∈ table, p.readyChannel? pfd = some c →
      pfd.revents = revents)
    (hsome : (p.channel c).revents = revents ∨
      ∃ pfd ∈ table, p.readyChannel? pfd = some c) :
    ((table.foldl note p).channel c).revents = revents := by
  induction table generalizing p with
  | nil => simpa using hsome
  | cons pfd rest ih =>
      have hsame := (sameTable_note p pfd).readyChannel?_eq
      apply ih
      · intro e he
        rw [hsame]
        exact hall e (.tail _ he)
      · rw [hsame]
        by_cases hready : p.readyChannel? pfd = some c
        · left
          simp [note, hready, setChannel, hall pfd (.head _) hready]
        · have hkeep : (p.note pfd).channel c = p.channel c := by
            unfold note
            split
            next d hd =>
              have hne : c ≠ d := by
                rintro rfl
                exact hready hd
              simp [setChannel, hne]
            · rfl
          rw [hkeep]
          rcases hsome with hnoted | ⟨e, he, hfound⟩
          · exact .inl hnoted
          · rcases List.mem_cons.mp he with rfl | hrest
            · exact absurd hfound hready
            · exact .inr ⟨e, hrest, hfound⟩

end Poller

namespace PollTable

open Poller

variable {C : Type*} [DecidableEq C] {p p' : Poller C}
  {life : C → ChannelLife} {c : C}

omit [DecidableEq C] in
theorem Bijective.of_sameTable (h : Bijective p life)
    (hsame : SameTable p p') : Bijective p' life where
  size := by rw [hsame.length, hsame.channels, h.size]
  fresh c hc := (hsame.index c).trans (h.fresh c hc)
  mapped k c := by rw [hsame.channels, hsame.fd, h.mapped]
  entry c hc := by
    obtain ⟨i, pfd, hi, hpfd, hfor⟩ := h.entry c hc
    obtain ⟨pfd', hpfd', hfd, hevents⟩ := hsame.entry i pfd hpfd
    refine ⟨i, pfd', (hsame.index c).trans hi, hpfd', ?_, ?_, ?_⟩
    · rw [hfd, hsame.fd]
      exact hfor.fd
    · rw [hevents, hsame.events]
      exact hfor.events
    · rw [hfd, hsame.fd, hsame.events]
      exact hfor.none
  owner i hi := by
    obtain ⟨c, hc, hindex⟩ := h.owner i (by rwa [hsame.length] at hi)
    exact ⟨c, hc, (hsame.index c).trans hindex⟩

omit [DecidableEq C] in
/-- The entry of a registered channel. -/
theorem Bijective.pollFd? (h : Bijective p life) (hc : life c = .registered) :
    ∃ pfd, p.pollFd? c = some pfd ∧ pfd.IsFor (p.channel c) := by
  obtain ⟨i, pfd, hi, hpfd, hfor⟩ := h.entry c hc
  refine ⟨pfd, ?_, hfor⟩
  rw [Poller.pollFd?, hi]
  exact hpfd

omit [DecidableEq C] in
/-- The entry in a place of the table belongs to its channel. -/
theorem Bijective.owner_isFor (h : Bijective p life) {i : ℕ} {pfd : PollFd}
    (hpfd : p.pollfds[i]? = some pfd) :
    ∃ c, life c = .registered ∧ (p.channel c).index = i ∧
      pfd.IsFor (p.channel c) := by
  obtain ⟨c, hc, hindex⟩ := h.owner i (List.getElem?_eq_some_iff.mp hpfd).1
  obtain ⟨pfd', hentry, hfor⟩ := h.pollFd? hc
  rw [Poller.pollFd?, hindex, Int.toNat_natCast, hpfd] at hentry
  obtain rfl := Option.some.inj hentry
  exact ⟨c, hc, hindex, hfor⟩

omit [DecidableEq C] in
/-- The map leads from a ready entry to the channel whose entry it is. -/
theorem Bijective.readyChannel?_iff (h : Bijective p life) {i : ℕ}
    {pfd : PollFd} (hpfd : p.pollfds[i]? = some pfd)
    (hignored : pfd.fd < 0 → pfd.revents = 0) :
    p.readyChannel? pfd = some c ↔
      life c = .registered ∧ (p.channel c).index = i ∧ 0 < pfd.revents := by
  obtain ⟨d, hd, hindex, hfor⟩ := h.owner_isFor hpfd
  unfold Poller.readyChannel?
  split
  next hpos =>
    have hfd : pfd.fd = (p.channel d).fd := by
      rcases hfor.fd with hfd | hfd
      · exact hfd
      · have := hignored (by rw [hfd, negated]; omega)
        omega
    rw [hfd, (h.mapped _ d).mpr ⟨hd, rfl⟩]
    constructor
    · rintro hdc
      obtain rfl := Option.some.inj hdc
      exact ⟨hd, hindex, hpos⟩
    · rintro ⟨hc, hindex', -⟩
      rw [h.eq_of_index_eq hc hd (hindex'.trans hindex.symm)]
  next hzero => simp [hzero]

/-- Every ready entry is reported once, as its own channel with its events. -/
structure Reports (p : Poller C) (life : C → ChannelLife) (active : List C)
    (p' : Poller C) : Prop where
  nodup : active.Nodup
  mem : ∀ c, c ∈ active ↔ life c = .registered ∧
    ∃ pfd, p.pollFd? c = some pfd ∧ 0 < pfd.revents
  revents : ∀ c ∈ active, ∀ pfd, p.pollFd? c = some pfd →
    (p'.channel c).revents = pfd.revents

theorem Bijective.reports (h : Bijective p life)
    (hignored : ∀ pfd ∈ p.pollfds, pfd.fd < 0 → pfd.revents = 0) :
    Reports p life (p.pollfds.filterMap p.readyChannel?)
      (p.pollfds.foldl note p) := by
  have hready : ∀ {i : ℕ} {pfd : PollFd} {c : C},
      p.pollfds[i]? = some pfd → (p.readyChannel? pfd = some c ↔
        life c = .registered ∧ (p.channel c).index = i ∧ 0 < pfd.revents) :=
    fun hpfd => h.readyChannel?_iff hpfd
      (hignored _ (List.mem_of_getElem? hpfd))
  have hmem : ∀ c, c ∈ p.pollfds.filterMap p.readyChannel? ↔
      life c = .registered ∧
        ∃ pfd, p.pollFd? c = some pfd ∧ 0 < pfd.revents := by
    intro c
    rw [List.mem_filterMap]
    constructor
    · rintro ⟨pfd, hin, hfound⟩
      obtain ⟨i, hpfd⟩ := List.mem_iff_getElem?.mp hin
      obtain ⟨hc, hindex, hpos⟩ := (hready hpfd).mp hfound
      refine ⟨hc, pfd, ?_, hpos⟩
      rw [Poller.pollFd?, hindex]
      exact hpfd
    · rintro ⟨hc, pfd, hentry, hpos⟩
      obtain ⟨i, -, hindex, -⟩ := h.entry c hc
      rw [Poller.pollFd?, hindex, Int.toNat_natCast] at hentry
      exact ⟨pfd, List.mem_of_getElem? hentry,
        (hready hentry).mpr ⟨hc, hindex, hpos⟩⟩
  refine ⟨?_, hmem, ?_⟩
  · -- Two entries that lead to one channel stand in the same place.
    rw [List.Nodup, List.pairwise_filterMap, List.pairwise_iff_getElem]
    rintro i j hi hj hij c hc d hd rfl
    have hci := ((hready (List.getElem?_eq_getElem hi)).mp hc).2.1
    have hcj := ((hready (List.getElem?_eq_getElem hj)).mp hd).2.1
    omega
  · intro c hc pfd hentry
    apply revents_foldl_note
    · intro e he hfound
      obtain ⟨i, hi⟩ := List.mem_iff_getElem?.mp he
      have hindex := ((hready hi).mp hfound).2.1
      rw [Poller.pollFd?, hindex, Int.toNat_natCast, hi] at hentry
      rw [Option.some.inj hentry]
    · exact .inr (List.mem_filterMap.mp hc)

omit [DecidableEq C] in
theorem Bijective.resolves (h : Bijective p life)
    (hignored : ∀ pfd ∈ p.pollfds, pfd.fd < 0 → pfd.revents = 0) :
    p.Resolves p.pollfds := by
  intro pfd hmem hpos
  obtain ⟨i, hpfd⟩ := List.mem_iff_getElem?.mp hmem
  obtain ⟨c, hc, hindex, -⟩ := h.owner_isFor hpfd
  have hfound := (h.readyChannel?_iff hpfd (hignored pfd hmem)).mpr
    ⟨hc, hindex, hpos⟩
  rw [Poller.readyChannel?, if_pos hpos] at hfound
  exact ⟨c, hfound, ((h.mapped _ c).mp hfound).2.symm⟩

omit [DecidableEq C] in
theorem ignored_polled (p : Poller C) (report : ℕ → ℕ) :
    ∀ pfd ∈ (p.polled report).pollfds, pfd.fd < 0 → pfd.revents = 0 := by
  intro pfd hmem hneg
  obtain ⟨i, hi⟩ := List.mem_iff_getElem?.mp hmem
  simp only [polled, List.getElem?_mapIdx, Option.map_eq_some_iff] at hi
  obtain ⟨e, -, rfl⟩ := hi
  exact if_pos hneg

/-- `fillActiveChannels` with the number of ready entries. -/
theorem Bijective.fillActiveChannels (h : Bijective p life)
    (report : ℕ → ℕ) :
    ∃ active p',
      (p.polled report).fillActiveChannels (p.polled report).numEvents =
          some (active, p') ∧
        Reports (p.polled report) life active p' ∧ SameTable p p' := by
  have hsame := sameTable_polled p report
  have hpolled := h.of_sameTable hsame
  have hignored := ignored_polled p report
  exact ⟨_, _, fillActive_eq (hpolled.resolves hignored),
    hpolled.reports hignored, hsame.trans (sameTable_foldl_note _ _)⟩

theorem Bijective.poll (h : Bijective p life) (report : ℕ → ℕ) :
    ∃ active p', p.poll report = some (active, p') ∧ SameTable p p' := by
  unfold Poller.poll
  dsimp only
  split
  · obtain ⟨active, p', hfill, -, hsame⟩ := h.fillActiveChannels report
    exact ⟨active, p', hfill, hsame⟩
  · exact ⟨[], _, rfl, sameTable_polled p report⟩

/-! ## Runs -/

/-- All asserts held, and the table is a bijection. -/
def Sound (s : PollTable C) : Prop :=
  s.asserts = true ∧ Bijective s.poller s.life

theorem Sound.step {s : PollTable C} (h : s.Sound) {a : Action C}
    (hready : s.Ready a) : (s.step a).Sound := by
  obtain ⟨hasserts, h⟩ := h
  cases a with
  | update c events =>
      rcases hready with hc | ⟨hc, hevents, hdistinct⟩
      · obtain ⟨i, pfd, hindex, hpfd, hfor⟩ := h.entry c hc
        have hupdate := h.updateChannel_registered hc events hindex hpfd hfor
        have hlife : Function.update s.life c .registered = s.life := by
          rw [← hc, Function.update_eq_self]
        simp only [PollTable.step, hupdate, Sound, hlife]
        exact ⟨hasserts, h.update hc events hindex hpfd hfor⟩
      · have hupdate := h.updateChannel_fresh hc hdistinct events
        simp only [PollTable.step, hupdate]
        exact ⟨hasserts, h.register hc hdistinct hevents⟩
  | remove c =>
      obtain ⟨hc, hnone⟩ := hready
      obtain ⟨i, pfd, hindex, hpfd, -⟩ := h.entry c hc
      have hi := (List.getElem?_eq_some_iff.mp hpfd).1
      obtain ⟨last, hlast, hlastIndex, hremove⟩ :=
        h.removeChannel hc hnone hindex hi
      simp only [PollTable.step, hremove]
      exact ⟨hasserts, h.remove hc hindex hi hlast hlastIndex⟩
  | poll report =>
      obtain ⟨active, p', hpoll, hsame⟩ := h.poll report
      simp only [PollTable.step, hpoll]
      exact ⟨hasserts, h.of_sameTable hsame⟩

/-- An empty poller, and channels with the given descriptors. -/
def fresh (fds : C → ℕ) : PollTable C where
  poller := { channel := fun c => { fd := fds c } }

omit [DecidableEq C] in
theorem sound_fresh (fds : C → ℕ) : (fresh fds).Sound := by
  refine ⟨rfl, ?_, fun _ _ => rfl, ?_, ?_, ?_⟩
  · simp [fresh]
  · simp [fresh]
  · simp [fresh]
  · simp [fresh]

end PollTable

/-- Over every sequence of registrations, updates, removals and polls, the
table and the registered channels correspond one to one, no assert fails, and
`fillActiveChannels` reports every ready entry once, as its own channel. -/
theorem pollTable_bijective {C : Type*} [DecidableEq C] (fds : C → ℕ)
    {actions : List (PollTable.Action C)}
    (hready : EveryStep PollTable.step PollTable.Ready (PollTable.fresh fds)
      actions) :
    let s := run PollTable.step (PollTable.fresh fds) actions
    s.asserts = true ∧ s.poller.pollfds.length = s.poller.channels.size ∧
      (∀ c, s.life c = .registered →
        ∃ i < s.poller.pollfds.length, (s.poller.channel c).index = i ∧
          s.poller.channels[((s.poller.channel c).fd : ℤ)]? = some c ∧
          ∃ pfd, s.poller.pollfds[i]? = some pfd ∧
            (pfd.fd = (s.poller.channel c).fd ∨
              pfd.fd = Poller.negated (s.poller.channel c).fd) ∧
            pfd.events = (s.poller.channel c).events) ∧
      (∀ i < s.poller.pollfds.length,
        ∃! c, s.life c = .registered ∧ (s.poller.channel c).index = i) ∧
      ∀ report, ∃ active p',
        (s.poller.polled report).fillActiveChannels
            (s.poller.polled report).numEvents = some (active, p') ∧
          PollTable.Reports (s.poller.polled report) s.life active p' := by
  obtain ⟨hasserts, h⟩ := run_invariant PollTable.Sound
    (fun s a hs ha => hs.step ha) (PollTable.sound_fresh fds) hready
  refine ⟨hasserts, h.size, ?_, ?_, ?_⟩
  · intro c hc
    obtain ⟨i, pfd, hindex, hpfd, hfor⟩ := h.entry c hc
    exact ⟨i, (List.getElem?_eq_some_iff.mp hpfd).1, hindex,
      (h.mapped _ c).mpr ⟨hc, rfl⟩, pfd, hpfd, hfor.fd, hfor.events⟩
  · intro i hi
    obtain ⟨c, hc, hindex⟩ := h.owner i hi
    refine ⟨c, ⟨hc, hindex⟩, ?_⟩
    rintro d ⟨hd, hindex'⟩
    exact h.eq_of_index_eq hd hc (hindex'.trans hindex.symm)
  · intro report
    obtain ⟨active, p', hfill, hreports, -⟩ := h.fillActiveChannels report
    exact ⟨active, p', hfill, hreports⟩

/-- Descriptors 0 and 1; the channel of descriptor 1 is in the last entry,
with its descriptor negated, when channel 0 is removed. -/
def removeDescriptorZero : List (PollTable.Action (Fin 2)) :=
  [.update 0 { reading := true }, .update 1 { writing := true },
    .update 1 {}, .update 0 {}, .poll fun _ => 1, .remove 0]

theorem pollTable_bijective_removeDescriptorZero :
    EveryStep PollTable.step PollTable.Ready
        (PollTable.fresh fun c : Fin 2 => c.val) removeDescriptorZero ∧
      (run PollTable.step (PollTable.fresh fun c : Fin 2 => c.val)
        removeDescriptorZero).asserts = true := by
  have hready : EveryStep PollTable.step PollTable.Ready
      (PollTable.fresh fun c : Fin 2 => c.val) removeDescriptorZero := by
    exact ⟨.inr ⟨rfl, by decide, by decide⟩, .inr ⟨rfl, by decide, by decide⟩,
      .inl (by decide), .inl (by decide), trivial, ⟨by decide, by decide⟩,
      trivial⟩
  exact ⟨hready, (pollTable_bijective _ hready).1⟩

end MuduoHttp
