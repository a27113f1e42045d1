import Mathlib.Data.Int.Notation
import MuduoHttp.Support.Ownership
import MuduoHttp.Support.Transition

/-!
# Sockets and their descriptors

A `Socket` closes its descriptor when it is destructed, and a moved-from
`Socket` holds -1.  Hence the Socket objects are the owners, and the openings
of descriptors the resources, of an ownership ledger.  All that a program can
do with the objects is one operation on the ledger each.

The move assignment overwrites the descriptor of its target without closing
it.  A descriptor is closed exactly once as long as only empty Sockets are
assigned to; a descriptor that was overwritten is never closed.
-/

namespace MuduoHttp

open Support

/-- The `sockfd_` of the Socket objects that exist, and the descriptors of the
process.  The system hands out the number of a closed descriptor again, so a
number stands for one opening after the other. -/
structure Sockets where
  sockfd_ : ℕ → Option ℤ := fun _ => none
  /-- The opening that an open descriptor stands for. -/
  descriptor : ℤ → Option ℕ := fun _ => none
  opened : ℕ := 0
  /-- How often each opening was closed. -/
  closed : ℕ → ℕ := fun _ => 0
  /-- The calls of `::close` that failed with `EBADF`. -/
  failedCloses : ℕ := 0

/-- What a program does with Socket objects. -/
inductive SocketAction
  /-- The system opens the descriptor, and a Socket is constructed from it. -/
  | construct (socket : ℕ) (sockfd : ℤ)
  | moveConstruct (socket source : ℕ)
  | moveAssign (target source : ℕ)
  | destroy (socket : ℕ)
  deriving DecidableEq, Repr

namespace Sockets

/-- `Socket::Socket(int)` on a descriptor that was just opened. -/
def construct (s : Sockets) (socket : ℕ) (sockfd : ℤ) : Sockets :=
  { s with
    sockfd_ := Function.update s.sockfd_ socket (some sockfd)
    descriptor := Function.update s.descriptor sockfd (some s.opened)
    opened := s.opened + 1 }

/-- The body that `Socket::Socket(Socket&&)` and `Socket::operator=` share:
`sockfd_` is assigned first, then that of the source is -1. -/
def takeFrom (s : Sockets) (socket source : ℕ) (sourcefd : ℤ) : Sockets :=
  { s with
    sockfd_ := Function.update
      (Function.update s.sockfd_ socket (some sourcefd)) source (some (-1)) }

/-- `Socket::Socket(Socket&&)`. -/
def moveConstruct (s : Sockets) (socket source : ℕ) : Sockets :=
  match s.sockfd_ socket, s.sockfd_ source with
  | none, some sourcefd => s.takeFrom socket source sourcefd
  | _, _ => s

/-- `Socket::operator=(Socket&&)`. -/
def moveAssign (s : Sockets) (target source : ℕ) : Sockets :=
  match s.sockfd_ target, s.sockfd_ source with
  | some _, some sourcefd => s.takeFrom target source sourcefd
  | _, _ => s

/-- `sockets::close`. -/
def close (s : Sockets) (sockfd : ℤ) : Sockets :=
  match s.descriptor sockfd with
  | some r =>
      { s with
        descriptor := Function.update s.descriptor sockfd none
        closed := fun x => s.closed x + if r = x then 1 else 0 }
  | none => { s with failedCloses := s.failedCloses + 1 }

/-- `Socket::~Socket`. -/
def destroy (s : Sockets) (socket : ℕ) : Sockets :=
  match s.sockfd_ socket with
  | some sockfd =>
      let s := if sockfd ≠ -1 then s.close sockfd else s
      { s with sockfd_ := Function.update s.sockfd_ socket none }
  | none => s

/-- A Socket is constructed once, and from a descriptor that was not open. -/
def step (s : Sockets) : SocketAction → Sockets
  | .construct socket sockfd =>
      if s.sockfd_ socket = none ∧ 0 ≤ sockfd ∧ s.descriptor sockfd = none then
        s.construct socket sockfd
      else s
  | .moveConstruct socket source => s.moveConstruct socket source
  | .moveAssign target source => s.moveAssign target source
  | .destroy socket => s.destroy socket

/-- Every descriptor is held by at most one Socket. -/
def OwnedOnce (s : Sockets) : Prop :=
  ∀ sockfd ≠ -1, ∀ i j,
    s.sockfd_ i = some sockfd → s.sockfd_ j = some sockfd → i = j

def AllDestroyed (s : Sockets) : Prop :=
  ∀ i, s.sockfd_ i = none

/-- Every descriptor that was opened was closed once, and no other was. -/
def ClosedOnce (s : Sockets) : Prop :=
  s.failedCloses = 0 ∧ ∀ r < s.opened, s.closed r = 1

/-- A Socket that is assigned to, from a Socket that exists, holds -1. -/
def TargetEmpty (s : Sockets) : SocketAction → Prop
  | .moveAssign target source =>
      ∀ sockfd, s.sockfd_ target = some sockfd → s.sockfd_ source ≠ none →
        sockfd = -1
  | _ => True

/-! ## The ledger of the openings -/

/-- Each Socket owns the opening that its descriptor stands for. -/
def ownership (s : Sockets) : Ownership ℕ where
  created := s.opened
  owned i := (s.sockfd_ i).bind s.descriptor
  released := s.closed

/-- The descriptor that a Socket holds is open, and -1 is not. -/
structure Designates (s : Sockets) : Prop where
  invalid : s.descriptor (-1) = none
  isOpen : ∀ i sockfd, s.sockfd_ i = some sockfd → sockfd ≠ -1 →
    s.descriptor sockfd ≠ none
  noFailure : s.failedCloses = 0

variable {s : Sockets}

theorem owned_eq {i : ℕ} {sockfd : ℤ} (h : s.sockfd_ i = some sockfd) :
    s.ownership.owned i = s.descriptor sockfd := by
  simp [ownership, h]

theorem Designates.owned_ne_none_iff (h : s.Designates) {i : ℕ} :
    s.ownership.owned i ≠ none ↔ ∃ sockfd ≠ -1, s.sockfd_ i = some sockfd := by
  constructor
  · intro howned
    cases hi : s.sockfd_ i with
    | none => simp [ownership, hi] at howned
    | some sockfd =>
        refine ⟨sockfd, ?_, rfl⟩
        rintro rfl
        exact howned ((owned_eq hi).trans h.invalid)
  · rintro ⟨sockfd, hne, hi⟩
    rw [owned_eq hi]
    exact h.isOpen i sockfd hi hne

/-- Sockets with the same descriptor own the same opening. -/
theorem Designates.ownedOnce (h : s.Designates) (hs : s.ownership.Sound) :
    s.OwnedOnce := by
  intro sockfd hne i j hi hj
  obtain ⟨r, hr⟩ := Option.ne_none_iff_exists'.mp (h.isOpen i sockfd hi hne)
  exact hs.unique r i j ((owned_eq hi).trans hr) ((owned_eq hj).trans hr)

/-! ## One operation of the ledger for each action -/

theorem Designates.construct (h : s.Designates) (socket : ℕ) {sockfd : ℤ}
    (hnonneg : 0 ≤ sockfd) : (s.construct socket sockfd).Designates where
  invalid := by
    have hne : -1 ≠ sockfd := by omega
    simpa [Sockets.construct, hne] using h.invalid
  isOpen i fd hi hne := by
    by_cases hfd : fd = sockfd
    · simp [Sockets.construct, hfd]
    · have hi : s.sockfd_ i = some fd := by
        simp only [Sockets.construct, Function.update_apply] at hi
        split_ifs at hi
        · exact absurd (Option.some.inj hi).symm hfd
        · exact hi
      simpa [Sockets.construct, hfd] using h.isOpen i fd hi hne
  noFailure := h.noFailure

theorem Designates.ownership_construct (h : s.Designates) {socket : ℕ}
    {sockfd : ℤ} (hnonneg : 0 ≤ sockfd)
    (hclosed : s.descriptor sockfd = none) :
    (s.construct socket sockfd).ownership = s.ownership.acquire socket := by
  refine Ownership.ext rfl (funext fun i => ?_) rfl
  rw [Ownership.owned_acquire]
  simp only [ownership, Sockets.construct, Function.update_apply]
  split_ifs with hi
  · simp
  · cases hfd : s.sockfd_ i with
    | none => rfl
    | some fd =>
        have hne : fd ≠ sockfd := by
          rintro rfl
          exact h.isOpen i fd hfd (by omega) hclosed
        simp [hne]

theorem Designates.takeFrom (h : s.Designates) {socket source : ℕ}
    {sourcefd : ℤ} (hsource : s.sockfd_ source = some sourcefd) :
    (s.takeFrom socket source sourcefd).Designates where
  invalid := h.invalid
  isOpen i fd hi hne := by
    simp only [Sockets.takeFrom, Function.update_apply] at hi
    split_ifs at hi
    · exact absurd (Option.some.inj hi).symm hne
    · obtain rfl := Option.some.inj hi
      exact h.isOpen source sourcefd hsource hne
    · exact h.isOpen i fd hi hne
  noFailure := h.noFailure

theorem Designates.ownership_takeFrom (h : s.Designates) {socket source : ℕ}
    {sourcefd : ℤ} (hsource : s.sockfd_ source = some sourcefd) :
    (s.takeFrom socket source sourcefd).ownership =
      s.ownership.give socket source := by
  refine Ownership.ext rfl (funext fun i => ?_) rfl
  rw [Ownership.owned_give, owned_eq hsource]
  simp only [ownership, Sockets.takeFrom, Function.update_apply]
  split_ifs
  · exact h.invalid
  · rfl
  · rfl

theorem destroy_of_none {socket : ℕ} (h : s.sockfd_ socket = none) :
    s.destroy socket = s := by
  simp [destroy, h]

theorem destroy_of_invalid {socket : ℕ} (h : s.sockfd_ socket = some (-1)) :
    s.destroy socket =
      { s with sockfd_ := Function.update s.sockfd_ socket none } := by
  simp [destroy, h]

theorem destroy_of_open {socket r : ℕ} {sockfd : ℤ}
    (h : s.sockfd_ socket = some sockfd) (hne : sockfd ≠ -1)
    (hr : s.descriptor sockfd = some r) :
    s.destroy socket =
      { s with
        sockfd_ := Function.update s.sockfd_ socket none
        descriptor := Function.update s.descriptor sockfd none
        closed := fun x => s.closed x + if r = x then 1 else 0 } := by
  simp [destroy, close, h, hne, hr]

/-- A destructed Socket closes the descriptor that it alone held. -/
theorem Designates.destroy (h : s.Designates) (hs : s.ownership.Sound)
    (socket : ℕ) : (s.destroy socket).Designates := by
  cases hsocket : s.sockfd_ socket with
  | none => rwa [destroy_of_none hsocket]
  | some sockfd =>
      have hother : ∀ i fd, i ≠ socket → s.sockfd_ i = some fd → fd ≠ -1 →
          fd ≠ sockfd ∧ s.descriptor fd ≠ none := by
        intro i fd his hi hne
        refine ⟨?_, h.isOpen i fd hi hne⟩
        rintro rfl
        exact his (h.ownedOnce hs fd hne i socket hi hsocket)
      by_cases hne : sockfd = -1
      · subst hne
        rw [destroy_of_invalid hsocket]
        refine ⟨h.invalid, fun i fd hi hfd => ?_, h.noFailure⟩
        simp only [Function.update_apply] at hi
        split_ifs at hi with his
        exact (hother i fd his hi hfd).2
      · obtain ⟨r, hr⟩ := Option.ne_none_iff_exists'.mp
          (h.isOpen socket sockfd hsocket hne)
        rw [destroy_of_open hsocket hne hr]
        refine ⟨?_, fun i fd hi hfd => ?_, h.noFailure⟩
        · simpa [Function.update_apply] using fun _ => h.invalid
        · simp only [Function.update_apply] at hi
          split_ifs at hi with his
          obtain ⟨hne', hopen⟩ := hother i fd his hi hfd
          simpa [Function.update_apply, hne'] using hopen

theorem Designates.ownership_destroy (h : s.Designates)
    (hs : s.ownership.Sound) (socket : ℕ) :
    (s.destroy socket).ownership = s.ownership.release socket := by
  cases hsocket : s.sockfd_ socket with
  | none =>
      rw [destroy_of_none hsocket, Ownership.release_of_none]
      simp [ownership, hsocket]
  | some sockfd =>
      by_cases hne : sockfd = -1
      · subst hne
        have hnone : s.ownership.owned socket = none :=
          (owned_eq hsocket).trans h.invalid
        rw [destroy_of_invalid hsocket, Ownership.release_of_none hnone]
        refine Ownership.ext rfl (funext fun i => ?_) rfl
        simp only [ownership, Function.update_apply]
        split_ifs with hi
        · rw [hi]
          exact hnone.symm
        · rfl
      · obtain ⟨r, hr⟩ := Option.ne_none_iff_exists'.mp
          (h.isOpen socket sockfd hsocket hne)
        rw [destroy_of_open hsocket hne hr]
        refine Ownership.ext rfl (funext fun i => ?_) (funext fun x => ?_)
        · rw [Ownership.owned_release]
          simp only [ownership, Function.update_apply]
          split_ifs with hi
          · rfl
          · cases hfd : s.sockfd_ i with
            | none => rfl
            | some fd =>
                have hfds : fd ≠ sockfd := by
                  rintro rfl
                  exact hi (h.ownedOnce hs fd hne i socket hfd hsocket)
                simp [hfds]
        · simp [Ownership.release, ownership, hsocket, hr]

/-! ## Runs -/

/-- The invariant of all runs. -/
def Ledgered (s : Sockets) : Prop :=
  s.Designates ∧ s.ownership.Sound

theorem ledgered_empty : Ledgered {} :=
  ⟨⟨rfl, fun i fd h => by simp at h, rfl⟩, Ownership.sound_empty⟩

theorem Ledgered.takeFrom (h : s.Ledgered) (socket : ℕ) {source : ℕ}
    {sourcefd : ℤ} (hsource : s.sockfd_ source = some sourcefd) :
    (s.takeFrom socket source sourcefd).Ledgered := by
  refine ⟨h.1.takeFrom hsource, ?_⟩
  rw [h.1.ownership_takeFrom hsource]
  exact h.2.give socket source

/-- Every action is one operation on the ledger, or none. -/
theorem Ledgered.step (h : s.Ledgered) (a : SocketAction) :
    (s.step a).Ledgered := by
  cases a with
  | construct socket sockfd =>
      simp only [Sockets.step]
      split_ifs with hfresh
      · obtain ⟨-, hnonneg, hclosed⟩ := hfresh
        refine ⟨h.1.construct socket hnonneg, ?_⟩
        rw [h.1.ownership_construct hnonneg hclosed]
        exact h.2.acquire socket
      · exact h
  | moveConstruct socket source =>
      simp only [Sockets.step, Sockets.moveConstruct]
      split
      · next hsource => exact h.takeFrom socket hsource
      · exact h
  | moveAssign target source =>
      simp only [Sockets.step, Sockets.moveAssign]
      split
      · next hsource => exact h.takeFrom target hsource
      · exact h
  | destroy socket =>
      refine ⟨h.1.destroy h.2 socket, ?_⟩
      rw [Sockets.step, h.1.ownership_destroy h.2]
      exact h.2.release socket

/-- Taking a descriptor costs the one that the Socket had. -/
theorem Ledgered.lost_takeFrom_iff (h : s.Ledgered) {socket source : ℕ}
    {sourcefd : ℤ} (hsource : s.sockfd_ source = some sourcefd) :
    (s.takeFrom socket source sourcefd).ownership.Lost ↔
      s.ownership.Lost ∨ ∃ sockfd ≠ -1, s.sockfd_ socket = some sockfd := by
  rw [h.1.ownership_takeFrom hsource, h.2.lost_give_iff,
    h.1.owned_ne_none_iff]

/-- An action loses a descriptor exactly when it assigns to a Socket that
holds one. -/
theorem Ledgered.lost_step_iff (h : s.Ledgered) (a : SocketAction) :
    (s.step a).ownership.Lost ↔ s.ownership.Lost ∨ ¬ s.TargetEmpty a := by
  cases a with
  | construct socket sockfd =>
      simp only [Sockets.step, TargetEmpty, not_true_eq_false, or_false]
      split_ifs with hfresh
      · obtain ⟨hnone, hnonneg, hclosed⟩ := hfresh
        rw [h.1.ownership_construct hnonneg hclosed]
        apply Ownership.lost_acquire_iff
        simp [ownership, hnone]
      · rfl
  | moveConstruct socket source =>
      simp only [Sockets.step, Sockets.moveConstruct, TargetEmpty,
        not_true_eq_false, or_false]
      split
      · next hnone hsource =>
          rw [h.lost_takeFrom_iff hsource]
          simp [hnone]
      · rfl
  | moveAssign target source =>
      simp only [Sockets.step, Sockets.moveAssign, TargetEmpty]
      split
      · next htarget hsource =>
          rw [h.lost_takeFrom_iff hsource]
          simp [htarget, hsource]
      · next hnot =>
          refine (or_iff_left (not_not.mpr fun sockfd ht hs => ?_)).symm
          obtain ⟨sourcefd, hsource⟩ := Option.ne_none_iff_exists'.mp hs
          exact (hnot sockfd sourcefd ht hsource).elim
  | destroy socket =>
      rw [Sockets.step, h.1.ownership_destroy h.2, Ownership.lost_release_iff]
      simp [TargetEmpty]

theorem ledgered_run (actions : List SocketAction) :
    (run step {} actions).Ledgered :=
  run_invariant_of_forall Ledgered (fun _ a h => h.step a) ledgered_empty
    actions

/-- A run loses no descriptor exactly when it assigns to empty Sockets only. -/
theorem not_lost_run_iff (actions : List SocketAction) :
    ¬ (run step {} actions).ownership.Lost ↔
      EveryStep step TargetEmpty {} actions := by
  have hiff := damaged_run_iff step TargetEmpty Ledgered
    (fun s => s.ownership.Lost) (fun _ a h _ => h.step a)
    (fun _ a h _ => h.lost_step_iff a) ledgered_empty
    (everyStep_of_forall (fun _ _ => trivial) _ actions)
  rw [hiff, not_or, not_not]
  exact and_iff_right Ownership.not_lost_empty

theorem ownedOnce_run (actions : List SocketAction) :
    (run step {} actions).OwnedOnce :=
  (ledgered_run actions).1.ownedOnce (ledgered_run actions).2

/-- When all Sockets are destroyed, each descriptor was closed once exactly if
none was lost. -/
theorem closedOnce_run_iff {actions : List SocketAction}
    (hall : (run step {} actions).AllDestroyed) :
    (run step {} actions).ClosedOnce ↔
      EveryStep step TargetEmpty {} actions := by
  obtain ⟨hdesignates, hsound⟩ := ledgered_run actions
  have hnone : ∀ i, (run step {} actions).ownership.owned i = none := by
    intro i
    simp [ownership, hall i]
  rw [← not_lost_run_iff, ← hsound.released_once_iff hnone]
  exact and_iff_right hdesignates.noFailure

/-- At any time every descriptor is held by at most one Socket, and when all
Sockets are destroyed each descriptor was closed exactly once. -/
def KeepsOwnership (actions : List SocketAction) : Prop :=
  ∀ n, (run step {} (actions.take n)).OwnedOnce ∧
    ((run step {} (actions.take n)).AllDestroyed →
      (run step {} (actions.take n)).ClosedOnce)

/-- The Sockets of a run own their descriptors exactly once when all that it
assigned to were empty, at each time at which no Socket is left. -/
theorem keepsOwnership_iff (actions : List SocketAction) :
    KeepsOwnership actions ↔
      ∀ n, (run step {} (actions.take n)).AllDestroyed →
        EveryStep step TargetEmpty {} (actions.take n) := by
  refine forall_congr' fun n => ?_
  rw [and_iff_right (ownedOnce_run _)]
  exact forall_congr' closedOnce_run_iff

/-- The descriptor 3 is overwritten by 4 and never closed. -/
theorem not_keepsOwnership_occupiedTarget :
    ¬ KeepsOwnership [.construct 0 3, .construct 1 4, .moveAssign 0 1,
      .destroy 0, .destroy 1] := by
  intro h
  have hend := (h 5).2
  have hall : (run step {} [.construct 0 3, .construct 1 4, .moveAssign 0 1,
      .destroy 0, .destroy 1]).AllDestroyed := by
    intro i
    by_cases hzero : i = 0
    · simp [step, construct, moveAssign, takeFrom, destroy, close, hzero]
    · by_cases hone : i = 1
      · simp [step, construct, moveAssign, takeFrom, destroy, close, hone]
      · simp [step, construct, moveAssign, takeFrom, destroy, close, hzero,
          hone]
  have hclosed := (hend hall).2 0 (by decide)
  revert hclosed
  decide

/-! ## The sockets of accepted connections -/

/-- `Acceptor::handleRead` after `accept` returned `connfd`: a local Socket is
constructed from it, and `newConnectionCallback_`, if set, constructs the
`socket_` of a TcpConnection from that. -/
def handleRead (sockfd socket_ : ℕ) (connfd : ℤ)
    (newConnectionCallback_ : Bool) : List SocketAction :=
  if 0 ≤ connfd then
    let callback :=
      if newConnectionCallback_ then [.moveConstruct socket_ sockfd] else []
    .construct sockfd connfd :: (callback ++ [.destroy sockfd])
  else []

theorem moveAssign_notMem_handleRead (sockfd socket_ : ℕ) (connfd : ℤ)
    (newConnectionCallback_ : Bool) (target source : ℕ) :
    .moveAssign target source ∉
      handleRead sockfd socket_ connfd newConnectionCallback_ := by
  cases newConnectionCallback_ <;> simp [handleRead]

/-- Programs that only construct, move construct and destroy Sockets own
their descriptors exactly once. -/
theorem keepsOwnership_of_moveAssign_notMem {actions : List SocketAction}
    (h : ∀ target source, .moveAssign target source ∉ actions) :
    KeepsOwnership actions := by
  intro n
  refine ⟨ownedOnce_run _, fun hall => (closedOnce_run_iff hall).mpr ?_⟩
  refine everyStep_of_mem (fun a ha s => ?_) _
  cases a with
  | moveAssign target source =>
      exact absurd (List.mem_of_mem_take ha) (h target source)
  | construct | moveConstruct | destroy => trivial

/-- An acceptor and its connections own their descriptors exactly once,
whatever it accepts and in whichever order the connections are destroyed. -/
theorem keepsOwnership_accepting {events : List (List SocketAction)}
    (h : ∀ actions ∈ events,
      (∃ sockfd socket_ connfd callback,
        actions = handleRead sockfd socket_ connfd callback) ∨
      ∃ socket_, actions = [.destroy socket_]) :
    KeepsOwnership events.flatten := by
  apply keepsOwnership_of_moveAssign_notMem
  intro target source hmem
  obtain ⟨actions, hactions, hin⟩ := List.mem_flatten.mp hmem
  rcases h actions hactions with ⟨_, _, _, _, rfl⟩ | ⟨_, rfl⟩
  · exact moveAssign_notMem_handleRead _ _ _ _ _ _ hin
  · simp at hin

/-- One connection is accepted and destroyed. -/
theorem keepsOwnership_accepting_one :
    KeepsOwnership [handleRead 0 1 5 true, [.destroy 1]].flatten := by
  refine keepsOwnership_accepting fun actions hmem => ?_
  rcases List.mem_cons.mp hmem with rfl | hmem
  · exact .inl ⟨0, 1, 5, true, rfl⟩
  · exact .inr ⟨1, List.mem_singleton.mp hmem⟩

end Sockets

end MuduoHttp
