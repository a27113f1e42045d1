import Mathlib.Data.List.Count
import MuduoHttp.Net.Session
import MuduoHttp.Support.Transition

/-!
# Teardown happens once

`handleClose` leaves the state of the connection alone, although
`connectDestroyed` asserts that it finds the connection alive and the header
says that it is called once.  Until the queued `connectDestroyed` has run, a
second way into `handleClose` is open: the read handler after the close
handler of one event, a queued `forceCloseInLoop` after a read of nothing, or
the other way round.

A connection goes through five phases.  A run keeps to them, and tears the
connection down at most once, exactly when no step enters `handleClose` while
the removal is queued.
-/

namespace MuduoHttp

open Support Session

/-- The record of a connection that is torn down at most once. -/
structure TornDownOnce (log : List Teardown) : Prop where
  closeCallback_once : log.count .closeCallback ≤ 1
  erased_one : ∀ n, .erased n ∈ log → n = 1
  connectDestroyed_once :
    (log.filter fun e => e matches .connectDestroyed _).length ≤ 1
  connectDestroyed_alive : ∀ found, .connectDestroyed found ∈ log → found.Alive
  down_once : log.count .down ≤ 1

/-- The removal of the connection has begun and is not finished. -/
def RemovalQueued (s : Session) : Prop :=
  s.removals ≠ 0 ∨ .connectDestroyed ∈ s.ioFunctors

/-- The step enters `handleClose`. -/
def EntersHandleClose (s : Session) : Action → Prop
  | .handler read _ =>
      s.handlers.head? = some .handleClose ∨
        (s.handlers.head? = some .handleRead ∧ read = .eof)
  | .ioFunctor _ =>
      s.handlers = [] ∧ s.ioFunctors.head? = some .forceCloseInLoop ∧
        s.conn.state.Alive
  | _ => False

/-- The step does not close a connection that is being removed. -/
def ClosesOnce (s : Session) (a : Action) : Prop :=
  RemovalQueued s → ¬ EntersHandleClose s a

/-! ## Phases -/

inductive Phase
  | establishing
  | up
  | removing
  | erased
  | down (found : StateE)

namespace Phase

def log : Phase → List Teardown
  | .establishing => []
  | .up => [.up]
  | .removing => [.up, .closeCallback]
  | .erased => [.up, .closeCallback, .erased 1]
  | .down found =>
      [.up, .closeCallback, .erased 1, .connectDestroyed found, .down]

def entries : Phase → ℕ
  | .establishing => 1
  | .up => 1
  | .removing => 1
  | .erased => 0
  | .down _ => 0

def removals : Phase → ℕ
  | .removing => 1
  | _ => 0

/-- How often `connectDestroyed` is queued. -/
def destroys : Phase → ℕ
  | .erased => 1
  | _ => 0

/-- The states of the connection and of its poll entry, and what may be under
way in the loop. -/
def Allows : Phase → Session → Prop
  | .establishing, s =>
      s.conn.state = .kConnecting ∧ s.handlers = [] ∧
        s.ioFunctors = [.connectEstablished] ∧
        s.conn.channel.entry = .absent
  | .up, s =>
      s.conn.state.Alive ∧ .connectEstablished ∉ s.ioFunctors ∧
        (s.conn.channel.entry = .watched ∨ s.conn.channel.entry = .ignored)
  | .removing, s =>
      s.conn.state.Alive ∧ .connectEstablished ∉ s.ioFunctors ∧
        s.conn.channel.entry = .ignored
  | .erased, s =>
      s.conn.state.Alive ∧ .connectEstablished ∉ s.ioFunctors ∧
        s.conn.channel.entry = .ignored
  | .down found, s =>
      found.Alive ∧ s.conn.state = .kDisconnected ∧ s.handlers = [] ∧
        .connectEstablished ∉ s.ioFunctors ∧ s.conn.channel.entry = .removed

end Phase

/-- The connection is in a phase of an orderly life. -/
structure InPhase (s : Session) (p : Phase) : Prop where
  log_eq : s.log = p.log
  entries_eq : s.entries = p.entries
  removals_eq : s.removals = p.removals
  destroys_eq : s.ioFunctors.count .connectDestroyed = p.destroys
  allowed : p.Allows s

variable {oneLoop : Bool} {s : Session} {p : Phase}

/-- An orderly life so far is a teardown at most once. -/
theorem InPhase.tornDownOnce (h : InPhase s p) : TornDownOnce s.log := by
  have halive : ∀ found, .connectDestroyed found ∈ p.log → found.Alive := by
    intro found hmem
    cases p with
    | down found' =>
        obtain rfl : found = found' := by simpa [Phase.log] using hmem
        exact h.allowed.1
    | establishing => simp [Phase.log] at hmem
    | up => simp [Phase.log] at hmem
    | removing => simp [Phase.log] at hmem
    | erased => simp [Phase.log] at hmem
  rw [h.log_eq]
  refine ⟨?_, ?_, ?_, halive, ?_⟩
  · cases p <;> simp [Phase.log]
  · intro n hmem
    cases p <;> simp_all [Phase.log]
  · cases p <;> simp [Phase.log]
  · cases p <;> simp [Phase.log]

/-! ## What keeps the phase -/

namespace InPhase

theorem ne_establishing (h : InPhase s p) (halive : s.conn.state.Alive) :
    p ≠ .establishing := by
  rintro rfl
  have hstate : s.conn.state = .kConnecting := h.allowed.1
  rw [hstate] at halive
  exact absurd halive (by decide)

theorem ne_down (h : InPhase s p) (halive : s.conn.state.Alive)
    (found : StateE) : p ≠ .down found := by
  rintro rfl
  have hstate : s.conn.state = .kDisconnected := h.allowed.2.1
  rw [hstate] at halive
  exact absurd halive (by decide)

theorem keepsOpen (h : InPhase s p) (hne : p ≠ .establishing)
    {conn : TcpConnection} (hkeeps : TcpConnection.KeepsOpen s.conn conn) :
    InPhase { s with conn := conn } p := by
  obtain ⟨hlog, hentries, hremovals, hdestroys, hallowed⟩ := h
  refine ⟨hlog, hentries, hremovals, hdestroys, ?_⟩
  obtain ⟨hstate, hentry⟩ := hkeeps
  cases p with
  | establishing => exact absurd rfl hne
  | up =>
      obtain ⟨halive, hnot, hwatched⟩ := hallowed
      refine ⟨hstate ▸ halive, hnot, ?_⟩
      rcases hwatched with hw | hi
      · rcases hentry (by simp [hw]) with he | ⟨-, he⟩
        · exact .inl (he.trans hw)
        · exact .inr he
      · rcases hentry (by simp [hi]) with he | ⟨-, he⟩
        · exact .inr (he.trans hi)
        · exact .inr he
  | removing =>
      obtain ⟨halive, hnot, hi⟩ := hallowed
      refine ⟨hstate ▸ halive, hnot, ?_⟩
      rcases hentry (by simp [hi]) with he | ⟨-, he⟩
      · exact he.trans hi
      · exact he
  | erased =>
      obtain ⟨halive, hnot, hi⟩ := hallowed
      refine ⟨hstate ▸ halive, hnot, ?_⟩
      rcases hentry (by simp [hi]) with he | ⟨-, he⟩
      · exact he.trans hi
      · exact he
  | down found =>
      obtain ⟨hfound, hdown, hidle, hnot, hr⟩ := hallowed
      refine ⟨hfound, hstate.trans hdown, hidle, hnot, ?_⟩
      rcases hentry (by simp [hr]) with he | ⟨hw, -⟩
      · exact he.trans hr
      · rw [hr] at hw
        cases hw

/-- A connection that is being shut down is still alive. -/
theorem disconnecting (h : InPhase s p) (halive : s.conn.state.Alive) :
    InPhase { s with conn := s.conn.setState .kDisconnecting } p := by
  have hnew := h.ne_establishing halive
  have hold := h.ne_down halive
  obtain ⟨hlog, hentries, hremovals, hdestroys, hallowed⟩ := h
  refine ⟨hlog, hentries, hremovals, hdestroys, ?_⟩
  cases p with
  | establishing => exact absurd rfl hnew
  | up => exact ⟨.inr rfl, hallowed.2⟩
  | removing => exact ⟨.inr rfl, hallowed.2⟩
  | erased => exact ⟨.inr rfl, hallowed.2⟩
  | down found => exact absurd rfl (hold found)

theorem queueInLoop (h : InPhase s p) (halive : s.conn.state.Alive)
    {functor : IoFunctor} (hestablish : functor ≠ .connectEstablished)
    (hdestroy : functor ≠ .connectDestroyed) :
    InPhase (s.queueInLoop functor) p := by
  have hnew := h.ne_establishing halive
  have hold := h.ne_down halive
  obtain ⟨hlog, hentries, hremovals, hdestroys, hallowed⟩ := h
  refine ⟨hlog, hentries, hremovals, ?_, ?_⟩
  · rw [Session.queueInLoop, List.count_append, hdestroys,
      List.count_singleton, if_neg (by simpa using hdestroy), Nat.add_zero]
  · have hnot : .connectEstablished ∉ s.ioFunctors →
        .connectEstablished ∉ (s.queueInLoop functor).ioFunctors := by
      intro hnot hmem
      rcases List.mem_append.mp hmem with hmem | hmem
      · exact hnot hmem
      · exact hestablish (List.mem_singleton.mp hmem).symm
    cases p with
    | establishing => exact absurd rfl hnew
    | up => exact ⟨hallowed.1, hnot hallowed.2.1, hallowed.2.2⟩
    | removing => exact ⟨hallowed.1, hnot hallowed.2.1, hallowed.2.2⟩
    | erased => exact ⟨hallowed.1, hnot hallowed.2.1, hallowed.2.2⟩
    | down found => exact absurd rfl (hold found)

theorem setTimers (h : InPhase s p) (timers : ℕ) :
    InPhase { s with timers := timers } p := by
  obtain ⟨hlog, hentries, hremovals, hdestroys, hallowed⟩ := h
  refine ⟨hlog, hentries, hremovals, hdestroys, ?_⟩
  cases p <;> exact hallowed

theorem forceClose (h : InPhase s p) : InPhase s.forceClose p := by
  unfold Session.forceClose
  split
  next halive =>
    exact (h.disconnecting halive).queueInLoop (.inr rfl) (by decide) (by decide)
  · exact h

theorem call (h : InPhase s p) (inLoop : Bool) (write : WriteResult) (c : Call) :
    InPhase (s.call inLoop write c) p := by
  cases c with
  | send message =>
      simp only [Session.call]
      split
      next hstate =>
        have halive : s.conn.state.Alive := .inl hstate
        split
        · exact h.keepsOpen (h.ne_establishing halive)
            (TcpConnection.keepsOpen_sendInLoop _ _ _)
        · exact h.queueInLoop halive (by simp) (by simp)
      · exact h
  | shutdown =>
      simp only [Session.call]
      split
      next hstate =>
        have halive : s.conn.state.Alive := .inl hstate
        have hdis := h.disconnecting halive
        split
        · exact hdis.keepsOpen (h.ne_establishing halive)
            (TcpConnection.keepsOpen_shutdownInLoop _)
        · exact hdis.queueInLoop (.inr rfl) (by decide) (by decide)
      · exact h
  | forceClose => exact h.forceClose
  | forceCloseWithDelay =>
      simp only [Session.call]
      split
      next halive =>
        have hdis := h.disconnecting halive
        split
        · exact hdis.setTimers _
        · exact hdis.queueInLoop (.inr rfl) (by decide) (by decide)
      · exact h

/-! ## Handlers and functors -/

/-- While handlers are left to call, the connection is alive. -/
theorem popHandler (h : InPhase s p) {handler : Handler}
    {handlers : List Handler} (hhandlers : s.handlers = handler :: handlers) :
    s.conn.state.Alive ∧ InPhase { s with handlers := handlers } p := by
  obtain ⟨hlog, hentries, hremovals, hdestroys, hallowed⟩ := h
  cases p with
  | establishing =>
      rw [hallowed.2.1] at hhandlers
      cases hhandlers
  | up => exact ⟨hallowed.1, hlog, hentries, hremovals, hdestroys, hallowed⟩
  | removing => exact ⟨hallowed.1, hlog, hentries, hremovals, hdestroys, hallowed⟩
  | erased => exact ⟨hallowed.1, hlog, hentries, hremovals, hdestroys, hallowed⟩
  | down found =>
      rw [hallowed.2.2.1] at hhandlers
      cases hhandlers

/-- Functors other than the first and the last of a connection. -/
theorem popFunctor (h : InPhase s p) {functor : IoFunctor}
    {functors : List IoFunctor} (hfunctors : s.ioFunctors = functor :: functors)
    (hestablish : functor ≠ .connectEstablished)
    (hdestroy : functor ≠ .connectDestroyed) :
    p ≠ .establishing ∧ InPhase { s with ioFunctors := functors } p := by
  obtain ⟨hlog, hentries, hremovals, hdestroys, hallowed⟩ := h
  have hcount : functors.count .connectDestroyed = p.destroys := by
    rw [← hdestroys, hfunctors, List.count_cons_of_ne hdestroy]
  have hnot : .connectEstablished ∉ s.ioFunctors →
      .connectEstablished ∉ functors := by
    intro hnot hmem
    exact hnot (hfunctors ▸ List.mem_cons_of_mem _ hmem)
  cases p with
  | establishing =>
      rw [hallowed.2.2.1] at hfunctors
      injection hfunctors with hhead
      exact absurd hhead.symm hestablish
  | up =>
      exact ⟨by simp, hlog, hentries, hremovals, hcount, hallowed.1,
        hnot hallowed.2.1, hallowed.2.2⟩
  | removing =>
      exact ⟨by simp, hlog, hentries, hremovals, hcount, hallowed.1,
        hnot hallowed.2.1, hallowed.2.2⟩
  | erased =>
      exact ⟨by simp, hlog, hentries, hremovals, hcount, hallowed.1,
        hnot hallowed.2.1, hallowed.2.2⟩
  | down found =>
      exact ⟨by simp, hlog, hentries, hremovals, hcount, hallowed.1,
        hallowed.2.1, hallowed.2.2.1, hnot hallowed.2.2.2.1,
        hallowed.2.2.2.2⟩

/-- Outside removal, closing a connection that is alive begins it. -/
theorem handleClose (h : InPhase s p) (halive : s.conn.state.Alive)
    (hqueued : ¬ RemovalQueued s) :
    ∃ p', InPhase (s.handleClose oneLoop) p' := by
  have hnew := h.ne_establishing halive
  have hold := h.ne_down halive
  obtain ⟨hlog, hentries, hremovals, hdestroys, hallowed⟩ := h
  cases p with
  | establishing => exact absurd rfl hnew
  | down found => exact absurd rfl (hold found)
  | removing => exact absurd (.inl (by simp [hremovals, Phase.removals])) hqueued
  | erased =>
      refine absurd (.inr ?_) hqueued
      rw [← List.count_pos_iff, hdestroys]
      decide
  | up =>
      obtain ⟨-, hnot, hentry⟩ := hallowed
      have hignored := Channel.disableAll_entry s.conn.channel hentry
      cases oneLoop with
      | false =>
          refine ⟨.removing, ?_, hentries, ?_, hdestroys, halive, hnot, hignored⟩
          · simp [Session.handleClose, Session.record, removeConnection, hlog,
              Phase.log]
          · simp [Session.handleClose, Session.record, removeConnection,
              hremovals, Phase.removals]
      | true =>
          refine ⟨.erased, ?_, rfl, hremovals, ?_, halive, ?_, hignored⟩
          · simp [Session.handleClose, Session.record, removeConnection,
              removeConnectionInLoop, Session.queueInLoop, hlog, hentries,
              Phase.log, Phase.entries]
          · simp [Session.handleClose, Session.record, removeConnection,
              removeConnectionInLoop, Session.queueInLoop, hdestroys,
              Phase.destroys]
          · simpa [Session.handleClose, Session.record, removeConnection,
              removeConnectionInLoop, Session.queueInLoop] using hnot

theorem removeConnectionInLoop (h : InPhase s p) (hremovals : s.removals ≠ 0) :
    InPhase { s with removals := s.removals - 1 }.removeConnectionInLoop
      .erased := by
  obtain ⟨hlog, hentries, hcount, hdestroys, hallowed⟩ := h
  cases p with
  | establishing => exact absurd hcount hremovals
  | up => exact absurd hcount hremovals
  | erased => exact absurd hcount hremovals
  | down found => exact absurd hcount hremovals
  | removing =>
      obtain ⟨halive, hnot, hignored⟩ := hallowed
      refine ⟨?_, rfl, ?_, ?_, halive, ?_, hignored⟩
      · simp [Session.removeConnectionInLoop, Session.record,
          Session.queueInLoop, hlog, hentries, Phase.log, Phase.entries]
      · simp [Session.removeConnectionInLoop, Session.record,
          Session.queueInLoop, hcount, Phase.removals]
      · simp [Session.removeConnectionInLoop, Session.record,
          Session.queueInLoop, hdestroys, Phase.destroys]
      · simpa [Session.removeConnectionInLoop, Session.record,
          Session.queueInLoop] using hnot

theorem connectEstablished (h : InPhase s p) {functors : List IoFunctor}
    (hfunctors : s.ioFunctors = .connectEstablished :: functors) :
    InPhase { s with ioFunctors := functors }.connectEstablished .up := by
  obtain ⟨hlog, hentries, hremovals, hdestroys, hallowed⟩ := h
  have hmem : .connectEstablished ∈ s.ioFunctors := by simp [hfunctors]
  cases p with
  | up => exact absurd hmem hallowed.2.1
  | removing => exact absurd hmem hallowed.2.1
  | erased => exact absurd hmem hallowed.2.1
  | down found => exact absurd hmem hallowed.2.2.2.1
  | establishing =>
      obtain ⟨-, -, honly, habsent⟩ := hallowed
      rw [honly] at hfunctors
      injection hfunctors with _ hnil
      subst hnil
      refine ⟨?_, hentries, hremovals, rfl, .inl rfl, List.not_mem_nil, .inl ?_⟩
      · simp [Session.connectEstablished, Session.record, hlog, Phase.log]
      · simp [Session.connectEstablished, Session.record,
          Channel.enableReading, Channel.update, habsent]

theorem connectDestroyed (h : InPhase s p) (hidle : s.handlers = [])
    {functors : List IoFunctor}
    (hfunctors : s.ioFunctors = .connectDestroyed :: functors) :
    InPhase { s with ioFunctors := functors }.connectDestroyed
      (.down s.conn.state) := by
  obtain ⟨hlog, hentries, hremovals, hdestroys, hallowed⟩ := h
  have hcount : functors.count .connectDestroyed + 1 = p.destroys := by
    rw [← hdestroys, hfunctors, List.count_cons_self]
  cases p with
  | establishing => exact absurd hcount (by simp [Phase.destroys])
  | up => exact absurd hcount (by simp [Phase.destroys])
  | removing => exact absurd hcount (by simp [Phase.destroys])
  | down found => exact absurd hcount (by simp [Phase.destroys])
  | erased =>
      obtain ⟨halive, hnot, -⟩ := hallowed
      refine ⟨?_, hentries, hremovals, ?_, halive, rfl, hidle, ?_, rfl⟩
      · simp [Session.connectDestroyed, Session.record, hlog, Phase.log]
      · exact Nat.succ.inj hcount
      · intro hmem
        exact hnot (hfunctors ▸ List.mem_cons_of_mem _ hmem)

/-- A connection that is being removed was closed before. -/
theorem closeCallback_mem (h : InPhase s p) (hqueued : RemovalQueued s) :
    .closeCallback ∈ s.log := by
  obtain ⟨hlog, hentries, hremovals, hdestroys, hallowed⟩ := h
  have hp : p.removals ≠ 0 ∨ 0 < p.destroys := by
    rcases hqueued with hq | hq
    · exact .inl (hremovals ▸ hq)
    · exact .inr (hdestroys ▸ List.count_pos_iff.mpr hq)
  rw [hlog]
  cases p <;> simp_all [Phase.removals, Phase.destroys, Phase.log]

end InPhase

/-! ## Steps and runs -/

theorem InPhase.poll (h : InPhase s p) (revents : Revents) :
    InPhase (step oneLoop s (.poll revents)) p := by
  simp only [step]
  split
  next henabled =>
    refine ⟨h.log_eq, h.entries_eq, h.removals_eq, h.destroys_eq, ?_⟩
    have hallowed := h.allowed
    cases p with
    | establishing => simp [hallowed.2.2.2] at henabled
    | up => exact hallowed
    | removing => exact hallowed
    | erased => exact hallowed
    | down found => simp [hallowed.2.2.2.2] at henabled
  · exact h

theorem InPhase.handler (h : InPhase s p) {read : ReadResult}
    {write : WriteResult} (honce : ClosesOnce s (.handler read write)) :
    ∃ p', InPhase (step oneLoop s (.handler read write)) p' := by
  simp only [step]
  cases hhandlers : s.handlers with
  | nil => exact ⟨p, h⟩
  | cons handler handlers =>
      obtain ⟨halive, hpop⟩ := h.popHandler hhandlers
      have hclose : EntersHandleClose s (.handler read write) →
          ∃ p', InPhase
            (Session.handleClose oneLoop { s with handlers := handlers })
            p' :=
        fun henters => hpop.handleClose halive fun hq => honce hq henters
      cases handler with
      | handleClose => exact hclose (.inl (by simp [hhandlers]))
      | handleError => exact ⟨p, hpop⟩
      | handleRead =>
          cases read with
          | data => exact ⟨p, hpop⟩
          | eof => exact hclose (.inr (by simp [hhandlers]))
          | error => exact ⟨p, hpop⟩
      | handleWrite =>
          exact ⟨p, hpop.keepsOpen (h.ne_establishing halive)
            (TcpConnection.keepsOpen_handleWrite _ _)⟩

theorem InPhase.forceCloseInLoop (h : InPhase s p) (hidle : s.handlers = [])
    {functors : List IoFunctor}
    (hfunctors : s.ioFunctors = .forceCloseInLoop :: functors)
    {write : WriteResult} (honce : ClosesOnce s (.ioFunctor write)) :
    ∃ p', InPhase
      (Session.forceCloseInLoop oneLoop { s with ioFunctors := functors })
      p' := by
  obtain ⟨-, hpop⟩ := h.popFunctor hfunctors (by simp) (by simp)
  unfold Session.forceCloseInLoop
  split
  next halive =>
    apply hpop.handleClose halive
    intro hqueued
    refine honce ?_ ⟨hidle, by rw [hfunctors, List.head?_cons], halive⟩
    rcases hqueued with hqueued | hqueued
    · exact .inl hqueued
    · exact .inr (hfunctors ▸ List.mem_cons_of_mem _ hqueued)
  · exact ⟨p, hpop⟩

theorem InPhase.ioFunctor (h : InPhase s p) {write : WriteResult}
    (honce : ClosesOnce s (.ioFunctor write)) :
    ∃ p', InPhase (step oneLoop s (.ioFunctor write)) p' := by
  cases hhandlers : s.handlers with
  | cons handler handlers => exact ⟨p, by simpa only [step, hhandlers]⟩
  | nil =>
      cases hfunctors : s.ioFunctors with
      | nil => exact ⟨p, by simpa only [step, hhandlers, hfunctors]⟩
      | cons functor functors =>
          rw [step_ioFunctor hhandlers hfunctors]
          cases functor with
          | connectEstablished => exact ⟨_, h.connectEstablished hfunctors⟩
          | connectDestroyed =>
              exact ⟨_, h.connectDestroyed hhandlers hfunctors⟩
          | sendInLoop message =>
              obtain ⟨hne, hpop⟩ :=
                h.popFunctor hfunctors (by simp) (by simp)
              exact ⟨p, hpop.keepsOpen hne
                (TcpConnection.keepsOpen_sendInLoop _ _ _)⟩
          | shutdownInLoop =>
              obtain ⟨hne, hpop⟩ :=
                h.popFunctor hfunctors (by simp) (by simp)
              exact ⟨p, hpop.keepsOpen hne
                (TcpConnection.keepsOpen_shutdownInLoop _)⟩
          | addTimerInLoop =>
              obtain ⟨-, hpop⟩ := h.popFunctor hfunctors (by simp) (by simp)
              exact ⟨p, hpop.setTimers _⟩
          | forceCloseInLoop =>
              exact h.forceCloseInLoop hhandlers hfunctors honce

/-- A step that closes no connection under removal keeps to the phases. -/
theorem inPhase_step {a : Action} (h : InPhase s p) (honce : ClosesOnce s a) :
    ∃ p', InPhase (step oneLoop s a) p' := by
  cases a with
  | poll revents => exact ⟨p, h.poll revents⟩
  | handler read write => exact h.handler honce
  | ioFunctor write => exact h.ioFunctor honce
  | acceptorFunctor =>
      simp only [step]
      split
      · exact ⟨p, h⟩
      next hremovals => exact ⟨_, h.removeConnectionInLoop hremovals⟩
  | timer =>
      simp only [step]
      split
      · exact ⟨p, h⟩
      · exact ⟨p, (h.setTimers _).forceClose⟩
  | call inLoop write c => exact ⟨p, h.call inLoop write c⟩

theorem inPhase_newConnection (oneLoop : Bool) :
    ∃ p, InPhase (newConnection oneLoop) p := by
  cases oneLoop with
  | false => exact ⟨.establishing, rfl, rfl, rfl, rfl, rfl, rfl, rfl, rfl⟩
  | true =>
      exact ⟨.up, rfl, rfl, rfl, rfl, .inl rfl, List.not_mem_nil, .inl rfl⟩

/-- What was done too often stays so. -/
theorem TornDownOnce.of_prefix {log log' : List Teardown}
    (hbefore : log <+: log') (h : TornDownOnce log') : TornDownOnce log where
  closeCallback_once :=
    (hbefore.sublist.count_le _).trans h.closeCallback_once
  erased_one n hmem := h.erased_one n (hbefore.subset hmem)
  connectDestroyed_once :=
    (hbefore.sublist.filter _).length_le.trans h.connectDestroyed_once
  connectDestroyed_alive found hmem :=
    h.connectDestroyed_alive found (hbefore.subset hmem)
  down_once := (hbefore.sublist.count_le _).trans h.down_once

/-- A step that enters `handleClose` calls the close callback. -/
theorem closeCallback_step (oneLoop : Bool) {a : Action}
    (henters : EntersHandleClose s a) :
    ∃ more, (step oneLoop s a).log = s.log ++ .closeCallback :: more := by
  refine ⟨if oneLoop then [.erased s.entries] else [], ?_⟩
  cases a with
  | handler read write =>
      rcases henters with hhead | ⟨hhead, rfl⟩
      · obtain ⟨handlers, hhandlers⟩ := List.head?_eq_some_iff.mp hhead
        simp only [step, hhandlers, runHandler, log_handleClose]
      · obtain ⟨handlers, hhandlers⟩ := List.head?_eq_some_iff.mp hhead
        simp only [step, hhandlers, runHandler, log_handleClose]
  | ioFunctor write =>
      obtain ⟨hidle, hhead, halive⟩ := henters
      obtain ⟨functors, hfunctors⟩ := List.head?_eq_some_iff.mp hhead
      rw [step_ioFunctor hidle hfunctors, runIoFunctor, forceCloseInLoop,
        if_pos halive, log_handleClose]
  | poll revents => exact henters.elim
  | acceptorFunctor => exact henters.elim
  | timer => exact henters.elim
  | call inLoop write c => exact henters.elim

/-- Closing a connection that is being removed is a second teardown. -/
theorem not_tornDownOnce_step {a : Action} (h : InPhase s p)
    (htwice : ¬ ClosesOnce s a) : ¬ TornDownOnce (step oneLoop s a).log := by
  intro hgood
  simp only [ClosesOnce, Classical.not_imp, not_not] at htwice
  obtain ⟨hqueued, henters⟩ := htwice
  obtain ⟨more, hlog⟩ := closeCallback_step oneLoop henters
  have hfirst := List.count_pos_iff.mpr (h.closeCallback_mem hqueued)
  have honce := hgood.closeCallback_once
  rw [hlog, List.count_append, List.count_cons_self] at honce
  omega

/-- A run tears the connection down at most once exactly when no step closes
it while its removal is queued. -/
theorem tornDownOnce_run_iff (oneLoop : Bool) (actions : List Action) :
    TornDownOnce (run (step oneLoop) (newConnection oneLoop) actions).log ↔
      EveryStep (step oneLoop) ClosesOnce (newConnection oneLoop) actions := by
  have hrun := not_damaged_run_iff (step oneLoop) ClosesOnce
    (fun s => ∃ p, InPhase s p) (fun s => ¬ TornDownOnce s.log)
    (fun s a ⟨p, h⟩ honce => inPhase_step h honce)
    (fun s a ⟨p, h⟩ htwice => not_tornDownOnce_step h htwice)
    (fun s a hdamaged hgood =>
      hdamaged (hgood.of_prefix (log_prefix_step oneLoop s a)))
    (fun s ⟨p, h⟩ hdamaged => hdamaged h.tornDownOnce)
    (inPhase_newConnection oneLoop) actions
  rwa [not_not] at hrun

/-- The idle check of a server with one IO thread shuts a connection down; the
delayed `forceClose` expires in the iteration in which the peer closes.  The
read of nothing closes the connection, and so does the queued
`forceCloseInLoop`. -/
def forceCloseAfterEof : List Action :=
  [.ioFunctor (.wrote 0), .call false (.wrote 0) .shutdown,
    .call false (.wrote 0) .forceCloseWithDelay, .ioFunctor (.wrote 0),
    .ioFunctor (.wrote 0), .poll { pollIn := true }, .timer,
    .handler .eof (.wrote 0), .ioFunctor (.wrote 0)]

theorem not_tornDownOnce_forceCloseAfterEof :
    ¬ TornDownOnce
      (run (step false) (newConnection false) forceCloseAfterEof).log :=
  fun hgood => absurd hgood.closeCallback_once (by decide)

end MuduoHttp
