import Mathlib.Data.List.Perm.Basic
import MuduoHttp.Net.OutputStream
import MuduoHttp.Net.Serving

/-!
# Graceful shutdown

Several threads send on one connection and shut it down.  A thread other than
the loop's first looks at the state and then queues a functor; the loop's own
calls run at once, and so does the shutdown that `handleWrite` makes up for
when the buffer is empty.  Neither looks at the functors, so the write side is
closed behind all that was accepted exactly when nothing that was accepted is
still on its way to the loop.
-/

namespace MuduoHttp

open Support

/-- What the other threads queue in the loop of the connection. -/
inductive OutputFunctor
  | sendInLoop (message : Bytes)
  | shutdownInLoop
  deriving DecidableEq, Repr

/-- The message that a functor carries. -/
@[simp] def OutputFunctor.message? : OutputFunctor → Option Bytes
  | .sendInLoop message => some message
  | .shutdownInLoop => none

/-- What `socket_.shutdownWrite` finds: the messages that `send` accepted, the
messages that `sendInLoop` took, and the bytes that the kernel accepted. -/
structure ShutRecord where
  accepted : List Bytes
  sent : List Bytes
  written : Bytes

/-- Everything that was accepted is written. -/
structure ShutRecord.Complete (r : ShutRecord) : Prop where
  sent : r.sent.Perm r.accepted
  written : r.written = r.sent.flatten

/-- A connection with the threads that use it: `sending` are the messages of
threads that found `kConnected` and have not queued the functor yet, and
`shutting` says that a thread is at that point of `shutdown`. -/
structure SharedConnection where
  conn : TcpConnection := .established
  functors : List OutputFunctor := []
  sending : List Bytes := []
  shutting : Bool := false
  accepted : List Bytes := []
  sent : List Bytes := []
  shutRecord : Option ShutRecord := none

namespace SharedConnection

/-- The messages in the queue of the loop. -/
def queued (s : SharedConnection) : List Bytes :=
  s.functors.filterMap OutputFunctor.message?

/-- A new state of the connection; the first `shutdownWrite` is recorded. -/
def setConn (s : SharedConnection) (conn : TcpConnection) : SharedConnection :=
  { s with
    conn := conn
    shutRecord :=
      match s.shutRecord with
      | some r => some r
      | none =>
          if conn.writeShut then some ⟨s.accepted, s.sent, conn.written⟩
          else none }

def sendInLoop (s : SharedConnection) (message : Bytes) (write : OpenWrite) :
    SharedConnection :=
  { s with
    conn := s.conn.sendInLoop message write
    sent := s.sent ++ [message] }

inductive Action
  | send (message : Bytes) (write : OpenWrite)
  | checkSend (message : Bytes)
  | queueSend (i : ℕ)
  | shutdown
  | checkShutdown
  | queueShutdown
  | functor (write : OpenWrite)
  | handleWrite (write : OpenWrite)

/-- One step: a call of the loop's thread, one half of a call of another
thread, a functor, or a handler.  An action that is not enabled changes
nothing. -/
def step (s : SharedConnection) : Action → SharedConnection
  | .send message write =>
      if s.conn.state = .kConnected then
        { s with accepted := s.accepted ++ [message] }.sendInLoop message write
      else s
  | .checkSend message =>
      if s.conn.state = .kConnected then
        { s with
          accepted := s.accepted ++ [message]
          sending := s.sending ++ [message] }
      else s
  | .queueSend i =>
      match s.sending[i]? with
      | none => s
      | some message =>
          { s with
            sending := s.sending.eraseIdx i
            functors := s.functors ++ [.sendInLoop message] }
  | .shutdown =>
      if s.conn.state = .kConnected then
        s.setConn (s.conn.setState .kDisconnecting).shutdownInLoop
      else s
  | .checkShutdown =>
      if s.conn.state = .kConnected then
        { s with conn := s.conn.setState .kDisconnecting, shutting := true }
      else s
  | .queueShutdown =>
      if s.shutting then
        { s with
          shutting := false
          functors := s.functors ++ [.shutdownInLoop] }
      else s
  | .functor write =>
      match s.functors with
      | [] => s
      | .sendInLoop message :: functors =>
          { s with functors := functors }.sendInLoop message write
      | .shutdownInLoop :: functors =>
          { s with functors := functors }.setConn s.conn.shutdownInLoop
  | .handleWrite write => s.setConn (s.conn.handleWrite write)

/-- The write side is closed, if at all, behind everything accepted. -/
def Graceful (s : SharedConnection) : Prop :=
  ∀ r, s.shutRecord = some r → r.Complete

/-- No accepted message is on its way to the loop. -/
def Settled (s : SharedConnection) : Prop := s.queued = [] ∧ s.sending = []

/-- The step calls `shutdownWrite`: a shutdown that finds the channel not
writing, or the write that empties the buffer of a connection that is being
shut down. -/
def ShutsWrite (s : SharedConnection) : Action → Prop
  | .shutdown =>
      s.conn.state = .kConnected ∧ s.conn.channel.isWriting = false
  | .functor _ =>
      s.functors.head? = some .shutdownInLoop ∧
        s.conn.channel.isWriting = false
  | .handleWrite write =>
      s.conn.state = .kDisconnecting ∧ s.conn.channel.isWriting = true ∧
        ∃ n, write.1 = .wrote (n + 1) ∧ s.conn.outputBuffer.length ≤ n + 1
  | _ => False

/-- If the step is the first to close the write side, then no accepted message
is on its way to the loop. -/
def ShutsSettled (s : SharedConnection) (a : Action) : Prop :=
  s.conn.writeShut = false → s.ShutsWrite a → s.Settled

end SharedConnection

namespace TcpConnection

variable {conn : TcpConnection} {sent : Bytes}

theorem Carries.flushes (h : conn.Carries sent)
    (hopen : conn.writeShut = false) : conn.Flushes where
  awaits := h.interest.mpr
  behind hshut := by simp [hopen] at hshut

theorem writeShut_shutdownInLoop (hopen : conn.writeShut = false) :
    conn.shutdownInLoop.writeShut = true ↔
      conn.channel.isWriting = false := by
  unfold shutdownInLoop
  split
  next hwriting => simp [hopen, hwriting]
  next hidle => simpa using hidle

/-- `handleWrite` closes the write side when it empties the buffer of a
connection that is being shut down. -/
theorem writeShut_handleWrite_iff (hopen : conn.writeShut = false)
    (result : WriteResult) :
    (conn.handleWrite result).writeShut = true ↔
      conn.state = .kDisconnecting ∧ conn.channel.isWriting = true ∧
        ∃ n, result = .wrote (n + 1) ∧ conn.outputBuffer.length ≤ n + 1 := by
  unfold handleWrite
  split
  next hwriting =>
    split
    next n =>
      have hidle : conn.channel.disableWriting.isWriting = false :=
        Channel.isWriting_update { conn.channel with writing := false }
      by_cases hempty : conn.outputBuffer.length ≤ n + 1
      · by_cases hstate : conn.state = .kDisconnecting
        · simp [hempty, hstate, hwriting, shutdownInLoop, hidle]
        · simp [hempty, hstate, hopen]
      · have hleft : (conn.outputBuffer.drop (n + 1)).isEmpty = false := by
          simpa using hempty
        simp [hleft, hopen, hempty]
    next hnone =>
      refine iff_of_false (by simp [hopen]) ?_
      rintro ⟨-, -, n, hresult, -⟩
      exact hnone n hresult
  next hwriting => simp [hopen, hwriting]

theorem writeShut_shutdownInLoop_of_shut (hshut : conn.writeShut = true) :
    conn.shutdownInLoop.writeShut = true := by
  unfold shutdownInLoop
  split
  · exact hshut
  · rfl

theorem writeShut_handleWrite_of_shut (hshut : conn.writeShut = true)
    (result : WriteResult) : (conn.handleWrite result).writeShut = true := by
  unfold handleWrite
  split
  · split
    · dsimp only
      split
      · split
        · exact writeShut_shutdownInLoop_of_shut hshut
        · exact hshut
      · exact hshut
    · exact hshut
  · exact hshut

end TcpConnection

namespace SharedConnection

variable {s : SharedConnection} {conn : TcpConnection}

/-! ## What every step keeps -/

/-- The accepted messages are sent, queued, or about to be queued. -/
structure Sound (s : SharedConnection) : Prop where
  carries : s.conn.Carries s.sent.flatten
  accounts : (s.sent ++ s.queued ++ s.sending).Perm s.accepted
  record : s.shutRecord.isSome = s.conn.writeShut

theorem sound_init : Sound {} :=
  ⟨TcpConnection.carries_established, .nil, rfl⟩

/-- A state of the connection that carries the same messages. -/
theorem Sound.setConn (h : s.Sound) (hcarries : conn.Carries s.sent.flatten)
    (hstays : s.conn.writeShut = true → conn.writeShut = true) :
    (s.setConn conn).Sound := by
  refine ⟨hcarries, h.accounts, ?_⟩
  unfold SharedConnection.setConn
  have hrecord := h.record
  cases hr : s.shutRecord with
  | some r =>
      rw [hr] at hrecord
      simp [hstays hrecord.symm]
  | none => cases hshut : conn.writeShut <;> simp

theorem Sound.sendInLoop (h : s.Sound) {message : Bytes}
    {accepted : List Bytes} {functors : List OutputFunctor}
    (haccounts : ((s.sent ++ [message]) ++
      functors.filterMap OutputFunctor.message? ++ s.sending).Perm accepted)
    (write : OpenWrite) :
    (SharedConnection.sendInLoop
      { s with accepted := accepted, functors := functors } message
        write).Sound where
  carries := by
    simpa [SharedConnection.sendInLoop] using
      h.carries.sendInLoop message write.2
  accounts := haccounts
  record := h.record.trans (TcpConnection.writeShut_sendInLoop ..).symm

theorem Sound.step (h : s.Sound) (a : Action) : (s.step a).Sound := by
  cases a with
  | send message write =>
      simp only [SharedConnection.step]
      split
      · apply h.sendInLoop
        have hperm := h.accounts.append_right [message]
        simp only [List.append_assoc] at hperm ⊢
        refine (List.Perm.append_left _ ?_).trans hperm
        exact List.perm_append_comm.trans (by simp [queued])
      · exact h
  | checkSend message =>
      simp only [SharedConnection.step]
      split
      · refine ⟨h.carries, ?_, h.record⟩
        have hperm := h.accounts.append_right [message]
        rwa [List.append_assoc] at hperm
      · exact h
  | queueSend i =>
      simp only [SharedConnection.step]
      split
      · exact h
      next message hmessage =>
        refine ⟨h.carries, ?_, h.record⟩
        obtain ⟨hi, hget⟩ := List.getElem?_eq_some_iff.mp hmessage
        have hpick := List.getElem_cons_eraseIdx_perm hi
        rw [hget] at hpick
        have hmoved := (hpick.append_left s.queued).append_left s.sent
        rw [← List.append_assoc s.sent] at hmoved
        simpa [queued, List.filterMap_cons] using
          hmoved.trans (by simpa using h.accounts)
  | shutdown =>
      simp only [SharedConnection.step]
      split
      · exact h.setConn h.carries.setDisconnecting.shutdownInLoop
          fun hshut =>
            TcpConnection.writeShut_shutdownInLoop_of_shut hshut
      · exact h
  | checkShutdown =>
      simp only [SharedConnection.step]
      split
      · exact ⟨h.carries.setDisconnecting, h.accounts, h.record⟩
      · exact h
  | queueShutdown =>
      simp only [SharedConnection.step]
      split
      · refine ⟨h.carries, ?_, h.record⟩
        simpa [queued, List.filterMap_cons] using h.accounts
      · exact h
  | functor write =>
      simp only [SharedConnection.step]
      split
      · exact h
      next message functors hfunctors =>
        apply h.sendInLoop
        simpa [queued, hfunctors, List.filterMap_cons] using h.accounts
      next functors hfunctors =>
        have hrest : Sound { s with functors := functors } := by
          refine ⟨h.carries, ?_, h.record⟩
          simpa [queued, hfunctors, List.filterMap_cons] using h.accounts
        exact hrest.setConn h.carries.shutdownInLoop
          TcpConnection.writeShut_shutdownInLoop_of_shut
  | handleWrite write =>
      exact h.setConn (h.carries.handleWrite write) fun hshut =>
        TcpConnection.writeShut_handleWrite_of_shut hshut write

/-! ## The record -/

/-- The first record stays. -/
theorem shutRecord_step {r : ShutRecord} (h : s.shutRecord = some r)
    (a : Action) : (s.step a).shutRecord = some r := by
  cases a with
  | send message write => simp only [step]; split <;> exact h
  | checkSend message => simp only [step]; split <;> exact h
  | queueSend i => simp only [step]; split <;> exact h
  | shutdown => simp only [step]; split <;> simp [setConn, h]
  | checkShutdown => simp only [step]; split <;> exact h
  | queueShutdown => simp only [step]; split <;> exact h
  | functor write =>
      simp only [step]
      split
      · exact h
      · exact h
      · simp [setConn, h]
  | handleWrite write => simp [step, setConn, h]

theorem Sound.shutRecord_eq_none (h : s.Sound)
    (hopen : s.conn.writeShut = false) : s.shutRecord = none := by
  simpa [hopen] using h.record

/-- The write side is closed for the first time: the messages that are not on
their way are sent, and those that are not sent are on their way. -/
theorem Sound.graceful_setConn_iff (h : s.Sound)
    (hopen : s.conn.writeShut = false) (hshut : conn.writeShut = true)
    (hwritten : conn.written = s.sent.flatten) :
    (s.setConn conn).Graceful ↔ s.Settled := by
  have hrecord : (s.setConn conn).shutRecord =
      some ⟨s.accepted, s.sent, conn.written⟩ := by
    simp [SharedConnection.setConn, h.shutRecord_eq_none hopen, hshut]
  constructor
  · intro hgraceful
    have hlength := (hgraceful _ hrecord).sent.length_eq
    have haccounts := h.accounts.length_eq
    simp only [List.length_append] at haccounts hlength
    exact ⟨List.eq_nil_of_length_eq_zero (by omega),
      List.eq_nil_of_length_eq_zero (by omega)⟩
  · rintro ⟨hqueued, hsending⟩ r hr
    rw [hrecord] at hr
    cases hr
    refine ⟨?_, hwritten⟩
    simpa [hqueued, hsending] using h.accounts

/-- A state of the connection whose write side is as before. -/
theorem Sound.graceful_setConn (h : s.Sound) (hgraceful : s.Graceful)
    (hsame : s.conn.writeShut = true ∨ conn.writeShut = false) :
    (s.setConn conn).Graceful := by
  have hrecord : (s.setConn conn).shutRecord = s.shutRecord := by
    unfold SharedConnection.setConn
    cases hr : s.shutRecord with
    | some r => rfl
    | none =>
        rcases hsame with hshut | hopen
        · have hsome := h.record
          simp [hr, hshut] at hsome
        · simp [hopen]
  unfold Graceful
  rw [hrecord]
  exact hgraceful

/-- A change of the connection that keeps what it carries, and closes the
write side only when the buffer is empty. -/
theorem Sound.setConn_graceful_iff (h : s.Sound) (hgraceful : s.Graceful)
    (hcarries : conn.Carries s.sent.flatten) (hflushes : conn.Flushes) :
    s.conn.writeShut = false →
      ((s.setConn conn).Graceful ↔ (conn.writeShut = true → s.Settled)) := by
  intro hopen
  cases hshut : conn.writeShut with
  | false =>
      simpa using h.graceful_setConn hgraceful (.inr hshut)
  | true =>
      have hwritten : conn.written = s.sent.flatten := by
        rw [← hcarries.stream, hflushes.behind hshut, List.append_nil]
      simpa using h.graceful_setConn_iff hopen hshut hwritten

/-- A step that neither closes the write side nor touches the record. -/
theorem graceful_step_of_idle (hgraceful : s.Graceful) {a : Action}
    (hrecord : (s.step a).shutRecord = s.shutRecord)
    (hnot : ¬ s.ShutsWrite a) : (s.step a).Graceful ↔ s.ShutsSettled a := by
  refine iff_of_true ?_ fun _ hshuts => absurd hshuts hnot
  unfold Graceful
  rw [hrecord]
  exact hgraceful

theorem Sound.graceful_shutdown_iff (h : s.Sound) (hgraceful : s.Graceful)
    (hopen : s.conn.writeShut = false) :
    (s.step .shutdown).Graceful ↔ s.ShutsSettled .shutdown := by
  by_cases hstate : s.conn.state = .kConnected
  · have hcarries := h.carries.setDisconnecting.shutdownInLoop
    have hflush :=
      ((h.carries.flushes hopen).setState .kDisconnecting).shutdownInLoop
    have hshut :
        (s.conn.setState .kDisconnecting).shutdownInLoop.writeShut = true ↔
          s.conn.channel.isWriting = false :=
      TcpConnection.writeShut_shutdownInLoop hopen
    simp only [SharedConnection.step, hstate, if_true,
      h.setConn_graceful_iff hgraceful hcarries hflush hopen, hshut]
    simp [ShutsSettled, ShutsWrite, hopen, hstate]
  · apply graceful_step_of_idle hgraceful
    · simp only [SharedConnection.step, hstate, if_false]
    · exact fun hshuts => hstate hshuts.1

theorem Sound.graceful_functor_iff (h : s.Sound) (hgraceful : s.Graceful)
    (hopen : s.conn.writeShut = false) (write : OpenWrite) :
    (s.step (.functor write)).Graceful ↔ s.ShutsSettled (.functor write) := by
  cases hfunctors : s.functors with
  | nil =>
      apply graceful_step_of_idle hgraceful
      · simp only [SharedConnection.step, hfunctors]
      · simp [ShutsWrite, hfunctors]
  | cons f functors =>
      cases f with
      | sendInLoop message =>
          apply graceful_step_of_idle hgraceful
          · simp only [SharedConnection.step, hfunctors]
            rfl
          · simp [ShutsWrite, hfunctors]
      | shutdownInLoop =>
          have hqueued : queued { s with functors := functors } =
              s.queued := by
            simp [queued, hfunctors, List.filterMap_cons]
          have hrest : Sound { s with functors := functors } := by
            refine ⟨h.carries, ?_, h.record⟩
            rw [hqueued]
            exact h.accounts
          simp only [SharedConnection.step, hfunctors]
          rw [hrest.setConn_graceful_iff hgraceful h.carries.shutdownInLoop
            (h.carries.flushes hopen).shutdownInLoop hopen,
            TcpConnection.writeShut_shutdownInLoop hopen]
          simp [ShutsSettled, ShutsWrite, hopen, hfunctors, Settled, hqueued]

theorem Sound.graceful_handleWrite_iff (h : s.Sound)
    (hgraceful : s.Graceful) (hopen : s.conn.writeShut = false)
    (write : OpenWrite) :
    (s.step (.handleWrite write)).Graceful ↔
      s.ShutsSettled (.handleWrite write) := by
  simp only [SharedConnection.step,
    h.setConn_graceful_iff hgraceful (h.carries.handleWrite write)
      ((h.carries.flushes hopen).handleWrite write) hopen,
    TcpConnection.writeShut_handleWrite_iff hopen]
  simp [ShutsSettled, ShutsWrite, hopen]

/-- A step leaves the shutdown graceful exactly when it does not close the
write side in front of something. -/
theorem Sound.graceful_step_iff (h : s.Sound) (hgraceful : s.Graceful)
    (a : Action) : (s.step a).Graceful ↔ s.ShutsSettled a := by
  cases hwas : s.conn.writeShut with
  | true =>
      have hsome : ∃ r, s.shutRecord = some r := by
        rw [← Option.isSome_iff_exists, h.record, hwas]
      obtain ⟨r, hr⟩ := hsome
      refine iff_of_true ?_ fun hopen => by simp [hwas] at hopen
      intro r' hr'
      rw [shutRecord_step hr a, ← hr] at hr'
      exact hgraceful r' hr'
  | false =>
      cases a with
      | send message write =>
          refine graceful_step_of_idle hgraceful ?_ id
          simp only [SharedConnection.step]
          split <;> rfl
      | checkSend message =>
          refine graceful_step_of_idle hgraceful ?_ id
          simp only [SharedConnection.step]
          split <;> rfl
      | queueSend i =>
          refine graceful_step_of_idle hgraceful ?_ id
          simp only [SharedConnection.step]
          split <;> rfl
      | shutdown => exact h.graceful_shutdown_iff hgraceful hwas
      | checkShutdown =>
          refine graceful_step_of_idle hgraceful ?_ id
          simp only [SharedConnection.step]
          split <;> rfl
      | queueShutdown =>
          refine graceful_step_of_idle hgraceful ?_ id
          simp only [SharedConnection.step]
          split <;> rfl
      | functor write => exact h.graceful_functor_iff hgraceful hwas write
      | handleWrite write =>
          exact h.graceful_handleWrite_iff hgraceful hwas write

end SharedConnection

/-- In a run, the write side is closed behind all that `send` accepted if and
only if every step that closes it finds no accepted message on its way to the
loop. -/
theorem graceful_run_iff (actions : List SharedConnection.Action) :
    (run SharedConnection.step {} actions).Graceful ↔
      EveryStep SharedConnection.step SharedConnection.ShutsSettled {}
        actions := by
  have h := not_damaged_run_iff SharedConnection.step
    SharedConnection.ShutsSettled (fun s => s.Sound ∧ s.Graceful)
    (fun s => ¬ s.Graceful)
    (fun s a h ha => ⟨h.1.step a, (h.1.graceful_step_iff h.2 a).mpr ha⟩)
    (fun s a h ha => fun hgraceful =>
      ha ((h.1.graceful_step_iff h.2 a).mp hgraceful))
    (fun s a hnot hgraceful => hnot fun r hr =>
      hgraceful r (SharedConnection.shutRecord_step hr a))
    (fun s h => not_not_intro h.2)
    ⟨SharedConnection.sound_init, by simp [SharedConnection.Graceful]⟩ actions
  rwa [not_not] at h

/-! ## A shutdown in the loop -/

/-- Another thread has queued its message when the loop's thread shuts the
connection down. -/
def shutdownBeforeFunctor : List SharedConnection.Action :=
  [.checkSend (ascii "bye"), .queueSend 0, .shutdown]

theorem not_graceful_shutdownBeforeFunctor :
    ¬ (run SharedConnection.step {} shutdownBeforeFunctor).Graceful := by
  intro h
  have hperm := (h ⟨[ascii "bye"], [], []⟩ rfl).sent
  exact absurd hperm.length_eq (by decide)

end MuduoHttp
