import MuduoHttp.Net.OutputStream
import MuduoHttp.Net.Serving

/-!
# The output of a connection

What was passed to `sendInLoop` is in the kernel or in the output buffer, and
what another thread sends waits before that in the functors of the loop.  Only
`send` adds to the two, and only a functor that sends takes something from the
second to the first.
-/

namespace MuduoHttp

instance : DecidablePred WriteResult.PeerThere
  | .wrote _ => .isTrue trivial
  | .failed _ => inferInstanceAs (Decidable (_ ∧ _))

namespace TcpConnection

variable {conn : TcpConnection}

/-- What `sendInLoop` has taken. -/
def sent (conn : TcpConnection) : Bytes := conn.written ++ conn.outputBuffer

theorem sent_appendOutput (conn : TcpConnection) (remaining : Bytes) :
    (conn.appendOutput remaining).sent = conn.sent ++ remaining := by
  unfold appendOutput
  split
  next hnil => rw [hnil, List.append_nil]
  · dsimp only
    split <;> simp [sent]

/-- As long as the peer is there, `sendInLoop` takes the whole message. -/
theorem sent_sendInLoop (hstate : conn.state ≠ .kDisconnected)
    (message : Bytes) {write : WriteResult} (hwrite : write.PeerThere) :
    (conn.sendInLoop message write).sent = conn.sent ++ message := by
  unfold sendInLoop
  rw [if_neg hstate]
  split
  next hquiet =>
    have hempty : conn.outputBuffer = [] := by
      simpa using (Bool.and_eq_true_iff.mp hquiet).2
    cases write with
    | wrote n =>
        rw [sent_appendOutput]
        simp [sent, hempty]
    | failed errno =>
        dsimp only
        rw [if_neg (not_or.mpr hwrite)]
        exact sent_appendOutput conn message
  · exact sent_appendOutput conn message

theorem sendInLoop_of_kDisconnected (hstate : conn.state = .kDisconnected)
    (message : Bytes) (write : WriteResult) :
    conn.sendInLoop message write = conn :=
  if_pos hstate

theorem sent_shutdownInLoop (conn : TcpConnection) :
    conn.shutdownInLoop.sent = conn.sent := by
  unfold shutdownInLoop
  split <;> rfl

/-- The kernel takes from the buffer what it then has. -/
theorem sent_handleWrite (conn : TcpConnection) (write : WriteResult) :
    (conn.handleWrite write).sent = conn.sent := by
  unfold handleWrite
  split
  · split
    next n =>
      have hmoved : (conn.written ++ conn.outputBuffer.take (n + 1)) ++
          conn.outputBuffer.drop (n + 1) = conn.sent := by
        rw [List.append_assoc, List.take_append_drop, sent]
      dsimp only
      split
      · split
        · exact (sent_shutdownInLoop _).trans hmoved
        · exact hmoved
      · exact hmoved
    · rfl
  · rfl

end TcpConnection

/-- The message of a functor that sends. -/
def IoFunctor.message? : IoFunctor → Option Bytes
  | .sendInLoop message => some message
  | _ => none

namespace Session

variable {oneLoop : Bool} {s s' s'' : Session}

/-- The messages that wait for the loop. -/
def waiting (s : Session) : List Bytes :=
  s.ioFunctors.filterMap IoFunctor.message?

theorem waiting_eq_nil_iff :
    s.waiting = [] ↔ ∀ message, .sendInLoop message ∉ s.ioFunctors := by
  constructor
  · intro hnil message hmem
    have hwaits : message ∈ s.waiting :=
      List.mem_filterMap.mpr ⟨_, hmem, rfl⟩
    rw [hnil] at hwaits
    cases hwaits
  · intro hnone
    rw [waiting, List.filterMap_eq_nil_iff]
    intro f hf
    cases f with
    | sendInLoop message => exact absurd hf (hnone message)
    | connectEstablished => rfl
    | shutdownInLoop => rfl
    | addTimerInLoop => rfl
    | forceCloseInLoop => rfl
    | connectDestroyed => rfl

/-- `send` has taken the message: in the loop it is behind what was sent, and
from another thread it waits behind what waits. -/
structure Takes (s s' : Session) (inLoop : Bool) (message : Bytes) : Prop where
  sent : s'.conn.sent =
    if inLoop then s.conn.sent ++ message else s.conn.sent
  waiting : s'.waiting = if inLoop then s.waiting else s.waiting ++ [message]

theorem send_of_ne (hstate : s.conn.state ≠ .kConnected) (inLoop : Bool)
    (write : WriteResult) (message : Bytes) :
    s.call inLoop write (.send message) = s :=
  if_neg hstate

/-- A connection that is connected takes what is sent on it, unless the peer
turns out to be gone. -/
theorem takes_send (hstate : s.conn.state = .kConnected) (inLoop : Bool)
    {write : WriteResult} (hwrite : write.PeerThere) (message : Bytes) :
    s.Takes (s.call inLoop write (.send message)) inLoop message := by
  have hne : s.conn.state ≠ .kDisconnected := by simp [hstate]
  simp only [call, hstate, if_true]
  cases inLoop with
  | true => exact ⟨TcpConnection.sent_sendInLoop hne message hwrite, rfl⟩
  | false =>
      exact ⟨rfl, by simp [waiting, queueInLoop, IoFunctor.message?]⟩

theorem state_send (s : Session) (inLoop : Bool) (write : WriteResult)
    (message : Bytes) :
    (s.call inLoop write (.send message)).conn.state = s.conn.state := by
  simp only [call]
  split
  · cases inLoop with
    | true => exact (TcpConnection.keepsOpen_sendInLoop ..).state_eq
    | false => rfl
  · rfl

theorem connectEstablished_mem_send {inLoop : Bool} {write : WriteResult}
    {message : Bytes}
    (h : .connectEstablished ∈
      (s.call inLoop write (.send message)).ioFunctors) :
    .connectEstablished ∈ s.ioFunctors := by
  simp only [call] at h
  split at h
  · cases inLoop with
    | true => exact h
    | false => simpa [queueInLoop] using h
  · exact h

/-! ## Quiet steps -/

/-- A step that sends nothing.  The connection may be shut down or go down, but
it is not established. -/
structure Quiet (s s' : Session) : Prop where
  sent : s'.conn.sent = s.conn.sent
  waiting : s'.waiting = s.waiting
  connected : s'.conn.state = .kConnected → s.conn.state = .kConnected
  alive : s'.conn.state ≠ .kDisconnected → s.conn.state ≠ .kDisconnected
  established : .connectEstablished ∈ s'.ioFunctors →
    .connectEstablished ∈ s.ioFunctors

theorem Quiet.refl (s : Session) : s.Quiet s := ⟨rfl, rfl, id, id, id⟩

theorem Quiet.trans (h : s.Quiet s') (h' : s'.Quiet s'') : s.Quiet s'' where
  sent := h'.sent.trans h.sent
  waiting := h'.waiting.trans h.waiting
  connected hstate := h.connected (h'.connected hstate)
  alive hstate := h.alive (h'.alive hstate)
  established hmem := h.established (h'.established hmem)

/-- The connection stays in its state. -/
theorem quiet_of_state (hsent : s'.conn.sent = s.conn.sent)
    (hstate : s'.conn.state = s.conn.state)
    (hfunctors : s'.ioFunctors = s.ioFunctors) : s.Quiet s' where
  sent := hsent
  waiting := by rw [waiting, hfunctors, waiting]
  connected h := hstate.symm.trans h
  alive h := fun hdown => h (hstate.trans hdown)
  established h := hfunctors ▸ h

theorem quiet_queueInLoop (s : Session) {f : IoFunctor}
    (hsend : f.message? = none) (hestablish : f ≠ .connectEstablished) :
    s.Quiet (s.queueInLoop f) where
  sent := rfl
  waiting := by simp [waiting, queueInLoop, hsend]
  connected := id
  alive := id
  established h := by
    rcases List.mem_append.mp h with h | h
    · exact h
    · exact absurd (List.mem_singleton.mp h).symm hestablish

theorem quiet_dequeue {f : IoFunctor} {functors : List IoFunctor}
    (hfunctors : s.ioFunctors = f :: functors) (hsend : f.message? = none) :
    s.Quiet { s with ioFunctors := functors } where
  sent := rfl
  waiting := by simp [waiting, hfunctors, hsend]
  connected := id
  alive := id
  established h := hfunctors ▸ List.mem_cons_of_mem _ h

/-- A connection that can be closed is shut down. -/
theorem quiet_disconnecting (halive : s.conn.state.Alive) :
    s.Quiet { s with conn := s.conn.setState .kDisconnecting } where
  sent := rfl
  waiting := rfl
  connected h := by cases h
  alive _ hdown := by simp [StateE.Alive, hdown] at halive
  established := id

theorem quiet_removeConnectionInLoop (s : Session) :
    s.Quiet s.removeConnectionInLoop := by
  have hrecorded :
      s.Quiet { s.record (.erased s.entries) with entries := 0 } :=
    quiet_of_state rfl rfl rfl
  exact hrecorded.trans (quiet_queueInLoop _ rfl (by decide))

theorem quiet_handleClose (oneLoop : Bool) (s : Session) :
    s.Quiet (s.handleClose oneLoop) := by
  have hclosed : s.Quiet
      (({ s with
        conn := { s.conn with channel := s.conn.channel.disableAll } }).record
          .closeCallback) :=
    quiet_of_state rfl rfl rfl
  cases oneLoop with
  | true => exact hclosed.trans (quiet_removeConnectionInLoop _)
  | false => exact hclosed.trans (quiet_of_state rfl rfl rfl)

theorem quiet_forceClose (s : Session) : s.Quiet s.forceClose := by
  unfold forceClose
  split
  next halive =>
    exact (quiet_disconnecting halive).trans
      (quiet_queueInLoop _ rfl (by decide))
  · exact .refl s

theorem quiet_shutdown (s : Session) (inLoop : Bool) (write : WriteResult) :
    s.Quiet (s.call inLoop write .shutdown) := by
  simp only [call]
  split
  next hstate =>
    have hdisconnecting := quiet_disconnecting (s := s) (.inl hstate)
    cases inLoop with
    | true =>
        refine hdisconnecting.trans (quiet_of_state ?_ ?_ rfl)
        · exact TcpConnection.sent_shutdownInLoop _
        · exact (TcpConnection.keepsOpen_shutdownInLoop _).state_eq
    | false =>
        exact hdisconnecting.trans (quiet_queueInLoop _ rfl (by decide))
  · exact .refl s

theorem quiet_forceCloseWithDelay (s : Session) (inLoop : Bool)
    (write : WriteResult) :
    s.Quiet (s.call inLoop write .forceCloseWithDelay) := by
  simp only [call]
  split
  next halive =>
    have hdisconnecting := quiet_disconnecting halive
    cases inLoop with
    | true => exact hdisconnecting.trans (quiet_of_state rfl rfl rfl)
    | false =>
        exact hdisconnecting.trans (quiet_queueInLoop _ rfl (by decide))
  · exact .refl s

theorem quiet_runHandler (s : Session) (read : ReadResult)
    (write : WriteResult) (handler : Handler) :
    s.Quiet (runHandler oneLoop s read write handler) := by
  cases handler with
  | handleClose => exact quiet_handleClose oneLoop s
  | handleError => exact .refl s
  | handleRead =>
      cases read with
      | data => exact .refl s
      | eof => exact quiet_handleClose oneLoop s
      | error => exact .refl s
  | handleWrite =>
      exact quiet_of_state (TcpConnection.sent_handleWrite _ _)
        (TcpConnection.keepsOpen_handleWrite _ _).state_eq rfl

/-- Functors other than the one that establishes the connection and those that
send. -/
theorem quiet_runIoFunctor {f : IoFunctor} {functors : List IoFunctor}
    (hfunctors : s.ioFunctors = f :: functors) (hsend : f.message? = none)
    (hestablish : f ≠ .connectEstablished) (write : WriteResult) :
    s.Quiet (runIoFunctor oneLoop { s with ioFunctors := functors } write
      f) := by
  have hrest := quiet_dequeue hfunctors hsend
  cases f with
  | connectEstablished => exact absurd rfl hestablish
  | sendInLoop message => cases hsend
  | shutdownInLoop =>
      exact hrest.trans (quiet_of_state (TcpConnection.sent_shutdownInLoop _)
        (TcpConnection.keepsOpen_shutdownInLoop _).state_eq rfl)
  | addTimerInLoop => exact hrest.trans (quiet_of_state rfl rfl rfl)
  | forceCloseInLoop =>
      simp only [runIoFunctor, forceCloseInLoop]
      split
      · exact hrest.trans (quiet_handleClose oneLoop _)
      · exact hrest
  | connectDestroyed =>
      refine hrest.trans ⟨rfl, rfl, fun h => ?_, fun h => ?_, id⟩
      · cases h
      · exact absurd rfl h

/-- A step of the connection is quiet, establishes it, or sends what has
waited. -/
theorem step_cases (s : Session) (oneLoop : Bool) {a : Action}
    (ha : a.IsOwn) :
    s.Quiet (s.step oneLoop a) ∨
      (∃ functors, s.ioFunctors = .connectEstablished :: functors ∧
        s.step oneLoop a =
          { s with ioFunctors := functors }.connectEstablished) ∨
      ∃ write message functors, a = .ioFunctor write ∧
        s.ioFunctors = .sendInLoop message :: functors ∧
        s.step oneLoop a =
          { s with
            ioFunctors := functors
            conn := s.conn.sendInLoop message write } := by
  cases a with
  | poll revents =>
      left
      simp only [step]
      split
      · exact quiet_of_state rfl rfl rfl
      · exact .refl s
  | handler read write =>
      left
      simp only [step]
      split
      · exact .refl s
      next handler handlers _ =>
        have hrest : s.Quiet { s with handlers := handlers } :=
          quiet_of_state rfl rfl rfl
        exact hrest.trans (quiet_runHandler _ read write handler)
  | ioFunctor write =>
      by_cases hidle : s.handlers = []
      · by_cases hnil : s.ioFunctors = []
        · left
          simp only [step, hidle, hnil]
          exact .refl s
        · obtain ⟨f, functors, hfunctors⟩ := List.exists_cons_of_ne_nil hnil
          rw [step_ioFunctor hidle hfunctors]
          by_cases hestablish : f = .connectEstablished
          · subst hestablish
            exact .inr (.inl ⟨functors, hfunctors, rfl⟩)
          cases hsend : f.message? with
          | none =>
              exact .inl
                (quiet_runIoFunctor hfunctors hsend hestablish write)
          | some message =>
              have hf : f = .sendInLoop message := by
                cases f <;> simp_all [IoFunctor.message?]
              subst hf
              exact .inr (.inr ⟨write, message, functors, rfl, hfunctors, rfl⟩)
      · left
        have hsame : s.step oneLoop (.ioFunctor write) = s := by
          cases hhandlers : s.handlers with
          | nil => exact absurd hhandlers hidle
          | cons handler handlers => simp only [step, hhandlers]
        rw [hsame]
        exact .refl s
  | acceptorFunctor =>
      left
      simp only [step]
      split
      · exact .refl s
      · have hrest : s.Quiet { s with removals := s.removals - 1 } :=
          quiet_of_state rfl rfl rfl
        exact hrest.trans (quiet_removeConnectionInLoop _)
  | timer =>
      left
      simp only [step]
      split
      · exact .refl s
      · have hrest : s.Quiet { s with timers := s.timers - 1 } :=
          quiet_of_state rfl rfl rfl
        exact hrest.trans (quiet_forceClose _)
  | call inLoop write c => exact ha.elim

end Session

end MuduoHttp
