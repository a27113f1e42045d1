import MuduoHttp.Net.Session

/-!
# Connections that nobody has closed

A connection is established, then it serves, and once the server shuts it
down it never serves again.  Its own steps change nothing of that until it is
closed from outside.  The write side is closed behind the output: nothing that
the loop has taken is left to write when it is closed.
-/

namespace MuduoHttp

namespace TcpConnection

variable {conn : TcpConnection}

/-- Output in the buffer waits for the socket, and there is none when the
write side is closed. -/
structure Flushes (conn : TcpConnection) : Prop where
  awaits : conn.outputBuffer ≠ [] → conn.channel.isWriting = true
  behind : conn.writeShut = true → conn.outputBuffer = []

theorem writeShut_appendOutput (conn : TcpConnection) (remaining : Bytes) :
    (conn.appendOutput remaining).writeShut = conn.writeShut := by
  unfold appendOutput
  split
  · rfl
  · dsimp only
    split <;> rfl

theorem writeShut_sendInLoop (conn : TcpConnection) (data : Bytes)
    (result : WriteResult) :
    (conn.sendInLoop data result).writeShut = conn.writeShut := by
  unfold sendInLoop
  split
  · rfl
  · split
    · cases result with
      | wrote n => exact writeShut_appendOutput _ _
      | failed errno =>
          dsimp only
          split
          · rfl
          · exact writeShut_appendOutput _ _
    · exact writeShut_appendOutput _ _

/-- Only a connection that is being shut down closes its write side when the
output is written. -/
theorem writeShut_handleWrite (hstate : conn.state ≠ .kDisconnecting)
    (result : WriteResult) :
    (conn.handleWrite result).writeShut = conn.writeShut := by
  unfold handleWrite
  split
  · split
    · dsimp only
      split
      · rfl
      · rfl
    · rfl
  · rfl

theorem Flushes.appendOutput (h : conn.Flushes)
    (hopen : conn.writeShut = false) (remaining : Bytes) :
    (conn.appendOutput remaining).Flushes := by
  refine ⟨?_, fun hshut => ?_⟩
  · unfold TcpConnection.appendOutput
    split
    · exact h.awaits
    · dsimp only
      split
      next hwriting => exact fun _ => hwriting
      · exact fun _ => Channel.isWriting_enableWriting _
  · rw [writeShut_appendOutput, hopen] at hshut
    cases hshut

theorem Flushes.sendInLoop (h : conn.Flushes)
    (hopen : conn.writeShut = false) (data : Bytes) (result : WriteResult) :
    (conn.sendInLoop data result).Flushes := by
  unfold TcpConnection.sendInLoop
  split
  · exact h
  · split
    · cases result with
      | wrote n =>
          have hwritten : TcpConnection.Flushes
              { conn with written := conn.written ++ data.take n } :=
            ⟨h.awaits, h.behind⟩
          exact hwritten.appendOutput hopen _
      | failed errno =>
          dsimp only
          split
          · exact h
          · exact h.appendOutput hopen _
    · exact h.appendOutput hopen _

theorem Flushes.setState (h : conn.Flushes) (state : StateE) :
    (conn.setState state).Flushes := ⟨h.awaits, h.behind⟩

theorem Flushes.shutdownInLoop (h : conn.Flushes) :
    conn.shutdownInLoop.Flushes := by
  unfold TcpConnection.shutdownInLoop
  split
  · exact h
  next hidle =>
    refine ⟨h.awaits, ?_⟩
    intro _
    by_contra hne
    exact hidle (h.awaits hne)

theorem Flushes.handleWrite (h : conn.Flushes) (result : WriteResult) :
    (conn.handleWrite result).Flushes := by
  unfold TcpConnection.handleWrite
  split
  next hwriting =>
    split
    next n =>
      dsimp only
      split
      next hempty =>
        have hnil : conn.outputBuffer.drop (n + 1) = [] := by
          simpa using hempty
        have hdone : TcpConnection.Flushes
            { conn with
              written := conn.written ++ conn.outputBuffer.take (n + 1)
              outputBuffer := conn.outputBuffer.drop (n + 1)
              channel := conn.channel.disableWriting } :=
          ⟨fun hne => absurd hnil hne, fun _ => hnil⟩
        split
        · exact hdone.shutdownInLoop
        · exact hdone
      · exact ⟨fun _ => hwriting, fun hshut => by simp [h.behind hshut]⟩
    · exact h
  · exact h

end TcpConnection

namespace Session

/-- The connection is open, and nothing was done to close it. -/
structure Untouched (s : Session) : Prop where
  timers : s.timers = 0
  removals : s.removals = 0
  entries : s.entries = 1
  flushes : s.conn.Flushes

/-- The connection waits for `connectEstablished`. -/
structure Establishing (s : Session) : Prop extends s.Untouched where
  state : s.conn.state = .kConnecting
  functors : s.ioFunctors = [.connectEstablished]
  writeShut : s.conn.writeShut = false

/-- The connection is connected, and only output waits in its loop. -/
structure Serving (s : Session) : Prop extends s.Untouched where
  state : s.conn.state = .kConnected
  functors : ∀ f ∈ s.ioFunctors, ∃ message, f = .sendInLoop message
  writeShut : s.conn.writeShut = false

/-- The server has shut the connection down, and nothing waits in its loop. -/
structure ShuttingDown (s : Session) : Prop extends s.Untouched where
  state : s.conn.state = .kDisconnecting
  functors : s.ioFunctors = []

/-- The connection was closed. -/
def Closed (s : Session) : Prop := .closeCallback ∈ s.log

/-- The action is not a call of a member function. -/
def Action.IsOwn : Action → Prop
  | .call _ _ _ => False
  | _ => True

variable {oneLoop : Bool} {s : Session} {a : Action}

theorem Closed.step (h : s.Closed) (a : Action) : (s.step oneLoop a).Closed :=
  (log_prefix_step oneLoop s a).subset h

theorem closed_handleClose (s : Session) : (s.handleClose oneLoop).Closed := by
  simp [Closed]

/-- The steps of an open connection: it is closed, or it goes on with its
handlers, writes some output, or runs its next functor. -/
theorem Untouched.step_cases {P : Session → Prop} (h : s.Untouched)
    (ha : a.IsOwn)
    (hhandlers : ∀ handlers, P { s with handlers := handlers })
    (hwrite : ∀ handlers write,
      P { s with handlers := handlers, conn := s.conn.handleWrite write })
    (hfunctor : ∀ functor functors write, s.ioFunctors = functor :: functors →
      P (runIoFunctor oneLoop { s with ioFunctors := functors } write
        functor)) :
    P (s.step oneLoop a) ∨ (s.step oneLoop a).Closed := by
  cases a with
  | poll revents =>
      simp only [Session.step]
      split
      · exact .inl (hhandlers _)
      · exact .inl (hhandlers s.handlers)
  | handler read write =>
      simp only [Session.step]
      split
      · exact .inl (hhandlers s.handlers)
      next handler handlers _ =>
        cases handler with
        | handleClose => exact .inr (closed_handleClose _)
        | handleError => exact .inl (hhandlers _)
        | handleRead =>
            cases read with
            | data => exact .inl (hhandlers _)
            | eof => exact .inr (closed_handleClose _)
            | error => exact .inl (hhandlers _)
        | handleWrite => exact .inl (hwrite _ _)
  | ioFunctor write =>
      cases hidle : s.handlers with
      | cons handler handlers =>
          simp only [Session.step, hidle]
          exact .inl (hhandlers s.handlers)
      | nil =>
          cases hfunctors : s.ioFunctors with
          | nil =>
              simp only [Session.step, hidle, hfunctors]
              exact .inl (hhandlers s.handlers)
          | cons functor functors =>
              rw [step_ioFunctor hidle hfunctors]
              exact .inl (hfunctor _ _ _ hfunctors)
  | acceptorFunctor =>
      simp only [Session.step, h.removals, if_true]
      exact .inl (hhandlers s.handlers)
  | timer =>
      simp only [Session.step, h.timers, if_true]
      exact .inl (hhandlers s.handlers)
  | call inLoop write c => exact ha.elim

/-! ## Establishing -/

theorem Establishing.step (h : s.Establishing) (ha : a.IsOwn) :
    ((s.step oneLoop a).Establishing ∨ (s.step oneLoop a).Serving) ∨
      (s.step oneLoop a).Closed := by
  refine h.step_cases (P := fun s => s.Establishing ∨ s.Serving) ha ?_ ?_ ?_
  · intro handlers
    exact .inl ⟨⟨h.timers, h.removals, h.entries, h.flushes⟩, h.state,
      h.functors, h.writeShut⟩
  · intro handlers write
    have hstate : s.conn.state ≠ .kDisconnecting := by simp [h.state]
    have hkeeps := TcpConnection.keepsOpen_handleWrite s.conn write
    exact .inl ⟨⟨h.timers, h.removals, h.entries, h.flushes.handleWrite write⟩,
      hkeeps.state_eq.trans h.state, h.functors,
      (TcpConnection.writeShut_handleWrite hstate write).trans h.writeShut⟩
  · intro functor functors write hfunctors
    rw [h.functors] at hfunctors
    cases hfunctors
    have hflushes : TcpConnection.Flushes
        { s.conn with
          state := .kConnected
          channel := s.conn.channel.enableReading } :=
      ⟨fun hne => by simpa using h.flushes.awaits hne, h.flushes.behind⟩
    exact .inr ⟨⟨h.timers, h.removals, h.entries, hflushes⟩, rfl,
      fun f hf => absurd hf (List.not_mem_nil), h.writeShut⟩

/-- Calls do nothing before the connection is established. -/
theorem Establishing.call (h : s.Establishing) (inLoop : Bool)
    (write : WriteResult) (c : Call) : s.call inLoop write c = s := by
  cases c with
  | send message => simp [Session.call, h.state]
  | shutdown => simp [Session.call, h.state]
  | forceClose => simp [Session.call, forceClose, StateE.Alive, h.state]
  | forceCloseWithDelay => simp [Session.call, StateE.Alive, h.state]

/-! ## Serving -/

theorem Serving.sendInLoop (h : s.Serving) {functors : List IoFunctor}
    (hfunctors : ∀ f ∈ functors, ∃ message, f = .sendInLoop message)
    (message : Bytes) (write : WriteResult) :
    ({ s with
      ioFunctors := functors
      conn := s.conn.sendInLoop message write } : Session).Serving :=
  ⟨⟨h.timers, h.removals, h.entries,
      h.flushes.sendInLoop h.writeShut message write⟩,
    (TcpConnection.keepsOpen_sendInLoop s.conn message write).state_eq.trans
      h.state,
    hfunctors,
    (TcpConnection.writeShut_sendInLoop s.conn message write).trans
      h.writeShut⟩

theorem Serving.step (h : s.Serving) (ha : a.IsOwn) :
    (s.step oneLoop a).Serving ∨ (s.step oneLoop a).Closed := by
  refine h.step_cases ha ?_ ?_ ?_
  · intro handlers
    exact ⟨⟨h.timers, h.removals, h.entries, h.flushes⟩, h.state, h.functors,
      h.writeShut⟩
  · intro handlers write
    have hstate : s.conn.state ≠ .kDisconnecting := by simp [h.state]
    have hkeeps := TcpConnection.keepsOpen_handleWrite s.conn write
    exact ⟨⟨h.timers, h.removals, h.entries, h.flushes.handleWrite write⟩,
      hkeeps.state_eq.trans h.state, h.functors,
      (TcpConnection.writeShut_handleWrite hstate write).trans h.writeShut⟩
  · intro functor functors write hfunctors
    obtain ⟨message, rfl⟩ :=
      h.functors functor (hfunctors ▸ List.mem_cons_self ..)
    exact h.sendInLoop
      (fun f hf => h.functors f (hfunctors ▸ List.mem_cons_of_mem _ hf))
      message write

theorem Serving.send (h : s.Serving) (inLoop : Bool) (write : WriteResult)
    (message : Bytes) : (s.call inLoop write (.send message)).Serving := by
  simp only [call, h.state, if_true]
  split
  · exact h.sendInLoop h.functors message write
  · refine ⟨⟨h.timers, h.removals, h.entries, h.flushes⟩, h.state, ?_,
      h.writeShut⟩
    intro f hf
    rcases List.mem_append.mp hf with hf | hf
    · exact h.functors f hf
    · exact ⟨message, List.mem_singleton.mp hf⟩

/-- A shutdown in the loop, with no output queued there. -/
theorem Serving.shutdown (h : s.Serving) (hidle : s.ioFunctors = [])
    (write : WriteResult) : (s.call true write .shutdown).ShuttingDown := by
  have hkeeps := TcpConnection.keepsOpen_shutdownInLoop
    (s.conn.setState .kDisconnecting)
  simp only [call, h.state, if_true]
  exact ⟨⟨h.timers, h.removals, h.entries,
    (h.flushes.setState .kDisconnecting).shutdownInLoop⟩, hkeeps.state_eq,
    hidle⟩

/-! ## Shutting down -/

theorem ShuttingDown.step (h : s.ShuttingDown) (ha : a.IsOwn) :
    (s.step oneLoop a).ShuttingDown ∨ (s.step oneLoop a).Closed := by
  refine h.step_cases ha ?_ ?_ ?_
  · intro handlers
    exact ⟨⟨h.timers, h.removals, h.entries, h.flushes⟩, h.state, h.functors⟩
  · intro handlers write
    have hkeeps := TcpConnection.keepsOpen_handleWrite s.conn write
    exact ⟨⟨h.timers, h.removals, h.entries, h.flushes.handleWrite write⟩,
      hkeeps.state_eq.trans h.state, h.functors⟩
  · intro functor functors write hfunctors
    rw [h.functors] at hfunctors
    cases hfunctors

/-- Neither output nor a second shutdown changes a connection that is being
shut down. -/
theorem ShuttingDown.send (h : s.ShuttingDown) (inLoop : Bool)
    (write : WriteResult) (message : Bytes) :
    s.call inLoop write (.send message) = s := by
  simp [call, h.state]

theorem ShuttingDown.shutdown (h : s.ShuttingDown) (inLoop : Bool)
    (write : WriteResult) : s.call inLoop write .shutdown = s := by
  simp [call, h.state]

/-! ## Open connections -/

/-- A connection that was not closed from outside. -/
inductive Open (s : Session) : Prop
  | establishing (h : s.Establishing)
  | serving (h : s.Serving)
  | shuttingDown (h : s.ShuttingDown)

theorem Open.untouched (h : s.Open) : s.Untouched := by
  cases h with
  | establishing h => exact h.toUntouched
  | serving h => exact h.toUntouched
  | shuttingDown h => exact h.toUntouched

theorem Open.serving_of_kConnected (h : s.Open)
    (hstate : s.conn.state = .kConnected) : s.Serving := by
  cases h with
  | establishing h => simp [h.state] at hstate
  | serving h => exact h
  | shuttingDown h => simp [h.state] at hstate

theorem Open.step (h : s.Open) (ha : a.IsOwn) :
    (s.step oneLoop a).Open ∨ (s.step oneLoop a).Closed := by
  cases h with
  | establishing h =>
      exact (h.step ha).imp_left fun h => h.elim .establishing .serving
  | serving h => exact (h.step ha).imp_left .serving
  | shuttingDown h => exact (h.step ha).imp_left .shuttingDown

theorem Open.send (h : s.Open) (inLoop : Bool) (write : WriteResult)
    (message : Bytes) : (s.call inLoop write (.send message)).Open := by
  cases h with
  | establishing h =>
      rw [h.call]
      exact .establishing h
  | serving h => exact .serving (h.send inLoop write message)
  | shuttingDown h =>
      rw [h.send]
      exact .shuttingDown h

/-- A shutdown in the loop that overtakes no queued output. -/
theorem Open.shutdown (h : s.Open)
    (hqueue : s.conn.state = .kConnected →
      ∀ message, .sendInLoop message ∉ s.ioFunctors)
    (write : WriteResult) : (s.call true write .shutdown).Open := by
  cases h with
  | establishing h =>
      rw [h.call]
      exact .establishing h
  | serving h =>
      have hidle : s.ioFunctors = [] := by
        apply List.eq_nil_iff_forall_not_mem.mpr
        intro f hf
        obtain ⟨message, rfl⟩ := h.functors f hf
        exact hqueue h.state message hf
      exact .shuttingDown (h.shutdown hidle write)
  | shuttingDown h =>
      rw [h.shutdown]
      exact .shuttingDown h

/-- The write side of an open connection is closed behind its output. -/
theorem Open.behind (h : s.Open) (hshut : s.conn.writeShut = true) :
    s.conn.outputBuffer = [] ∧
      ∀ message, .sendInLoop message ∉ s.ioFunctors := by
  cases h with
  | establishing h => simp [h.writeShut] at hshut
  | serving h => simp [h.writeShut] at hshut
  | shuttingDown h => exact ⟨h.flushes.behind hshut, by simp [h.functors]⟩

theorem open_newConnection (oneLoop : Bool) : (newConnection oneLoop).Open := by
  have hflushes : TcpConnection.Flushes {} :=
    ⟨fun hne => absurd rfl hne, fun _ => rfl⟩
  cases oneLoop with
  | true =>
      have hconnected : TcpConnection.Flushes
          { state := .kConnected
            channel := Channel.enableReading {} } :=
        ⟨fun hne => absurd rfl hne, fun _ => rfl⟩
      exact .serving ⟨⟨rfl, rfl, rfl, hconnected⟩, rfl,
        fun f hf => absurd hf List.not_mem_nil, rfl⟩
  | false =>
      exact .establishing ⟨⟨rfl, rfl, rfl, hflushes⟩, rfl, rfl, rfl⟩

end Session

end MuduoHttp
