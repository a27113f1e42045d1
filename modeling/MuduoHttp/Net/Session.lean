import MuduoHttp.Net.TcpConnection

/-!
# A connection and its two loops

A connection owned by a `TcpServer` lives in its IO loop; the server's map
lives in the acceptor's loop, which may be the same one.  A step is one
handler of a poll event, one functor of either loop, one expired timer, or one
call of a member function, from the IO loop or from another thread.

What the teardown of the connection does is recorded as it happens.
-/

namespace MuduoHttp

/-- The functors that a connection queues in its IO loop. -/
inductive IoFunctor
  | connectEstablished
  | sendInLoop (message : Bytes)
  | shutdownInLoop
  | addTimerInLoop
  | forceCloseInLoop
  | connectDestroyed
  deriving DecidableEq, Repr

/-- What is recorded: the calls of `connectionCallback_` and `closeCallback_`,
the number of map entries that `removeConnectionInLoop` erased, and the state
that `connectDestroyed` found. -/
inductive Teardown
  | up
  | closeCallback
  | erased (n : ℕ)
  | connectDestroyed (found : StateE)
  | down
  deriving DecidableEq, Repr

/-- A connection with its places in the loops and in the server's map:
`handlers` are left to call in the event being handled, `removals` counts the
queued `removeConnectionInLoop`, `timers` the timers of
`forceCloseWithDelay`, and `entries` the entries under the connection's
name. -/
structure Session where
  conn : TcpConnection := {}
  handlers : List Handler := []
  ioFunctors : List IoFunctor := []
  removals : ℕ := 0
  timers : ℕ := 0
  entries : ℕ := 0
  log : List Teardown := []

namespace Session

def record (s : Session) (event : Teardown) : Session :=
  { s with log := s.log ++ [event] }

/-- `loop_->queueInLoop`. -/
def queueInLoop (s : Session) (functor : IoFunctor) : Session :=
  { s with ioFunctors := s.ioFunctors ++ [functor] }

/-! ## The server's side -/

def removeConnectionInLoop (s : Session) : Session :=
  ({ s.record (.erased s.entries) with entries := 0 }).queueInLoop
    .connectDestroyed

/-- `TcpServer::removeConnection`; `oneLoop` says that the IO loop is the
acceptor's. -/
def removeConnection (oneLoop : Bool) (s : Session) : Session :=
  if oneLoop then s.removeConnectionInLoop
  else { s with removals := s.removals + 1 }

/-! ## The connection's side -/

def connectEstablished (s : Session) : Session :=
  ({ s with
    conn :=
      { s.conn with
        state := .kConnected
        channel := s.conn.channel.enableReading } }).record .up

/-- The callback of a connection that is no longer connected reports it
down. -/
def connectDestroyed (s : Session) : Session :=
  (({ s with
    conn :=
      { s.conn with
        state := .kDisconnected
        channel := s.conn.channel.disableAll.remove } }).record
      (.connectDestroyed s.conn.state)).record .down

def handleClose (oneLoop : Bool) (s : Session) : Session :=
  (({ s with
    conn := { s.conn with channel := s.conn.channel.disableAll } }).record
      .closeCallback).removeConnection oneLoop

def forceCloseInLoop (oneLoop : Bool) (s : Session) : Session :=
  if s.conn.state.Alive then s.handleClose oneLoop else s

def forceClose (s : Session) : Session :=
  if s.conn.state.Alive then
    ({ s with conn := s.conn.setState .kDisconnecting }).queueInLoop
      .forceCloseInLoop
  else s

/-! ## Steps -/

/-- The member functions that users of a connection call. -/
inductive Call
  | send (message : Bytes)
  | shutdown
  | forceClose
  | forceCloseWithDelay

/-- A call from the loop's own thread runs what `runInLoop` is given at once;
a call from another thread queues it. -/
def call (s : Session) (inLoop : Bool) (write : WriteResult) : Call → Session
  | .send message =>
      if s.conn.state = .kConnected then
        if inLoop then { s with conn := s.conn.sendInLoop message write }
        else s.queueInLoop (.sendInLoop message)
      else s
  | .shutdown =>
      if s.conn.state = .kConnected then
        let s := { s with conn := s.conn.setState .kDisconnecting }
        if inLoop then { s with conn := s.conn.shutdownInLoop }
        else s.queueInLoop .shutdownInLoop
      else s
  | .forceClose => s.forceClose
  | .forceCloseWithDelay =>
      if s.conn.state.Alive then
        let s := { s with conn := s.conn.setState .kDisconnecting }
        if inLoop then { s with timers := s.timers + 1 }
        else s.queueInLoop .addTimerInLoop
      else s

/-- A user's message callback is not part of `handleRead` here: what it calls
are calls of their own. -/
def runHandler (oneLoop : Bool) (s : Session) (read : ReadResult)
    (write : WriteResult) : Handler → Session
  | .handleClose => s.handleClose oneLoop
  | .handleError => s
  | .handleRead =>
      match read with
      | .data => s
      | .eof => s.handleClose oneLoop
      | .error => s
  | .handleWrite => { s with conn := s.conn.handleWrite write }

def runIoFunctor (oneLoop : Bool) (s : Session) (write : WriteResult) :
    IoFunctor → Session
  | .connectEstablished => s.connectEstablished
  | .sendInLoop message =>
      { s with conn := s.conn.sendInLoop message write }
  | .shutdownInLoop => { s with conn := s.conn.shutdownInLoop }
  | .addTimerInLoop => { s with timers := s.timers + 1 }
  | .forceCloseInLoop => s.forceCloseInLoop oneLoop
  | .connectDestroyed => s.connectDestroyed

inductive Action
  | poll (revents : Revents)
  | handler (read : ReadResult) (write : WriteResult)
  | ioFunctor (write : WriteResult)
  | acceptorFunctor
  | timer
  | call (inLoop : Bool) (write : WriteResult) (c : Call)

/-- One step.  The functors of the IO loop wait for the handlers of the event;
an action that is not enabled changes nothing.  The timers hold the connection
weakly, but a connection that is gone is disconnected, and `forceClose` does
nothing to it. -/
def step (oneLoop : Bool) (s : Session) : Action → Session
  | .poll revents =>
      if s.handlers = [] ∧ s.conn.channel.entry = .watched then
        { s with handlers := Channel.handleEvent revents }
      else s
  | .handler read write =>
      match s.handlers with
      | [] => s
      | handler :: handlers =>
          runHandler oneLoop { s with handlers := handlers } read write handler
  | .ioFunctor write =>
      match s.handlers, s.ioFunctors with
      | [], functor :: functors =>
          runIoFunctor oneLoop { s with ioFunctors := functors } write functor
      | _, _ => s
  | .acceptorFunctor =>
      if s.removals = 0 then s
      else { s with removals := s.removals - 1 }.removeConnectionInLoop
  | .timer =>
      if s.timers = 0 then s
      else { s with timers := s.timers - 1 }.forceClose
  | .call inLoop write c => s.call inLoop write c

theorem step_ioFunctor {oneLoop : Bool} {s : Session} {functor : IoFunctor}
    {functors : List IoFunctor} (hidle : s.handlers = [])
    (hfunctors : s.ioFunctors = functor :: functors) (write : WriteResult) :
    step oneLoop s (.ioFunctor write) =
      runIoFunctor oneLoop { s with ioFunctors := functors } write functor := by
  obtain ⟨conn, handlers, ioFunctors, removals, timers, entries, log⟩ := s
  cases hidle
  cases hfunctors
  rfl

/-- `TcpServer::newConnection`. -/
def newConnection (oneLoop : Bool) : Session :=
  let s : Session := { entries := 1 }
  if oneLoop then s.connectEstablished else s.queueInLoop .connectEstablished

/-! ## What is recorded -/

variable (oneLoop : Bool) (s : Session)

@[simp] theorem log_removeConnectionInLoop :
    s.removeConnectionInLoop.log = s.log ++ [.erased s.entries] := rfl

@[simp] theorem log_connectEstablished :
    s.connectEstablished.log = s.log ++ [.up] := rfl

@[simp] theorem log_connectDestroyed :
    s.connectDestroyed.log =
      s.log ++ [.connectDestroyed s.conn.state] ++ [.down] := rfl

@[simp] theorem log_handleClose :
    (s.handleClose oneLoop).log =
      s.log ++ .closeCallback ::
        if oneLoop then [.erased s.entries] else [] := by
  cases oneLoop <;> simp [handleClose, removeConnection, record]

@[simp] theorem log_forceClose : s.forceClose.log = s.log := by
  unfold forceClose
  split <;> rfl

@[simp] theorem log_call (inLoop : Bool) (write : WriteResult) (c : Call) :
    (s.call inLoop write c).log = s.log := by
  cases c with
  | send message => cases inLoop <;> simp only [call] <;> split <;> rfl
  | shutdown => cases inLoop <;> simp only [call] <;> split <;> rfl
  | forceClose => exact log_forceClose s
  | forceCloseWithDelay =>
      cases inLoop <;> simp only [call] <;> split <;> rfl

/-- The record only grows. -/
theorem log_prefix_step (a : Action) : s.log <+: (step oneLoop s a).log := by
  cases a with
  | poll revents =>
      simp only [step]
      split <;> exact List.prefix_rfl
  | handler read write =>
      simp only [step]
      split
      · exact List.prefix_rfl
      next handler handlers _ =>
        cases handler with
        | handleClose => simp [runHandler]
        | handleError => exact List.prefix_rfl
        | handleRead => cases read <;> simp [runHandler]
        | handleWrite => exact List.prefix_rfl
  | ioFunctor write =>
      simp only [step]
      split
      next functor functors _ _ =>
        cases functor with
        | connectEstablished => simp [runIoFunctor]
        | sendInLoop message => exact List.prefix_rfl
        | shutdownInLoop => exact List.prefix_rfl
        | addTimerInLoop => exact List.prefix_rfl
        | forceCloseInLoop =>
            simp only [runIoFunctor, forceCloseInLoop]
            split <;> simp
        | connectDestroyed => simp [runIoFunctor]
      · exact List.prefix_rfl
  | acceptorFunctor =>
      simp only [step]
      split
      · exact List.prefix_rfl
      · simp
  | timer =>
      simp only [step]
      split
      · exact List.prefix_rfl
      · simp
  | call inLoop write c => simp [step]

end Session

end MuduoHttp
