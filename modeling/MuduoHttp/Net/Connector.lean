import MuduoHttp.Net.Channel
import MuduoHttp.Support.Transition

/-!
# The connector

`Connector` opens a socket, calls `connect` on it and waits in a channel until
the connection succeeds or fails.  A failed attempt is repeated later by a
timer.  `start` and `stop` can come from any thread, and the functors that the
connector queues in its loop run later.

The asserts are compiled out.  What they are about is recorded in a trace.
-/

namespace MuduoHttp

open Support

/-- The `savedErrno` of `connect`, the named cases and any other. -/
inductive ConnectErrno
  | success
  | EINPROGRESS
  | EINTR
  | EISCONN
  | EAGAIN
  | EADDRINUSE
  | EADDRNOTAVAIL
  | ECONNREFUSED
  | ENETUNREACH
  | EACCES
  | EPERM
  | EAFNOSUPPORT
  | EALREADY
  | EBADF
  | EFAULT
  | ENOTSOCK
  | other
  deriving DecidableEq, Repr

/-- `Connector::States`. -/
inductive ConnectorState
  | kDisconnected
  | kConnecting
  | kConnected
  deriving DecidableEq, Repr

/-- The channel of the connecting socket, and whether the poller has it. -/
structure ConnectorChannel where
  fd : ℕ
  registered : Bool
  deriving DecidableEq, Repr

/-- What the connector queues in its loop. -/
inductive ConnectorFunctor
  | startInLoop
  | resetChannel
  /-- `reached` says whether the timer is found when this runs: it is not when
  it is due in the batch that is being called. -/
  | cancel (timerId : Option ℕ) (reached : Bool)
  deriving DecidableEq, Repr

/-- A timer that will call `startInLoop`. -/
structure RetryTimer where
  id : ℕ
  delayMs : ℕ
  deriving DecidableEq, Repr

/-- What the pending connection turned out to be: `SO_ERROR` and
`isSelfConnect`. -/
structure SocketStatus where
  soError : ℕ := 0
  selfConnect : Bool := false

/-- The trace of a connector.  Sockets are numbered as they are created. -/
inductive ConnectorEvent
  | startInLoop (state : ConnectorState)
  | connectReturned (sockfd : ℕ) (savedErrno : ConnectErrno)
  | connecting (installed : Bool)
  /-- `handleWrite` or `handleError` was called for the socket. -/
  | handled (sockfd : ℕ)
  /-- The socket went to `newConnectionCallback_`. -/
  | passed (sockfd : ℕ)
  | closed (sockfd : ℕ)
  /-- The channel was destroyed, in the poller or out of it. -/
  | destroyed (sockfd : ℕ) (registered : Bool)
  deriving DecidableEq, Repr

/-- A connector, its functors and timers in the loop, the number of sockets
and timers created so far, and the trace. -/
structure Connector where
  connect_ : Bool := false
  state_ : ConnectorState := .kDisconnected
  channel_ : Option ConnectorChannel := none
  retryDelayMs_ : ℕ := 500
  timerId_ : Option ℕ := none
  pending : List ConnectorFunctor := []
  timers : List RetryTimer := []
  sockets : ℕ := 0
  nextTimer : ℕ := 0
  trace : List ConnectorEvent := []

namespace Connector

def kMaxRetryDelayMs : ℕ := 30 * 1000

def kInitRetryDelayMs : ℕ := 500

def emit (s : Connector) (e : ConnectorEvent) : Connector :=
  { s with trace := s.trace ++ [e] }

def queueInLoop (s : Connector) (f : ConnectorFunctor) : Connector :=
  { s with pending := s.pending ++ [f] }

/-- `sockets::close(sockfd)`. -/
def close (s : Connector) (sockfd : ℕ) : Connector := s.emit (.closed sockfd)

def retry (s : Connector) (sockfd : ℕ) : Connector :=
  let s := { s.close sockfd with state_ := .kDisconnected }
  if s.connect_ then
    { s with
      timers :=
        s.timers ++ [{ id := s.nextTimer, delayMs := s.retryDelayMs_ }]
      timerId_ := some s.nextTimer
      nextTimer := s.nextTimer + 1
      retryDelayMs_ := min (s.retryDelayMs_ * 2) kMaxRetryDelayMs }
  else s

/-- `channel_.reset()`, which destroys the channel that was there. -/
def destroyChannel (s : Connector) : Connector :=
  match s.channel_ with
  | none => s
  | some ch =>
      { s with channel_ := none }.emit (.destroyed ch.fd ch.registered)

def connecting (s : Connector) (sockfd : ℕ) : Connector :=
  let s := { s with state_ := .kConnecting }
  let s := s.emit (.connecting s.channel_.isSome)
  { s.destroyChannel with
    channel_ := some { fd := sockfd, registered := true } }

/-- `createNonblockingOrDie`, then `connect` with the given result. -/
def connect (s : Connector) (savedErrno : ConnectErrno) : Connector :=
  let sockfd := s.sockets
  let s := { s with sockets := sockfd + 1 }.emit
    (.connectReturned sockfd savedErrno)
  match savedErrno with
  | .success | .EINPROGRESS | .EINTR | .EISCONN => s.connecting sockfd
  | .EAGAIN | .EADDRINUSE | .EADDRNOTAVAIL | .ECONNREFUSED | .ENETUNREACH =>
      s.retry sockfd
  | .EACCES | .EPERM | .EAFNOSUPPORT | .EALREADY | .EBADF | .EFAULT
  | .ENOTSOCK => s.close sockfd
  | .other => s.close sockfd

def startInLoop (s : Connector) (savedErrno : ConnectErrno) : Connector :=
  let s := s.emit (.startInLoop s.state_)
  if s.connect_ then s.connect savedErrno else s

/-- `start`, in the thread of the loop or in another one. -/
def start (s : Connector) (inLoop : Bool) (savedErrno : ConnectErrno) : Connector :=
  let s := { s with connect_ := true }
  if inLoop then s.startInLoop savedErrno else s.queueInLoop .startInLoop

def restart (s : Connector) (savedErrno : ConnectErrno) : Connector :=
  { s with
    state_ := .kDisconnected
    retryDelayMs_ := kInitRetryDelayMs
    connect_ := true }.startInLoop savedErrno

/-- `TimerQueue::cancelInLoop`. -/
def cancel (s : Connector) (timerId : Option ℕ) (reached : Bool) : Connector :=
  if reached then
    { s with timers := s.timers.filter fun t => timerId ≠ some t.id }
  else s

def stop (s : Connector) (inLoop reached : Bool) : Connector :=
  let s := { s with connect_ := false }
  if inLoop then s.cancel s.timerId_ reached
  else s.queueInLoop (.cancel s.timerId_ reached)

/-- `channel_->disableAll()`, `removeChannel`, and the reset for later. -/
def removeAndResetChannel (s : Connector) (ch : ConnectorChannel) :
    Connector :=
  { s with channel_ := some { ch with registered := false } }.queueInLoop
    .resetChannel

def handleWrite (s : Connector) (status : SocketStatus) : Connector :=
  match s.state_, s.channel_ with
  | .kConnecting, some ch =>
      let s := s.removeAndResetChannel ch
      if status.soError ≠ 0 then s.retry ch.fd
      else if status.selfConnect then s.retry ch.fd
      else
        let s := { s with state_ := .kConnected }
        if s.connect_ then s.emit (.passed ch.fd) else s
  | _, _ => s

def handleError (s : Connector) : Connector :=
  match s.channel_ with
  | some ch => (s.removeAndResetChannel ch).retry ch.fd
  | none => s

/-- The callbacks that a connector sets in its channel. -/
def handler (status : SocketStatus) (s : Connector) : Handler → Connector
  | .handleWrite => s.handleWrite status
  | .handleError => s.handleError
  | .handleClose => s
  | .handleRead => s

/-- An event of the connecting socket.  The poller reports none for a channel
that was removed; one for a destroyed channel would be undefined, and is left
out. -/
def event (s : Connector) (revents : Revents) (status : SocketStatus) :
    Connector :=
  match s.channel_ with
  | some { fd := fd, registered := true } =>
      let called := Channel.handleEvent revents
      let s := if .handleError ∈ called ∨ .handleWrite ∈ called then
          s.emit (.handled fd)
        else s
      called.foldl (handler status) s
  | _ => s

/-- The first functor of the loop. -/
def runFunctor (s : Connector) (savedErrno : ConnectErrno) : Connector :=
  match s.pending with
  | [] => s
  | .startInLoop :: rest => { s with pending := rest }.startInLoop savedErrno
  | .resetChannel :: rest => { s with pending := rest }.destroyChannel
  | .cancel timerId reached :: rest =>
      { s with pending := rest }.cancel timerId reached

/-- A retry timer that has not been cancelled fires. -/
def fire (s : Connector) (id : ℕ) (savedErrno : ConnectErrno) : Connector :=
  if ∃ t ∈ s.timers, t.id = id then
    { s with timers := s.timers.filter fun t => t.id ≠ id }.startInLoop
      savedErrno
  else s

/-- Calls from outside and steps of the loop, with the result of `connect`
where one is made. -/
inductive Action
  | start (inLoop : Bool) (savedErrno : ConnectErrno)
  | restart (savedErrno : ConnectErrno)
  | stop (inLoop reached : Bool)
  | event (revents : Revents) (status : SocketStatus)
  | functor (savedErrno : ConnectErrno)
  | timer (id : ℕ) (savedErrno : ConnectErrno)

def step (s : Connector) : Action → Connector
  | .start inLoop savedErrno => s.start inLoop savedErrno
  | .restart savedErrno => s.restart savedErrno
  | .stop inLoop reached => s.stop inLoop reached
  | .event revents status => s.event revents status
  | .functor savedErrno => s.runFunctor savedErrno
  | .timer id savedErrno => s.fire id savedErrno

end Connector

end MuduoHttp
