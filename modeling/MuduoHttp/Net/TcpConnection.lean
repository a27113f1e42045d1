import MuduoHttp.Base.Bytes
import MuduoHttp.Net.Channel

/-!
# The state and the output of a connection

The part of `TcpConnection` that its own loop changes in one step: the state,
the channel, the output buffer and the socket.  What the kernel answers to a
`write` is a parameter.
-/

namespace MuduoHttp

inductive StateE
  | kConnecting
  | kConnected
  | kDisconnecting
  | kDisconnected
  deriving DecidableEq, Repr

/-- The states in which a connection can be closed. -/
def StateE.Alive (state : StateE) : Prop :=
  state = .kConnected ∨ state = .kDisconnecting

instance (state : StateE) : Decidable state.Alive :=
  inferInstanceAs (Decidable (_ ∨ _))

inductive Errno
  | EWOULDBLOCK
  | EPIPE
  | ECONNRESET
  | other
  deriving DecidableEq, Repr

/-- The result of `::write` on a given number of bytes. -/
inductive WriteResult
  | wrote (n : ℕ)
  | failed (errno : Errno)
  deriving DecidableEq, Repr

/-- The result of `readFd`, as far as `handleRead` tells the cases apart. -/
inductive ReadResult
  | data
  | eof
  | error
  deriving DecidableEq, Repr

/-- `written` is what the kernel has accepted, `writeShut` that
`socket_.shutdownWrite` was called. -/
structure TcpConnection where
  state : StateE := .kConnecting
  channel : Channel := {}
  outputBuffer : Bytes := []
  written : Bytes := []
  writeShut : Bool := false

namespace TcpConnection

def setState (conn : TcpConnection) (state : StateE) : TcpConnection :=
  { conn with state := state }

/-- The end of `sendInLoop`: what was not written waits in the buffer. -/
def appendOutput (conn : TcpConnection) (remaining : Bytes) : TcpConnection :=
  if remaining = [] then conn
  else
    let conn := { conn with outputBuffer := conn.outputBuffer ++ remaining }
    if conn.channel.isWriting then conn
    else { conn with channel := conn.channel.enableWriting }

def sendInLoop (conn : TcpConnection) (data : Bytes) (result : WriteResult) :
    TcpConnection :=
  if conn.state = .kDisconnected then conn
  else if !conn.channel.isWriting && conn.outputBuffer.isEmpty then
    match result with
    | .wrote n =>
        { conn with written := conn.written ++ data.take n }.appendOutput
          (data.drop n)
    | .failed errno =>
        if errno = .EPIPE ∨ errno = .ECONNRESET then conn
        else conn.appendOutput data
  else conn.appendOutput data

def shutdownInLoop (conn : TcpConnection) : TcpConnection :=
  if conn.channel.isWriting then conn else { conn with writeShut := true }

def handleWrite (conn : TcpConnection) (result : WriteResult) :
    TcpConnection :=
  if conn.channel.isWriting then
    match result with
    | .wrote (n + 1) =>
        let conn :=
          { conn with
            written := conn.written ++ conn.outputBuffer.take (n + 1)
            outputBuffer := conn.outputBuffer.drop (n + 1) }
        if conn.outputBuffer.isEmpty then
          let conn := { conn with channel := conn.channel.disableWriting }
          if conn.state = .kDisconnecting then conn.shutdownInLoop else conn
        else conn
    | _ => conn
  else conn

/-- A step that neither opens nor closes the connection. -/
structure KeepsOpen (conn conn' : TcpConnection) : Prop where
  state_eq : conn'.state = conn.state
  entry : Channel.EntryStep conn.channel.entry conn'.channel.entry

theorem KeepsOpen.refl (conn : TcpConnection) : KeepsOpen conn conn :=
  ⟨rfl, .refl _⟩

theorem keepsOpen_appendOutput (conn : TcpConnection) (remaining : Bytes) :
    KeepsOpen conn (conn.appendOutput remaining) := by
  unfold appendOutput
  split
  · exact .refl conn
  · dsimp only
    split
    · exact ⟨rfl, .refl _⟩
    · exact ⟨rfl, Channel.enableWriting_entry _⟩

theorem keepsOpen_sendInLoop (conn : TcpConnection) (data : Bytes)
    (result : WriteResult) : KeepsOpen conn (conn.sendInLoop data result) := by
  unfold sendInLoop
  split
  · exact .refl conn
  · split
    · cases result with
      | wrote n =>
          have h := keepsOpen_appendOutput
            { conn with written := conn.written ++ data.take n } (data.drop n)
          exact ⟨h.state_eq, h.entry⟩
      | failed errno =>
          dsimp only
          split
          · exact .refl conn
          · exact keepsOpen_appendOutput conn data
    · exact keepsOpen_appendOutput conn data

theorem keepsOpen_shutdownInLoop (conn : TcpConnection) :
    KeepsOpen conn conn.shutdownInLoop := by
  unfold shutdownInLoop
  split
  · exact .refl conn
  · exact ⟨rfl, .refl _⟩

theorem keepsOpen_handleWrite (conn : TcpConnection) (result : WriteResult) :
    KeepsOpen conn (conn.handleWrite result) := by
  unfold handleWrite
  split
  · split
    next n =>
      dsimp only
      split
      · have hentry := Channel.disableWriting_entry conn.channel
        split
        next hdisconnecting =>
          have h := keepsOpen_shutdownInLoop
            { conn with
              written := conn.written ++ conn.outputBuffer.take (n + 1)
              outputBuffer := conn.outputBuffer.drop (n + 1)
              channel := conn.channel.disableWriting }
          exact ⟨h.state_eq, hentry.trans h.entry⟩
        · exact ⟨rfl, hentry⟩
      · exact ⟨rfl, .refl _⟩
    · exact .refl conn
  · exact .refl conn

end TcpConnection

end MuduoHttp
