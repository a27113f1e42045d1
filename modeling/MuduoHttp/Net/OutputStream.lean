import MuduoHttp.Net.Session
import MuduoHttp.Support.Transition

/-!
# The output stream of a connection

What the kernel has accepted, followed by what waits in the output buffer, is
everything that was sent, whatever part of its data a `write` takes.  The
channel asks for writability exactly while something waits.
-/

namespace MuduoHttp

open Support

/-- The result does not say that the peer is gone. -/
def WriteResult.PeerThere : WriteResult → Prop
  | .wrote _ => True
  | .failed errno => errno ≠ .EPIPE ∧ errno ≠ .ECONNRESET

/-- The results of `::write` on a connection that the peer keeps open: any
count, or any other error. -/
abbrev OpenWrite := {result : WriteResult // result.PeerThere}

namespace TcpConnection

/-- The connection is between `connectEstablished` and `handleClose`, and the
stream it carries is `sent`. -/
structure Carries (conn : TcpConnection) (sent : Bytes) : Prop where
  alive : conn.state.Alive
  stream : conn.written ++ conn.outputBuffer = sent
  interest : conn.channel.isWriting = true ↔ conn.outputBuffer ≠ []

variable {conn : TcpConnection} {sent : Bytes}

/-- A connection on which nothing was sent yet. -/
theorem carries_nil (halive : conn.state.Alive) (hwritten : conn.written = [])
    (hempty : conn.outputBuffer = [])
    (hidle : conn.channel.isWriting = false) : conn.Carries [] where
  alive := halive
  stream := by simp [hwritten, hempty]
  interest := by simp [hempty, hidle]

theorem Carries.setDisconnecting (h : conn.Carries sent) :
    (conn.setState .kDisconnecting).Carries sent :=
  ⟨.inr rfl, h.stream, h.interest⟩

/-- What a `write` left over goes behind what waits already. -/
theorem Carries.appendOutput (h : conn.Carries sent) (remaining : Bytes) :
    (conn.appendOutput remaining).Carries (sent ++ remaining) := by
  unfold TcpConnection.appendOutput
  split
  next hnil =>
    rw [hnil, List.append_nil]
    exact h
  next hne =>
    have hstream : conn.written ++ (conn.outputBuffer ++ remaining) =
        sent ++ remaining := by
      rw [← List.append_assoc, h.stream]
    have hbuffer : conn.outputBuffer ++ remaining ≠ [] :=
      List.append_ne_nil_of_right_ne_nil _ hne
    dsimp only
    split
    next hwriting =>
      exact ⟨h.alive, hstream, iff_of_true hwriting hbuffer⟩
    · exact ⟨h.alive, hstream,
        iff_of_true (Channel.isWriting_enableWriting _) hbuffer⟩

/-- The direct write: the kernel takes a part of the message, with nothing in
front of it. -/
theorem Carries.writeDirectly (h : conn.Carries sent)
    (hempty : conn.outputBuffer = []) (taken : Bytes) :
    TcpConnection.Carries { conn with written := conn.written ++ taken }
      (sent ++ taken) where
  alive := h.alive
  stream := by simp [← h.stream, hempty]
  interest := h.interest

theorem Carries.sendInLoop (h : conn.Carries sent) (message : Bytes)
    {result : WriteResult} (hresult : result.PeerThere) :
    (conn.sendInLoop message result).Carries (sent ++ message) := by
  have halive : conn.state ≠ .kDisconnected := by
    rcases h.alive with hstate | hstate <;> simp [hstate]
  unfold TcpConnection.sendInLoop
  rw [if_neg halive]
  split
  next hquiet =>
    have hempty : conn.outputBuffer = [] := by
      simpa using (Bool.and_eq_true_iff.mp hquiet).2
    cases result with
    | wrote n =>
        have hrest := (h.writeDirectly hempty (message.take n)).appendOutput
          (message.drop n)
        rwa [List.append_assoc, List.take_append_drop] at hrest
    | failed errno =>
        dsimp only
        rw [if_neg (not_or.mpr hresult)]
        exact h.appendOutput message
  · exact h.appendOutput message

theorem Carries.shutdownInLoop (h : conn.Carries sent) :
    conn.shutdownInLoop.Carries sent := by
  unfold TcpConnection.shutdownInLoop
  split
  · exact h
  · exact ⟨h.alive, h.stream, h.interest⟩

/-- The queued write: the kernel takes a part of what waits.  Whether the
buffer is emptied decides about the interest. -/
theorem Carries.handleWrite (h : conn.Carries sent) (result : WriteResult) :
    (conn.handleWrite result).Carries sent := by
  unfold TcpConnection.handleWrite
  split
  next hwriting =>
    split
    next n =>
      have hstream : (conn.written ++ conn.outputBuffer.take (n + 1)) ++
          conn.outputBuffer.drop (n + 1) = sent := by
        rw [List.append_assoc, List.take_append_drop, h.stream]
      dsimp only
      split
      next hempty =>
        have hnil : conn.outputBuffer.drop (n + 1) = [] := by
          simpa using hempty
        have hidle : conn.channel.disableWriting.isWriting = false :=
          Channel.isWriting_update { conn.channel with writing := false }
        have hdone : TcpConnection.Carries
            { conn with
              written := conn.written ++ conn.outputBuffer.take (n + 1)
              outputBuffer := conn.outputBuffer.drop (n + 1)
              channel := conn.channel.disableWriting } sent :=
          ⟨h.alive, hstream, by simp [hidle, hnil]⟩
        split
        · exact hdone.shutdownInLoop
        · exact hdone
      next hleft =>
        refine ⟨h.alive, hstream, iff_of_true hwriting ?_⟩
        simpa using hleft
    · exact h
  · exact h

/-! ## Runs -/

/-- The steps between `connectEstablished` and `handleClose` that touch the
output, those that write with the answer of the kernel. -/
inductive OutputStep
  | sendInLoop (message : Bytes) (result : OpenWrite)
  | handleWrite (result : OpenWrite)
  | setDisconnecting
  | shutdownInLoop

/-- The message that a step sends. -/
def OutputStep.message : OutputStep → Bytes
  | .sendInLoop message _ => message
  | .handleWrite _ | .setDisconnecting | .shutdownInLoop => []

def outputStep (conn : TcpConnection) : OutputStep → TcpConnection
  | .sendInLoop message result => conn.sendInLoop message result
  | .handleWrite result => conn.handleWrite result
  | .setDisconnecting => conn.setState .kDisconnecting
  | .shutdownInLoop => conn.shutdownInLoop

theorem Carries.outputStep (h : conn.Carries sent) (a : OutputStep) :
    (conn.outputStep a).Carries (sent ++ a.message) := by
  cases a with
  | sendInLoop message result => exact h.sendInLoop message result.2
  | handleWrite result =>
      rw [OutputStep.message, List.append_nil]
      exact h.handleWrite result
  | setDisconnecting =>
      rw [OutputStep.message, List.append_nil]
      exact h.setDisconnecting
  | shutdownInLoop =>
      rw [OutputStep.message, List.append_nil]
      exact h.shutdownInLoop

theorem Carries.run (h : conn.Carries sent) (steps : List OutputStep) :
    (run TcpConnection.outputStep conn steps).Carries
      (sent ++ steps.flatMap OutputStep.message) := by
  induction steps generalizing conn sent with
  | nil => simpa using h
  | cons a steps ih => simpa using ih (h.outputStep a)

end TcpConnection

/-- The connection of `connectEstablished`. -/
def TcpConnection.established : TcpConnection :=
  ({} : Session).connectEstablished.conn

theorem TcpConnection.carries_established : established.Carries [] :=
  carries_nil (.inl rfl) rfl rfl rfl

/-- Whatever the kernel answers, the accepted bytes and the output buffer
together are the messages in order, and the channel is interested in writing
exactly while the buffer is not empty. -/
theorem outputStream_intact (steps : List TcpConnection.OutputStep) :
    let conn := run TcpConnection.outputStep .established steps
    conn.written ++ conn.outputBuffer =
        steps.flatMap TcpConnection.OutputStep.message ∧
      (conn.channel.isWriting = true ↔ conn.outputBuffer ≠ []) := by
  have h := TcpConnection.carries_established.run steps
  exact ⟨h.stream, h.interest⟩

end MuduoHttp
