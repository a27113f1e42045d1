import MuduoHttp.Net.OutputStream

/-!
# The write-complete callback

A connection queues `writeCompleteCallback_` in its loop when a write leaves
nothing behind: one of `sendInLoop`, or one of `handleWrite` that empties the
output buffer.  So the callback is queued for everything that was sent, but
not for every message: messages that wait together are completed together.
-/

namespace MuduoHttp

open Support

namespace TcpConnection

/-- `sendInLoop` comes to its `queueInLoop`. -/
def sendCompletes (conn : TcpConnection) (data : Bytes)
    (result : WriteResult) : Bool :=
  if conn.state = .kDisconnected then false
  else if !conn.channel.isWriting && conn.outputBuffer.isEmpty then
    match result with
    | .wrote n => (data.drop n).isEmpty
    | .failed _ => false
  else false

/-- `handleWrite` comes to its `queueInLoop`. -/
def writeCompletes (conn : TcpConnection) (result : WriteResult) : Bool :=
  if conn.channel.isWriting then
    match result with
    | .wrote (n + 1) => (conn.outputBuffer.drop (n + 1)).isEmpty
    | _ => false
  else false

/-- The step queues the callback. -/
def completes (conn : TcpConnection) : OutputStep → Bool
  | .sendInLoop message result => conn.sendCompletes message result
  | .handleWrite result => conn.writeCompletes result
  | .setDisconnecting | .shutdownInLoop => false

end TcpConnection

open TcpConnection (OutputStep)

/-- A connection with a `writeCompleteCallback_`, and what the kernel had
accepted each time that it was queued. -/
structure NotifyingConnection where
  conn : TcpConnection := .established
  queued : List Bytes := []

namespace NotifyingConnection

def step (s : NotifyingConnection) (a : OutputStep) : NotifyingConnection :=
  let conn := s.conn.outputStep a
  { conn
    queued := s.queued ++ if s.conn.completes a then [conn.written] else [] }

/-- The step is a call of `sendInLoop`. -/
def isSend : OutputStep → Bool
  | .sendInLoop _ _ => true
  | .handleWrite _ | .setDisconnecting | .shutdownInLoop => false

/-- What was sent up to the last callback. -/
def completed (s : NotifyingConnection) : Bytes := s.queued.getLast?.getD []

/-- What holds after the steps `done`. -/
structure Notified (s : NotifyingConnection) (done : List OutputStep) :
    Prop where
  carries : s.conn.Carries (done.flatMap OutputStep.message)
  /-- With nothing waiting, all is completed. -/
  drained : s.conn.outputBuffer = [] →
    s.completed = done.flatMap OutputStep.message
  /-- A message that waits has its callback still to come. -/
  count : s.queued.length + (if s.conn.outputBuffer = [] then 0 else 1) ≤
    done.countP isSend

variable {s : NotifyingConnection} {done : List OutputStep}

theorem notified_established : Notified {} [] where
  carries := TcpConnection.carries_established
  drained _ := rfl
  count := Nat.le_refl 0

/-! ## One step -/

theorem outputBuffer_appendOutput (conn : TcpConnection) (remaining : Bytes) :
    (conn.appendOutput remaining).outputBuffer =
      conn.outputBuffer ++ remaining := by
  unfold TcpConnection.appendOutput
  split
  next hnil => rw [hnil, List.append_nil]
  · dsimp only
    split <;> rfl

/-- What a call of `sendInLoop` leaves in the buffer: nothing if it completes,
what waited before if there is nothing to send, and something otherwise. -/
theorem sendInLoop_cases {conn : TcpConnection} (halive : conn.state.Alive)
    (data : Bytes) {result : WriteResult} (hresult : result.PeerThere) :
    (conn.sendCompletes data result = true ∧ conn.outputBuffer = [] ∧
        (conn.sendInLoop data result).outputBuffer = []) ∨
      (conn.sendCompletes data result = false ∧ data = [] ∧
        (conn.sendInLoop data result).outputBuffer = conn.outputBuffer) ∨
      (conn.sendCompletes data result = false ∧
        (conn.sendInLoop data result).outputBuffer ≠ []) := by
  have hstate : conn.state ≠ .kDisconnected := by
    rcases halive with hstate | hstate <;> simp [hstate]
  -- What waits behind the rest of the message, if not all of it is written.
  have hwaits : conn.sendCompletes data result = false →
      conn.sendInLoop data result = conn.appendOutput data →
      (conn.sendCompletes data result = false ∧ data = [] ∧
          (conn.sendInLoop data result).outputBuffer = conn.outputBuffer) ∨
        (conn.sendCompletes data result = false ∧
          (conn.sendInLoop data result).outputBuffer ≠ []) := by
    intro hcompletes hsend
    rw [hsend, outputBuffer_appendOutput]
    by_cases hdata : data = []
    · exact .inl ⟨hcompletes, hdata, by rw [hdata, List.append_nil]⟩
    · exact .inr ⟨hcompletes, List.append_ne_nil_of_right_ne_nil _ hdata⟩
  by_cases hquiet :
      (!conn.channel.isWriting && conn.outputBuffer.isEmpty) = true
  · have hempty : conn.outputBuffer = [] := by
      simpa using (Bool.and_eq_true_iff.mp hquiet).2
    cases result with
    | wrote n =>
        have hbuffer : (conn.sendInLoop data (.wrote n)).outputBuffer =
            data.drop n := by
          unfold TcpConnection.sendInLoop
          rw [if_neg hstate, if_pos hquiet]
          dsimp only
          rw [outputBuffer_appendOutput, hempty, List.nil_append]
        have hcompletes : conn.sendCompletes data (.wrote n) =
            (data.drop n).isEmpty := by
          rw [TcpConnection.sendCompletes, if_neg hstate, if_pos hquiet]
        rw [hbuffer, hcompletes]
        by_cases hrest : data.drop n = []
        · exact .inl ⟨by rw [hrest]; rfl, hempty, hrest⟩
        · exact .inr (.inr ⟨by simpa using hrest, hrest⟩)
    | failed errno =>
        refine .inr (hwaits ?_ ?_)
        · rw [TcpConnection.sendCompletes, if_neg hstate, if_pos hquiet]
        · simp only [TcpConnection.sendInLoop, if_neg hstate, if_pos hquiet,
            if_neg (not_or.mpr hresult)]
  · refine .inr (hwaits ?_ ?_)
    · unfold TcpConnection.sendCompletes
      rw [if_neg hstate, if_neg hquiet]
    · unfold TcpConnection.sendInLoop
      rw [if_neg hstate, if_neg hquiet]

/-- A call of `handleWrite` completes if it empties a buffer. -/
theorem handleWrite_cases {conn : TcpConnection} {sent : Bytes}
    (h : conn.Carries sent) (result : WriteResult) :
    (conn.writeCompletes result = true ∧ conn.outputBuffer ≠ [] ∧
        (conn.handleWrite result).outputBuffer = []) ∨
      (conn.writeCompletes result = false ∧
        ((conn.handleWrite result).outputBuffer = [] ↔
          conn.outputBuffer = [])) := by
  by_cases hwriting : conn.channel.isWriting = true
  · have hne := h.interest.mp hwriting
    cases result with
    | failed errno =>
        simp only [TcpConnection.writeCompletes, TcpConnection.handleWrite,
          if_pos hwriting]
        exact .inr ⟨trivial, trivial⟩
    | wrote n =>
        cases n with
        | zero =>
            simp only [TcpConnection.writeCompletes,
              TcpConnection.handleWrite, if_pos hwriting]
            exact .inr ⟨trivial, trivial⟩
        | succ n =>
            simp only [TcpConnection.writeCompletes,
              TcpConnection.handleWrite, if_pos hwriting]
            by_cases hrest : (conn.outputBuffer.drop (n + 1)).isEmpty = true
            · have hnil := List.isEmpty_iff.mp hrest
              refine .inl ⟨hrest, hne, ?_⟩
              rw [if_pos hrest]
              split
              · rw [TcpConnection.shutdownInLoop]
                split <;> exact hnil
              · exact hnil
            · rw [if_neg hrest]
              refine .inr ⟨Bool.eq_false_iff.mpr hrest, ?_⟩
              exact iff_of_false (fun hnil => hrest (List.isEmpty_iff.mpr hnil))
                hne
  · have hidle : conn.writeCompletes result = false ∧
        conn.handleWrite result = conn := by
      unfold TcpConnection.writeCompletes TcpConnection.handleWrite
      rw [if_neg hwriting, if_neg hwriting]
      exact ⟨rfl, rfl⟩
    rw [hidle.2]
    exact .inr ⟨hidle.1, Iff.rfl⟩

theorem completed_step {a : OutputStep} :
    (s.step a).completed =
      if s.conn.completes a then (s.conn.outputStep a).written
      else s.completed := by
  unfold completed step
  split_ifs
  · simp
  · simp

/-- With an empty buffer all that was sent is written. -/
theorem written_of_empty {conn : TcpConnection} {sent : Bytes}
    (h : conn.Carries sent) (hempty : conn.outputBuffer = []) :
    conn.written = sent := by
  have hstream := h.stream
  rwa [hempty, List.append_nil] at hstream

/-- A step that queues the callback leaves an empty buffer; one that does not
leaves the buffer empty only if it was and nothing is sent. -/
theorem Notified.outputStep_cases (h : s.Notified done) (a : OutputStep) :
    (s.conn.completes a = true ∧ (s.conn.outputStep a).outputBuffer = [] ∧
        (s.conn.outputBuffer = [] → isSend a = true)) ∨
      (s.conn.completes a = false ∧
        ((s.conn.outputStep a).outputBuffer = [] →
          s.conn.outputBuffer = [] ∧ a.message = []) ∧
        ((s.conn.outputStep a).outputBuffer ≠ [] →
          s.conn.outputBuffer ≠ [] ∨ isSend a = true)) := by
  cases a with
  | sendInLoop message result =>
      obtain ⟨hcompletes, -, hnil⟩ | ⟨hcompletes, hdata, hsame⟩ |
          ⟨hcompletes, hne⟩ :=
        sendInLoop_cases h.carries.alive message result.2
      · exact .inl ⟨hcompletes, hnil, fun _ => rfl⟩
      · exact .inr ⟨hcompletes, fun hnil => ⟨hsame ▸ hnil, hdata⟩,
          fun _ => .inr rfl⟩
      · exact .inr ⟨hcompletes, fun hnil => absurd hnil hne,
          fun _ => .inr rfl⟩
  | handleWrite result =>
      obtain ⟨hcompletes, hne, hnil⟩ | ⟨hcompletes, hiff⟩ :=
        handleWrite_cases h.carries result
      · exact .inl ⟨hcompletes, hnil, fun hempty => absurd hempty hne⟩
      · exact .inr ⟨hcompletes, fun hnil => ⟨hiff.mp hnil, rfl⟩,
          fun hne => .inl fun hnil => hne (hiff.mpr hnil)⟩
  | setDisconnecting =>
      exact .inr ⟨rfl, fun hnil => ⟨hnil, rfl⟩, fun hne => .inl hne⟩
  | shutdownInLoop =>
      have hsame : s.conn.shutdownInLoop.outputBuffer =
          s.conn.outputBuffer := by
        unfold TcpConnection.shutdownInLoop
        split <;> rfl
      exact .inr ⟨rfl, fun hnil => ⟨hsame ▸ hnil, rfl⟩,
        fun hne => .inl (hsame ▸ hne)⟩

/-- A step that queues the callback has written everything. -/
theorem Notified.written_eq (h : s.Notified done) {a : OutputStep}
    (ha : s.conn.completes a = true) :
    (s.conn.outputStep a).written =
      (done ++ [a]).flatMap OutputStep.message := by
  have hcarries := h.carries.outputStep a
  obtain ⟨-, hnil, -⟩ | ⟨hcompletes, -⟩ := h.outputStep_cases a
  · rw [written_of_empty hcarries hnil, List.flatMap_append,
      List.flatMap_singleton]
  · cases ha.symm.trans hcompletes

theorem Notified.step (h : s.Notified done) (a : OutputStep) :
    (s.step a).Notified (done ++ [a]) := by
  have hsent : (done ++ [a]).flatMap OutputStep.message =
      done.flatMap OutputStep.message ++ a.message := by simp
  have hcarries := h.carries.outputStep a
  have hcount := h.count
  rw [← hsent] at hcarries
  obtain ⟨hcompletes, hnil, hsend⟩ | ⟨hcompletes, hempty, hwaits⟩ :=
    h.outputStep_cases a
  · refine ⟨hcarries, fun _ => ?_, ?_⟩
    · rw [completed_step, if_pos hcompletes, h.written_eq hcompletes]
    · have hbuffer : (s.step a).conn.outputBuffer = [] := hnil
      have hlength : (s.step a).queued.length = s.queued.length + 1 := by
        simp [NotifyingConnection.step, hcompletes]
      rw [hbuffer, if_pos rfl, hlength, List.countP_append,
        List.countP_singleton]
      by_cases hbefore : s.conn.outputBuffer = []
      · rw [if_pos (hsend hbefore)]
        omega
      · rw [if_neg hbefore] at hcount
        omega
  · refine ⟨hcarries, fun hnil => ?_, ?_⟩
    · obtain ⟨hbefore, hmessage⟩ := hempty hnil
      rw [completed_step, if_neg (Bool.eq_false_iff.mp hcompletes), hsent,
        hmessage, List.append_nil, h.drained hbefore]
    · have hlength : (s.step a).queued.length = s.queued.length := by
        simp [NotifyingConnection.step, hcompletes]
      rw [hlength, List.countP_append, List.countP_singleton]
      by_cases hnil : (s.step a).conn.outputBuffer = []
      · rw [if_pos hnil]
        omega
      · rw [if_neg hnil]
        obtain hbefore | hisSend := hwaits hnil
        · rw [if_neg hbefore] at hcount
          omega
        · rw [if_pos hisSend]
          omega

theorem Notified.run (h : s.Notified done) (steps : List OutputStep) :
    (run NotifyingConnection.step s steps).Notified (done ++ steps) := by
  induction steps generalizing s done with
  | nil => simpa using h
  | cons a steps ih => simpa using ih (h.step a)

/-- Whatever the kernel answers while the peer is there: whenever the output
buffer is empty, the callback has been queued for all that was sent; a step
that queues it has written everything sent so far; and it is queued at most
once for each message, not counting the messages that wait. -/
theorem write_completed (steps : List OutputStep) :
    let s := run step {} steps
    (s.conn.outputBuffer = [] →
        s.completed = steps.flatMap OutputStep.message) ∧
      (∀ a, s.conn.completes a = true → (s.conn.outputStep a).written =
        (steps ++ [a]).flatMap OutputStep.message) ∧
      s.queued.length + (if s.conn.outputBuffer = [] then 0 else 1) ≤
        steps.countP isSend := by
  have h := notified_established.run steps
  rw [List.nil_append] at h
  exact ⟨h.drained, fun _ => h.written_eq, h.count⟩

end NotifyingConnection

end MuduoHttp
