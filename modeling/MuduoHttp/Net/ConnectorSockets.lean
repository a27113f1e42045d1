import MuduoHttp.Net.Connector
import MuduoHttp.Support.Custody

/-!
# The sockets of a connector

Each socket that `Connector::connect` creates should go to
`newConnectionCallback_` once or be closed once.  Every step of a connector is
one operation on the ledger of its sockets, in which the socket of a
registered channel is held.
-/

namespace MuduoHttp

open Support

/-- `connect` has returned and the connection is established or pending. -/
def ConnectErrno.Pending (e : ConnectErrno) : Prop :=
  e = .success ∨ e = .EINPROGRESS ∨ e = .EINTR ∨ e = .EISCONN

instance (e : ConnectErrno) : Decidable e.Pending :=
  inferInstanceAs (Decidable (_ ∨ _ ∨ _ ∨ _))

/-- The attempt of a socket is over: `connect` failed at once, an event of its
channel was handled, or its channel was destroyed while the poller had it. -/
def ConnectorEvent.Ends (sockfd : ℕ) : ConnectorEvent → Prop
  | .connectReturned fd e => fd = sockfd ∧ ¬ e.Pending
  | .handled fd => fd = sockfd
  | .destroyed fd registered => fd = sockfd ∧ registered = true
  | .startInLoop _ => False
  | .connecting _ => False
  | .passed _ => False
  | .closed _ => False

namespace Connector

/-- The attempt of the socket is over. -/
def Over (s : Connector) (sockfd : ℕ) : Prop :=
  ∃ e ∈ s.trace, e.Ends sockfd

/-- How often the socket was passed on or closed. -/
def settled (s : Connector) (sockfd : ℕ) : ℕ :=
  s.trace.count (.passed sockfd) + s.trace.count (.closed sockfd)

/-- No socket was passed on or closed twice, and each whose attempt is over
was passed on or closed. -/
def Conserved (s : Connector) : Prop :=
  ∀ sockfd, s.settled sockfd ≤ 1 ∧ (s.Over sockfd → s.settled sockfd = 1)

/-- The socket of the channel that the poller has. -/
def registeredFd (s : Connector) : Option ℕ :=
  match s.channel_ with
  | some { fd := fd, registered := true } => some fd
  | _ => none

/-- The ledger of the sockets. -/
def custody (s : Connector) : Custody where
  created := s.sockets
  held := s.registeredFd
  ended := s.Over
  settled := s.settled

theorem conserved_iff (s : Connector) : s.Conserved ↔ s.custody.Balanced :=
  Iff.rfl

/-! ## The operation of a step -/

/-- `connect` with this result. -/
def connectOp (savedErrno : ConnectErrno) : Custody.Op :=
  if savedErrno.Pending then .take else .refuse

def startOp (s : Connector) (savedErrno : ConnectErrno) : Custody.Op :=
  if s.connect_ then connectOp savedErrno else .idle

def handleWriteOp (s : Connector) (status : SocketStatus) : Custody.Op :=
  if s.state_ = .kConnecting then
    if status.soError ≠ 0 ∨ status.selfConnect ∨ s.connect_ then .settle
    else .drop
  else .neglect

def eventOp (s : Connector) (revents : Revents) (status : SocketStatus) :
    Custody.Op :=
  if s.registeredFd = none then .idle
  else if revents.pollErr ∨ revents.pollNval then .settle
  else if revents.pollOut then s.handleWriteOp status
  else .idle

def functorOp (s : Connector) (savedErrno : ConnectErrno) : Custody.Op :=
  match s.pending with
  | .startInLoop :: _ => s.startOp savedErrno
  | .resetChannel :: _ => if s.registeredFd = none then .idle else .drop
  | _ => .idle

/-- What a step does to the ledger. -/
def op (s : Connector) : Action → Custody.Op
  | .start inLoop savedErrno => if inLoop then connectOp savedErrno else .idle
  | .restart savedErrno => connectOp savedErrno
  | .stop _ _ => .idle
  | .event revents status => s.eventOp revents status
  | .functor savedErrno => s.functorOp savedErrno
  | .timer id savedErrno =>
      if ∃ t ∈ s.timers, t.id = id then s.startOp savedErrno else .idle

/-! ## The trace -/

variable {s : Connector}

/-- A recorded event adds to the attempts that are over and to the sockets
that are settled. -/
theorem custody_emit (s : Connector) (e : ConnectorEvent) :
    (s.emit e).custody =
      { s.custody with
        ended := fun fd => s.Over fd ∨ e.Ends fd
        settled := fun fd => s.settled fd +
          ([e].count (.passed fd) + [e].count (.closed fd)) } := by
  ext fd
  · rfl
  · rfl
  · simp [custody, Over, emit, or_and_right, exists_or]
  · simp only [custody, settled, emit, List.count_append]
    omega

/-- An event that ends no attempt and settles no socket. -/
theorem custody_emit_of_silent {e : ConnectorEvent}
    (hends : ∀ fd, ¬ e.Ends fd)
    (hsettles : ∀ fd, e ≠ .passed fd ∧ e ≠ .closed fd) :
    (s.emit e).custody = s.custody := by
  rw [custody_emit]
  ext fd
  · rfl
  · rfl
  · simp [custody, hends]
  · simp [custody, hsettles]

theorem custody_handled (s : Connector) (fd : ℕ) :
    (s.emit (.handled fd)).custody = s.custody.finish (some fd) := by
  rw [custody_emit]
  ext x
  · rfl
  · rfl
  · simp [custody, Custody.finish, ConnectorEvent.Ends]
  · simp [custody, Custody.finish]

theorem custody_passed (s : Connector) (fd : ℕ) :
    (s.emit (.passed fd)).custody = s.custody.settleOnce (some fd) := by
  rw [custody_emit]
  ext x
  · rfl
  · rfl
  · simp [custody, Custody.settleOnce, ConnectorEvent.Ends]
  · simp [custody, Custody.settleOnce, List.count_singleton]

theorem custody_close (s : Connector) (fd : ℕ) :
    (s.close fd).custody = s.custody.settleOnce (some fd) := by
  rw [close, custody_emit]
  ext x
  · rfl
  · rfl
  · simp [custody, Custody.settleOnce, ConnectorEvent.Ends]
  · simp [custody, Custody.settleOnce, List.count_singleton]

theorem custody_retry (s : Connector) (fd : ℕ) :
    (s.retry fd).custody = s.custody.settleOnce (some fd) := by
  rw [← custody_close]
  unfold retry
  dsimp only
  split <;> rfl

/-! ## The functions -/

theorem custody_destroyChannel (s : Connector) :
    s.destroyChannel.custody =
      { s.custody.finish s.registeredFd with held := none } := by
  unfold destroyChannel
  split
  next hnone =>
    simp [custody, registeredFd, hnone, Custody.finish]
  next ch hsome =>
    obtain ⟨fd, registered⟩ := ch
    rw [custody_emit]
    ext x
    · rfl
    · simp [custody, registeredFd]
    · cases registered <;>
        simp [custody, registeredFd, hsome, Custody.finish,
          ConnectorEvent.Ends, Over]
    · simp [custody, Custody.finish, settled]

/-- The channel that was registered, if any, gives way to that of the new
socket. -/
theorem custody_connecting (s : Connector) (sockfd : ℕ) :
    (s.connecting sockfd).custody =
      { s.custody.finish s.registeredFd with held := some sockfd } := by
  have hentered : ({ s with state_ := .kConnecting }.emit
      (.connecting s.channel_.isSome)).custody = s.custody :=
    custody_emit_of_silent (fun _ => id) (fun _ => ⟨nofun, nofun⟩)
  have hdestroyed := custody_destroyChannel
    ({ s with state_ := .kConnecting }.emit (.connecting s.channel_.isSome))
  rw [hentered] at hdestroyed
  have hrest : ∀ s' : Connector,
      { s' with channel_ := some { fd := sockfd, registered := true }
        }.custody = { s'.custody with held := some sockfd } :=
    fun _ => rfl
  simp only [connecting, hrest, hdestroyed]
  rfl

/-- `connect` and the record of its result. -/
def connectReturned (s : Connector) (savedErrno : ConnectErrno) : Connector :=
  { s with sockets := s.sockets + 1 }.emit
    (.connectReturned s.sockets savedErrno)

/-- The cases of the switch: the socket waits for its connection, or it is
closed, with or without another attempt. -/
theorem connect_cases (s : Connector) (savedErrno : ConnectErrno) :
    (savedErrno.Pending ∧ s.connect savedErrno =
        (s.connectReturned savedErrno).connecting s.sockets) ∨
      (¬ savedErrno.Pending ∧
        (s.connect savedErrno =
            (s.connectReturned savedErrno).retry s.sockets ∨
          s.connect savedErrno =
            (s.connectReturned savedErrno).close s.sockets)) := by
  cases savedErrno with
  | success | EINPROGRESS | EINTR | EISCONN => exact .inl ⟨by decide, rfl⟩
  | EAGAIN | EADDRINUSE | EADDRNOTAVAIL | ECONNREFUSED | ENETUNREACH =>
      exact .inr ⟨by decide, .inl rfl⟩
  | EACCES | EPERM | EAFNOSUPPORT | EALREADY | EBADF | EFAULT | ENOTSOCK
  | other => exact .inr ⟨by decide, .inr rfl⟩

theorem custody_connectReturned (s : Connector) (savedErrno : ConnectErrno) :
    (s.connectReturned savedErrno).custody =
      if savedErrno.Pending then { s.custody with created := s.sockets + 1 }
      else { s.custody.finish (some s.sockets) with
        created := s.sockets + 1 } := by
  rw [connectReturned, custody_emit]
  by_cases hpending : savedErrno.Pending
  · rw [if_pos hpending]
    ext x
    · rfl
    · rfl
    · simp [custody, ConnectorEvent.Ends, hpending, Over]
    · simp [custody, settled]
  · rw [if_neg hpending]
    ext x
    · rfl
    · rfl
    · simp [custody, ConnectorEvent.Ends, hpending, Over, Custody.finish]
    · simp [custody, settled, Custody.finish]

theorem custody_connect (s : Connector) (savedErrno : ConnectErrno) :
    (s.connect savedErrno).custody =
      s.custody.apply (connectOp savedErrno) := by
  have hreturned := s.custody_connectReturned savedErrno
  rcases s.connect_cases savedErrno with ⟨hpending, h⟩ | ⟨hfailed, h⟩
  · rw [if_pos hpending] at hreturned
    rw [h, custody_connecting, hreturned, connectOp, if_pos hpending]
    rfl
  · rw [if_neg hfailed] at hreturned
    rw [connectOp, if_neg hfailed]
    rcases h with h | h
    · rw [h, custody_retry, hreturned]
      rfl
    · rw [h, custody_close, hreturned]
      rfl

theorem custody_startInLoop (s : Connector) (savedErrno : ConnectErrno) :
    (s.startInLoop savedErrno).custody =
      s.custody.apply (s.startOp savedErrno) := by
  have hentered : (s.emit (.startInLoop s.state_)).custody = s.custody :=
    custody_emit_of_silent (fun _ => id) (fun _ => ⟨nofun, nofun⟩)
  have hconnect : (s.emit (.startInLoop s.state_)).connect_ = s.connect_ := rfl
  simp only [startInLoop, startOp, hconnect]
  by_cases h : s.connect_ = true
  · rw [if_pos h, if_pos h, custody_connect, hentered]
  · rw [if_neg h, if_neg h, hentered]
    rfl

theorem custody_removeAndResetChannel (s : Connector) (ch : ConnectorChannel) :
    (s.removeAndResetChannel ch).custody = { s.custody with held := none } :=
  rfl

theorem custody_handleError {s : Connector} {ch : ConnectorChannel}
    (h : s.channel_ = some ch) :
    s.handleError.custody =
      { s.custody.settleOnce (some ch.fd) with held := none } := by
  simp only [handleError, h, custody_retry, custody_removeAndResetChannel]
  rfl

theorem handleWrite_of_ne {s : Connector} (h : s.state_ ≠ .kConnecting)
    (status : SocketStatus) : s.handleWrite status = s := by
  unfold handleWrite
  split
  next hconnecting _ => exact absurd hconnecting h
  next => rfl

/-- `handleWrite` for the channel that the poller has. -/
theorem custody_handleWrite {s : Connector} {fd : ℕ}
    (h : s.channel_ = some { fd := fd, registered := true })
    (status : SocketStatus) :
    ((s.emit (.handled fd)).handleWrite status).custody =
      s.custody.apply (s.handleWriteOp status) := by
  have hheld : some fd = s.registeredFd := by
    simp only [registeredFd, h]
  have hhandled : (s.emit (.handled fd)).custody =
      s.custody.finish s.registeredFd := by
    rw [custody_handled, hheld]
  have hchannel : (s.emit (.handled fd)).channel_ =
      some { fd := fd, registered := true } := h
  have hstate : (s.emit (.handled fd)).state_ = s.state_ := rfl
  unfold handleWriteOp
  by_cases hconnecting : s.state_ = .kConnecting
  · rw [if_pos hconnecting]
    simp only [handleWrite, hstate, hconnecting, hchannel]
    set r := (s.emit (.handled fd)).removeAndResetChannel
      { fd := fd, registered := true } with hr
    have hremoved : r.custody =
        { s.custody.finish s.registeredFd with held := none } := by
      rw [hr, custody_removeAndResetChannel, hhandled]
    have hconnect : r.connect_ = s.connect_ := rfl
    have hretry : (r.retry fd).custody = s.custody.apply .settle := by
      rw [custody_retry, hremoved, hheld]
      rfl
    by_cases herror : status.soError ≠ 0
    · simpa [herror] using hretry
    · by_cases hself : status.selfConnect = true
      · simpa [herror, hself] using hretry
      · by_cases hwanted : s.connect_ = true
        · have hpassed : ({ r with state_ := .kConnected }.emit
              (.passed fd)).custody = s.custody.apply .settle := by
            have hsame : { r with state_ := .kConnected }.custody =
              r.custody := rfl
            rw [custody_passed, hsame, hremoved, hheld]
            rfl
          simpa [herror, hself, hconnect, hwanted] using hpassed
        · have hdropped : { r with state_ := .kConnected }.custody =
              s.custody.apply .drop := hremoved
          simpa [herror, hself, hconnect, hwanted] using hdropped
  · rw [if_neg hconnecting]
    rw [handleWrite_of_ne (by exact hconnecting), hhandled]
    rfl

/-- After `handleError`, `handleWrite` finds the state `kDisconnected` and
does nothing. -/
theorem handleWrite_handleError {s : Connector} {ch : ConnectorChannel}
    (h : s.channel_ = some ch) (status : SocketStatus) :
    s.handleError.handleWrite status = s.handleError := by
  have hstate : s.handleError.state_ = .kDisconnected := by
    simp only [handleError, h, retry]
    split <;> rfl
  apply handleWrite_of_ne
  rw [hstate]
  decide

/-- The callbacks that an event calls: `handleError`, then `handleWrite`. -/
theorem foldl_handler (s : Connector) (revents : Revents)
    (status : SocketStatus) :
    (Channel.handleEvent revents).foldl (handler status) s =
      let s' :=
        if revents.pollErr || revents.pollNval then s.handleError else s
      if revents.pollOut then s'.handleWrite status else s' := by
  have hif : ∀ (b : Bool) (h : Handler) (s : Connector),
      (if b then [h] else []).foldl (handler status) s =
        if b then handler status s h else s := by
    intro b h s
    cases b <;> rfl
  simp only [Channel.handleEvent, List.foldl_append, hif, handler, ite_self]

theorem mem_handleEvent_handleError (revents : Revents) :
    .handleError ∈ Channel.handleEvent revents ↔
      (revents.pollErr || revents.pollNval) = true := by
  simp [Channel.handleEvent]

theorem mem_handleEvent_handleWrite (revents : Revents) :
    .handleWrite ∈ Channel.handleEvent revents ↔ revents.pollOut = true := by
  simp [Channel.handleEvent]

theorem custody_event (s : Connector) (revents : Revents)
    (status : SocketStatus) :
    (s.event revents status).custody =
      s.custody.apply (s.eventOp revents status) := by
  unfold event eventOp
  split
  next fd hchannel =>
    have hheld : s.registeredFd = some fd := by
      simp only [registeredFd, hchannel]
    have hchannel' : (s.emit (.handled fd)).channel_ =
      some { fd := fd, registered := true } := hchannel
    simp only [foldl_handler, mem_handleEvent_handleError,
      mem_handleEvent_handleWrite, hheld]
    by_cases herror : (revents.pollErr || revents.pollNval) = true
    · have hsettled : (s.emit (.handled fd)).handleError.custody =
          s.custody.apply .settle := by
        rw [custody_handleError hchannel', custody_handled]
        simp only [Custody.apply, custody, hheld]
      have herror' : revents.pollErr = true ∨ revents.pollNval = true := by
        simpa using herror
      simpa [herror, herror', handleWrite_handleError hchannel'] using hsettled
    · have hnot : ¬ (revents.pollErr = true ∨ revents.pollNval = true) := by
        simpa using herror
      by_cases hwritable : revents.pollOut = true
      · simpa [herror, hnot, hwritable] using
          custody_handleWrite hchannel status
      · simp [herror, hnot, hwritable, Custody.apply]
  next hnone =>
    have hheld : s.registeredFd = none := by
      unfold registeredFd
      split
      next fd hchannel => exact absurd hchannel (hnone fd)
      next => rfl
    simp [hheld, Custody.apply]

theorem custody_cancel (s : Connector) (timerId : Option ℕ) (reached : Bool) :
    (s.cancel timerId reached).custody = s.custody := by
  unfold cancel
  split <;> rfl

theorem custody_runFunctor (s : Connector) (savedErrno : ConnectErrno) :
    (s.runFunctor savedErrno).custody =
      s.custody.apply (s.functorOp savedErrno) := by
  unfold runFunctor functorOp
  split
  next hnil => simp [hnil, Custody.apply]
  next rest hhead =>
    simp only [hhead]
    exact custody_startInLoop { s with pending := rest } savedErrno
  next rest hhead =>
    simp only [hhead]
    have hdestroyed := custody_destroyChannel { s with pending := rest }
    by_cases hnone : s.registeredFd = none
    · have hnone' : registeredFd { s with pending := rest } = none := hnone
      have hsame : { s with pending := rest }.custody = s.custody := rfl
      rw [if_pos hnone, hdestroyed, hnone', hsame]
      simp [Custody.apply, Custody.finish, custody, hnone]
    · rw [if_neg hnone, hdestroyed]
      rfl
  next timerId reached rest hhead =>
    simp only [hhead]
    exact custody_cancel { s with pending := rest } timerId reached

/-- Every step is one operation on the ledger. -/
theorem custody_step (s : Connector) (a : Action) :
    (s.step a).custody = s.custody.apply (s.op a) := by
  cases a with
  | start inLoop savedErrno =>
      cases inLoop with
      | true => exact custody_startInLoop { s with connect_ := true } savedErrno
      | false => rfl
  | restart savedErrno =>
      exact custody_startInLoop
        { s with
          state_ := .kDisconnected
          retryDelayMs_ := kInitRetryDelayMs
          connect_ := true } savedErrno
  | stop inLoop reached =>
      cases inLoop with
      | true => exact custody_cancel { s with connect_ := false } _ reached
      | false => rfl
  | event revents status => exact custody_event s revents status
  | functor savedErrno => exact custody_runFunctor s savedErrno
  | timer id savedErrno =>
      simp only [step, fire, op]
      split
      · exact custody_startInLoop _ savedErrno
      · rfl

/-! ## Runs -/

/-- The step leaves the socket of a registered channel with no owner: a new
attempt or a reset takes the place of the channel, or the socket is writable
when the connector is not connecting, or is connected when it was stopped. -/
def LosesSocket (s : Connector) (a : Action) : Prop :=
  s.registeredFd ≠ none ∧
    match a with
    | .start inLoop savedErrno => inLoop = true ∧ savedErrno.Pending
    | .restart savedErrno => savedErrno.Pending
    | .stop _ _ => False
    | .event revents status =>
        revents.pollErr = false ∧ revents.pollNval = false ∧
          revents.pollOut = true ∧
          (s.state_ ≠ .kConnecting ∨
            (status.soError = 0 ∧ status.selfConnect = false ∧
              s.connect_ = false))
    | .functor savedErrno =>
        (s.pending.head? = some .startInLoop ∧ s.connect_ = true ∧
          savedErrno.Pending) ∨ s.pending.head? = some .resetChannel
    | .timer id savedErrno =>
        (∃ t ∈ s.timers, t.id = id) ∧ s.connect_ = true ∧ savedErrno.Pending

theorem connectOp_loses (savedErrno : ConnectErrno) :
    (connectOp savedErrno = .take ∨ connectOp savedErrno = .drop ∨
      connectOp savedErrno = .neglect) ↔ savedErrno.Pending := by
  unfold connectOp
  split <;> simp_all

theorem startOp_loses (s : Connector) (savedErrno : ConnectErrno) :
    (s.startOp savedErrno = .take ∨ s.startOp savedErrno = .drop ∨
      s.startOp savedErrno = .neglect) ↔
        s.connect_ = true ∧ savedErrno.Pending := by
  unfold startOp
  by_cases h : s.connect_ = true
  · rw [if_pos h, connectOp_loses]
    simp [h]
  · simp [h]

theorem handleWriteOp_loses (s : Connector) (status : SocketStatus) :
    (s.handleWriteOp status = .take ∨ s.handleWriteOp status = .drop ∨
      s.handleWriteOp status = .neglect) ↔
        s.state_ ≠ .kConnecting ∨
          (status.soError = 0 ∧ status.selfConnect = false ∧
            s.connect_ = false) := by
  unfold handleWriteOp
  by_cases hconnecting : s.state_ = .kConnecting
  · by_cases hsettled : status.soError ≠ 0 ∨ status.selfConnect = true ∨
        s.connect_ = true
    · have hnot : ¬ (status.soError = 0 ∧ status.selfConnect = false ∧
          s.connect_ = false) := by
        rcases hsettled with h | h | h <;> simp [h]
      simp [hconnecting, hsettled, hnot]
    · have hlost : status.soError = 0 ∧ status.selfConnect = false ∧
          s.connect_ = false := by
        simpa using hsettled
      simp [hconnecting, hlost]
  · simp [hconnecting]

theorem eventOp_loses {s : Connector} (hregistered : s.registeredFd ≠ none)
    (revents : Revents) (status : SocketStatus) :
    (s.eventOp revents status = .take ∨ s.eventOp revents status = .drop ∨
      s.eventOp revents status = .neglect) ↔
        revents.pollErr = false ∧ revents.pollNval = false ∧
          revents.pollOut = true ∧
          (s.state_ ≠ .kConnecting ∨
            (status.soError = 0 ∧ status.selfConnect = false ∧
              s.connect_ = false)) := by
  simp only [eventOp, hregistered, if_false]
  by_cases herror : revents.pollErr = true ∨ revents.pollNval = true
  · have hnot : ¬ (revents.pollErr = false ∧ revents.pollNval = false) := by
      rcases herror with h | h <;> simp [h]
    simp only [herror, if_true]
    constructor
    · rintro (h | h | h) <;> simp at h
    · rintro ⟨h, h', -⟩
      exact absurd ⟨h, h'⟩ hnot
  · have herr : revents.pollErr = false ∧ revents.pollNval = false := by
      simpa using herror
    by_cases hwritable : revents.pollOut = true
    · simp only [hwritable, if_true, herr, true_and]
      exact handleWriteOp_loses s status
    · simp [herror, hwritable]

theorem functorOp_loses {s : Connector} (hregistered : s.registeredFd ≠ none)
    (savedErrno : ConnectErrno) :
    (s.functorOp savedErrno = .take ∨ s.functorOp savedErrno = .drop ∨
      s.functorOp savedErrno = .neglect) ↔
        (s.pending.head? = some .startInLoop ∧ s.connect_ = true ∧
          savedErrno.Pending) ∨ s.pending.head? = some .resetChannel := by
  unfold functorOp
  split
  next rest hpending =>
    rw [startOp_loses]
    simp [hpending]
  next rest hpending => simp [hpending, hregistered]
  next hstart hreset =>
    have hhead : s.pending.head? ≠ some .startInLoop ∧
        s.pending.head? ≠ some .resetChannel := by
      cases hpending : s.pending with
      | nil => simp
      | cons f rest =>
          constructor
          · rintro hf
            obtain rfl := Option.some.inj hf
            exact hstart rest hpending
          · rintro hf
            obtain rfl := Option.some.inj hf
            exact hreset rest hpending
    simp [hhead]

theorem loses_iff (s : Connector) (a : Action) :
    s.custody.Loses (s.op a) ↔ s.LosesSocket a := by
  have hheld : s.custody.held = s.registeredFd := rfl
  unfold Custody.Loses LosesSocket
  rw [hheld]
  apply and_congr_right
  intro hregistered
  cases a with
  | start inLoop savedErrno =>
      cases inLoop with
      | true => simpa [op] using connectOp_loses savedErrno
      | false => simp [op]
  | restart savedErrno => exact connectOp_loses savedErrno
  | stop inLoop reached => simp [op]
  | event revents status => exact eventOp_loses hregistered revents status
  | functor savedErrno => exact functorOp_loses hregistered savedErrno
  | timer id savedErrno =>
      simp only [op]
      by_cases hfires : ∃ t ∈ s.timers, t.id = id
      · rw [if_pos hfires, startOp_loses]
        simp [hfires]
      · simp [hfires]

/-- Before its first step a connector has an empty ledger. -/
theorem custody_empty : ({} : Connector).custody = {} := by
  ext fd
  · rfl
  · rfl
  · simp [custody, Over]
  · rfl

end Connector

/-- After every step of a connector each socket whose attempt is over was
passed on once or closed once, and none was twice, exactly when no step leaves
the socket of a registered channel with no owner. -/
theorem connector_conserved_iff (actions : List Connector.Action) :
    EveryStep Connector.step (fun s a => (s.step a).Conserved) {} actions ↔
      EveryStep Connector.step (fun s a => ¬ s.LosesSocket a) {} actions := by
  have hstart : ({} : Connector).custody.Sound := by
    rw [Connector.custody_empty]
    exact Custody.sound_empty
  have hbalanced : ({} : Connector).Conserved := by
    rw [Connector.conserved_iff, Connector.custody_empty]
    exact Custody.balanced_empty
  have hready : EveryStep Connector.step (fun _ _ => True) {} actions :=
    everyStep_of_forall (fun _ _ => trivial) _ actions
  refine everyStep_good_iff Connector.step _ (fun s => s.custody.Sound)
    Connector.Conserved ?_ ?_ hstart hbalanced hready
  · intro s a hs _
    rw [Connector.custody_step]
    exact hs.apply _
  · intro s a hs hg _
    rw [Connector.conserved_iff, Connector.custody_step,
      Custody.balanced_apply_iff hs hg, Connector.loses_iff]

/-- The connector is stopped while the connection is pending, and then the
connection succeeds. -/
def stopWhileConnecting : List Connector.Action :=
  [.start true .EINPROGRESS, .stop true true,
    .event { pollOut := true } { soError := 0, selfConnect := false }]

/-- The socket of the attempt is neither passed on nor closed. -/
theorem connector_loses_stopWhileConnecting :
    (run Connector.step {} stopWhileConnecting).Over 0 ∧
      (run Connector.step {} stopWhileConnecting).settled 0 = 0 ∧
      ¬ EveryStep Connector.step (fun s a => (s.step a).Conserved) {}
        stopWhileConnecting := by
  have hover : (run Connector.step {} stopWhileConnecting).Over 0 :=
    ⟨.handled 0, by decide, rfl⟩
  have hsettled : (run Connector.step {} stopWhileConnecting).settled 0 = 0 :=
    by decide
  refine ⟨hover, hsettled, ?_⟩
  rintro ⟨-, -, hlast, -⟩
  have hone := (hlast 0).2 hover
  have hzero : (run Connector.step {} stopWhileConnecting).settled 0 = 1 :=
    hone
  omega

end MuduoHttp
