import MuduoHttp.Net.ConnectorSockets

/-!
# The attempts of a client

A client calls `connect` and `stop` at any time, and its connector queues
functors, arms a timer and waits in a channel.  There is at most one attempt
at a time as long as `connect`, which does not check the state, is called only
when none is under way or to come.
-/

namespace MuduoHttp

open Support

/-- What the asserts of `startInLoop` and `connecting` say, and that no
channel is destroyed while the poller has it. -/
def ConnectorEvent.Allowed : ConnectorEvent → Prop
  | .startInLoop state => state = .kDisconnected
  | .connecting installed => installed = false
  | .destroyed _ registered => registered = false
  | .connectReturned _ _ => True
  | .handled _ => True
  | .passed _ => True
  | .closed _ => True

/-- At most one attempt at a time: `startInLoop` was entered only when
disconnected and `connecting` only without a channel, and no registered
channel was destroyed. -/
def Connector.OneAttempt (s : Connector) : Prop :=
  ∀ e ∈ s.trace, e.Allowed

/-- `TcpClient` with its connector.  `connection_` is left out: it is used for
`shutdown` only. -/
structure TcpClient where
  connector_ : Connector := {}
  retry_ : Bool := false
  connect_ : Bool := true

namespace TcpClient

def connect (c : TcpClient) (inLoop : Bool) (savedErrno : ConnectErrno) :
    TcpClient :=
  { c with
    connect_ := true
    connector_ := c.connector_.start inLoop savedErrno }

def disconnect (c : TcpClient) : TcpClient := { c with connect_ := false }

def stop (c : TcpClient) (inLoop reached : Bool) : TcpClient :=
  { c with
    connect_ := false
    connector_ := c.connector_.stop inLoop reached }

def enableRetry (c : TcpClient) : TcpClient := { c with retry_ := true }

/-- The connection went down. -/
def removeConnection (c : TcpClient) (savedErrno : ConnectErrno) : TcpClient :=
  if c.retry_ && c.connect_ then
    { c with connector_ := c.connector_.restart savedErrno }
  else c

inductive Action
  | connect (inLoop : Bool) (savedErrno : ConnectErrno)
  | disconnect
  | stop (inLoop reached : Bool)
  | enableRetry
  | removeConnection (savedErrno : ConnectErrno)
  | event (revents : Revents) (status : SocketStatus)
  | functor (savedErrno : ConnectErrno)
  | timer (id : ℕ) (savedErrno : ConnectErrno)

def step (c : TcpClient) : Action → TcpClient
  | .connect inLoop savedErrno => c.connect inLoop savedErrno
  | .disconnect => c.disconnect
  | .stop inLoop reached => c.stop inLoop reached
  | .enableRetry => c.enableRetry
  | .removeConnection savedErrno => c.removeConnection savedErrno
  | .event revents status =>
      { c with connector_ := c.connector_.event revents status }
  | .functor savedErrno =>
      { c with connector_ := c.connector_.runFunctor savedErrno }
  | .timer id savedErrno =>
      { c with connector_ := c.connector_.fire id savedErrno }

/-- No start is queued and no retry timer is to fire. -/
def NoneToCome (c : TcpClient) : Prop :=
  .startInLoop ∉ c.connector_.pending ∧ c.connector_.timers = []

/-- `connect` is called when the connector is disconnected and no attempt is to
come, in the loop moreover after the channel of the last attempt was reset; so
is the reconnection when a connection goes down.  A retry timer fires after
that reset too. -/
def Calm (c : TcpClient) : Action → Prop
  | .connect inLoop _ =>
      c.connector_.state_ = .kDisconnected ∧ c.NoneToCome ∧
        (inLoop = true → c.connector_.channel_ = none)
  | .removeConnection _ =>
      c.retry_ = true ∧ c.connect_ = true →
        c.NoneToCome ∧ c.connector_.channel_ = none
  | .timer id _ =>
      (∃ t ∈ c.connector_.timers, t.id = id) → c.connector_.channel_ = none
  | .disconnect => True
  | .stop _ _ => True
  | .enableRetry => True
  | .event _ _ => True
  | .functor _ => True

end TcpClient

namespace Connector

/-- The functors that have to do with attempts. -/
def isWork : ConnectorFunctor → Bool
  | .startInLoop => true
  | .resetChannel => true
  | .cancel _ _ => false

/-- The queued functors that have to do with attempts. -/
def work (s : Connector) : List ConnectorFunctor := s.pending.filter isWork

/-- The channel of the last attempt, which awaits its reset. -/
def leavingChannel (leaving : Option ℕ) : Option ConnectorChannel :=
  leaving.map fun fd => { fd := fd, registered := false }

/-- Its reset in the queue. -/
def resets (leaving : Option ℕ) : List ConnectorFunctor :=
  leaving.elim [] fun _ => [.resetChannel]

/-- The phases of the attempts: none under way or to come, one queued, one
waiting for its timer, or one under way. -/
inductive Orderly (s : Connector) : Prop
  | rest (leaving : Option ℕ) (state : s.state_ ≠ .kConnecting)
      (channel : s.channel_ = leavingChannel leaving)
      (work : s.work = resets leaving) (timers : s.timers = [])
  | queued (leaving : Option ℕ) (state : s.state_ = .kDisconnected)
      (channel : s.channel_ = leavingChannel leaving)
      (work : s.work = resets leaving ++ [.startInLoop])
      (timers : s.timers = [])
  | waiting (leaving : Option ℕ) (timer : RetryTimer)
      (state : s.state_ = .kDisconnected)
      (channel : s.channel_ = leavingChannel leaving)
      (work : s.work = resets leaving) (timers : s.timers = [timer])
  | underWay (sockfd : ℕ) (state : s.state_ = .kConnecting)
      (channel : s.channel_ = some { fd := sockfd, registered := true })
      (work : s.work = []) (timers : s.timers = [])

/-- The attempts are in one of the phases, and there was one at a time. -/
def Attempts (s : Connector) : Prop := s.Orderly ∧ s.OneAttempt

variable {s : Connector}

theorem OneAttempt.emit (h : s.OneAttempt) (e : ConnectorEvent)
    (he : e.Allowed) : (s.emit e).OneAttempt := by
  intro e' he'
  rcases List.mem_append.mp he' with hold | hnew
  · exact h e' hold
  · rw [List.mem_singleton.mp hnew]
    exact he

theorem work_queueInLoop (s : Connector) {f : ConnectorFunctor}
    (h : isWork f = true) : (s.queueInLoop f).work = s.work ++ [f] := by
  simp [work, queueInLoop, List.filter_append, h]

/-! ## A new attempt -/

theorem OneAttempt.retry (h : s.OneAttempt) (sockfd : ℕ) :
    (s.retry sockfd).OneAttempt := by
  have htrace : (s.retry sockfd).trace = (s.emit (.closed sockfd)).trace := by
    unfold Connector.retry
    dsimp only
    split <;> rfl
  unfold OneAttempt
  rw [htrace]
  exact h.emit (.closed sockfd) trivial

/-- After `retry` the next attempt waits for its timer, or there is none. -/
theorem retry_orderly (leaving : Option ℕ)
    (channel : s.channel_ = leavingChannel leaving)
    (work : s.work = resets leaving) (timers : s.timers = []) (sockfd : ℕ) :
    (s.retry sockfd).Orderly := by
  by_cases hconnect : s.connect_ = true
  · refine .waiting leaving { id := s.nextTimer, delayMs := s.retryDelayMs_ }
      ?_ ?_ ?_ ?_
    · simp [Connector.retry, close, emit, hconnect]
    · simp [Connector.retry, close, emit, hconnect, channel]
    · simpa [Connector.retry, close, emit, hconnect, Connector.work] using work
    · simp [Connector.retry, close, emit, hconnect, timers]
  · refine .rest leaving ?_ ?_ ?_ ?_
    · simp [Connector.retry, close, emit, hconnect]
    · simp [Connector.retry, close, emit, hconnect, channel]
    · simpa [Connector.retry, close, emit, hconnect, Connector.work] using work
    · simp [Connector.retry, close, emit, hconnect, timers]

/-- Without a channel `connecting` destroys none. -/
theorem connecting_of_none (h : s.channel_ = none) (sockfd : ℕ) :
    s.connecting sockfd =
      { { s with state_ := .kConnecting }.emit (.connecting false) with
        channel_ := some { fd := sockfd, registered := true } } := by
  simp [connecting, destroyChannel, emit, h]

theorem connect_attempts (hstate : s.state_ = .kDisconnected)
    (hchannel : s.channel_ = none) (hwork : s.work = [])
    (htimers : s.timers = []) (hone : s.OneAttempt)
    (savedErrno : ConnectErrno) : (s.connect savedErrno).Attempts := by
  have hreturned : (s.connectReturned savedErrno).OneAttempt :=
    hone.emit (.connectReturned s.sockets savedErrno) trivial
  have hchannel' : (s.connectReturned savedErrno).channel_ = none := hchannel
  rcases s.connect_cases savedErrno with ⟨-, h⟩ | ⟨-, h | h⟩
  · rw [h, connecting_of_none hchannel']
    exact ⟨.underWay s.sockets rfl rfl hwork htimers,
      hreturned.emit (.connecting false) rfl⟩
  · rw [h]
    have horderly := retry_orderly (s := s.connectReturned savedErrno) none
      hchannel hwork htimers s.sockets
    exact ⟨horderly, hreturned.retry s.sockets⟩
  · rw [h]
    have hne : s.state_ ≠ .kConnecting := by
      rw [hstate]
      decide
    exact ⟨.rest none hne hchannel hwork htimers,
      hreturned.emit (.closed s.sockets) trivial⟩

/-- `startInLoop` with no attempt under way or to come. -/
theorem startInLoop_attempts (hstate : s.state_ = .kDisconnected)
    (hchannel : s.channel_ = none) (hwork : s.work = [])
    (htimers : s.timers = []) (hone : s.OneAttempt)
    (savedErrno : ConnectErrno) : (s.startInLoop savedErrno).Attempts := by
  have hentered := hone.emit (.startInLoop s.state_) hstate
  unfold startInLoop
  dsimp only
  split
  · exact connect_attempts (s := s.emit (.startInLoop s.state_)) hstate
      hchannel hwork htimers hentered savedErrno
  · have hne : s.state_ ≠ .kConnecting := by
      rw [hstate]
      decide
    exact ⟨.rest none hne hchannel hwork htimers, hentered⟩

/-! ## Events -/

/-- The phase in which an event arrives, with what the handlers keep of it. -/
structure UnderWay (s : Connector) (sockfd : ℕ) : Prop where
  channel : s.channel_ = some { fd := sockfd, registered := true }
  work : s.work = []
  timers : s.timers = []
  one : s.OneAttempt

/-- The connector with its channel out of the poller. -/
theorem UnderWay.work_remove {sockfd : ℕ} (h : s.UnderWay sockfd) :
    (s.removeAndResetChannel { fd := sockfd, registered := true }).work =
      resets (some sockfd) := by
  have hqueue := work_queueInLoop
    { s with channel_ := some { fd := sockfd, registered := false } }
    (f := .resetChannel) rfl
  have hwork : { s with
      channel_ := some { fd := sockfd, registered := false } }.work = [] :=
    h.work
  rw [hwork] at hqueue
  exact hqueue

theorem UnderWay.retry_attempts {sockfd : ℕ} (h : s.UnderWay sockfd) :
    ((s.removeAndResetChannel { fd := sockfd, registered := true }).retry
      sockfd).Attempts := by
  have horderly := retry_orderly
    (s := s.removeAndResetChannel { fd := sockfd, registered := true })
    (some sockfd) rfl h.work_remove h.timers sockfd
  have hone : (s.removeAndResetChannel
    { fd := sockfd, registered := true }).OneAttempt := h.one
  exact ⟨horderly, hone.retry sockfd⟩

theorem UnderWay.handleError_attempts {sockfd : ℕ} (h : s.UnderWay sockfd) :
    s.handleError.Attempts := by
  simpa only [handleError, h.channel] using h.retry_attempts

theorem UnderWay.handleWrite_attempts {sockfd : ℕ} (h : s.UnderWay sockfd)
    (hstate : s.state_ = .kConnecting) (status : SocketStatus) :
    (s.handleWrite status).Attempts := by
  simp only [handleWrite, hstate, h.channel]
  split
  · exact h.retry_attempts
  · split
    · exact h.retry_attempts
    · have hone : (s.removeAndResetChannel
          { fd := sockfd, registered := true }).OneAttempt := h.one
      split
      · refine ⟨.rest (some sockfd) ?_ rfl h.work_remove h.timers,
          hone.emit (.passed sockfd) trivial⟩
        simp [emit]
      · refine ⟨.rest (some sockfd) ?_ rfl h.work_remove h.timers, hone⟩
        simp

theorem event_attempts (h : s.Attempts) (revents : Revents)
    (status : SocketStatus) : (s.event revents status).Attempts := by
  have hother : ∀ leaving, s.channel_ = leavingChannel leaving →
      s.event revents status = s := by
    intro leaving hchannel
    unfold event
    rw [hchannel]
    cases leaving with
    | none => rfl
    | some fd => rfl
  obtain ⟨horderly, hone⟩ := h
  cases horderly with
  | rest leaving state channel work timers =>
      rw [hother leaving channel]
      exact ⟨.rest leaving state channel work timers, hone⟩
  | queued leaving state channel work timers =>
      rw [hother leaving channel]
      exact ⟨.queued leaving state channel work timers, hone⟩
  | waiting leaving timer state channel work timers =>
      rw [hother leaving channel]
      exact ⟨.waiting leaving timer state channel work timers, hone⟩
  | underWay sockfd state channel work timers =>
      have hhandled : (s.emit (.handled sockfd)).UnderWay sockfd :=
        ⟨channel, work, timers, hone.emit (.handled sockfd) trivial⟩
      simp only [event, channel, foldl_handler, mem_handleEvent_handleError,
        mem_handleEvent_handleWrite]
      by_cases herror : (revents.pollErr || revents.pollNval) = true
      · have hafter := hhandled.handleError_attempts
        simpa [herror, handleWrite_handleError hhandled.channel] using hafter
      · by_cases hwritable : revents.pollOut = true
        · have hafter := hhandled.handleWrite_attempts state status
          simpa [herror, hwritable] using hafter
        · have hsame : s.Attempts :=
            ⟨.underWay sockfd state channel work timers, hone⟩
          simpa [herror, hwritable] using hsame

/-! ## Functors and timers -/

theorem cancel_attempts (h : s.Attempts) (timerId : Option ℕ)
    (reached : Bool) : (s.cancel timerId reached).Attempts := by
  obtain ⟨horderly, hone⟩ := h
  cases reached with
  | false => exact ⟨horderly, hone⟩
  | true =>
      refine ⟨?_, hone⟩
      cases horderly with
      | rest leaving state channel work timers =>
          exact .rest leaving state channel work (by simp [cancel, timers])
      | queued leaving state channel work timers =>
          exact .queued leaving state channel work (by simp [cancel, timers])
      | waiting leaving timer state channel work timers =>
          by_cases hfound : timerId = some timer.id
          · have hne : s.state_ ≠ .kConnecting := by
              rw [state]
              decide
            exact .rest leaving hne channel work
              (by simp [cancel, timers, hfound])
          · exact .waiting leaving timer state channel work
              (by simp [cancel, timers, hfound])
      | underWay sockfd state channel work timers =>
          exact .underWay sockfd state channel work (by simp [cancel, timers])

/-- The attempts do not depend on the queue but for its work. -/
theorem Attempts.of_work {rest : List ConnectorFunctor} (h : s.Attempts)
    (hwork : rest.filter isWork = s.work) :
    { s with pending := rest }.Attempts := by
  obtain ⟨horderly, hone⟩ := h
  refine ⟨?_, hone⟩
  cases horderly with
  | rest leaving state channel work timers =>
      exact .rest leaving state channel (hwork.trans work) timers
  | queued leaving state channel work timers =>
      exact .queued leaving state channel (hwork.trans work) timers
  | waiting leaving timer state channel work timers =>
      exact .waiting leaving timer state channel (hwork.trans work) timers
  | underWay sockfd state channel work timers =>
      exact .underWay sockfd state channel (hwork.trans work) timers

/-- The reset at the head of the work is that of the last channel, which is out
of the poller. -/
theorem destroyChannel_of_resets {rest l : List ConnectorFunctor}
    {leaving : Option ℕ} (channel : s.channel_ = leavingChannel leaving)
    (work : s.work = resets leaving ++ l)
    (hwork : s.work = .resetChannel :: rest.filter isWork)
    (hl : ∀ l', l ≠ .resetChannel :: l') :
    rest.filter isWork = l ∧
      ∃ fd, { s with pending := rest }.destroyChannel =
        { s with pending := rest, channel_ := none }.emit
          (.destroyed fd false) := by
  rw [work] at hwork
  cases leaving with
  | none => exact absurd hwork (hl _)
  | some fd =>
      refine ⟨(List.cons.inj hwork).2.symm, fd, ?_⟩
      unfold destroyChannel
      simp only [channel, leavingChannel, Option.map_some]

/-- The channel that is reset awaits it. -/
theorem resetChannel_attempts {rest : List ConnectorFunctor} (h : s.Attempts)
    (hwork : s.work = .resetChannel :: rest.filter isWork) :
    { s with pending := rest }.destroyChannel.Attempts := by
  obtain ⟨horderly, hone⟩ := h
  have hemit : ∀ fd, ({ s with pending := rest, channel_ := none }.emit
      (.destroyed fd false)).OneAttempt := fun fd =>
    OneAttempt.emit (s := { s with pending := rest, channel_ := none }) hone
      (.destroyed fd false) rfl
  cases horderly with
  | rest leaving state channel work timers =>
      have hnil := work.trans (List.append_nil _).symm
      obtain ⟨hrest, fd, hdestroy⟩ :=
        destroyChannel_of_resets channel hnil hwork (by simp)
      rw [hdestroy]
      exact ⟨.rest none state rfl hrest timers, hemit fd⟩
  | queued leaving state channel work timers =>
      obtain ⟨hrest, fd, hdestroy⟩ :=
        destroyChannel_of_resets channel work hwork (by simp)
      rw [hdestroy]
      exact ⟨.queued none state rfl hrest timers, hemit fd⟩
  | waiting leaving timer state channel work timers =>
      have hnil := work.trans (List.append_nil _).symm
      obtain ⟨hrest, fd, hdestroy⟩ :=
        destroyChannel_of_resets channel hnil hwork (by simp)
      rw [hdestroy]
      exact ⟨.waiting none timer state rfl hrest timers, hemit fd⟩
  | underWay sockfd state channel work timers => simp [hwork] at work

/-- The first functor that has to do with attempts is that of the phase. -/
theorem runFunctor_attempts (h : s.Attempts) (savedErrno : ConnectErrno) :
    (s.runFunctor savedErrno).Attempts := by
  unfold runFunctor
  split
  next => exact h
  next rest hpending =>
    have hwork : s.work = .startInLoop :: rest.filter isWork := by
      rw [work, hpending]
      rfl
    obtain ⟨horderly, hone⟩ := h
    cases horderly with
    | rest leaving state channel work timers =>
        cases leaving <;> simp [resets, hwork] at work
    | queued leaving state channel work timers =>
        cases leaving with
        | some fd => simp [resets, hwork] at work
        | none =>
            have hrest : rest.filter isWork = [] := by
              simpa [resets, hwork] using work
            exact startInLoop_attempts (s := { s with pending := rest }) state
              channel hrest timers hone savedErrno
    | waiting leaving timer state channel work timers =>
        cases leaving <;> simp [resets, hwork] at work
    | underWay sockfd state channel work timers => simp [hwork] at work
  next rest hpending =>
    have hwork : s.work = .resetChannel :: rest.filter isWork := by
      rw [work, hpending]
      rfl
    exact resetChannel_attempts h hwork
  next timerId reached rest hpending =>
    have hwork : rest.filter isWork = s.work := by
      simp [work, hpending, isWork]
    exact cancel_attempts (h.of_work hwork) timerId reached

theorem fire_attempts (h : s.Attempts) {id : ℕ}
    (hreset : (∃ t ∈ s.timers, t.id = id) → s.channel_ = none)
    (savedErrno : ConnectErrno) : (s.fire id savedErrno).Attempts := by
  unfold fire
  by_cases hfires : ∃ t ∈ s.timers, t.id = id
  · rw [if_pos hfires]
    obtain ⟨horderly, hone⟩ := h
    obtain ⟨t, hmem, hid⟩ := hfires
    cases horderly with
    | rest leaving state channel work timers => simp [timers] at hmem
    | queued leaving state channel work timers => simp [timers] at hmem
    | waiting leaving timer state channel work timers =>
        obtain rfl : t = timer := by simpa [timers] using hmem
        have hnone := hreset ⟨t, hmem, hid⟩
        have hleaving : leaving = none := by
          cases leaving with
          | none => rfl
          | some fd => simp [leavingChannel, hnone] at channel
        subst hleaving
        exact startInLoop_attempts
          (s := { s with timers := s.timers.filter fun t => t.id ≠ id })
          state hnone work (by simp [timers, hid]) hone savedErrno
    | underWay sockfd state channel work timers => simp [timers] at hmem
  · rw [if_neg hfires]
    exact h

/-! ## Calls -/

/-- A start with no attempt under way or to come, in the loop when no channel
awaits its reset either. -/
theorem start_attempts (h : s.Attempts) (hstate : s.state_ = .kDisconnected)
    (hqueue : .startInLoop ∉ s.pending) (htimers : s.timers = [])
    {inLoop : Bool} (hchannel : inLoop = true → s.channel_ = none)
    (savedErrno : ConnectErrno) : (s.start inLoop savedErrno).Attempts := by
  obtain ⟨horderly, hone⟩ := h
  obtain ⟨leaving, channel, work⟩ : ∃ leaving,
      s.channel_ = leavingChannel leaving ∧ s.work = resets leaving := by
    cases horderly with
    | rest leaving state channel work timers => exact ⟨leaving, channel, work⟩
    | queued leaving state channel work timers =>
        have hmem : .startInLoop ∈ s.work := by simp [work]
        exact absurd (List.mem_of_mem_filter hmem) hqueue
    | waiting leaving timer state channel work timers =>
        simp [htimers] at timers
    | underWay sockfd state channel work timers => simp [hstate] at state
  cases inLoop with
  | true =>
      have hnone := hchannel rfl
      have hleaving : leaving = none := by
        cases leaving with
        | none => rfl
        | some fd => simp [leavingChannel, hnone] at channel
      subst hleaving
      exact startInLoop_attempts (s := { s with connect_ := true }) hstate
        hnone work htimers hone savedErrno
  | false =>
      have hadded := work_queueInLoop { s with connect_ := true }
        (f := .startInLoop) rfl
      have hwork : { s with connect_ := true }.work = resets leaving := work
      rw [hwork] at hadded
      exact ⟨.queued leaving hstate channel hadded htimers, hone⟩

theorem restart_attempts (h : s.Attempts) (hqueue : .startInLoop ∉ s.pending)
    (htimers : s.timers = []) (hchannel : s.channel_ = none)
    (savedErrno : ConnectErrno) : (s.restart savedErrno).Attempts := by
  obtain ⟨horderly, hone⟩ := h
  have hwork : s.work = [] := by
    cases horderly with
    | rest leaving state channel work timers =>
        cases leaving with
        | none => exact work
        | some fd => simp [leavingChannel, hchannel] at channel
    | queued leaving state channel work timers =>
        have hmem : .startInLoop ∈ s.work := by simp [work]
        exact absurd (List.mem_of_mem_filter hmem) hqueue
    | waiting leaving timer state channel work timers =>
        simp [htimers] at timers
    | underWay sockfd state channel work timers => simp [hchannel] at channel
  exact startInLoop_attempts
    (s := { s with
      state_ := .kDisconnected
      retryDelayMs_ := kInitRetryDelayMs
      connect_ := true }) rfl hchannel hwork htimers hone savedErrno

theorem stop_attempts (h : s.Attempts) (inLoop reached : Bool) :
    (s.stop inLoop reached).Attempts := by
  have hstopped : { s with connect_ := false }.Attempts := by
    obtain ⟨horderly, hone⟩ := h
    refine ⟨?_, hone⟩
    cases horderly with
    | rest leaving state channel work timers =>
        exact .rest leaving state channel work timers
    | queued leaving state channel work timers =>
        exact .queued leaving state channel work timers
    | waiting leaving timer state channel work timers =>
        exact .waiting leaving timer state channel work timers
    | underWay sockfd state channel work timers =>
        exact .underWay sockfd state channel work timers
  cases inLoop with
  | true => exact cancel_attempts hstopped s.timerId_ reached
  | false =>
      apply hstopped.of_work
      rw [List.filter_append]
      exact List.append_nil _

end Connector

namespace TcpClient

theorem step_attempts {c : TcpClient} (h : c.connector_.Attempts) {a : Action}
    (hcalm : c.Calm a) : (c.step a).connector_.Attempts := by
  cases a with
  | connect inLoop savedErrno =>
      obtain ⟨hstate, ⟨hqueue, htimers⟩, hchannel⟩ := hcalm
      exact Connector.start_attempts h hstate hqueue htimers hchannel savedErrno
  | disconnect => exact h
  | stop inLoop reached => exact Connector.stop_attempts h inLoop reached
  | enableRetry => exact h
  | removeConnection savedErrno =>
      simp only [step, removeConnection]
      split
      next hretry =>
        obtain ⟨⟨hqueue, htimers⟩, hchannel⟩ := hcalm (by simpa using hretry)
        exact Connector.restart_attempts h hqueue htimers hchannel savedErrno
      · exact h
  | event revents status => exact Connector.event_attempts h revents status
  | functor savedErrno => exact Connector.runFunctor_attempts h savedErrno
  | timer id savedErrno => exact Connector.fire_attempts h hcalm savedErrno

end TcpClient

/-- Whatever the order of calls, retry timers, events and functors, there is
at most one attempt at a time if `connect` is called and a lost connection is
made again only with none under way or to come, and timers fire after the
channel of the last attempt was reset. -/
theorem tcpClient_one_attempt {actions : List TcpClient.Action}
    (hcalm : EveryStep TcpClient.step TcpClient.Calm {} actions) :
    (run TcpClient.step {} actions).connector_.OneAttempt := by
  have hstart : ({} : TcpClient).connector_.Attempts := by
    refine ⟨.rest none ?_ rfl rfl rfl, ?_⟩
    · decide
    · intro e he
      simp at he
  exact (run_invariant (fun c : TcpClient => c.connector_.Attempts)
    (fun c a hc ha => TcpClient.step_attempts hc ha) hstart hcalm).2

/-- An attempt fails, and the next one is stopped. -/
def retryAndStop : List TcpClient.Action :=
  [.connect true .EINPROGRESS, .event { pollErr := true } {}, .functor .success,
    .timer 0 .EINPROGRESS, .stop true true, .event { pollOut := true } {},
    .functor .success]

theorem tcpClient_one_attempt_retryAndStop :
    (run TcpClient.step {} retryAndStop).connector_.OneAttempt ∧
      (run TcpClient.step {} retryAndStop).connector_.sockets = 2 := by
  refine ⟨tcpClient_one_attempt ?_, by decide⟩
  exact ⟨⟨rfl, ⟨by decide, rfl⟩, fun _ => rfl⟩, trivial, trivial, fun _ => rfl,
    trivial, trivial, trivial, trivial⟩

/-- `connect` is called again while the connection is pending. -/
def connectTwice : List TcpClient.Action :=
  [.connect true .EINPROGRESS, .connect true .EINPROGRESS]

/-- The second call starts an attempt while connecting, and destroys the
registered channel of the first one. -/
theorem tcpClient_two_attempts_connectTwice :
    let trace := (run TcpClient.step {} connectTwice).connector_.trace
    .startInLoop .kConnecting ∈ trace ∧ .connecting true ∈ trace ∧
      .destroyed 0 true ∈ trace ∧
      ¬ (run TcpClient.step {} connectTwice).connector_.OneAttempt := by
  have hstart : .startInLoop .kConnecting ∈
      (run TcpClient.step {} connectTwice).connector_.trace := by decide
  refine ⟨hstart, by decide, by decide, ?_⟩
  intro hone
  have hstate : ConnectorState.kConnecting = .kDisconnected := hone _ hstart
  exact absurd hstate (by decide)

end MuduoHttp
