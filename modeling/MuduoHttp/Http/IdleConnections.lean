import MuduoHttp.Net.Session
import MuduoHttp.Support.Recency
import MuduoHttp.Support.Transition
import Mathlib.Data.Int.Order.Basic

/-!
# The list of connections

`HttpServer` keeps its connections in a list, in which a connection moves to
the end with every message.  A timer shuts down those at the front that
received nothing for too long, and stops at the first that is not due.

A new connection is stamped with the time of its callback, a message with the
time at which `poll` returned, which is earlier.  Times are in microseconds.
-/

namespace MuduoHttp

open Support

/-- A connection with the `lastReceiveTime_` of its context. -/
structure TimedConnection where
  session : Session
  lastReceiveTime : ℤ

/-- The connections of an `HttpServer` in one loop, with the clock and
`pollReturnTime_` of the loop.  A connection is found by the weak pointer in
the list when `connection` has it. -/
structure HttpConnections where
  time_out : ℤ
  clock : ℤ := 0
  pollReturnTime_ : ℤ := 0
  connection : ℕ → Option TimedConnection := fun _ => none
  connectionList_ : List ℕ := []

namespace TimedConnection

/-- `conn->connected()`. -/
def Connected (c : TimedConnection) : Prop := c.session.conn.state = .kConnected

instance (c : TimedConnection) : Decidable c.Connected :=
  inferInstanceAs (Decidable (_ = _))

/-- `shutdown()`, then `forceCloseWithDelay(3.5)`. -/
def shutDown (c : TimedConnection) (write : WriteResult) : TimedConnection :=
  { c with
    session :=
      (c.session.call true write .shutdown).call true write
        .forceCloseWithDelay }

/-- A step that reports the connection neither up nor down. -/
def Quiet (c : TimedConnection) (a : Session.Action) : Prop :=
  (Session.step true c.session a).log.count .up = c.session.log.count .up ∧
    (Session.step true c.session a).log.count .down =
      c.session.log.count .down

instance (c : TimedConnection) (a : Session.Action) : Decidable (c.Quiet a) :=
  inferInstanceAs (Decidable (_ ∧ _))

end TimedConnection

namespace HttpConnections

def kMicroSecondsPerSecond : ℤ := 1000 * 1000

def setConnection (s : HttpConnections) (id : ℕ) (c : TimedConnection) :
    HttpConnections :=
  { s with connection := Function.update s.connection id (some c) }

/-- `onConnection` of a new connection. -/
def onConnectionUp (s : HttpConnections) (id : ℕ) : HttpConnections :=
  { s.setConnection id
      { session := Session.newConnection true, lastReceiveTime := s.clock } with
    connectionList_ := s.connectionList_ ++ [id] }

/-- `onConnection` when the connection is destroyed. -/
def onConnectionDown (s : HttpConnections) (id : ℕ) (c : TimedConnection) :
    HttpConnections :=
  { s.setConnection id { c with session := c.session.connectDestroyed } with
    connectionList_ := s.connectionList_.erase id }

/-- The stamp and the `splice` of `onMessage`; what else it does to the
connection are steps of their own. -/
def onMessage (s : HttpConnections) (id : ℕ) (c : TimedConnection) :
    HttpConnections :=
  { s.setConnection id { c with lastReceiveTime := s.pollReturnTime_ } with
    connectionList_ := s.connectionList_.erase id ++ [id] }

/-- The age of a connection is more than `time_out`. -/
def TimedOut (s : HttpConnections) (now lastReceiveTime : ℤ) : Prop :=
  s.time_out * kMicroSecondsPerSecond < now - lastReceiveTime

instance (s : HttpConnections) (now lastReceiveTime : ℤ) :
    Decidable (s.TimedOut now lastReceiveTime) :=
  inferInstanceAs (Decidable (_ < _))

/-- The loop of `onCheckTimer` from a position in the list: the connections
and the rest of the list. -/
def checkFrom (s : HttpConnections) (write : WriteResult) (now : ℤ) :
    List ℕ → HttpConnections × List ℕ
  | [] => (s, [])
  | id :: rest =>
      match s.connection id with
      | some c =>
          if s.TimedOut now c.lastReceiveTime then
            let s :=
              if c.Connected then s.setConnection id (c.shutDown write) else s
            let (s, rest) := s.checkFrom write now rest
            (s, id :: rest)
          else if now - c.lastReceiveTime < 0 then
            -- the clock was set back
            let s := s.setConnection id { c with lastReceiveTime := now }
            let (s, rest) := s.checkFrom write now rest
            (s, id :: rest)
          else (s, id :: rest)
      | none => s.checkFrom write now rest

def onCheckTimer (s : HttpConnections) (write : WriteResult) :
    HttpConnections :=
  let (s', connectionList_) := s.checkFrom write s.clock s.connectionList_
  { s' with connectionList_ := connectionList_ }

/-- The clock, the loop and its handlers, and any other step of a
connection. -/
inductive Action
  | tick (d : ℕ)
  | poll
  | up (id : ℕ)
  | message (id : ℕ)
  | down (id : ℕ)
  | session (id : ℕ) (a : Session.Action)
  | checkTimer (write : WriteResult)

/-- A connection has a number of its own, and only one in the list has
messages and goes down. -/
def step (s : HttpConnections) : Action → HttpConnections
  | .tick d => { s with clock := s.clock + d }
  | .poll => { s with pollReturnTime_ := s.clock }
  | .up id => if (s.connection id).isNone then s.onConnectionUp id else s
  | .message id =>
      match s.connection id with
      | some c => if id ∈ s.connectionList_ then s.onMessage id c else s
      | none => s
  | .down id =>
      match s.connection id with
      | some c => if id ∈ s.connectionList_ then s.onConnectionDown id c else s
      | none => s
  | .session id a =>
      match s.connection id with
      | some c =>
          if c.Quiet a then
            s.setConnection id
              { c with session := Session.step true c.session a }
          else s
      | none => s
  | .checkTimer write => s.onCheckTimer write

/-- A message is handled when no other connection in the list has a later
stamp than the time at which `poll` returned: none came up before it in this
iteration of the loop. -/
def NoLaterStamp (s : HttpConnections) : Action → Prop
  | .message id =>
      ∀ d ∈ s.connectionList_, d ≠ id → ∀ c, s.connection d = some c →
        c.lastReceiveTime ≤ s.pollReturnTime_
  | _ => True

/-! ## One check -/

/-- What the check does to a connection that is due. -/
def closeIdle (write : WriteResult) (c : TimedConnection) : TimedConnection :=
  if c.Connected then c.shutDown write else c

/-- The `lastReceiveTime_` of a connection. -/
def stamp (s : HttpConnections) (id : ℕ) : ℤ :=
  (s.connection id).elim 0 TimedConnection.lastReceiveTime

/-- The connection is due at the given time. -/
def due (s : HttpConnections) (now : ℤ) (id : ℕ) : Bool :=
  decide (s.TimedOut now (s.stamp id))

/-- One turn of the loop on a connection that is due. -/
theorem setConnection_closeIdle (write : WriteResult) {s : HttpConnections}
    {id : ℕ} {c : TimedConnection} (hc : s.connection id = some c) :
    (if c.Connected then s.setConnection id (c.shutDown write) else s) =
      s.setConnection id (closeIdle write c) := by
  rw [closeIdle]
  split
  · rfl
  · simp [setConnection, ← hc]

/-- The loop closes the connections in front that are due.  It runs on `s`,
which agrees with the state `s₀` before the loop on the rest of the list. -/
theorem checkFrom_eq {s₀ : HttpConnections} {now : ℤ} (write : WriteResult)
    {rest : List ℕ} (hnodup : rest.Nodup)
    (hpresent : ∀ id ∈ rest, ∃ c, s₀.connection id = some c ∧
      c.lastReceiveTime ≤ now)
    {s : HttpConnections} (htime : s.time_out = s₀.time_out)
    (hsame : ∀ id ∈ rest, s.connection id = s₀.connection id) :
    s.checkFrom write now rest =
      ({ s with
          connection := fun id =>
            if id ∈ rest.takeWhile (s₀.due now) then
              (s₀.connection id).map (closeIdle write)
            else s.connection id }, rest) := by
  induction rest generalizing s with
  | nil => simp [checkFrom]
  | cons id rest ih =>
      obtain ⟨hid, hrest⟩ := List.nodup_cons.mp hnodup
      obtain ⟨c, hc, hage⟩ := hpresent id (.head _)
      have hsc : s.connection id = some c := (hsame id (.head _)).trans hc
      have hdue : s₀.due now id = true ↔ s.TimedOut now c.lastReceiveTime := by
        simp [due, stamp, hc, TimedOut, htime]
      by_cases hout : s.TimedOut now c.lastReceiveTime
      · have hkept : ∀ d ∈ rest, d ≠ id := by
          rintro d hd rfl
          exact hid hd
        have hsame' : ∀ d ∈ rest,
            (s.setConnection id (closeIdle write c)).connection d =
              s₀.connection d := fun d hd =>
          (Function.update_of_ne (hkept d hd) _ _).trans (hsame d (.tail _ hd))
        have hstep := @ih hrest (fun d hd => hpresent d (.tail _ hd))
          (s.setConnection id (closeIdle write c)) htime hsame'
        simp only [checkFrom, hsc, hout, if_true,
          setConnection_closeIdle write hsc, hstep,
          List.takeWhile_cons_of_pos (hdue.mpr hout)]
        refine Prod.ext ?_ rfl
        simp only [setConnection, HttpConnections.mk.injEq, true_and, and_true]
        funext d
        by_cases hd : d = id
        · subst hd
          have hnot : d ∉ rest.takeWhile (s₀.due now) := fun hmem =>
            hid (List.takeWhile_sublist _ |>.subset hmem)
          simp [hnot, hc]
        · simp [hd]
      · have hpast : ¬ now - c.lastReceiveTime < 0 := by omega
        have hstop : (id :: rest).takeWhile (s₀.due now) = [] :=
          List.takeWhile_cons_of_neg fun hpos => hout (hdue.mp hpos)
        simp [checkFrom, hsc, hout, hpast, hstop]

end HttpConnections

/-! ## The steps of a connection -/

namespace Session

theorem connected_handleClose {oneLoop : Bool} {s : Session}
    (h : (s.handleClose oneLoop).conn.state = .kConnected) :
    s.conn.state = .kConnected := by
  cases oneLoop <;> exact h

theorem connected_forceClose {s : Session}
    (h : s.forceClose.conn.state = .kConnected) :
    s.conn.state = .kConnected := by
  unfold forceClose at h
  split at h
  · simp [queueInLoop, TcpConnection.setState] at h
  · exact h

theorem connected_call {s : Session} {inLoop : Bool} {write : WriteResult}
    {c : Call} (h : (s.call inLoop write c).conn.state = .kConnected) :
    s.conn.state = .kConnected := by
  cases c with
  | send message =>
      simp only [call] at h
      split at h
      next hconnected => exact hconnected
      · exact h
  | shutdown =>
      simp only [call] at h
      split at h
      next hconnected => exact hconnected
      · exact h
  | forceClose => exact connected_forceClose h
  | forceCloseWithDelay =>
      simp only [call] at h
      split at h
      · cases inLoop <;> simp [queueInLoop, TcpConnection.setState] at h
      · exact h

theorem connected_runHandler {oneLoop : Bool} {s : Session}
    {read : ReadResult} {write : WriteResult} {handler : Handler}
    (h : (runHandler oneLoop s read write handler).conn.state = .kConnected) :
    s.conn.state = .kConnected := by
  cases handler with
  | handleClose => exact connected_handleClose h
  | handleError => exact h
  | handleRead =>
      cases read with
      | data => exact h
      | eof => exact connected_handleClose h
      | error => exact h
  | handleWrite =>
      have hkeeps := TcpConnection.keepsOpen_handleWrite s.conn write
      exact hkeeps.state_eq.symm.trans h

/-- Only `connectEstablished` makes a connection connected, and it reports the
connection up. -/
theorem connected_step {oneLoop : Bool} {s : Session} {a : Action}
    (hquiet : (step oneLoop s a).log.count .up = s.log.count .up)
    (h : (step oneLoop s a).conn.state = .kConnected) :
    s.conn.state = .kConnected := by
  cases a with
  | poll revents =>
      simp only [step] at h
      split at h <;> exact h
  | handler read write =>
      simp only [step] at h
      split at h
      · exact h
      next handler handlers _ =>
        exact connected_runHandler (s := { s with handlers := handlers }) h
  | ioFunctor write =>
      simp only [step] at h hquiet
      split at h
      next functor functors hidle hfunctors =>
        rw [hidle, hfunctors] at hquiet
        cases functor with
        | connectEstablished => simp [runIoFunctor] at hquiet
        | sendInLoop message =>
            have hkeeps := TcpConnection.keepsOpen_sendInLoop s.conn message
              write
            exact hkeeps.state_eq.symm.trans h
        | shutdownInLoop =>
            have hkeeps := TcpConnection.keepsOpen_shutdownInLoop s.conn
            exact hkeeps.state_eq.symm.trans h
        | addTimerInLoop => exact h
        | forceCloseInLoop =>
            simp only [runIoFunctor, forceCloseInLoop] at h
            split at h
            · exact connected_handleClose (s := { s with ioFunctors := functors }) h
            · exact h
        | connectDestroyed =>
            simp [runIoFunctor, connectDestroyed, record] at h
      · exact h
  | acceptorFunctor =>
      simp only [step] at h
      split at h <;> exact h
  | timer =>
      simp only [step] at h
      split at h
      · exact h
      · exact connected_forceClose (s := { s with timers := s.timers - 1 }) h
  | call inLoop write c => exact connected_call h

end Session

namespace HttpConnections

variable {s : HttpConnections}

/-! ## Runs -/

/-- The list has the connected connections, each once, and no stamp is later
than the clock. -/
structure Timely (s : HttpConnections) : Prop where
  nodup : s.connectionList_.Nodup
  listed : ∀ id ∈ s.connectionList_, s.connection id ≠ none
  connected : ∀ id c, s.connection id = some c → c.Connected →
    id ∈ s.connectionList_
  stamps : ∀ id c, s.connection id = some c → c.lastReceiveTime ≤ s.clock
  polled : s.pollReturnTime_ ≤ s.clock

/-- The list is in the order of the stamps. -/
def Ordered (s : HttpConnections) : Prop :=
  InOrder (· ≤ ·) s.stamp s.connectionList_

/-- A check changes only the connections in front that are due. -/
theorem Timely.onCheckTimer_eq (h : s.Timely) (write : WriteResult) :
    s.onCheckTimer write =
      { s with
        connection := fun id =>
          if id ∈ s.connectionList_.takeWhile (s.due s.clock) then
            (s.connection id).map (closeIdle write)
          else s.connection id } := by
  have hpresent : ∀ id ∈ s.connectionList_, ∃ c,
      s.connection id = some c ∧ c.lastReceiveTime ≤ s.clock := by
    intro id hid
    obtain ⟨c, hc⟩ := Option.ne_none_iff_exists'.mp (h.listed id hid)
    exact ⟨c, hc, h.stamps id c hc⟩
  have hloop := checkFrom_eq write h.nodup hpresent (s := s) rfl
    (fun _ _ => rfl)
  simp only [onCheckTimer, hloop]

/-- In an ordered list the connections in front that are due are all that
are. -/
theorem Ordered.mem_takeWhile (h : s.Ordered) (id : ℕ) :
    id ∈ s.connectionList_.takeWhile (s.due s.clock) ↔
      id ∈ s.connectionList_ ∧ s.due s.clock id = true := by
  have hold : ∀ t t', t ≤ t' → decide (s.TimedOut s.clock t') = true →
      decide (s.TimedOut s.clock t) = true := by
    intro t t' hle hlate
    rw [decide_eq_true_eq] at hlate ⊢
    unfold TimedOut at hlate ⊢
    omega
  have hscan := InOrder.mem_scan (x := id) h hold
  exact hscan

theorem stamp_of_eq {id : ℕ} {c : TimedConnection}
    (h : s.connection id = some c) : s.stamp id = c.lastReceiveTime := by
  simp [stamp, h]

theorem stamp_setConnection (s : HttpConnections) (id : ℕ)
    (c : TimedConnection) :
    (s.setConnection id c).stamp =
      Function.update s.stamp id c.lastReceiveTime := by
  funext d
  by_cases hd : d = id
  · subst hd
    simp [stamp, setConnection]
  · simp [stamp, setConnection, hd]

/-- A change of one connection and of its place in the list. -/
theorem Timely.change (h : s.Timely) {id : ℕ} {c : TimedConnection} {l : List ℕ}
    (hnodup : l.Nodup)
    (hothers : ∀ d, d ≠ id → (d ∈ l ↔ d ∈ s.connectionList_))
    (hstamp : c.lastReceiveTime ≤ s.clock) (hconnected : c.Connected → id ∈ l) :
    { s.setConnection id c with connectionList_ := l }.Timely where
  nodup := hnodup
  listed d hd := by
    by_cases hdid : d = id
    · subst hdid
      simp [setConnection]
    · simpa [setConnection, hdid] using h.listed d ((hothers d hdid).mp hd)
  connected d c' hc' hcon := by
    by_cases hdid : d = id
    · subst hdid
      obtain rfl : c = c' := by simpa [setConnection] using hc'
      exact hconnected hcon
    · apply (hothers d hdid).mpr
      exact h.connected d c' (by simpa [setConnection, hdid] using hc') hcon
  stamps d c' hc' := by
    by_cases hdid : d = id
    · subst hdid
      obtain rfl : c = c' := by simpa [setConnection] using hc'
      exact hstamp
    · exact h.stamps d c' (by simpa [setConnection, hdid] using hc')
  polled := h.polled

theorem Timely.onConnectionUp (h : s.Timely) {id : ℕ}
    (hnew : s.connection id = none) : (s.onConnectionUp id).Timely := by
  have hnot : id ∉ s.connectionList_ := fun hmem => h.listed id hmem hnew
  apply h.change
  · rw [List.nodup_append]
    refine ⟨h.nodup, List.nodup_singleton id, ?_⟩
    rintro d hd e he rfl
    exact hnot (List.mem_singleton.mp he ▸ hd)
  · intro d hd
    simp [hd]
  · exact Int.le_refl _
  · intro _
    simp

theorem Timely.onConnectionDown (h : s.Timely) {id : ℕ} {c : TimedConnection}
    (hc : s.connection id = some c) : (s.onConnectionDown id c).Timely := by
  apply h.change (h.nodup.erase id)
  · intro d hd
    rw [h.nodup.mem_erase_iff]
    simp [hd]
  · exact h.stamps id c hc
  · intro hcon
    simp [TimedConnection.Connected, Session.connectDestroyed,
      Session.record] at hcon

theorem Timely.onMessage (h : s.Timely) (id : ℕ) (c : TimedConnection) :
    (s.onMessage id c).Timely := by
  apply h.change
  · rw [List.nodup_append]
    refine ⟨h.nodup.erase id, List.nodup_singleton id, ?_⟩
    intro d hd e he
    rw [List.mem_singleton.mp he]
    exact (h.nodup.mem_erase_iff.mp hd).1
  · intro d hd
    simp [h.nodup.mem_erase_iff, hd]
  · exact h.polled
  · intro _
    simp

theorem Timely.session (h : s.Timely) {id : ℕ} {c : TimedConnection}
    (hc : s.connection id = some c) {a : Session.Action} (hquiet : c.Quiet a) :
    (s.setConnection id
      { c with session := Session.step true c.session a }).Timely := by
  apply h.change h.nodup
  · intro d hd
    exact Iff.rfl
  · exact h.stamps id c hc
  · intro hcon
    exact h.connected id c hc (Session.connected_step hquiet.1 hcon)

theorem closeIdle_lastReceiveTime (write : WriteResult) (c : TimedConnection) :
    (closeIdle write c).lastReceiveTime = c.lastReceiveTime := by
  unfold closeIdle
  split <;> rfl

theorem connected_closeIdle {write : WriteResult} {c : TimedConnection}
    (h : (closeIdle write c).Connected) : c.Connected := by
  unfold closeIdle at h
  split at h
  next hcon => exact hcon
  · exact h

/-- What a check leaves of a connection. -/
theorem Timely.connection_onCheckTimer (h : s.Timely) (write : WriteResult)
    (id : ℕ) :
    (s.onCheckTimer write).connection id = s.connection id ∨
      (s.onCheckTimer write).connection id =
        (s.connection id).map (closeIdle write) := by
  rw [h.onCheckTimer_eq]
  dsimp only
  split
  · exact .inr rfl
  · exact .inl rfl

theorem Timely.onCheckTimer (h : s.Timely) (write : WriteResult) :
    (s.onCheckTimer write).Timely := by
  have hlist : (s.onCheckTimer write).connectionList_ = s.connectionList_ := by
    rw [h.onCheckTimer_eq]
  have hclock : (s.onCheckTimer write).clock = s.clock := by
    rw [h.onCheckTimer_eq]
  have hback : ∀ id c, (s.onCheckTimer write).connection id = some c →
      ∃ c₀, s.connection id = some c₀ ∧
        c.lastReceiveTime = c₀.lastReceiveTime ∧
        (c.Connected → c₀.Connected) := by
    intro id c hc
    rcases h.connection_onCheckTimer write id with heq | heq
    · exact ⟨c, heq ▸ hc, rfl, fun hcon => hcon⟩
    · rw [heq, Option.map_eq_some_iff] at hc
      obtain ⟨c₀, hc₀, rfl⟩ := hc
      exact ⟨c₀, hc₀, closeIdle_lastReceiveTime write c₀, connected_closeIdle⟩
  constructor
  · rw [hlist]
    exact h.nodup
  · intro id hid
    rw [hlist] at hid
    rcases h.connection_onCheckTimer write id with heq | heq
    · rw [heq]
      exact h.listed id hid
    · rw [heq]
      simpa using h.listed id hid
  · intro id c hc hcon
    obtain ⟨c₀, hc₀, -, hcon₀⟩ := hback id c hc
    rw [hlist]
    exact h.connected id c₀ hc₀ (hcon₀ hcon)
  · intro id c hc
    obtain ⟨c₀, hc₀, hstamp, -⟩ := hback id c hc
    rw [hclock, hstamp]
    exact h.stamps id c₀ hc₀
  · rw [h.onCheckTimer_eq]
    exact h.polled

theorem Timely.step (h : s.Timely) (a : Action) : (s.step a).Timely := by
  cases a with
  | tick d =>
      have hlater : ∀ t, t ≤ s.clock → t ≤ s.clock + (d : ℤ) := by
        intro t ht
        omega
      exact ⟨h.nodup, h.listed, h.connected,
        fun id c hc => hlater _ (h.stamps id c hc), hlater _ h.polled⟩
  | poll =>
      exact ⟨h.nodup, h.listed, h.connected, h.stamps, Int.le_refl _⟩
  | up id =>
      simp only [HttpConnections.step]
      split
      next hnew => exact h.onConnectionUp (by simpa using hnew)
      · exact h
  | message id =>
      simp only [HttpConnections.step]
      split
      next c hc =>
        split
        · exact h.onMessage id c
        · exact h
      · exact h
  | down id =>
      simp only [HttpConnections.step]
      split
      next c hc =>
        split
        · exact h.onConnectionDown hc
        · exact h
      · exact h
  | session id a =>
      simp only [HttpConnections.step]
      split
      next c hc =>
        split
        next hquiet => exact h.session hc hquiet
        · exact h
      · exact h
  | checkTimer write => exact h.onCheckTimer write

theorem Timely.stamp_le (h : s.Timely) {id : ℕ} (hid : id ∈ s.connectionList_) :
    s.stamp id ≤ s.clock := by
  obtain ⟨c, hc⟩ := Option.ne_none_iff_exists'.mp (h.listed id hid)
  rw [stamp_of_eq hc]
  exact h.stamps id c hc

theorem Timely.stamp_onCheckTimer (h : s.Timely) (write : WriteResult) :
    (s.onCheckTimer write).stamp = s.stamp := by
  funext id
  unfold stamp
  rcases h.connection_onCheckTimer write id with heq | heq
  · rw [heq]
  · rw [heq]
    cases s.connection id with
    | none => rfl
    | some c => exact closeIdle_lastReceiveTime write c

/-- A change of a connection that keeps its stamp. -/
theorem stamp_setConnection_of_eq {id : ℕ} {c c' : TimedConnection}
    (hc : s.connection id = some c)
    (hstamp : c'.lastReceiveTime = c.lastReceiveTime) :
    (s.setConnection id c').stamp = s.stamp := by
  rw [stamp_setConnection, hstamp, ← stamp_of_eq hc, Function.update_eq_self]

theorem Ordered.onConnectionUp (h : s.Ordered) (htimely : s.Timely) {id : ℕ}
    (hnew : s.connection id = none) : (s.onConnectionUp id).Ordered := by
  have hnot : id ∉ s.connectionList_ := fun hmem =>
    htimely.listed id hmem hnew
  have hpush := InOrder.push h hnot fun a ha => htimely.stamp_le ha
  have hstamp := s.stamp_setConnection id
    { session := Session.newConnection true, lastReceiveTime := s.clock }
  unfold Ordered
  rw [← hstamp] at hpush
  exact hpush

theorem Ordered.onMessage (h : s.Ordered) (htimely : s.Timely) {id : ℕ}
    (c : TimedConnection) (hlater : s.NoLaterStamp (.message id)) :
    (s.onMessage id c).Ordered := by
  have hlast : ∀ a ∈ s.connectionList_, a ≠ id →
      s.stamp a ≤ s.pollReturnTime_ := by
    intro a ha hne
    obtain ⟨d, hd⟩ := Option.ne_none_iff_exists'.mp (htimely.listed a ha)
    rw [stamp_of_eq hd]
    exact hlater a ha hne d hd
  have htouch := InOrder.touch h htimely.nodup hlast
  have hstamp := s.stamp_setConnection id
    { c with lastReceiveTime := s.pollReturnTime_ }
  rw [← hstamp] at htouch
  exact htouch

theorem Ordered.onConnectionDown (h : s.Ordered) {id : ℕ} {c : TimedConnection}
    (hc : s.connection id = some c) : (s.onConnectionDown id c).Ordered := by
  have hstamp : (s.onConnectionDown id c).stamp = s.stamp :=
    stamp_setConnection_of_eq hc rfl
  unfold Ordered
  rw [hstamp]
  exact InOrder.erase h id

theorem Ordered.step (h : s.Ordered) (htimely : s.Timely) {a : Action}
    (hlater : s.NoLaterStamp a) : (s.step a).Ordered := by
  cases a with
  | tick d => exact h
  | poll => exact h
  | up id =>
      simp only [HttpConnections.step]
      split
      next hnew => exact h.onConnectionUp htimely (by simpa using hnew)
      · exact h
  | message id =>
      simp only [HttpConnections.step]
      split
      next c hc =>
        split
        · exact h.onMessage htimely c hlater
        · exact h
      · exact h
  | down id =>
      simp only [HttpConnections.step]
      split
      next c hc =>
        split
        · exact h.onConnectionDown hc
        · exact h
      · exact h
  | session id a =>
      simp only [HttpConnections.step]
      split
      next c hc =>
        split
        · have hstamp : (s.setConnection id
              { c with session := Session.step true c.session a }).stamp =
                s.stamp := stamp_setConnection_of_eq hc rfl
          unfold Ordered
          rw [hstamp]
          exact h
        · exact h
      · exact h
  | checkTimer write =>
      unfold Ordered
      rw [HttpConnections.step, htimely.stamp_onCheckTimer,
        htimely.onCheckTimer_eq]
      exact h

/-- The server before its first connection. -/
def fresh (time_out : ℤ) : HttpConnections := { time_out := time_out }

theorem timely_fresh (time_out : ℤ) : (fresh time_out).Timely where
  nodup := List.nodup_nil
  listed _ hid := absurd hid List.not_mem_nil
  connected _ _ hc := by simp [fresh] at hc
  stamps _ _ hc := by simp [fresh] at hc
  polled := Int.le_refl _

/-- The connection was shut down, and its close is scheduled. -/
structure ShutDown (before after : TimedConnection) : Prop where
  conn : after.session.conn =
    (before.session.conn.setState .kDisconnecting).shutdownInLoop
  state : after.session.conn.state = .kDisconnecting
  timers : after.session.timers = before.session.timers + 1

theorem shutDown_closeIdle (write : WriteResult) {c : TimedConnection}
    (h : c.Connected) : ShutDown c (closeIdle write c) := by
  have hstate : c.session.conn.state = .kConnected := h
  have hkeeps := TcpConnection.keepsOpen_shutdownInLoop
    (c.session.conn.setState .kDisconnecting)
  have hshut : (c.session.conn.setState .kDisconnecting).shutdownInLoop.state =
      .kDisconnecting := hkeeps.state_eq
  have halive :
      (c.session.conn.setState .kDisconnecting).shutdownInLoop.state.Alive :=
    .inr hshut
  have hsame : ∀ conn : TcpConnection, conn.state = .kDisconnecting →
      conn.setState .kDisconnecting = conn := by
    intro conn hconn
    rw [TcpConnection.setState, ← hconn]
  have hsession : (closeIdle write c).session =
      { c.session with
        conn := (c.session.conn.setState .kDisconnecting).shutdownInLoop
        timers := c.session.timers + 1 } := by
    simp [closeIdle, h, TimedConnection.shutDown, Session.call, hstate, halive,
      hsame _ hshut]
  constructor
  · rw [hsession]
  · rw [hsession]
    exact hshut
  · rw [hsession]

end HttpConnections

/-- Whatever the order of connections coming up and going down, messages and
checks, as long as no message is handled after a connection came up in the
same iteration of the loop: a check shuts down every connected connection that
is due, and touches none that is not. -/
theorem idle_connections_found (time_out : ℤ)
    {actions : List HttpConnections.Action}
    (hlater : EveryStep HttpConnections.step HttpConnections.NoLaterStamp
      (HttpConnections.fresh time_out) actions) (write : WriteResult) :
    let s := run HttpConnections.step (HttpConnections.fresh time_out) actions
    (∀ id c, s.connection id = some c → c.Connected →
        s.TimedOut s.clock c.lastReceiveTime →
        ∃ c', (s.onCheckTimer write).connection id = some c' ∧
          HttpConnections.ShutDown c c') ∧
      ∀ id c, s.connection id = some c →
        ¬ s.TimedOut s.clock c.lastReceiveTime →
        (s.onCheckTimer write).connection id = some c := by
  intro s
  have hordered : (HttpConnections.fresh time_out).Ordered :=
    List.Pairwise.nil
  obtain ⟨htimely, hsorted⟩ := run_invariant
    (fun s : HttpConnections => s.Timely ∧ s.Ordered)
    (fun s a hs ha => ⟨hs.1.step a, hs.2.step hs.1 ha⟩)
    ⟨HttpConnections.timely_fresh time_out, hordered⟩ hlater
  have hdue : ∀ id c, s.connection id = some c →
      (s.due s.clock id = true ↔ s.TimedOut s.clock c.lastReceiveTime) := by
    intro id c hc
    simp [HttpConnections.due, HttpConnections.stamp_of_eq hc]
  rw [htimely.onCheckTimer_eq]
  constructor
  · intro id c hc hcon hout
    have hfront := (hsorted.mem_takeWhile id).mpr
      ⟨htimely.connected id c hc hcon, (hdue id c hc).mpr hout⟩
    refine ⟨HttpConnections.closeIdle write c, ?_,
      HttpConnections.shutDown_closeIdle write hcon⟩
    dsimp only
    rw [if_pos hfront, hc, Option.map_some]
  · intro id c hc hout
    have hnot : id ∉ s.connectionList_.takeWhile (s.due s.clock) := by
      intro hfront
      have hmem := (hsorted.mem_takeWhile id).mp hfront
      exact hout ((hdue id c hc).mp hmem.2)
    dsimp only
    rw [if_neg hnot, hc]

/-- Two connections, a message for the first, and nothing for nine seconds. -/
def twoConnections : List HttpConnections.Action :=
  [.up 0, .tick 5, .up 1, .tick 5, .poll, .message 0, .tick 9000000]

theorem idle_connections_found_twoConnections :
    let s := run HttpConnections.step (HttpConnections.fresh 8) twoConnections
    ∃ c', (s.onCheckTimer (.wrote 0)).connection 1 = some c' ∧
      HttpConnections.ShutDown
        { session := Session.newConnection true, lastReceiveTime := 5 } c' := by
  have hlater : EveryStep HttpConnections.step HttpConnections.NoLaterStamp
      (HttpConnections.fresh 8) twoConnections := by
    refine ⟨trivial, trivial, trivial, trivial, trivial, ?_, trivial, trivial⟩
    intro d hd hne c hc
    obtain rfl : d = 1 := by
      have hcases : d ∈ [0, 1] := hd
      simpa [hne] using hcases
    obtain rfl := Option.some.inj hc
    decide
  exact (idle_connections_found 8 hlater (.wrote 0)).1 1 _ rfl (by decide)
    (by decide)

/-- In one iteration of the loop a connection comes up, and a message arrives
at another one. -/
def messageAfterUp : List HttpConnections.Action :=
  [.up 0, .tick 1000000, .poll, .tick 1, .up 1, .message 0, .tick 8000000]

/-- The check stops at the connection that came up and misses the other one,
which is due. -/
theorem idle_connection_missed_messageAfterUp :
    let s := run HttpConnections.step (HttpConnections.fresh 8) messageAfterUp
    let c : TimedConnection :=
      { session := Session.newConnection true, lastReceiveTime := 1000000 }
    s.connection 0 = some c ∧ c.Connected ∧
      s.TimedOut s.clock c.lastReceiveTime ∧
      (s.onCheckTimer (.wrote 0)).connection 0 = some c := by
  refine ⟨rfl, by decide, by decide, rfl⟩

end MuduoHttp
