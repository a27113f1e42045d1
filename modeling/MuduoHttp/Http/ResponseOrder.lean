import Mathlib.Data.List.ReduceOption
import MuduoHttp.Http.AnswerRouting

/-!
# The order of the responses

A response made in the loop of a connection is written at once, while the
answers of php-fpm come later and through another loop.  What a connection sends
are the responses to its requests in the order of the requests, in the runs in
which no response is made while an earlier request waits for php-fpm, and
php-fpm answers the requests of a connection in their order.
-/

namespace MuduoHttp

open Support FastCgi CgiServer

namespace NumberedServer

variable {oneLoop : Bool} {httpCallback : HttpCallback}
  {s s' : NumberedServer} {c d : ConnId} {client client' : Client}
  {a : CgiServer.Action} {responses : List (Option Bytes)} {rs : List Bytes}

/-- What a client is sent are the responses to its first requests, in the order
of the requests.  As long as its connection is connected, every response that
is there was sent or waits for the loop of the connection. -/
structure SendsInOrder (responses : List (Option Bytes)) (client : Client) :
    Prop where
  sent : ∃ rs : List Bytes, rs.map some <+: responses ∧
    client.session.conn.sent = rs.flatten
  handed : client.gone = false → client.session.conn.state = .kConnected →
    client.session.conn.sent ++ client.session.waiting.flatten =
      responses.reduceOption.flatten

/-- Every connection that is not broken sends its responses in order. -/
def InOrder (s : NumberedServer) : Prop :=
  ∀ c client, s.server.clients c = some client → s.broken c = false →
    SendsInOrder (s.responses c) client

/-- A step comes in its turn.  The counter of ids does not wrap around and the
id that php-fpm answers fits two bytes.  A request is dispatched when its
connection is established.  A response that is made in the loop of a connection
comes when php-fpm has answered all requests before it and no response waits,
and php-fpm answers the first request of a connection that it has not
answered. -/
structure InTurn (s : NumberedServer) (a : CgiServer.Action) : Prop where
  counter : s.server.reqCgiId < 2 ^ 31 - 1
  fits : ∀ i r write n q, a = .record i r write → s.Brings i r n →
    s.server.outstanding[i]? = some q → q.id < 2 ^ 16
  established : ∀ c write client, a = .effect c write →
    s.server.lock c = some client → client.todo ≠ [] →
      .connectEstablished ∉ client.session.ioFunctors
  static : ∀ c write client data todo, a = .effect c write →
    s.server.lock c = some client → client.todo = .send data :: todo →
      client.session.conn.state = .kConnected →
        none ∉ s.responses c ∧ client.session.waiting = []
  record : ∀ i r write n client, a = .record i r write → s.Brings i r n →
    s.server.lock n.conn = some client →
      client.session.conn.state = .kConnected →
        (s.responses n.conn).idxOf none = n.number

/-! ## The stream of a connection -/

/-- The responses `rs` were sent to a client.  Those that wait follow them, and
behind all of them come requests that are not answered. -/
structure Streams (oneLoop : Bool) (responses : List (Option Bytes))
    (client : Client) (rs : List Bytes) : Prop where
  sent : client.session.conn.sent = rs.flatten
  answered : rs.map some <+: responses
  waits : client.session.conn.state ≠ .kDisconnected →
    (rs ++ client.session.waiting).map some <+: responses
  serves : client.gone = false → client.session.conn.state = .kConnected →
    ∃ k, responses = (rs ++ client.session.waiting).map some ++
      List.replicate k none
  establishing : .connectEstablished ∈ client.session.ioFunctors →
    responses = [] ∧ client.session.waiting = []
  idle : oneLoop = true → client.session.waiting = []

theorem Streams.sendsInOrder (h : Streams oneLoop responses client rs) :
    SendsInOrder responses client where
  sent := ⟨rs, h.answered, h.sent⟩
  handed hthere hstate := by
    obtain ⟨k, hk⟩ := h.serves hthere hstate
    have hanswered : responses.reduceOption = rs ++ client.session.waiting := by
      rw [hk, List.reduceOption_append, List.reduceOption_replicate_none,
        List.append_nil]
      simp [List.reduceOption]
    rw [hanswered, h.sent, List.flatten_append]

/-- A step that sends nothing. -/
theorem Streams.quiet (h : Streams oneLoop responses client rs)
    (hquiet : client.session.Quiet client'.session)
    (hgone : client'.gone = false → client.gone = false) :
    Streams oneLoop responses client' rs where
  sent := hquiet.sent.trans h.sent
  answered := h.answered
  waits hstate := by
    rw [hquiet.waiting]
    exact h.waits (hquiet.alive hstate)
  serves hthere hstate := by
    rw [hquiet.waiting]
    exact h.serves (hgone hthere) (hquiet.connected hstate)
  establishing hmem := by
    rw [hquiet.waiting]
    exact h.establishing (hquiet.established hmem)
  idle hone := hquiet.waiting.trans (h.idle hone)

/-- A request is dispatched on an established connection, and its response is
not sent. -/
theorem Streams.dispatch (h : Streams oneLoop responses client rs)
    (hestablished : .connectEstablished ∉ client.session.ioFunctors)
    {response : Option Bytes}
    (hresponse : client.session.conn.state = .kConnected → response = none)
    (hsession : client'.session = client.session)
    (hgone : client'.gone = client.gone) :
    Streams oneLoop (responses ++ [response]) client' rs where
  sent := by
    rw [hsession]
    exact h.sent
  answered := h.answered.trans (List.prefix_append _ _)
  waits := by
    rw [hsession]
    exact fun hstate => (h.waits hstate).trans (List.prefix_append _ _)
  serves := by
    rw [hsession, hgone]
    intro hthere hstate
    obtain ⟨k, hk⟩ := h.serves hthere hstate
    refine ⟨k + 1, ?_⟩
    rw [hresponse hstate, hk, List.replicate_succ', List.append_assoc]
  establishing := by
    rw [hsession]
    exact fun hmem => absurd hmem hestablished
  idle := by
    rw [hsession]
    exact h.idle

/-- The connection is established. -/
theorem Streams.establish (h : Streams oneLoop responses client rs)
    {functors : List IoFunctor}
    (hfunctors : client.session.ioFunctors = .connectEstablished :: functors) :
    Streams oneLoop responses
      { client with
        session :=
          { client.session with ioFunctors := functors }.connectEstablished }
      rs := by
  obtain ⟨hnone, hidle⟩ := h.establishing (by simp [hfunctors])
  have hwaiting : ({ client.session with
      ioFunctors := functors } : Session).connectEstablished.waiting = [] := by
    simpa [Session.waiting, hfunctors, IoFunctor.message?,
      Session.connectEstablished, Session.record] using hidle
  have hrs : rs = [] := by
    have hprefix := h.answered
    rw [hnone, List.prefix_nil] at hprefix
    exact List.map_eq_nil_iff.mp hprefix
  refine ⟨h.sent, h.answered, fun _ => ?_, fun _ _ => ⟨0, ?_⟩,
    fun _ => ⟨hnone, hwaiting⟩, fun _ => hwaiting⟩
  · rw [hwaiting, List.append_nil]
    exact h.answered
  · rw [hwaiting, hrs, hnone]
    rfl

/-- The first response that waits is written. -/
theorem Streams.write (h : Streams oneLoop responses client rs)
    {message : Bytes} {functors : List IoFunctor} {write : WriteResult}
    (hfunctors : client.session.ioFunctors = .sendInLoop message :: functors)
    (hwrite : write.PeerThere) :
    ∃ rs, Streams oneLoop responses
      { client with
        session :=
          { client.session with
            ioFunctors := functors
            conn := client.session.conn.sendInLoop message write } } rs := by
  have hwaiting : client.session.waiting =
      message :: functors.filterMap IoFunctor.message? := by
    simp [Session.waiting, hfunctors, IoFunctor.message?]
  have hestablished : .connectEstablished ∉ functors := by
    intro hmem
    have hidle := (h.establishing (by simp [hfunctors, hmem])).2
    rw [hwaiting] at hidle
    cases hidle
  have hloop : oneLoop = true → functors.filterMap IoFunctor.message? = [] := by
    intro hone
    have hidle := h.idle hone
    rw [hwaiting] at hidle
    cases hidle
  by_cases hdown : client.session.conn.state = .kDisconnected
  · rw [TcpConnection.sendInLoop_of_kDisconnected hdown]
    refine ⟨rs, h.sent, h.answered, fun hstate => absurd hdown hstate,
      fun _ hstate => ?_, fun hmem => absurd hmem hestablished, hloop⟩
    exact absurd (hdown.symm.trans hstate) (by decide)
  · have hstate := (TcpConnection.keepsOpen_sendInLoop client.session.conn
      message write).state_eq
    have hmoved : rs ++ client.session.waiting =
        (rs ++ [message]) ++ functors.filterMap IoFunctor.message? := by
      rw [hwaiting, List.append_assoc, List.singleton_append]
    have hwaits := h.waits hdown
    rw [hmoved] at hwaits
    refine ⟨rs ++ [message], ?_, ?_, fun _ => hwaits, fun hthere hserves => ?_,
      fun hmem => absurd hmem hestablished, hloop⟩
    · rw [List.flatten_append, ← h.sent, List.flatten_singleton]
      exact TcpConnection.sent_sendInLoop hdown message hwrite
    · exact ((List.prefix_append _ _).map some).trans hwaits
    · obtain ⟨k, hk⟩ := h.serves hthere (hstate.symm.trans hserves)
      rw [hmoved] at hk
      exact ⟨k, hk⟩

/-- A step of the connection itself. -/
theorem Streams.netStep (h : Streams oneLoop responses client rs)
    {b : Session.Action}
    (hwrite : ∀ write, b = .ioFunctor write → write.PeerThere) :
    ∃ rs, Streams oneLoop responses
      { client with session := netStep oneLoop client.session b } rs := by
  by_cases hown : b.IsOwn
  · have hstep : CgiServer.netStep oneLoop client.session b =
        client.session.step oneLoop b := by
      cases b with
      | call inLoop write call => exact hown.elim
      | poll revents => rfl
      | handler read write => rfl
      | ioFunctor write => rfl
      | acceptorFunctor => rfl
      | timer => rfl
    rw [hstep]
    rcases client.session.step_cases oneLoop hown with
      hquiet | ⟨functors, hfunctors, hrun⟩ |
      ⟨write, message, functors, hb, hfunctors, hrun⟩
    · exact ⟨rs, h.quiet hquiet id⟩
    · rw [hrun]
      exact ⟨rs, h.establish hfunctors⟩
    · rw [hrun]
      exact h.write hfunctors (hwrite write hb)
  · cases b with
    | call inLoop write call => exact ⟨rs, h⟩
    | poll revents => exact absurd trivial hown
    | handler read write => exact absurd trivial hown
    | ioFunctor write => exact absurd trivial hown
    | acceptorFunctor => exact absurd trivial hown
    | timer => exact absurd trivial hown

theorem Streams.checkTimer (h : Streams oneLoop responses client rs)
    (write : WriteResult) :
    Streams oneLoop responses (checkTimer oneLoop client write) rs := by
  unfold CgiServer.checkTimer
  split
  · exact h.quiet ((Session.quiet_shutdown _ oneLoop write).trans
      (Session.quiet_forceCloseWithDelay _ oneLoop write)) id
  · exact h

/-! ## Responses -/

/-- An answer changes nothing about the requests that are answered. -/
theorem prefix_modify {l : List Bytes} (h : l.map some <+: responses)
    (i : ℕ) (response : Bytes) :
    l.map some <+: responses.modify i (· <|> some response) := by
  rw [List.prefix_iff_getElem?] at h ⊢
  intro j hj
  have hj' : j < l.length := by simpa using hj
  by_cases hij : i = j
  · subst hij
    simp [h i hj]
  · simp [hij, h j hj]

/-- The first request without an answer is the one behind those that are
answered. -/
theorem idxOf_none (l : List Bytes) (k : ℕ) :
    (l.map some ++ List.replicate k none).idxOf none = l.length := by
  rw [List.idxOf_append_of_notMem (by simp)]
  cases k with
  | zero => simp
  | succ k => simp [List.replicate_succ]

theorem modify_first (l : List Bytes) (k : ℕ) (response : Bytes) :
    (l.map some ++ List.replicate (k + 1) none).modify l.length
        (· <|> some response) =
      (l ++ [response]).map some ++ List.replicate k none := by
  induction l with
  | nil => rfl
  | cons first l ih =>
      rw [List.map_cons, List.cons_append, List.length_cons,
        List.modify_succ_cons, ih]
      rfl

/-- A connection that is connected takes a response behind those that were
sent and those that wait. -/
theorem Streams.send (h : Streams oneLoop responses client rs)
    (hstate : client.session.conn.state = .kConnected)
    (hestablished : .connectEstablished ∉ client.session.ioFunctors)
    {inLoop : Bool} {write : WriteResult} (hwrite : write.PeerThere)
    (hidle : inLoop = true → client.session.waiting = [])
    (hloop : oneLoop = true → inLoop = true)
    {response : Bytes} {responses' : List (Option Bytes)} {k : ℕ}
    (hresponses : responses' =
      (rs ++ client.session.waiting ++ [response]).map some ++
        List.replicate k none)
    (hsession : client'.session =
      (client.send inLoop write response).session) :
    ∃ rs, Streams oneLoop responses' client' rs := by
  have htakes := Session.takes_send hstate inLoop hwrite response
  have hkept := Session.state_send client.session inLoop write response
  have hlater : .connectEstablished ∉ client'.session.ioFunctors := by
    rw [hsession]
    exact fun hmem => hestablished (Session.connectEstablished_mem_send hmem)
  have hmoved : ∃ rs', client'.session.conn.sent = rs'.flatten ∧
      rs' ++ client'.session.waiting =
        rs ++ client.session.waiting ++ [response] := by
    cases inLoop with
    | true =>
        refine ⟨rs ++ [response], ?_, ?_⟩
        · rw [hsession, List.flatten_append, ← h.sent, List.flatten_singleton]
          exact htakes.sent
        · have hwaiting := htakes.waiting
          rw [if_pos rfl, hidle rfl] at hwaiting
          rw [hsession, hidle rfl, List.append_nil]
          exact (congrArg _ hwaiting).trans (List.append_nil _)
    | false =>
        refine ⟨rs, ?_, ?_⟩
        · rw [hsession, ← h.sent]
          exact htakes.sent
        · rw [hsession, List.append_assoc]
          exact congrArg _ htakes.waiting
  obtain ⟨rs', hsent, hall⟩ := hmoved
  rw [← hall] at hresponses
  have hwaits : (rs' ++ client'.session.waiting).map some <+: responses' := by
    rw [hresponses]
    exact List.prefix_append _ _
  refine ⟨rs', hsent, ((List.prefix_append _ _).map some).trans hwaits,
    fun _ => hwaits, fun _ _ => ⟨k, hresponses⟩,
    fun hmem => absurd hmem hlater, fun hone => ?_⟩
  have hwaiting := htakes.waiting
  rw [if_pos (hloop hone), hidle (hloop hone)] at hwaiting
  rw [hsession]
  exact hwaiting

/-- A response that is made in the loop of the connection. -/
theorem Streams.static (h : Streams oneLoop responses client rs)
    (hestablished : .connectEstablished ∉ client.session.ioFunctors)
    (hthere : client.gone = false) {write : WriteResult}
    (hwrite : write.PeerThere)
    (hturn : client.session.conn.state = .kConnected →
      none ∉ responses ∧ client.session.waiting = [])
    (data : Bytes) (todo : List Effect) :
    ∃ rs, Streams oneLoop (responses ++ [some data])
      ({ client with todo := todo }.send true write data) rs := by
  by_cases hstate : client.session.conn.state = .kConnected
  · obtain ⟨hnone, hidle⟩ := hturn hstate
    obtain ⟨k, hk⟩ := h.serves hthere hstate
    have hzero : k = 0 := by
      by_contra hne
      exact hnone (by simp [hk, hne])
    have hresponses : responses ++ [some data] =
        (rs ++ client.session.waiting ++ [data]).map some ++
          List.replicate 0 none := by simp [hk, hzero]
    exact h.send hstate hestablished hwrite (fun _ => hidle) (fun _ => rfl)
      hresponses rfl
  · have hsame := Session.send_of_ne hstate true write data
    exact ⟨rs, h.dispatch hestablished (fun h => absurd h hstate) hsame rfl⟩

/-- A response that is made of an answer of php-fpm. -/
theorem Streams.answer (h : Streams oneLoop responses client rs)
    (hthere : client.gone = false) {write : WriteResult}
    (hwrite : write.PeerThere) {number : ℕ} (hknown : number < responses.length)
    (hturn : client.session.conn.state = .kConnected →
      responses.idxOf none = number) (response : Bytes) :
    ∃ rs, Streams oneLoop
      (responses.modify number (· <|> some response))
      (client.send oneLoop write response) rs := by
  have hestablished : .connectEstablished ∉ client.session.ioFunctors := by
    intro hmem
    rw [(h.establishing hmem).1] at hknown
    cases hknown
  by_cases hstate : client.session.conn.state = .kConnected
  · obtain ⟨k, hk⟩ := h.serves hthere hstate
    have hfirst := hturn hstate
    rw [hk, idxOf_none] at hfirst
    cases k with
    | zero => simp [hk, ← hfirst] at hknown
    | succ k =>
        refine h.send hstate hestablished hwrite h.idle id (k := k) ?_ rfl
        rw [hk, ← hfirst, modify_first]
  · have hsame := Session.send_of_ne hstate oneLoop write response
    refine ⟨rs, ?_, prefix_modify h.answered _ _, ?_, ?_, ?_, ?_⟩
    · exact (congrArg (·.conn.sent) hsame).trans h.sent
    · intro hdown
      have hwaits := h.waits fun h =>
        hdown ((congrArg (·.conn.state) hsame).trans h)
      have hsession : (client.send oneLoop write response).session.waiting =
          client.session.waiting := congrArg (·.waiting) hsame
      rw [hsession]
      exact prefix_modify hwaits _ _
    · intro _ hconnected
      exact absurd ((congrArg (·.conn.state) hsame).symm.trans hconnected)
        hstate
    · intro hmem
      exact absurd (Session.connectEstablished_mem_send hmem) hestablished
    · exact fun hone => (congrArg (·.waiting) hsame).trans (h.idle hone)

/-! ## Steps -/

/-- Every connection that is not broken has its stream. -/
def Ordered (oneLoop : Bool) (s : NumberedServer) : Prop :=
  ∀ c client, s.server.clients c = some client → s.broken c = false →
    ∃ rs, Streams oneLoop (s.responses c) client rs

theorem brokenAfter_eq_false (h : s.brokenAfter a c = false) :
    s.broken c = false ∧
      ∀ write, s.writes a = some (c, write) → write.PeerThere := by
  unfold brokenAfter at h
  cases hwrites : s.writes a with
  | none =>
      rw [hwrites] at h
      exact ⟨h, fun write hwrite => by cases hwrite⟩
  | some w =>
      obtain ⟨d, write⟩ := w
      simp only [hwrites] at h
      split at h
      next hthere =>
        refine ⟨h, fun write' hwrite => ?_⟩
        cases hwrite
        exact hthere
      · have hne : c ≠ d := by
          rintro rfl
          rw [Function.update_self] at h
          cases h
        rw [Function.update_of_ne hne] at h
        refine ⟨h, fun write' hwrite => ?_⟩
        cases hwrite
        exact absurd rfl hne

/-- Only the connection `c` and its responses change. -/
theorem Ordered.update (h : s.Ordered oneLoop)
    (hbroken : s'.broken = s.brokenAfter a)
    (hclients : ∀ d, d ≠ c → s'.server.clients d = s.server.clients d)
    (hresponses : ∀ d, d ≠ c → s'.responses d = s.responses d)
    (hc : ∀ client', s'.server.clients c = some client' →
      s.broken c = false →
        (∀ write, s.writes a = some (c, write) → write.PeerThere) →
          ∃ rs, Streams oneLoop (s'.responses c) client' rs) :
    s'.Ordered oneLoop := by
  intro d client hclient hd
  rw [hbroken] at hd
  obtain ⟨hbefore, hwrites⟩ := brokenAfter_eq_false hd
  by_cases hdc : d = c
  · subst hdc
    exact hc client hclient hbefore hwrites
  · rw [hclients d hdc] at hclient
    rw [hresponses d hdc]
    exact h d client hclient hbefore

/-- Neither clients nor responses change. -/
theorem Ordered.of_eq (h : s.Ordered oneLoop)
    (hbroken : s'.broken = s.brokenAfter a)
    (hclients : s'.server.clients = s.server.clients)
    (hresponses : s'.responses = s.responses) : s'.Ordered oneLoop := by
  intro d client hclient hd
  rw [hbroken] at hd
  rw [hclients] at hclient
  rw [hresponses]
  exact h d client hclient (brokenAfter_eq_false hd).1

/-- A client that is there takes a step. -/
theorem Ordered.setClient (h : s.Ordered oneLoop)
    (hlock : s.server.lock c = some client)
    (hbroken : s'.broken = s.brokenAfter a)
    (hclients : s'.server.clients =
      (s.server.setClient c client').clients)
    (hresponses : ∀ d, d ≠ c → s'.responses d = s.responses d)
    (hc : ∀ rs, Streams oneLoop (s.responses c) client rs →
      (∀ write, s.writes a = some (c, write) → write.PeerThere) →
        ∃ rs, Streams oneLoop (s'.responses c) client' rs) :
    s'.Ordered oneLoop := by
  refine h.update hbroken (fun d hd => ?_) hresponses ?_
  · rw [hclients, clients_setClient_of_ne hd]
  · intro client'' hclient hbefore hwrites
    rw [hclients, clients_setClient_self] at hclient
    obtain rfl := Option.some.inj hclient
    obtain ⟨rs, hrs⟩ := h c client (lock_eq_some_iff.mp hlock).1 hbefore
    exact hc rs hrs hwrites

/-- A new connection has neither requests nor responses. -/
theorem streams_newConnection (oneLoop close : Bool) :
    Streams oneLoop []
      { session := Session.newConnection oneLoop
        http := ⟨HttpContext.fresh close, []⟩ } [] := by
  cases oneLoop with
  | true =>
      exact ⟨rfl, List.prefix_rfl, fun _ => List.prefix_rfl,
        fun _ _ => ⟨0, rfl⟩, fun _ => ⟨rfl, rfl⟩, fun _ => rfl⟩
  | false =>
      refine ⟨rfl, List.prefix_rfl, fun _ => List.prefix_rfl, ?_,
        fun _ => ⟨rfl, rfl⟩, fun _ => rfl⟩
      intro _ hstate
      cases hstate

theorem Ordered.effectStep (h : s.Ordered oneLoop) {write : WriteResult}
    {effect : Effect} {todo : List Effect} (hact : a = .effect c write)
    (hlock : s.server.lock c = some client)
    (htodo : client.todo = effect :: todo) (hturn : s.InTurn a) :
    Ordered oneLoop
      { s.followEffect oneLoop c effect with
        server := effectStep oneLoop s.server c { client with todo := todo }
          write effect
        broken := s.brokenAfter a } := by
  have hestablished := hturn.established c write client hact hlock
    (by simp [htodo])
  have hwritten : s.writes a = some (c, write) := by rw [hact]; rfl
  cases effect with
  | send data =>
      refine h.setClient hlock rfl rfl
        (fun d hd => Function.update_of_ne hd _ _) ?_
      intro rs hrs hwrites
      have hsent := hrs.static hestablished (lock_eq_some_iff.mp hlock).2
        (hwrites write hwritten)
        (hturn.static c write client data todo hact hlock htodo) data todo
      simpa [followEffect, dispatch, Client.send] using hsent
  | shutdown =>
      refine h.setClient hlock rfl rfl (fun _ _ => rfl) ?_
      intro rs hrs _
      exact ⟨rs, hrs.quiet (Session.quiet_shutdown _ true write) id⟩
  | serverCgi request reqid =>
      refine h.setClient hlock rfl
        (?_ : _ = (s.server.setClient c { client with todo := todo }).clients)
        ?_ ?_
      · cases oneLoop with
        | true => exact clients_serverCgi _ _
        | false => rfl
      · intro d hd
        cases oneLoop with
        | true =>
            have hissued := congrFun
              (responses_issue (s.dispatch c none) (s.next c)) d
            exact hissued.trans (Function.update_of_ne hd _ _)
        | false => exact Function.update_of_ne hd _ _
      · intro rs hrs _
        have hresponses : (s.followEffect oneLoop c
            (.serverCgi request reqid)).responses c =
              s.responses c ++ [none] := by
          cases oneLoop with
          | true =>
              have hissued := congrFun
                (responses_issue (s.dispatch c none) (s.next c)) c
              exact hissued.trans (Function.update_self ..)
          | false => exact Function.update_self ..
        dsimp only
        rw [hresponses]
        exact ⟨rs, hrs.dispatch hestablished (fun _ => rfl) rfl rfl⟩

theorem responses_followRecord {i : ℕ} {r : CgiRecord} {n : RequestNo}
    (h : s.outstanding[i]? = some (some n))
    (hcontent : r.message.content ≠ []) :
    (s.followRecord i r).responses =
      (s.followContent n r.message.content).responses := by
  unfold followRecord
  rw [h]
  simp only [Option.join_some, if_neg hcontent]
  split
  · rfl
  · rfl

theorem responses_followRecord_of_not {i : ℕ} {r : CgiRecord}
    (h : r.message.content = [] ∨ s.outstanding[i]? = some none) :
    (s.followRecord i r).responses = s.responses := by
  have hsame : ∀ s' : NumberedServer, s'.responses = s.responses →
      (if r.header.type = FCGI_END_REQUEST then
        { s' with outstanding := s'.outstanding.eraseIdx i }
      else s').responses = s.responses := by
    intro s' hs
    split
    · exact hs
    · exact hs
  refine hsame _ ?_
  rcases h with hempty | hprobe
  · simp only [if_pos hempty]
    split
    · rfl
    · rfl
  · rw [hprobe]
    rfl

theorem responses_followContent {n : RequestNo} {content : Bytes}
    (hlock : s.server.lock n.conn = some client) {response : HttpResponse}
    (hparse : client.cgiResponse content = .ok response) :
    s.followContent n content = s.answer n response.appendToBuffer := by
  simp only [followContent, hlock, hparse]

/-- A record that brings no content for a request changes no client. -/
theorem clients_probe (hrouting : Routing s.server) (hfollows : s.Follows)
    {i : ℕ} {r : CgiRecord} (hanswers : s.answersRequest i r = true)
    (hprobe : s.outstanding[i]? = some none) (write : WriteResult) :
    (handleContent oneLoop write s.server r.message) = s.server := by
  obtain ⟨-, q, hq, hid⟩ := answersRequest_iff.mp hanswers
  obtain ⟨number, hnumber, hissuer⟩ := hfollows.issuer hq
  rw [hprobe] at hnumber
  obtain rfl := Option.some.inj hnumber
  obtain ⟨hwire, hzero, -⟩ :=
    hrouting.outstanding q (List.mem_of_getElem? hq)
  have hid' : r.message.requestid = q.wireId := hid
  refine handleContent_probe ?_ write
  rw [hzero hissuer.symm] at hwire
  omega

theorem Ordered.recordStep (h : s.Ordered oneLoop)
    (hrouting : Routing s.server) (hfollows : s.Follows) (hknown : s.Known)
    {i : ℕ} {r : CgiRecord} {write : WriteResult}
    (hact : a = .record i r write) (hrunning : s.server.crashed = false)
    (hanswers : s.answersRequest i r = true) (hturn : s.InTurn a) :
    Ordered oneLoop
      { s.followRecord i r with
        server := recordStep oneLoop s.server i r write
        broken := s.brokenAfter a } := by
  obtain ⟨hup, q, hq, hid⟩ := answersRequest_iff.mp hanswers
  have hclients := congrArg CgiServer.clients
    (recordStep_eq oneLoop hrunning hup hq hid write)
  by_cases hcontent : r.message.content = []
  · rw [if_pos hcontent] at hclients
    exact h.of_eq rfl hclients (responses_followRecord_of_not (.inl hcontent))
  rw [if_neg hcontent] at hclients
  obtain ⟨number, hnumber, -⟩ := hfollows.issuer hq
  cases number with
  | none =>
      rw [clients_probe hrouting hfollows hanswers hnumber] at hclients
      exact h.of_eq rfl hclients (responses_followRecord_of_not (.inr hnumber))
  | some n =>
      have hbrings : s.Brings i r n := ⟨hrunning, hanswers, hcontent, hnumber⟩
      have hresponses := responses_followRecord hnumber hcontent
      have hrouted := hbrings.routed oneLoop hrouting hfollows
        (fun q => hturn.fits i r write n q hact hbrings) write
      generalize handleContent oneLoop write s.server r.message = server
        at hclients hrouted
      cases hrouted with
      | dropped hgone hsame _ =>
          refine h.of_eq rfl (hclients.trans hsame) (hresponses.trans ?_)
          simp only [followContent, hgone.2]
      | threw hlock hparse =>
          refine h.of_eq rfl hclients (hresponses.trans ?_)
          simp only [followContent, hlock, hparse]
      | sent hlock hparse =>
          rw [responses_followContent hlock hparse] at hresponses
          refine h.setClient hlock rfl hclients (fun d hd => ?_) ?_
          · exact (congrFun hresponses d).trans (Function.update_of_ne hd _ _)
          · intro rs hrs hwrites
            have hself := congrFun hresponses n.conn
            dsimp only [NumberedServer.answer] at hself ⊢
            rw [hself, Function.update_self]
            refine hrs.answer (lock_eq_some_iff.mp hlock).2
              (hwrites write ?_) (hknown.underway n ?_) ?_ _
            · simp [hact, writes, hnumber]
            · exact .inr (List.mem_of_getElem? hnumber)
            · exact hturn.record i r write n _ hact hbrings hlock

theorem Ordered.step (h : s.Ordered oneLoop) (hrouting : Routing s.server)
    (hfollows : s.Follows) (hknown : s.Known) (hturn : s.InTurn a) :
    (s.step oneLoop httpCallback a).Ordered oneLoop := by
  apply hfollows.step_cases (P := NumberedServer.Ordered oneLoop)
  · exact h.of_eq rfl rfl rfl
  · intro c close hnew
    refine h.update (c := c) rfl
      (fun d hd => clients_setClient_of_ne hd) (fun _ _ => rfl) ?_
    intro client' hclient _ _
    rw [clients_setClient_self] at hclient
    obtain rfl := Option.some.inj hclient
    have hnone := hknown.accepted c hnew
    dsimp only
    rw [hnone]
    exact ⟨[], streams_newConnection oneLoop close⟩
  · intro f functors n numbers _ _ _
    exact h.of_eq rfl (clients_serverCgi _ f) (responses_issue _ n)
  · exact h.of_eq rfl rfl rfl
  · exact h.of_eq rfl rfl rfl
  · intro i r write hact hrunning hanswers
    exact h.recordStep hrouting hfollows hknown hact hrunning hanswers hturn
  · intro c client write effect todo hact hlock htodo
    exact h.effectStep hact hlock htodo hturn
  · intro c client b hact hlock
    refine h.setClient hlock rfl rfl (fun _ _ => rfl) ?_
    intro rs hrs hwrites
    refine hrs.netStep ?_
    intro write hb
    exact hwrites write (by rw [hact, hb]; rfl)
  · intro c client write hlock
    refine h.setClient hlock rfl rfl (fun _ _ => rfl) ?_
    exact fun rs hrs _ => ⟨rs, hrs.checkTimer write⟩
  · intro c client client' hlock hsession
    refine h.setClient hlock rfl rfl (fun _ _ => rfl) ?_
    intro rs hrs _
    refine ⟨rs, hrs.quiet ?_ fun _ => (lock_eq_some_iff.mp hlock).2⟩
    rw [hsession]
    exact .refl _
  · exact h.of_eq rfl rfl rfl

end NumberedServer

theorem NumberedServer.inTurn_of_counter {s : NumberedServer}
    {a : CgiServer.Action} (h : s.server.reqCgiId < 2 ^ 31 - 1)
    (hrecord : ∀ i r write, a ≠ .record i r write)
    (heffect : ∀ c write, a ≠ .effect c write) : s.InTurn a where
  counter := h
  fits i r write _ _ ha := absurd ha (hrecord i r write)
  established c write _ ha := absurd ha (heffect c write)
  static c write _ _ _ ha := absurd ha (heffect c write)
  record i r write _ _ ha := absurd ha (hrecord i r write)

/-- A connection in a loop of its own: the second request comes when the
response to the first, a cgi request, is written. -/
def staticAfterCgi : List CgiServer.Action :=
  [.accept 0 false, .cgiUp, .net 0 (.ioFunctor (.wrote 0)),
    .message 0 0 cgiRequest.bytes, .effect 0 (.wrote 0), .mainFunctor,
    .record 0 answerToFirst (.wrote 0), .net 0 (.ioFunctor (.wrote 1000)),
    .message 0 0 (ascii "GET /a HTTP/1.1\r\n\r\n"), .effect 0 (.wrote 1000)]

/-- A cgi request and another one on the same connection; the answer of php-fpm
comes after the response to the second. -/
def staticOvertakesCgi : List CgiServer.Action :=
  [.accept 0 false, .cgiUp, .message 0 0 cgiRequest.bytes,
    .effect 0 (.wrote 0), .message 0 0 (ascii "GET /a HTTP/1.1\r\n\r\n"),
    .effect 0 (.wrote 1000), .record 0 answerToFirst (.wrote 1000)]

end MuduoHttp
