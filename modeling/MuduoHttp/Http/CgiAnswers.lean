import MuduoHttp.Http.AnswerRouting
import MuduoHttp.Net.Serving

/-!
# Answers and the server's own shutdown

`onRequest` hands a cgi request to the main loop and then, when the request
asks for it, shuts the connection down at once; the answer comes later and
finds the connection in `kDisconnecting`.  An answer reaches its client in the
runs in which a connection is shut down only when none of its cgi requests is
on the way and no output waits in its loop.
-/

namespace MuduoHttp

open Support FastCgi CgiServer

namespace CgiServer

variable {oneLoop : Bool} {httpCallback : HttpCallback}
variable {s s' : CgiServer} {c d : ConnId} {client : Client} {a : Action}

/-- A cgi request of the connection is on its way to php-fpm, or there. -/
def Pending (s : CgiServer) (c : ConnId) : Prop :=
  (∃ f ∈ s.mainFunctors, f.conn = c) ∨
    ∃ q ∈ s.outstanding, q.issuer = some c

/-! ## The invariant -/

/-- A connection whose client waits: it is open, and it serves as long as an
answer may come. -/
structure Attended (s : CgiServer) (c : ConnId) (client : Client) :
    Prop where
  present : client.gone = false
  isOpen : client.session.Open
  serving : s.Pending c → client.session.Serving

/-- Every client that waits is attended to. -/
def Attending (s : CgiServer) : Prop :=
  ∀ c client, s.clients c = some client → client.waits = true →
    s.Attended c client

theorem waits_iff :
    client.waits = true ↔
      client.timedOut = false ∧ ¬ client.session.Closed := by
  simp [Client.waits, Session.Closed]

theorem pending_isSome (h : Routing s) (hpending : s.Pending c) :
    (s.clients c).isSome := by
  rcases hpending with ⟨f, hf, rfl⟩ | ⟨q, hq, hissuer⟩
  · exact (h.functors f hf).2
  · exact ((h.outstanding q hq).2.2 c hissuer).2.2.1

/-- The other clients are attended to as before. -/
theorem Attending.setClient (h : s.Attending)
    (hclient : client.waits = true → s.Attended c client) :
    (s.setClient c client).Attending := by
  intro d client' hd hwaits
  have hattended : s.Attended d client' := by
    by_cases hdc : d = c
    · subst hdc
      rw [clients_setClient_self] at hd
      cases hd
      exact hclient hwaits
    · rw [clients_setClient_of_ne hdc] at hd
      exact h d client' hd hwaits
  exact ⟨hattended.present, hattended.isOpen, hattended.serving⟩

/-- No cgi request is pending that was not, but of connections that serve. -/
theorem Attending.of_pending (h : s.Attending)
    (hclients : s'.clients = s.clients)
    (hpending : ∀ c, s'.Pending c → s.Pending c ∨
      ∀ client, s.clients c = some client → client.waits = true →
        client.session.Serving) : s'.Attending := by
  intro c client hc hwaits
  rw [hclients] at hc
  have hattended := h c client hc hwaits
  refine ⟨hattended.present, hattended.isOpen, ?_⟩
  intro hc'
  rcases hpending c hc' with hold | hserving
  · exact hattended.serving hold
  · exact hserving client hc hwaits

/-- A change of the session of a client that waits. -/
theorem Attended.setSession (h : s.Attended c client) {session : Session}
    (hopen : session.Open) (hserving : s.Pending c → session.Serving) :
    s.Attended c { client with session := session } :=
  ⟨h.present, hopen, hserving⟩

/-- Output on a connection. -/
theorem Attending.send (h : s.Attending) (hclient : s.clients c = some client)
    (inLoop : Bool) (write : WriteResult) (message : Bytes)
    (todo : List Effect) :
    (s.setClient c
      { client with
        session := client.session.call inLoop write (.send message)
        todo := todo }).Attending := by
  apply h.setClient
  intro hwaits
  have hwaited : client.waits = true := by
    simpa [Client.waits] using hwaits
  have hattended := h c client hclient hwaited
  exact ⟨hattended.present, hattended.isOpen.send inLoop write message,
    fun hpending => (hattended.serving hpending).send inLoop write message⟩

/-! ## Requests and records -/

theorem pending_serverCgi {f : CgiFunctor} (h : (s.serverCgi f).Pending c) :
    s.Pending c ∨ c = f.conn := by
  have houtstanding : (s.serverCgi f).mainFunctors = s.mainFunctors ∧
      ∀ q ∈ (s.serverCgi f).outstanding,
        q ∈ s.outstanding ∨ q.issuer = some f.conn := by
    simp only [CgiServer.serverCgi, allocate]
    split <;> split
    all_goals first
      | exact ⟨rfl, fun q hq => .inl hq⟩
      | refine ⟨rfl, fun q hq => ?_⟩
        rcases List.mem_cons.mp hq with rfl | hq
        · exact .inr rfl
        · exact .inl hq
  rcases h with ⟨f', hf', hc⟩ | ⟨q, hq, hissuer⟩
  · exact .inl (.inl ⟨f', houtstanding.1 ▸ hf', hc⟩)
  · rcases houtstanding.2 q hq with hq | hq
    · exact .inl (.inr ⟨q, hq, hissuer⟩)
    · rw [hissuer] at hq
      exact .inr (Option.some.inj hq)

/-- A cgi request is taken from a connection that serves. -/
theorem Attending.serverCgi (h : s.Attending) {f : CgiFunctor}
    (hserving : ∀ client, s.clients f.conn = some client →
      client.waits = true → client.session.Serving) :
    (s.serverCgi f).Attending := by
  apply h.of_pending (clients_serverCgi s f)
  intro c hc
  rcases pending_serverCgi hc with hold | rfl
  · exact .inl hold
  · exact .inr hserving

theorem Attending.handleMessage (h : s.Attending) (oneLoop : Bool)
    (write : WriteResult) (m : CgiMessage) :
    (handleMessage oneLoop write s m).Attending := by
  unfold CgiServer.handleMessage handleContent
  split
  · exact h
  split
  · exact h
  split
  · exact h
  split
  · exact h.of_pending rfl fun _ => .inl
  next client hlock =>
    split
    · exact h.of_pending rfl fun _ => .inl
    next response _ =>
      exact h.send (lock_eq_some_iff.mp hlock).1 oneLoop write
        response.appendToBuffer client.todo

theorem Attending.recordStep (h : s.Attending) (i : ℕ) (r : CgiRecord)
    (write : WriteResult) : (recordStep oneLoop s i r write).Attending := by
  unfold CgiServer.recordStep
  split
  next q _ _ =>
    split
    · rw [onCGIMessage_record]
      have hm := h.handleMessage oneLoop write r.message
      split
      · refine hm.of_pending rfl fun c hc => .inl (hc.imp_right ?_)
        rintro ⟨q', hq', hissuer⟩
        exact ⟨q', List.mem_of_mem_eraseIdx hq', hissuer⟩
      · exact hm
    · exact h
  · exact h

/-! ## Client steps -/

/-- What a message asks for comes at the right moment: a cgi request while the
connection serves, a shutdown when no cgi request of the connection is pending
and no output waits in its loop. -/
def Spares (s : CgiServer) (c : ConnId) (client : Client) : Effect → Prop
  | .send _ => True
  | .shutdown => client.session.conn.state = .kConnected →
      ¬ s.Pending c ∧ ∀ message, .sendInLoop message ∉ client.session.ioFunctors
  | .serverCgi _ _ => client.session.conn.state = .kConnected

theorem Attending.effectStep (h : s.Attending)
    (hclient : s.clients c = some client) (write : WriteResult)
    (todo : List Effect) {effect : Effect}
    (hspares : client.waits = true → s.Spares c client effect) :
    (effectStep oneLoop s c { client with todo := todo } write
      effect).Attending := by
  cases effect with
  | send data => exact h.send hclient true write data todo
  | shutdown =>
      apply h.setClient
      intro hwaits
      have hwaited : client.waits = true := by
        simpa [Client.waits] using hwaits
      have hattended := h c client hclient hwaited
      refine ⟨hattended.present,
        hattended.isOpen.shutdown (fun hstate => (hspares hwaited hstate).2)
          write, fun hpending => ?_⟩
      have hstate := (hattended.serving hpending).state
      exact absurd hpending (hspares hwaited hstate).1
  | serverCgi request reqid =>
      have hset : (s.setClient c { client with todo := todo }).Attending :=
        h.setClient fun hwaits =>
          let hattended := h c client hclient hwaits
          ⟨hattended.present, hattended.isOpen, hattended.serving⟩
      have hserving : ∀ client', (s.setClient c
          { client with todo := todo }).clients c = some client' →
            client'.waits = true → client'.session.Serving := by
        intro client' hclient' hwaits
        have hattended := hset c client' hclient' hwaits
        rw [clients_setClient_self] at hclient'
        cases hclient'
        exact hattended.isOpen.serving_of_kConnected (hspares hwaits)
      simp only [CgiServer.effectStep]
      split
      · exact hset.serverCgi hserving
      · refine hset.of_pending rfl ?_
        intro d hd
        rcases hd with ⟨f, hf, rfl⟩ | hd
        · rcases List.mem_append.mp hf with hf | hf
          · exact .inl (.inl ⟨f, hf, rfl⟩)
          · obtain rfl := List.mem_singleton.mp hf
            exact .inr hserving
        · exact .inl (.inr hd)

theorem Attending.netStep (h : s.Attending)
    (hclient : s.clients c = some client) (a : Session.Action) :
    Attending
      (s.setClient c
        { client with session := netStep oneLoop client.session a }) := by
  apply h.setClient
  intro hwaits
  by_cases ha : a.IsOwn
  · have hstep : CgiServer.netStep oneLoop client.session a =
        client.session.step oneLoop a := by
      cases a with
      | call inLoop write call => exact ha.elim
      | _ => rfl
    rw [hstep] at hwaits ⊢
    obtain ⟨htimer, hopen⟩ := waits_iff.mp hwaits
    have hwaited : client.waits = true :=
      waits_iff.mpr ⟨htimer, fun hclosed => hopen (hclosed.step a)⟩
    have hattended := h c client hclient hwaited
    exact hattended.setSession
      ((hattended.isOpen.step ha).resolve_right hopen)
      fun hpending => ((hattended.serving hpending).step ha).resolve_right hopen
  · cases a with
    | call inLoop write call => exact h c client hclient hwaits
    | _ => exact absurd trivial ha

theorem Attending.checkTimer (h : s.Attending)
    (hclient : s.clients c = some client) (write : WriteResult) :
    (s.setClient c (checkTimer oneLoop client write)).Attending := by
  apply h.setClient
  intro hwaits
  unfold CgiServer.checkTimer at hwaits ⊢
  split at hwaits
  · simp [Client.waits] at hwaits
  next hstate =>
    rw [if_neg hstate]
    exact h c client hclient hwaits

/-- A connection that is open is not destroyed. -/
theorem Attending.release (h : s.Attending)
    (hclient : s.clients c = some client) (hreleased : s.released c client) :
    (s.setClient c { client with gone := true }).Attending := by
  apply h.setClient
  intro hwaits
  have hentries := (h c client hclient hwaits).isOpen.untouched.entries
  simp [released, hentries] at hreleased

theorem Attending.clientStep (h : s.Attending) (hlock : s.lock c = some client)
    (hspares : ∀ write effect todo, a = .effect c write →
      client.todo = effect :: todo → client.waits = true →
        s.Spares c client effect) (ha : a.connection = some c) :
    (clientStep oneLoop httpCallback s c client a).Attending := by
  have hclient := (lock_eq_some_iff.mp hlock).1
  cases a with
  | net _ a => exact h.netStep hclient a
  | message _ garbage chunk =>
      simp only [CgiServer.clientStep]
      split
      · split
        · apply h.setClient
          intro hwaits
          have hattended := h c client hclient hwaits
          exact ⟨hattended.present, hattended.isOpen, hattended.serving⟩
        · exact h.of_pending rfl fun _ => .inl
      · exact h
  | effect _ write =>
      simp only [CgiServer.clientStep]
      split
      · exact h
      next effect todo htodo =>
        cases ha
        exact h.effectStep hclient write todo
          (hspares write effect todo rfl htodo)
  | checkTimer _ write => exact h.checkTimer hclient write
  | release _ =>
      simp only [CgiServer.clientStep]
      split
      next hreleased => exact h.release hclient hreleased
      · exact h
  | accept _ _ => exact h
  | mainFunctor => exact h
  | cgiUp => exact h
  | cgiDown => exact h
  | record _ _ _ => exact h

/-! ## Steps -/

/-- What is done for clients that wait comes at the right moment. -/
theorem Attending.step (h : s.Attending) (hrouting : Routing s)
    (hspares : ∀ c write client effect todo, a = .effect c write →
      s.lock c = some client → client.todo = effect :: todo →
        client.waits = true → s.Spares c client effect) :
    (step oneLoop httpCallback s a).Attending := by
  apply step_cases
  · exact h
  · intro c close hnew
    apply h.setClient
    intro _
    refine ⟨rfl, Session.open_newConnection oneLoop, ?_⟩
    intro hpending
    have hsome := pending_isSome hrouting hpending
    simp [hnew] at hsome
  · intro f functors hfunctors
    have hpending : s.Pending f.conn :=
      .inl ⟨f, hfunctors ▸ List.mem_cons_self .., rfl⟩
    have hrest : Attending { s with mainFunctors := functors } := by
      refine h.of_pending rfl fun c hc => .inl (hc.imp_left ?_)
      rintro ⟨f', hf', hconn⟩
      exact ⟨f', hfunctors ▸ List.mem_cons_of_mem _ hf', hconn⟩
    exact hrest.serverCgi fun client hc hwaits =>
      (h f.conn client hc hwaits).serving hpending
  · refine h.of_pending rfl fun c hc => .inl (hc.imp_right ?_)
    rintro ⟨q, hq, hissuer⟩
    obtain rfl := List.mem_singleton.mp hq
    cases hissuer
  · refine h.of_pending rfl fun c hc => .inl (hc.imp_right ?_)
    rintro ⟨q, hq, -⟩
    exact absurd hq List.not_mem_nil
  · intro i r write _
    exact h.recordStep i r write
  · intro c client hc hlock
    refine h.clientStep hlock ?_ hc
    intro write effect todo ha'
    exact hspares c write client effect todo ha' hlock

end CgiServer

namespace NumberedServer

variable {oneLoop : Bool} {httpCallback : HttpCallback} {s : NumberedServer}
  {c : ConnId} {a : CgiServer.Action}

/-- If a record brings content for a request of a client that waits, then
`parseFromcgi` throws, or `send` accepts the response on a connection that is
connected and whose write side is open. -/
def AcceptsAnswers (oneLoop : Bool) (httpCallback : HttpCallback)
    (s : NumberedServer) (a : CgiServer.Action) : Prop :=
  ∀ i r write n client, a = .record i r write → s.Brings i r n →
    s.server.clients n.conn = some client → client.waits = true →
      (∃ exception,
        client.cgiResponse r.message.content = .error exception) ∨
      ∃ response, client.cgiResponse r.message.content = .ok response ∧
        client.session.conn.state = .kConnected ∧
          client.session.conn.writeShut = false ∧
            SentTo oneLoop write s.server
              (s.step oneLoop httpCallback a).server n.conn client response

/-- The server's own shutdown suppresses no answer.  A client that waits for the
answer to a cgi request has a connection that is connected and whose write side
is open, and the write side is closed behind everything that was accepted. -/
structure Unsuppressed (s : NumberedServer) : Prop where
  underway : ∀ n client, s.Underway n → s.server.clients n.conn = some client →
    client.waits = true → client.session.conn.state = .kConnected ∧
      client.session.conn.writeShut = false
  behind : ∀ c client, s.server.clients c = some client →
    client.waits = true → client.session.conn.writeShut = true →
      client.session.conn.outputBuffer = [] ∧ client.session.waiting = []

/-- What a message asks for comes at the right moment: a cgi request while the
connection is connected, a shutdown when no cgi request of the connection is
underway and no output waits in its loop. -/
def Spares (s : NumberedServer) (c : ConnId) (client : Client) : Effect → Prop
  | .send _ => True
  | .shutdown => client.session.conn.state = .kConnected →
      (∀ n, s.Underway n → n.conn ≠ c) ∧ client.session.waiting = []
  | .serverCgi _ _ => client.session.conn.state = .kConnected

/-- The counter of ids does not wrap around, a record with content for a client
that waits answers a request whose id fits two bytes, and what is done for
such a client comes at the right moment. -/
structure Answerable (s : NumberedServer) (a : CgiServer.Action) : Prop where
  counter : s.server.reqCgiId < 2 ^ 31 - 1
  fits : ∀ i r write n client q, a = .record i r write → s.Brings i r n →
    s.server.clients n.conn = some client → client.waits = true →
      s.server.outstanding[i]? = some q → q.id < 2 ^ 16
  spares : ∀ c write client effect todo, a = .effect c write →
    s.server.lock c = some client → client.todo = effect :: todo →
      client.waits = true → s.Spares c client effect

/-- The requests that are underway are those of the server. -/
theorem Follows.pending_iff (h : s.Follows) :
    s.server.Pending c ↔ ∃ n, s.Underway n ∧ n.conn = c := by
  have hfunctors : (∃ f ∈ s.server.mainFunctors, f.conn = c) ↔
      ∃ n ∈ s.functors, n.conn = c := by
    rw [← List.mem_map, ← List.mem_map, h.functors]
  have houtstanding : (∃ q ∈ s.server.outstanding, q.issuer = some c) ↔
      ∃ n, some n ∈ s.outstanding ∧ n.conn = c := by
    rw [← List.mem_map, ← h.outstanding, List.mem_map]
    constructor
    · rintro ⟨number, hmem, hconn⟩
      obtain ⟨n, rfl, hn⟩ := Option.map_eq_some_iff.mp hconn
      exact ⟨n, hmem, hn⟩
    · rintro ⟨n, hmem, rfl⟩
      exact ⟨some n, hmem, rfl⟩
  rw [Pending, hfunctors, houtstanding, ← exists_or]
  simp only [Underway, or_and_right]

theorem Answerable.spares_server (ha : s.Answerable a) (h : s.Follows)
    (c : ConnId) (write : WriteResult) (client : Client) (effect : Effect)
    (todo : List Effect) (hact : a = .effect c write)
    (hlock : s.server.lock c = some client)
    (htodo : client.todo = effect :: todo) (hwaits : client.waits = true) :
    s.server.Spares c client effect := by
  have hspares := ha.spares c write client effect todo hact hlock htodo hwaits
  cases effect with
  | send data => trivial
  | serverCgi request reqid => exact hspares
  | shutdown =>
      intro hstate
      obtain ⟨hnone, hwaiting⟩ := hspares hstate
      refine ⟨?_, Session.waiting_eq_nil_iff.mp hwaiting⟩
      rw [h.pending_iff]
      rintro ⟨n, hn, hconn⟩
      exact hnone n hn hconn

/-- A client that is attended to gets the answer. -/
theorem acceptsAnswers_of_attending (h : s.server.Attending)
    (hrouting : Routing s.server) (hfollows : s.Follows)
    (ha : s.Answerable a) : s.AcceptsAnswers oneLoop httpCallback a := by
  rintro i r write n client rfl hbrings hclient hwaits
  have hattended := h n.conn client hclient hwaits
  have hunderway : s.Underway n :=
    .inr (List.mem_of_getElem? hbrings.request)
  have hserving := hattended.serving
    (hfollows.pending_iff.mpr ⟨n, hunderway, rfl⟩)
  have hlocked := lock_eq_some_iff.mpr ⟨hclient, hattended.present⟩
  have hclients :=
    step_record oneLoop httpCallback hbrings.running hbrings.answers write
  rw [if_neg hbrings.content] at hclients
  have hrouted := hbrings.routed oneLoop hrouting hfollows
    (fun q => ha.fits i r write n client q rfl hbrings hclient hwaits) write
  generalize handleContent oneLoop write s.server r.message = server
    at hclients hrouted
  cases hrouted with
  | dropped hgone _ _ => exact absurd (hlocked.symm.trans hgone.2) (by simp)
  | threw hlock hparse =>
      obtain rfl := Option.some.inj (hlock.symm.trans hlocked)
      exact .inl ⟨_, hparse⟩
  | sent hlock hparse =>
      obtain rfl := Option.some.inj (hlock.symm.trans hlocked)
      exact .inr ⟨_, hparse, hserving.state, hserving.writeShut, hclients,
        fun hstate hwrite => Session.takes_send hstate oneLoop hwrite _⟩

theorem unsuppressed_of_attending (h : s.server.Attending)
    (hfollows : s.Follows) : s.Unsuppressed where
  underway n client hn hclient hwaits := by
    have hserving := (h n.conn client hclient hwaits).serving
      (hfollows.pending_iff.mpr ⟨n, hn, rfl⟩)
    exact ⟨hserving.state, hserving.writeShut⟩
  behind c client hclient hwaits hshut := by
    obtain ⟨hempty, hidle⟩ :=
      (h c client hclient hwaits).isOpen.behind hshut
    exact ⟨hempty, Session.waiting_eq_nil_iff.mpr hidle⟩

end NumberedServer

/-- In a run in which every step is answerable, the server's own shutdown
suppresses no answer. -/
theorem unsuppressed_run (oneLoop : Bool) (httpCallback : HttpCallback)
    {actions : List CgiServer.Action}
    (hrun : EveryStep (NumberedServer.step oneLoop httpCallback)
      NumberedServer.Answerable {} actions) :
    EveryStep (NumberedServer.step oneLoop httpCallback)
        (NumberedServer.AcceptsAnswers oneLoop httpCallback) {} actions ∧
      (run (NumberedServer.step oneLoop httpCallback) {}
        actions).Unsuppressed := by
  let Inv (s : NumberedServer) : Prop :=
    Routing s.server ∧ s.server.Attending ∧ s.Follows
  have hstep : ∀ s a, Inv s → s.Answerable a →
      Inv (s.step oneLoop httpCallback a) := by
    rintro s a ⟨hrouting, hattending, hfollows⟩ ha
    exact ⟨hrouting.step ha.counter a,
      hattending.step hrouting (ha.spares_server hfollows), hfollows.step a⟩
  have hinit : Inv {} :=
    ⟨routing_init, fun _ _ h => absurd h (by simp),
      NumberedServer.follows_init⟩
  have hfinal := run_invariant Inv hstep hinit hrun
  exact ⟨everyStep_of_invariant Inv hstep
      (fun _ _ h ha =>
        NumberedServer.acceptsAnswers_of_attending h.2.1 h.1 h.2.2 ha)
      hinit hrun,
    NumberedServer.unsuppressed_of_attending hfinal.2.1 hfinal.2.2⟩

/-! ## A request that closes the connection -/

theorem NumberedServer.answerable_of_counter {s : NumberedServer}
    {a : CgiServer.Action} (h : s.server.reqCgiId < 2 ^ 31 - 1)
    (hrecord : ∀ i r write, a ≠ .record i r write)
    (heffect : ∀ c write, a ≠ .effect c write) : s.Answerable a where
  counter := h
  fits i r write _ _ _ ha := absurd ha (hrecord i r write)
  spares c write _ _ _ ha := absurd ha (heffect c write)

/-- A connection in a loop of its own: php-fpm answers its cgi request, and the
next request closes the connection. -/
def answerThenShutdown : List CgiServer.Action :=
  [.accept 0 false, .cgiUp, .net 0 (.ioFunctor (.wrote 0)),
    .message 0 0 cgiRequest.bytes, .effect 0 (.wrote 0), .mainFunctor,
    .record 0 answerToFirst (.wrote 0), .record 0 endOfFirst (.wrote 0),
    .net 0 (.ioFunctor (.wrote 1000)),
    .message 0 0 (ascii "GET /a HTTP/1.0\r\n\r\n"), .effect 0 (.wrote 1000),
    .effect 0 (.wrote 0)]

theorem unsuppressed_answerThenShutdown :
    EveryStep (NumberedServer.step false fun _ r => r)
        NumberedServer.Answerable {} answerThenShutdown ∧
      EveryStep (NumberedServer.step false fun _ r => r)
        (NumberedServer.AcceptsAnswers false fun _ r => r) {}
        answerThenShutdown ∧
      (run (NumberedServer.step false fun _ r => r) {}
        answerThenShutdown).Unsuppressed := by
  have hrun : EveryStep (NumberedServer.step false fun _ r => r)
      NumberedServer.Answerable {} answerThenShutdown := by
    refine
      ⟨NumberedServer.answerable_of_counter (by decide) (by simp) (by simp),
      NumberedServer.answerable_of_counter (by decide) (by simp) (by simp),
      NumberedServer.answerable_of_counter (by decide) (by simp) (by simp),
      NumberedServer.answerable_of_counter (by decide) (by simp) (by simp),
      ⟨by decide, by simp, ?_⟩,
      NumberedServer.answerable_of_counter (by decide) (by simp) (by simp),
      ⟨by decide, ?_, by simp⟩, ⟨by decide, ?_, by simp⟩,
      NumberedServer.answerable_of_counter (by decide) (by simp) (by simp),
      NumberedServer.answerable_of_counter (by decide) (by simp) (by simp),
      ⟨by decide, by simp, ?_⟩, ⟨by decide, by simp, ?_⟩, trivial⟩
    · rintro c write client effect todo heffect hlock htodo -
      cases heffect
      cases hlock
      cases htodo
      rfl
    · rintro i r write n client q hrecord - - - hq
      cases hrecord
      cases hq
      decide
    · rintro i r write n client q hrecord - - - hq
      cases hrecord
      cases hq
      decide
    · rintro c write client effect todo heffect hlock htodo -
      cases heffect
      cases hlock
      cases htodo
      trivial
    · rintro c write client effect todo heffect hlock htodo -
      cases heffect
      cases hlock
      cases htodo
      refine fun _ => ⟨?_, rfl⟩
      rintro n (hn | hn)
      · cases hn
      · cases List.mem_singleton.mp hn
  exact ⟨hrun, unsuppressed_run false (fun _ r => r) hrun⟩

/-- A cgi request of HTTP/1.0, which is not kept alive. -/
def closingRequest : Bytes := ascii "GET /cgi-bin/a HTTP/1.0\r\n\r\n"

/-- The answer comes after the shutdown. -/
def answerAfterShutdown : List CgiServer.Action :=
  [.accept 0 false, .cgiUp, .message 0 0 closingRequest, .effect 0 (.wrote 0),
    .effect 0 (.wrote 0), .record 0 answerToFirst (.wrote 0)]

/-- The answer finds the connection in `kDisconnecting`, behind a write side
that is closed. -/
theorem not_unsuppressed_answerAfterShutdown :
    ¬ EveryStep (NumberedServer.step true fun _ r => r)
      (NumberedServer.AcceptsAnswers true fun _ r => r) {}
      answerAfterShutdown := by
  intro h
  have hbrings : (run (NumberedServer.step true fun _ r => r) {}
      (answerAfterShutdown.take 5)).Brings 0 answerToFirst ⟨0, 0⟩ :=
    ⟨by decide, by decide, by decide, by decide⟩
  rcases h.2.2.2.2.2.1 0 answerToFirst (.wrote 0) ⟨0, 0⟩ _ rfl hbrings rfl
    (by decide) with ⟨exception, hthrew⟩ | ⟨_, -, hstate, -⟩
  · obtain ⟨response, hparsed⟩ := cgiResponse_hi _
    cases hparsed.symm.trans hthrew
  · exact absurd hstate (by decide)

end MuduoHttp
