import MuduoHttp.Http.RequestNumbers

/-!
# Answers find their connections

An answer reaches the connection that issued its request as long as the number
of the request fits the two bytes that php-fpm sees.  From the 65536th request
on the numbers on the wire start again, and the first of them is the zero of
the probe.
-/

namespace MuduoHttp

open Support FastCgi CgiServer

namespace NumberedServer

variable {oneLoop : Bool} {httpCallback : HttpCallback} {s : NumberedServer}
  {i : ℕ} {r : CgiRecord} {n : RequestNo} {a : CgiServer.Action}

/-- A record for the `i`-th request at php-fpm brings content for the request
of the number. -/
structure Brings (s : NumberedServer) (i : ℕ) (r : CgiRecord)
    (n : RequestNo) : Prop where
  running : s.server.crashed = false
  answers : s.answersRequest i r = true
  content : r.message.content ≠ []
  request : s.outstanding[i]? = some (some n)

/-- A response is sent on the connection of a client and nothing is done to any
other client.  A connection that is connected takes the response. -/
structure SentTo (oneLoop : Bool) (write : WriteResult) (s s' : CgiServer)
    (c : ConnId) (client : Client) (response : HttpResponse) : Prop where
  clients : s'.clients = Function.update s.clients c
    (some (client.send oneLoop write response.appendToBuffer))
  takes : client.session.conn.state = .kConnected → write.PeerThere →
    client.session.Takes
      (client.send oneLoop write response.appendToBuffer).session oneLoop
      response.appendToBuffer

/-- A record with content for a request is sent, as a response, to the
connection that issued the request and to no other, or to none when that
connection is gone. -/
def RoutesAnswers (oneLoop : Bool) (httpCallback : HttpCallback)
    (s : NumberedServer) (a : CgiServer.Action) : Prop :=
  ∀ i r write n, a = .record i r write → s.Brings i r n →
    (s.server.Gone n.conn ∧
      (s.step oneLoop httpCallback a).server.clients = s.server.clients) ∨
    ∃ client response, s.server.lock n.conn = some client ∧
      client.cgiResponse r.message.content = .ok response ∧
        SentTo oneLoop write s.server (s.step oneLoop httpCallback a).server
          n.conn client response

/-- The counter of ids does not wrap around, and a record with content answers
a request whose id fits two bytes, with content that is parsed if the
connection is still there. -/
structure Routable (s : NumberedServer) (a : CgiServer.Action) : Prop where
  counter : s.server.reqCgiId < 2 ^ 31 - 1
  fits : ∀ i r write n q, a = .record i r write → s.Brings i r n →
    s.server.outstanding[i]? = some q → q.id < 2 ^ 16
  parses : ∀ i r write n client, a = .record i r write → s.Brings i r n →
    s.server.lock n.conn = some client →
      ∃ response, client.cgiResponse r.message.content = .ok response

/-! ## Steps -/

/-- A record that answers a request changes the clients as its content does. -/
theorem step_record (oneLoop : Bool) (httpCallback : HttpCallback)
    (hrunning : s.server.crashed = false)
    (hanswers : s.answersRequest i r = true) (write : WriteResult) :
    (s.step oneLoop httpCallback (.record i r write)).server.clients =
      (if r.message.content = [] then s.server
        else handleContent oneLoop write s.server r.message).clients := by
  obtain ⟨hup, q, hq, hid⟩ := answersRequest_iff.mp hanswers
  have hstep : (s.step oneLoop httpCallback (.record i r write)).server =
      recordStep oneLoop s.server i r write :=
    if_neg (by simp [hrunning])
  rw [hstep, recordStep_eq oneLoop hrunning hup hq hid write]

/-- What comes of the content of a record under an id that fits the wire. -/
theorem Brings.routed (h : s.Brings i r n) (oneLoop : Bool)
    (hrouting : Routing s.server) (hfollows : s.Follows)
    (hfits : ∀ q, s.server.outstanding[i]? = some q → q.id < 2 ^ 16)
    (write : WriteResult) :
    Routed oneLoop write s.server n.conn r.message.content
      (handleContent oneLoop write s.server r.message) := by
  obtain ⟨-, q, hq, hid⟩ := answersRequest_iff.mp h.answers
  obtain ⟨number, hnumber, hissuer⟩ := hfollows.issuer hq
  rw [h.request] at hnumber
  obtain rfl := Option.some.inj hnumber
  exact routed_handleContent
    (hrouting.outstanding q (List.mem_of_getElem? hq)) hissuer.symm
    (hfits q hq) hid write

theorem routesAnswers_of_routable (hrouting : Routing s.server)
    (hfollows : s.Follows) (ha : s.Routable a) :
    s.RoutesAnswers oneLoop httpCallback a := by
  rintro i r write n rfl hbrings
  have hclients :=
    step_record oneLoop httpCallback hbrings.running hbrings.answers write
  rw [if_neg hbrings.content] at hclients
  have hrouted := hbrings.routed oneLoop hrouting hfollows
    (fun q => ha.fits i r write n q rfl hbrings) write
  generalize handleContent oneLoop write s.server r.message = server
    at hclients hrouted
  cases hrouted with
  | dropped hgone hsame _ => exact .inl ⟨hgone, hclients.trans hsame⟩
  | threw hlock hparse =>
      obtain ⟨response, hparsed⟩ :=
        ha.parses i r write n _ rfl hbrings hlock
      rw [hparse] at hparsed
      cases hparsed
  | sent hlock hparse =>
      exact .inr ⟨_, _, hlock, hparse, hclients,
        fun hstate hwrite => Session.takes_send hstate oneLoop hwrite _⟩

end NumberedServer

namespace CgiServer

variable {oneLoop : Bool} {httpCallback : HttpCallback}
variable {s : CgiServer} {c : ConnId} {client : Client}

/-- A connection in front of its next request. -/
structure AtRest (s : CgiServer) (c : ConnId) (client : Client) : Prop where
  running : s.crashed = false
  lock : s.lock c = some client
  todo : client.todo = []
  http : client.http = ⟨HttpContext.fresh false, []⟩

theorem step_cgiRequest (h : s.AtRest c client) (garbage : ℤ) :
    step oneLoop httpCallback s (.message c garbage cgiRequest.bytes) =
      s.setClient c
        { client with todo := [.serverCgi cgiRequest.request 0] } := by
  have hcall : HttpServer.onMessage httpCallback garbage
      ⟨HttpContext.fresh false, cgiRequest.bytes⟩ =
        .returned ⟨HttpContext.fresh false, []⟩ [cgiRequest.request]
          [.serverCgi cgiRequest.request 0] := by
    have hparse := cgiRequest.parseRequest_bytes garbage false []
    have hcgi : HttpServer.isCgi cgiRequest.request = true := by decide
    have hkeep : HttpServer.closes cgiRequest.request = false := by decide
    rw [List.append_nil] at hparse
    simp only [HttpServer.onMessage, hparse]
    simp [HttpServer.onRequest, hcgi, hkeep, HttpContext.gotAll,
      HttpContext.reset, HttpContext.fresh]
  simp only [step, h.running, Bool.false_eq_true, if_false,
    withClient_of_lock h.lock, clientStep, h.todo, List.isEmpty_nil, if_true,
    h.http, Buffer.append_eq, List.nil_append, hcall]

/-- With the connection in the main loop, the request is sent at once. -/
theorem step_serverCgi (hrunning : s.crashed = false)
    (hlock : s.lock c = some client) {request : HttpRequest}
    (htodo : client.todo = [.serverCgi request 0]) (write : WriteResult) :
    step true httpCallback s (.effect c write) =
      (s.setClient c { client with todo := [] }).serverCgi ⟨request, 0, c⟩ := by
  simp only [step, hrunning, Bool.false_eq_true, if_false,
    withClient_of_lock hlock, clientStep, htodo, effectStep, if_true]

/-- The server after `n` cgi requests of one connection. -/
structure Stormed (s : CgiServer) (n : ℕ) : Prop where
  counter : s.reqCgiId = n
  cgiConn : s.cgiConn = some true
  atRest : ∃ client, s.AtRest 0 client ∧
    client.session.conn.state = .kConnected
  latest : n ≠ 0 → ∃ q, s.outstanding[0]? = some q ∧ q.issuer = some 0 ∧
    (q.wireId : ℤ) = n % 2 ^ 16

/-- One more request. -/
def oneRequest : List Action :=
  [.message 0 0 cgiRequest.bytes, .effect 0 (.wrote 0)]

theorem stormed_oneRequest {n : ℕ} (h : s.Stormed n) (hn : n < 2 ^ 31 - 1) :
    (run (step true httpCallback) s oneRequest).Stormed (n + 1) := by
  obtain ⟨client, hrest, hstate⟩ := h.atRest
  have hgone := (lock_eq_some_iff.mp hrest.lock).2
  have hlock : (s.setClient 0
      { client with todo := [.serverCgi cgiRequest.request 0] }).lock 0 =
        some { client with todo := [.serverCgi cgiRequest.request 0] } :=
    lock_eq_some_iff.mpr ⟨clients_setClient_self, hgone⟩
  have hnext : incrementAndGet s.reqCgiId = n + 1 := by
    rw [h.counter]
    exact incrementAndGet_eq (by omega) (by omega)
  have hrun : run (step true httpCallback) s oneRequest =
      ((s.setClient 0
        { client with todo := [.serverCgi cgiRequest.request 0] }).setClient 0
          { client with todo := [] }).serverCgi ⟨cgiRequest.request, 0, 0⟩ := by
    rw [oneRequest, run_cons, run_cons, run_nil, step_cgiRequest hrest,
      step_serverCgi (s := s.setClient 0 _) hrest.running hlock rfl]
  rw [hrun]
  simp only [serverCgi, allocate, if_true, setClient, hnext, h.cgiConn]
  refine ⟨by simp, rfl, ⟨{ client with todo := [] }, ?_, hstate⟩, ?_⟩
  · refine ⟨hrest.running, ?_, rfl, hrest.http⟩
    exact lock_eq_some_iff.mpr ⟨by simp, hgone⟩
  · intro _
    refine ⟨_, rfl, rfl, ?_⟩
    rw [getRequestId_requestRecords]
    rfl

theorem stormed_run (httpCallback : HttpCallback) {n k : ℕ} (h : s.Stormed n)
    (hn : n + k < 2 ^ 31) :
    (run (step true httpCallback) s
      (List.replicate k oneRequest).flatten).Stormed (n + k) := by
  induction k generalizing s n with
  | zero => exact h
  | succ k ih =>
      rw [List.replicate_succ, List.flatten_cons, run_append,
        show n + (k + 1) = n + 1 + k by omega]
      exact ih (stormed_oneRequest h (by omega)) (by omega)

end CgiServer

/-- An answer `hi` without header lines to the request of id 1. -/
def answerToFirst : CgiRecord where
  header := makeHeader FCGI_STDOUT 1 4 0
  content := ascii "\r\nhi"
  padding := []
  content_length := by decide
  padding_length := by decide
  wellFormed := .inl rfl

theorem cgiResponse_hi (client : Client) :
    ∃ response, client.cgiResponse (ascii "\r\nhi") = .ok response := by
  have h := HttpServer.parseFromcgi_bytes ⟨[], ascii "hi"⟩
    client.http.context.close
  rw [if_neg (by decide)] at h
  exact ⟨_, h⟩

theorem NumberedServer.routable_of_counter {s : NumberedServer}
    {a : CgiServer.Action} (h : s.server.reqCgiId < 2 ^ 31 - 1)
    (ha : ∀ i r write, a ≠ .record i r write) : s.Routable a where
  counter := h
  fits i r write _ _ hrecord := absurd hrecord (ha i r write)
  parses i r write _ _ hrecord := absurd hrecord (ha i r write)

/-- One request and its answer. -/
def oneAnswer : List CgiServer.Action :=
  [.accept 0 false, .cgiUp, .message 0 0 cgiRequest.bytes,
    .effect 0 (.wrote 0), .record 0 answerToFirst (.wrote 0)]

/-- An answer to the request of id 65536. -/
def answerToLast : CgiRecord where
  header := makeHeader FCGI_STDOUT 65536 4 0
  content := ascii "\r\nhi"
  padding := []
  content_length := by decide
  padding_length := by decide
  wellFormed := .inl rfl

/-- A connection that issues 65536 requests. -/
def cgiStorm : List CgiServer.Action :=
  [.accept 0 false, .cgiUp] ++
    (List.replicate 65536 CgiServer.oneRequest).flatten

/-- The server after the requests, and the last of them at php-fpm. -/
theorem stormed_cgiStorm :
    (run (CgiServer.step true fun _ r => r) {} cgiStorm).Stormed 65536 := by
  have hstart : (run (CgiServer.step true fun _ r => r) {}
      [.accept 0 false, .cgiUp]).Stormed 0 :=
    ⟨rfl, rfl, ⟨_, ⟨rfl, rfl, rfl, rfl⟩, rfl⟩, fun h => absurd rfl h⟩
  rw [cgiStorm, run_append]
  exact CgiServer.stormed_run (fun _ r => r) (k := 65536) hstart (by omega)

end MuduoHttp
