import MuduoHttp.Http.CgiServer
import MuduoHttp.Http.Pipelining
import MuduoHttp.Support.Transition

/-!
# Routing the answers of php-fpm

The server numbers its cgi requests with an `int`, and php-fpm sees the low
two bytes of the number.  An answer reaches the connection that issued its
request as long as the number fits the two bytes; from the 65536th request on
the numbers on the wire start again, and the first of them is the zero of the
probe.
-/

namespace MuduoHttp

open Support FastCgi CgiServer

namespace Client

/-- The response that `onCGIMessage` makes of the content for a client. -/
def cgiResponse (client : Client) (content : Bytes) :
    Except StdException HttpResponse :=
  HttpServer.parseFromcgi content
    { closeConnection := client.http.context.close }

/-- `conn->send` on the connection of a client. -/
def send (client : Client) (inLoop : Bool) (write : WriteResult)
    (message : Bytes) : Client :=
  { client with session := client.session.call inLoop write (.send message) }

end Client

namespace CgiServer

variable {oneLoop : Bool} {httpCallback : HttpCallback}
variable {s s' : CgiServer} {c d : ConnId} {client client' : Client}

/-! ## The clients -/

theorem lock_eq_some_iff :
    s.lock c = some client ↔
      s.clients c = some client ∧ client.gone = false := by
  simp [lock, Option.filter_eq_some_iff]

theorem withClient_of_lock (hlock : s.lock c = some client)
    (f : Client → CgiServer) : s.withClient c f = f client := by
  simp only [withClient, hlock]

@[simp] theorem clients_setClient_self :
    (s.setClient c client).clients c = some client := by
  simp [setClient]

theorem clients_setClient_of_ne (h : d ≠ c) :
    (s.setClient c client).clients d = s.clients d := by
  simp [setClient, h]

theorem lock_setClient_of_ne (h : d ≠ c) :
    (s.setClient c client).lock d = s.lock d := by
  rw [lock, clients_setClient_of_ne h, lock]

/-- The connection is destroyed: it was there, and it cannot be locked. -/
def Gone (s : CgiServer) (c : ConnId) : Prop :=
  (s.clients c).isSome ∧ s.lock c = none

/-- Connections come into being and go, but do not come back. -/
structure Later (s s' : CgiServer) : Prop where
  isSome : ∀ c, (s.clients c).isSome → (s'.clients c).isSome
  gone : ∀ c, s.Gone c → s'.Gone c

/-- The connection can be taken into account: it is new, or not destroyed. -/
def Usable (s : CgiServer) (c : ConnId) : Prop :=
  s.clients c = none ∨ s.lock c ≠ none

theorem usable_of_lock (h : s.lock c = some client) : s.Usable c :=
  .inr (by simp [h])

theorem later_setClient (h : s.Usable c) : Later s (s.setClient c client) where
  isSome d hd := by
    by_cases hdc : d = c
    · subst hdc
      simp
    · rwa [clients_setClient_of_ne hdc]
  gone d hd := by
    have hdc : d ≠ c := by
      rintro rfl
      rcases h with h | h
      · simp [Gone, h] at hd
      · exact h hd.2
    rwa [Gone, clients_setClient_of_ne hdc, lock_setClient_of_ne hdc]

/-! ## The invariant -/

/-- The id on the wire is the low two bytes of the id.  The map leads from the
id of the request to its issuer, and the probe has the id zero. -/
def Routes (s : CgiServer) (q : Outstanding) : Prop :=
  (q.wireId : ℤ) = q.id % 2 ^ 16 ∧ (q.issuer = none → q.id = 0) ∧
    ∀ c, q.issuer = some c →
      1 ≤ q.id ∧ q.id ≤ s.reqCgiId ∧ (s.clients c).isSome ∧
        (s.reqCgiConnMap[q.id]? = some c ∨
          (s.reqCgiConnMap[q.id]? = none ∧ s.Gone c))

/-- A client whose requests take new ids. -/
def FirstRequests (client : Client) : Prop :=
  client.http.context.cgiRequestId = 0 ∧
    ∀ request reqid, .serverCgi request reqid ∈ client.todo → reqid = 0

structure Routing (s : CgiServer) : Prop where
  clients : ∀ c client, s.clients c = some client → FirstRequests client
  functors : ∀ f ∈ s.mainFunctors, f.reqid = 0 ∧ (s.clients f.conn).isSome
  counter : 0 ≤ s.reqCgiId
  outstanding : ∀ q ∈ s.outstanding, s.Routes q

theorem Routes.later {q : Outstanding} (h : s.Routes q) (hlater : Later s s')
    (hcounter : s.reqCgiId ≤ s'.reqCgiId)
    (hmap : s'.reqCgiConnMap[q.id]? = s.reqCgiConnMap[q.id]?) :
    s'.Routes q := by
  refine ⟨h.1, h.2.1, ?_⟩
  intro c hc
  obtain ⟨hpos, hle, hsome, hroute⟩ := h.2.2 c hc
  refine ⟨hpos, hle.trans hcounter, hlater.isSome c hsome, ?_⟩
  rw [hmap]
  exact hroute.imp_right fun hgone => ⟨hgone.1, hlater.gone c hgone.2⟩

namespace Routing

theorem setClient (h : Routing s) (husable : s.Usable c)
    (hfirst : FirstRequests client) : Routing (s.setClient c client) where
  clients d client' hd := by
    by_cases hdc : d = c
    · subst hdc
      rw [clients_setClient_self] at hd
      cases hd
      exact hfirst
    · rw [clients_setClient_of_ne hdc] at hd
      exact h.clients d client' hd
  functors f hf :=
    ⟨(h.functors f hf).1,
      (later_setClient husable).isSome _ (h.functors f hf).2⟩
  counter := h.counter
  outstanding q hq :=
    (h.outstanding q hq).later (later_setClient husable) le_rfl rfl

theorem crash (h : Routing s) : Routing { s with crashed := true } :=
  ⟨h.clients, h.functors, h.counter, h.outstanding⟩

theorem setOutstanding (h : Routing s) {outstanding : List Outstanding}
    (hroutes : ∀ q ∈ outstanding, s.Routes q) (cgiConn : Option Bool) :
    Routing { s with outstanding := outstanding, cgiConn := cgiConn } :=
  ⟨h.clients, h.functors, h.counter, fun q hq => hroutes q hq⟩

theorem setFunctors (h : Routing s) {functors : List CgiFunctor}
    (hfunctors : ∀ f ∈ functors, f.reqid = 0 ∧ (s.clients f.conn).isSome) :
    Routing { s with mainFunctors := functors } :=
  ⟨h.clients, hfunctors, h.counter, h.outstanding⟩

/-- Erasing the id of a connection that is gone. -/
theorem eraseId (h : Routing s) {id : ℤ}
    (hid : s.reqCgiConnMap[id]? = some c) (hlock : s.lock c = none) :
    Routing { s with reqCgiConnMap := s.reqCgiConnMap.erase id } where
  clients := h.clients
  functors := h.functors
  counter := h.counter
  outstanding q hq := by
    have hroutes := h.outstanding q hq
    refine ⟨hroutes.1, hroutes.2.1, ?_⟩
    intro d hd
    obtain ⟨hpos, hle, hsome, hroute⟩ := hroutes.2.2 d hd
    refine ⟨hpos, hle, hsome, ?_⟩
    by_cases hsame : id = q.id
    · subst hsame
      have hgone : s.Gone d := by
        rcases hroute with hroute | hroute
        · rw [hid] at hroute
          cases hroute
          exact ⟨hsome, hlock⟩
        · exact hroute.2
      exact .inr ⟨Std.ExtTreeMap.getElem?_erase_self, hgone⟩
    · have hkeep : (s.reqCgiConnMap.erase id)[q.id]? =
          s.reqCgiConnMap[q.id]? := by
        simp [Std.ExtTreeMap.getElem?_erase, hsame]
      simp only [hkeep]
      exact hroute

end Routing

/-- The id on the wire. -/
theorem getRequestId_requestRecords (reqid : ℤ) (filename method : Bytes) :
    (getRequestId (requestRecords reqid filename method) : ℤ) =
      reqid % 2 ^ 16 := by
  rw [← requestId_makeHeader FCGI_BEGIN_REQUEST reqid 8 0]
  rfl

theorem incrementAndGet_eq {n : ℤ} (h₀ : 0 ≤ n) (h₁ : n < 2 ^ 31 - 1) :
    incrementAndGet n = n + 1 := by
  unfold incrementAndGet
  rw [Int.bmod_def]
  omega

/-- `server_cgi` on a first request, before the counter wraps around. -/
theorem Routing.serverCgi (h : Routing s) (hcounter : s.reqCgiId < 2 ^ 31 - 1)
    {f : CgiFunctor} (hreqid : f.reqid = 0)
    (hconn : (s.clients f.conn).isSome) : Routing (s.serverCgi f) := by
  have hnext := incrementAndGet_eq h.counter hcounter
  have hlater : Later s
      { s with
        reqCgiId := s.reqCgiId + 1
        reqCgiConnMap :=
          s.reqCgiConnMap.insert (s.reqCgiId + 1) f.conn } :=
    ⟨fun _ => id, fun _ => id⟩
  have hallocated : Routing
      { s with
        reqCgiId := s.reqCgiId + 1
        reqCgiConnMap :=
          s.reqCgiConnMap.insert (s.reqCgiId + 1) f.conn } := by
    refine ⟨h.clients, h.functors, by have := h.counter; simp; omega, ?_⟩
    intro q hq
    have hroutes := h.outstanding q hq
    refine ⟨hroutes.1, hroutes.2.1, ?_⟩
    intro d hd
    have hold := (hroutes.2.2 d hd).2.1
    have hne : s.reqCgiId + 1 ≠ q.id := by omega
    refine (hroutes.later hlater (Int.le_add_one le_rfl) ?_).2.2 d hd
    simp [Std.ExtTreeMap.getElem?_insert, hne]
  simp only [CgiServer.serverCgi, allocate, hreqid, if_true, hnext]
  split
  · exact hallocated.crash
  · exact hallocated
  next hup =>
    refine hallocated.setOutstanding (fun q hq => ?_) s.cgiConn
    rcases List.mem_cons.mp hq with rfl | hq
    · refine ⟨getRequestId_requestRecords _ _ _, by simp, ?_⟩
      intro d hd
      cases hd
      have hpos := h.counter
      exact ⟨by simp; omega, le_rfl, hconn, .inl (by simp)⟩
    · exact hallocated.outstanding q hq

/-! ## Records -/

/-- A whole record is one message. -/
theorem onCGIMessage_record (write : WriteResult) (s : CgiServer)
    (r : CgiRecord) :
    onCGIMessage oneLoop write s r.bytes =
      handleMessage oneLoop write s r.message := by
  have hmessages := CgiRecord.cgiMessages_flatMap [r] fun _ => 0
  rw [List.flatMap_singleton] at hmessages
  rw [onCGIMessage, hmessages]
  rfl

theorem Routing.handleMessage (h : Routing s) (oneLoop : Bool)
    (write : WriteResult) (m : CgiMessage) :
    Routing (handleMessage oneLoop write s m) := by
  unfold CgiServer.handleMessage handleContent
  split
  · exact h
  split
  · exact h
  split
  · exact h
  next c hid =>
    split
    next hlock => exact h.eraseId hid hlock
    next client hlock =>
      split
      · exact h.crash
      · have hfirst := h.clients c client (lock_eq_some_iff.mp hlock).1
        exact h.setClient (usable_of_lock hlock) hfirst

theorem Routing.recordStep (h : Routing s) (i : ℕ) (r : CgiRecord)
    (write : WriteResult) : Routing (recordStep oneLoop s i r write) := by
  unfold CgiServer.recordStep
  split
  next q hup hq =>
    split
    · rw [onCGIMessage_record]
      have hm := h.handleMessage oneLoop write r.message
      split
      · exact hm.setOutstanding
          (fun q' hq' => hm.outstanding q' (List.mem_of_mem_eraseIdx hq')) _
      · exact hm
    · exact h
  · exact h

/-! ## Client steps -/

theorem Routing.effectStep (h : Routing s) (hlock : s.lock c = some client)
    (hcounter : s.reqCgiId < 2 ^ 31 - 1) (write : WriteResult)
    {effect : Effect} {todo : List Effect}
    (htodo : client.todo = effect :: todo) :
    Routing (effectStep oneLoop s c { client with todo := todo } write
      effect) := by
  obtain ⟨hzero, hfirst⟩ := h.clients c client (lock_eq_some_iff.mp hlock).1
  have husable := usable_of_lock hlock
  have hrest : ∀ request reqid, .serverCgi request reqid ∈ todo → reqid = 0 :=
    fun request reqid hmem =>
      hfirst request reqid (htodo ▸ List.mem_cons_of_mem _ hmem)
  cases effect with
  | send data => exact h.setClient husable ⟨hzero, hrest⟩
  | shutdown => exact h.setClient husable ⟨hzero, hrest⟩
  | serverCgi request reqid =>
      have hreqid : reqid = 0 :=
        hfirst request reqid (htodo ▸ List.mem_cons_self ..)
      have hset : Routing (s.setClient c { client with todo := todo }) :=
        h.setClient husable ⟨hzero, hrest⟩
      have hconn : ((s.setClient c { client with todo := todo }).clients
          c).isSome := by simp
      simp only [CgiServer.effectStep]
      split
      · exact hset.serverCgi hcounter hreqid hconn
      · apply hset.setFunctors
        intro f hf
        rcases List.mem_append.mp hf with hf | hf
        · exact hset.functors f hf
        · obtain rfl := List.mem_singleton.mp hf
          exact ⟨hreqid, hconn⟩

theorem Routing.clientStep (h : Routing s) (hlock : s.lock c = some client)
    (hcounter : s.reqCgiId < 2 ^ 31 - 1) (a : Action) :
    Routing (clientStep oneLoop httpCallback s c client a) := by
  have hfirst := h.clients c client (lock_eq_some_iff.mp hlock).1
  have husable := usable_of_lock hlock
  cases a with
  | net _ a => exact h.setClient husable hfirst
  | message _ garbage chunk =>
      simp only [CgiServer.clientStep]
      split
      · split
        next http requests effects hcall =>
          have hnext := HttpServer.onMessage_cgiRequestId hcall hfirst.1
          exact h.setClient husable hnext
        · exact h.crash
      · exact h
  | effect _ write =>
      simp only [CgiServer.clientStep]
      split
      · exact h
      next effect todo htodo => exact h.effectStep hlock hcounter write htodo
  | checkTimer _ write =>
      refine h.setClient husable ?_
      unfold CgiServer.checkTimer
      split <;> exact hfirst
  | release _ =>
      simp only [CgiServer.clientStep]
      split
      · exact h.setClient husable hfirst
      · exact h
  | accept _ _ => exact h
  | mainFunctor => exact h
  | cgiUp => exact h
  | cgiDown => exact h
  | record _ _ _ => exact h

/-- The invariant is kept as long as the counter does not wrap around. -/
theorem Routing.step (h : Routing s) (hcounter : s.reqCgiId < 2 ^ 31 - 1)
    (a : Action) : Routing (step oneLoop httpCallback s a) := by
  apply step_cases
  · exact h
  · intro c close hnew
    exact h.setClient (.inl hnew) ⟨rfl, by simp⟩
  · intro f functors hfunctors
    have hf := h.functors f (hfunctors ▸ List.mem_cons_self ..)
    have hrest : Routing { s with mainFunctors := functors } :=
      h.setFunctors fun f' hf' =>
        h.functors f' (hfunctors ▸ List.mem_cons_of_mem _ hf')
    exact hrest.serverCgi hcounter hf.1 hf.2
  · refine h.setOutstanding ?_ _
    intro q hq
    obtain rfl := List.mem_singleton.mp hq
    exact ⟨getRequestId_requestRecords _ _ _, fun _ => rfl,
      fun d hd => by cases hd⟩
  · exact h.setOutstanding (by simp) _
  · intro i r write _
    exact h.recordStep i r write
  · intro c client _ hlock
    exact h.clientStep hlock hcounter a

theorem routing_init : Routing {} :=
  ⟨fun _ _ h => absurd h (by simp), by simp, le_rfl, by simp⟩

/-! ## Answers -/

theorem clients_serverCgi (s : CgiServer) (f : CgiFunctor) :
    (s.serverCgi f).clients = s.clients := by
  simp only [CgiServer.serverCgi, allocate]
  split <;> split <;> rfl

/-- A message with the id of the probe. -/
theorem handleContent_probe {m : CgiMessage} (hid : m.requestid = 0)
    (write : WriteResult) : handleContent oneLoop write s m = s :=
  if_pos hid

/-- What a message with content comes to that answers a request of a
connection: nothing if the connection is gone, else an exception, or a response
that is sent on the connection. -/
inductive Routed (oneLoop : Bool) (write : WriteResult) (s : CgiServer)
    (c : ConnId) (content : Bytes) : CgiServer → Prop
  | dropped {s' : CgiServer} (gone : s.Gone c)
      (clients : s'.clients = s.clients) (crashed : s'.crashed = s.crashed) :
      Routed oneLoop write s c content s'
  | threw {client : Client} {exception : StdException}
      (lock : s.lock c = some client)
      (parse : client.cgiResponse content = .error exception) :
      Routed oneLoop write s c content { s with crashed := true }
  | sent {client : Client} {response : HttpResponse}
      (lock : s.lock c = some client)
      (parse : client.cgiResponse content = .ok response) :
      Routed oneLoop write s c content
        (s.setClient c (client.send oneLoop write response.appendToBuffer))

/-- A message that answers a request under an id that fits the wire finds the
connection that issued the request. -/
theorem routed_handleContent {q : Outstanding} (hroutes : s.Routes q)
    (hissuer : q.issuer = some c) (hfits : q.id < 2 ^ 16) {m : CgiMessage}
    (hid : m.requestid = q.wireId) (write : WriteResult) :
    Routed oneLoop write s c m.content
      (handleContent oneLoop write s m) := by
  obtain ⟨hpos, -, hsome, hmap⟩ := hroutes.2.2 c hissuer
  have hkey : (m.requestid : ℤ) = q.id := by
    rw [hid, hroutes.1]
    exact Int.emod_eq_of_lt (by omega) hfits
  have hne : m.requestid ≠ 0 := by omega
  unfold handleContent
  rw [if_neg hne, hkey]
  rcases hmap with hmap | ⟨hmap, hgone⟩
  · rw [hmap]
    cases hlock : s.lock c with
    | none =>
        simp only [hlock]
        exact .dropped ⟨hsome, hlock⟩ rfl rfl
    | some client =>
        simp only [hlock]
        cases hparse : client.cgiResponse m.content with
        | error exception =>
            rw [Client.cgiResponse] at hparse
            simp only [hparse]
            exact .threw hlock hparse
        | ok response =>
            rw [Client.cgiResponse] at hparse
            simp only [hparse]
            exact .sent hlock hparse
  · rw [hmap]
    exact .dropped hgone rfl rfl

end CgiServer

/-- A cgi request on a connection that is kept alive. -/
def cgiRequest : BodylessRequest :=
  .ofLine
    { RequestLine.getRoot with
      target := ascii "/cgi-bin/a"
      noSpace := by decide }
    (by decide)

end MuduoHttp
