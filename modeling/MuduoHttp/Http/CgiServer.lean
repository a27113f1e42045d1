import Mathlib.Logic.Function.Basic
import MuduoHttp.Http.CgiResponse
import MuduoHttp.Http.OnMessage
import MuduoHttp.Net.Session

/-!
# The server between its clients and php-fpm

Client connections live in IO loops, which may be the main loop; the map of
request ids, the connection to php-fpm and the idle check live in the main
loop.  A step is a step of one connection, a message from a client, one thing
that the handler of a message asks for, one functor of the main loop, the idle
check of one connection, a change of the connection to php-fpm, or a record
from php-fpm.

A request at php-fpm is kept together with the connection that issued it; the
server itself does not know that connection.
-/

namespace MuduoHttp

open Support FastCgi

/-- The number of a client connection. -/
abbrev ConnId := ℕ

/-- A client connection: its session, the context and the input buffer, and
what the message being handled still asks for.  `timedOut` says that the idle
check found it, and `gone` that the object was destroyed. -/
structure Client where
  session : Session
  http : HttpConnection
  todo : List Effect := []
  timedOut : Bool := false
  gone : Bool := false

/-- A queued `server_cgi`, with the connection it holds. -/
structure CgiFunctor where
  request : HttpRequest
  reqid : ℤ
  conn : ConnId

/-- A request at php-fpm: the connection that issued it, none for the probe,
the id that the server gave it, and the id that was sent. -/
structure Outstanding where
  issuer : Option ConnId
  id : ℤ
  wireId : ℕ

structure CgiServer where
  clients : ConnId → Option Client := fun _ => none
  mainFunctors : List CgiFunctor := []
  reqCgiId : ℤ := 0
  reqCgiConnMap : Std.ExtTreeMap ℤ ConnId compare := ∅
  cgiConn : Option Bool := none
  outstanding : List Outstanding := []
  crashed : Bool := false

/-- The client neither closed the connection nor was found idle. -/
def Client.waits (client : Client) : Bool :=
  !client.timedOut && !client.session.log.contains .closeCallback

namespace CgiServer

def setClient (s : CgiServer) (c : ConnId) (client : Client) : CgiServer :=
  { s with clients := Function.update s.clients c (some client) }

/-- `weak_ptr::lock`. -/
def lock (s : CgiServer) (c : ConnId) : Option Client :=
  (s.clients c).filter fun client => !client.gone

/-- What is done with a connection, as long as it is there. -/
def withClient (s : CgiServer) (c : ConnId) (f : Client → CgiServer) :
    CgiServer :=
  match s.lock c with
  | none => s
  | some client => f client

/-! ## Requests to php-fpm -/

/-- `HttpServer::WEB_PATH`. -/
def WEB_PATH : Bytes :=
  ascii "/home/xibaohe/ServerCode/chenshuo/muduo_11/muduo/http/web"

/-- The records of a request for a script. -/
def requestRecords (reqid : ℤ) (filename method : Bytes) : Bytes :=
  startRequestRecord reqid ++
    params reqid
      [(ascii "SCRIPT_FILENAME", filename), (ascii "REQUEST_METHOD", method)] ++
    endRequestRecord reqid

/-- `AtomicInt32::incrementAndGet`. -/
def incrementAndGet (n : ℤ) : ℤ := (n + 1).bmod (2 ^ 32)

/-- A first request of a connection takes the next id. -/
def allocate (s : CgiServer) (reqid : ℤ) (conn : ConnId) : ℤ × CgiServer :=
  if reqid = 0 then
    let reqid := incrementAndGet s.reqCgiId
    (reqid,
      { s with
        reqCgiId := reqid
        reqCgiConnMap := s.reqCgiConnMap.insert reqid conn })
  else (reqid, s)

/-- `HttpServer::server_cgi`.  `CGIConn_` is a null pointer until php-fpm is
connected for the first time. -/
def serverCgi (s : CgiServer) (f : CgiFunctor) : CgiServer :=
  let (reqid, s) := s.allocate f.reqid f.conn
  let records := requestRecords reqid (WEB_PATH ++ f.request.path)
    f.request.method.methodString
  match s.cgiConn with
  | none => { s with crashed := true }
  | some false => s
  | some true =>
      { s with
        outstanding :=
          ⟨some f.conn, reqid, getRequestId records⟩ :: s.outstanding }

/-- `onCGIConnection` of a new connection: a first request, of id zero. -/
def cgiConnected (s : CgiServer) : CgiServer :=
  let records := requestRecords 0 (WEB_PATH ++ ascii "/cgi-bin/info.php")
    (ascii "GET")
  { s with
    cgiConn := some true
    outstanding := [⟨none, 0, getRequestId records⟩] }

/-! ## Answers from php-fpm -/

/-- One turn of the loop of `onCGIMessage`, on a message with content. -/
def handleContent (oneLoop : Bool) (write : WriteResult) (s : CgiServer)
    (m : CgiMessage) : CgiServer :=
  if m.requestid = 0 then s
  else
    match s.reqCgiConnMap[(m.requestid : ℤ)]? with
    | none => s
    | some c =>
        match s.lock c with
        | none =>
            { s with
              reqCgiConnMap := s.reqCgiConnMap.erase (m.requestid : ℤ) }
        | some client =>
            match HttpServer.parseFromcgi m.content
              { closeConnection := client.http.context.close } with
            | .error _ => { s with crashed := true }
            | .ok response =>
                s.setClient c
                  { client with
                    session :=
                      client.session.call oneLoop write
                        (.send response.appendToBuffer) }

def handleMessage (oneLoop : Bool) (write : WriteResult) (s : CgiServer)
    (m : CgiMessage) : CgiServer :=
  if s.crashed ∨ m.content = [] then s
  else handleContent oneLoop write s m

/-- `onCGIMessage`, on the bytes of a read. -/
def onCGIMessage (oneLoop : Bool) (write : WriteResult) (s : CgiServer)
    (buf : Bytes) : CgiServer :=
  (cgiMessages (fun _ => 0) buf).1.foldl (handleMessage oneLoop write) s

/-! ## Steps -/

inductive Action
  | accept (c : ConnId) (close : Bool)
  | net (c : ConnId) (a : Session.Action)
  | message (c : ConnId) (garbage : ℤ) (chunk : Bytes)
  | effect (c : ConnId) (write : WriteResult)
  | mainFunctor
  | checkTimer (c : ConnId) (write : WriteResult)
  | release (c : ConnId)
  | cgiUp
  | cgiDown
  | record (i : ℕ) (r : CgiRecord) (write : WriteResult)

/-- A step of the connection itself; calls of its member functions come from
the server only. -/
def netStep (oneLoop : Bool) (session : Session) :
    Session.Action → Session
  | .call _ _ _ => session
  | a => session.step oneLoop a

/-- What a message still asks for is done in the IO loop. -/
def effectStep (oneLoop : Bool) (s : CgiServer) (c : ConnId) (client : Client)
    (write : WriteResult) : Effect → CgiServer
  | .send data =>
      s.setClient c
        { client with session := client.session.call true write (.send data) }
  | .shutdown =>
      s.setClient c
        { client with session := client.session.call true write .shutdown }
  | .serverCgi request reqid =>
      let s := s.setClient c client
      if oneLoop then s.serverCgi ⟨request, reqid, c⟩
      else { s with mainFunctors := s.mainFunctors ++ [⟨request, reqid, c⟩] }

/-- `onCheckTimer` on a connection that has been idle for too long. -/
def checkTimer (oneLoop : Bool) (client : Client) (write : WriteResult) :
    Client :=
  if client.session.conn.state = .kConnected then
    { client with
      timedOut := true
      session :=
        (client.session.call oneLoop write .shutdown).call oneLoop write
          .forceCloseWithDelay }
  else client

/-- Nothing holds the connection any longer. -/
def released (s : CgiServer) (c : ConnId) (client : Client) : Bool :=
  client.session.entries = 0 && client.session.removals = 0 &&
    client.session.ioFunctors.isEmpty && client.session.handlers.isEmpty &&
    client.todo.isEmpty && s.mainFunctors.all fun f => f.conn ≠ c

/-- A step of a client connection that is there. -/
def clientStep (oneLoop : Bool) (httpCallback : HttpCallback) (s : CgiServer)
    (c : ConnId) (client : Client) : Action → CgiServer
  | .net _ a =>
      s.setClient c { client with session := netStep oneLoop client.session a }
  | .message _ garbage chunk =>
      if client.todo.isEmpty then
        match HttpServer.onMessage httpCallback garbage
          { client.http with
            inputBuffer := Buffer.append client.http.inputBuffer chunk } with
        | .returned http _ effects =>
            s.setClient c { client with http := http, todo := effects }
        | _ => { s with crashed := true }
      else s
  | .effect _ write =>
      match client.todo with
      | [] => s
      | effect :: todo =>
          effectStep oneLoop s c { client with todo := todo } write effect
  | .checkTimer _ write => s.setClient c (checkTimer oneLoop client write)
  | .release _ =>
      if s.released c client then s.setClient c { client with gone := true }
      else s
  | _ => s

/-- A record of php-fpm answers the `i`-th of the requests it has, under the
id that it was sent; the record that ends the request is the last one. -/
def recordStep (oneLoop : Bool) (s : CgiServer) (i : ℕ) (r : CgiRecord)
    (write : WriteResult) : CgiServer :=
  match s.cgiConn, s.outstanding[i]? with
  | some true, some q =>
      if r.header.requestId = q.wireId then
        let s := onCGIMessage oneLoop write s r.bytes
        if r.header.type = FCGI_END_REQUEST then
          { s with outstanding := s.outstanding.eraseIdx i }
        else s
      else s
  | _, _ => s

/-- One step; an action that is not enabled changes nothing, and nothing
happens after a crash. -/
def step (oneLoop : Bool) (httpCallback : HttpCallback) (s : CgiServer)
    (a : Action) : CgiServer :=
  if s.crashed then s
  else
    match a with
    | .accept c close =>
        match s.clients c with
        | some _ => s
        | none =>
            s.setClient c
              { session := Session.newConnection oneLoop
                http := ⟨HttpContext.fresh close, []⟩ }
    | .mainFunctor =>
        match s.mainFunctors with
        | [] => s
        | f :: functors => { s with mainFunctors := functors }.serverCgi f
    | .cgiUp => if s.cgiConn = some true then s else s.cgiConnected
    | .cgiDown =>
        if s.cgiConn = some true then
          { s with cgiConn := some false, outstanding := [] }
        else s
    | .record i r write => recordStep oneLoop s i r write
    | .net c _ | .message c _ _ | .effect c _ | .checkTimer c _ | .release c =>
        s.withClient c fun client =>
          clientStep oneLoop httpCallback s c client a

/-- The connection of a step that is one of a client connection. -/
def Action.connection : Action → Option ConnId
  | .net c _ | .message c _ _ | .effect c _ | .checkTimer c _ | .release c =>
      some c
  | _ => none

/-- What holds after every kind of step holds after a step. -/
theorem step_cases {P : CgiServer → Prop} {oneLoop : Bool}
    {httpCallback : HttpCallback} {s : CgiServer} {a : Action} (hidle : P s)
    (haccept : ∀ c close, s.clients c = none →
      P (s.setClient c
        { session := Session.newConnection oneLoop
          http := ⟨HttpContext.fresh close, []⟩ }))
    (hfunctor : ∀ f functors, s.mainFunctors = f :: functors →
      P ({ s with mainFunctors := functors }.serverCgi f))
    (hup : P s.cgiConnected)
    (hdown : P { s with cgiConn := some false, outstanding := [] })
    (hrecord : ∀ i r write, a = .record i r write →
      P (recordStep oneLoop s i r write))
    (hclient : ∀ c client, a.connection = some c → s.lock c = some client →
      P (clientStep oneLoop httpCallback s c client a)) :
    P (step oneLoop httpCallback s a) := by
  have hlocked : ∀ c, a.connection = some c →
      P (s.withClient c fun client =>
        clientStep oneLoop httpCallback s c client a) := by
    intro c hc
    unfold withClient
    split
    · exact hidle
    next client hlock => exact hclient c client hc hlock
  unfold step
  split
  · exact hidle
  · cases a with
    | accept c close =>
        dsimp only
        split
        · exact hidle
        next hnew => exact haccept c close hnew
    | mainFunctor =>
        dsimp only
        split
        · exact hidle
        next f functors hfunctors => exact hfunctor f functors hfunctors
    | cgiUp =>
        dsimp only
        split
        · exact hidle
        · exact hup
    | cgiDown =>
        dsimp only
        split
        · exact hdown
        · exact hidle
    | record i r write => exact hrecord i r write rfl
    | net c a => exact hlocked c rfl
    | message c garbage chunk => exact hlocked c rfl
    | effect c write => exact hlocked c rfl
    | checkTimer c write => exact hlocked c rfl
    | release c => exact hlocked c rfl

end CgiServer

end MuduoHttp
