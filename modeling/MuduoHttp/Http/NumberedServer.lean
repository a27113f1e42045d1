import MuduoHttp.Http.CgiRouting
import MuduoHttp.Net.SessionOutput

/-!
# Numbered requests

An observer of the server numbers the requests of each connection in the order
in which `onMessage` acts on them, and keeps the response to each.  He follows
a cgi request along the functors of the main loop and the requests at php-fpm,
and knows from the schedule which request a record of php-fpm answers.  What he
keeps is not part of the server and changes nothing about its steps.
-/

namespace MuduoHttp

open Support FastCgi CgiServer

/-- The number of a request among those of its connection, from zero on. -/
structure RequestNo where
  conn : ConnId
  number : ℕ
  deriving DecidableEq, Repr

/-- The server, with the responses to the requests of each connection, none as
long as php-fpm has not answered, and with the requests behind the functors of
the main loop and those at php-fpm.  The probe is the request of no connection.
A connection is broken when a write has shown that its peer is gone. -/
structure NumberedServer where
  server : CgiServer := {}
  responses : ConnId → List (Option Bytes) := fun _ => []
  functors : List RequestNo := []
  outstanding : List (Option RequestNo) := []
  broken : ConnId → Bool := fun _ => false

namespace NumberedServer

variable {oneLoop : Bool} {httpCallback : HttpCallback} {s : NumberedServer}
  {c : ConnId} {n : RequestNo}

/-- The request that is dispatched next. -/
def next (s : NumberedServer) (c : ConnId) : RequestNo where
  conn := c
  number := (s.responses c).length

/-- `onRequest` is called, with the response that it makes itself, if any. -/
def dispatch (s : NumberedServer) (c : ConnId) (response : Option Bytes) :
    NumberedServer :=
  { s with
    responses :=
      Function.update s.responses c (s.responses c ++ [response]) }

/-- php-fpm answers a request; further answers to it do not count. -/
def answer (s : NumberedServer) (n : RequestNo) (response : Bytes) :
    NumberedServer :=
  { s with
    responses :=
      Function.update s.responses n.conn
        ((s.responses n.conn).modify n.number (· <|> some response)) }

/-- `server_cgi`, as far as php-fpm is connected. -/
def issue (s : NumberedServer) (n : RequestNo) : NumberedServer :=
  if s.server.cgiConn = some true then
    { s with outstanding := some n :: s.outstanding }
  else s

/-- What is seen of an effect of a message. -/
def followEffect (oneLoop : Bool) (s : NumberedServer) (c : ConnId) :
    Effect → NumberedServer
  | .send data => s.dispatch c (some data)
  | .serverCgi _ _ =>
      if oneLoop then (s.dispatch c none).issue (s.next c)
      else { s.dispatch c none with functors := s.functors ++ [s.next c] }
  | .shutdown => s

/-- Whether php-fpm can send the record for its `i`-th request. -/
def answersRequest (s : NumberedServer) (i : ℕ) (r : CgiRecord) : Bool :=
  s.server.cgiConn = some true &&
    s.server.outstanding[i]?.any fun q => r.header.requestId = q.wireId

/-- The response to a request, made of the content of a record for it. -/
def followContent (s : NumberedServer) (n : RequestNo) (content : Bytes) :
    NumberedServer :=
  match s.server.lock n.conn with
  | none => s
  | some client =>
      match client.cgiResponse content with
      | .error _ => s
      | .ok response => s.answer n response.appendToBuffer

/-- What is seen of a record that answers the `i`-th request at php-fpm. -/
def followRecord (s : NumberedServer) (i : ℕ) (r : CgiRecord) :
    NumberedServer :=
  let s :=
    match s.outstanding[i]?.join with
    | some n =>
        if r.message.content = [] then s
        else s.followContent n r.message.content
    | none => s
  if r.header.type = FCGI_END_REQUEST then
    { s with outstanding := s.outstanding.eraseIdx i }
  else s

/-- What is seen of a step. -/
def follow (oneLoop : Bool) (s : NumberedServer) :
    CgiServer.Action → NumberedServer
  | .effect c _ =>
      match s.server.lock c with
      | some client =>
          match client.todo with
          | effect :: _ => s.followEffect oneLoop c effect
          | [] => s
      | none => s
  | .mainFunctor =>
      match s.functors with
      | n :: functors => { s with functors := functors }.issue n
      | [] => s
  | .cgiUp =>
      if s.server.cgiConn = some true then s
      else { s with outstanding := [none] }
  | .cgiDown =>
      if s.server.cgiConn = some true then { s with outstanding := [] } else s
  | .record i r _ => if s.answersRequest i r then s.followRecord i r else s
  | _ => s

/-- The connection on which a step may send, and what comes of the write. -/
def writes (s : NumberedServer) :
    CgiServer.Action → Option (ConnId × WriteResult)
  | .effect c write => some (c, write)
  | .net c (.ioFunctor write) => some (c, write)
  | .record i _ write =>
      s.outstanding[i]?.join.map fun n => (n.conn, write)
  | _ => none

/-- The connections that are broken after a step. -/
def brokenAfter (s : NumberedServer) (a : CgiServer.Action) : ConnId → Bool :=
  match s.writes a with
  | some (c, write) =>
      if write.PeerThere then s.broken else Function.update s.broken c true
  | none => s.broken

def step (oneLoop : Bool) (httpCallback : HttpCallback) (s : NumberedServer)
    (a : CgiServer.Action) : NumberedServer :=
  { if s.server.crashed then s else s.follow oneLoop a with
    server := s.server.step oneLoop httpCallback a
    broken := s.brokenAfter a }

end NumberedServer

end MuduoHttp
