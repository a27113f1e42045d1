import MuduoHttp.Http.HttpResponse
import MuduoHttp.Http.ParseReads

/-!
# Requests of a client connection

`HttpServer::onMessage` parses once, answers 400 to what the parser rejects,
and passes a complete request on to `onRequest`.  What the two ask of the
connection and of the main loop is listed in the order they ask for it; the
user's callback is a parameter.
-/

namespace MuduoHttp

open Support HttpContext

/-- The user's `HttpCallback`. -/
abbrev HttpCallback := HttpRequest → HttpResponse → HttpResponse

/-- What the server asks for while it handles a message: `conn->send`,
`conn->shutdown`, and `server_cgi` in the main loop. -/
inductive Effect
  | send (data : Bytes)
  | shutdown
  | serverCgi (request : HttpRequest) (reqid : ℤ)

/-- The context and the input buffer of a connection. -/
structure HttpConnection where
  context : HttpContext
  inputBuffer : Bytes

namespace HttpServer

/-- Whether the path is left to php-fpm. -/
def isCgi (request : HttpRequest) : Bool :=
  (search (ascii "cgi-bin") request.path).isSome

/-- The decision of `onRequest` to close after the response. -/
def closes (request : HttpRequest) : Bool :=
  let connection := request.getHeader (ascii "Connection")
  connection = ascii "close" ∨
    (request.version = .kHttp10 ∧ connection ≠ ascii "Keep-Alive")

def onRequest (httpCallback : HttpCallback) (request : HttpRequest)
    (context : HttpContext) : HttpContext × List Effect :=
  let close := closes request
  let context := { context with close := close }
  let response : HttpResponse := { closeConnection := close }
  let (response, effects) :=
    if isCgi request then
      (response, [.serverCgi request context.cgiRequestId])
    else
      let response := httpCallback request response
      (response, [.send response.appendToBuffer])
  (context, effects ++ if response.closeConnection then [.shutdown] else [])

/-- The answer to a request that the parser rejects. -/
def badRequest : Bytes := ascii "HTTP/1.1 400 Bad Request\r\n\r\n"

/-- How a call of `onMessage` ends: with the connection it leaves behind, the
request it passed to `onRequest` and what it asked for, or not at all. -/
inductive MessageCall
  | returned (conn : HttpConnection) (requests : List HttpRequest)
      (effects : List Effect)
  | threw (exception : StdException)
  | spinning

/-- The requests that were passed to `onRequest`. -/
def MessageCall.requests : MessageCall → List HttpRequest
  | .returned _ requests _ => requests
  | .threw _ => []
  | .spinning => []

def onMessage (httpCallback : HttpCallback) (garbage : ℤ)
    (conn : HttpConnection) : MessageCall :=
  match parseRequest garbage conn.context conn.inputBuffer with
  | .returned ok context buf =>
      let rejected := if ok then [] else [.send badRequest, .shutdown]
      if context.gotAll then
        let (context', effects) :=
          onRequest httpCallback context.request context
        .returned ⟨context'.reset, buf⟩ [context.request] (rejected ++ effects)
      else .returned ⟨context, buf⟩ [] rejected
  | .threw exception => .threw exception
  | .spinning => .spinning

/-- The calls of `onMessage` after successive reads. -/
def onReads (httpCallback : HttpCallback) (conn : HttpConnection) :
    List Read → MessageCall
  | [] => .returned conn [] []
  | read :: reads =>
      match onMessage httpCallback read.garbage
        { conn with
          inputBuffer := Buffer.append conn.inputBuffer read.chunk } with
      | .returned conn requests effects =>
          match onReads httpCallback conn reads with
          | .returned conn' requests' effects' =>
              .returned conn' (requests ++ requests') (effects ++ effects')
          | call => call
      | call => call

end HttpServer

/-! ## The request id of the context -/

theorem HttpContext.parseStep_cgiRequestId {l l' : ParseLoop}
    (h : parseStep l = .ok l') :
    l'.context.cgiRequestId = l.context.cgiRequestId := by
  unfold parseStep at h
  split at h
  · split at h
    · dsimp only at h
      split at h <;> cases h <;> rfl
    · cases h
      rfl
  · split at h
    · dsimp only at h
      split_ifs at h
      · cases h
        rfl
      · cases h
        rfl
      · split at h <;> cases h
        rfl
    · cases h
      rfl
  · split_ifs at h <;> cases h <;> rfl
  · cases h
    rfl

theorem HttpContext.parseLoop_cgiRequestId {fuel : ℕ} {l : ParseLoop}
    {ok : Bool} {context : HttpContext} {buf : Bytes}
    (h : parseLoop fuel l = .returned ok context buf) :
    context.cgiRequestId = l.context.cgiRequestId := by
  induction fuel generalizing l with
  | zero => cases h
  | succ fuel ih =>
      rw [parseLoop] at h
      split at h
      · split at h
        · cases h
        next l' hstep => rw [ih h, parseStep_cgiRequestId hstep]
      · cases h
        rfl

namespace HttpServer

/-- Nothing sets the request id of a context, so that `onRequest` hands on the
zero of the constructor. -/
theorem onMessage_cgiRequestId {httpCallback : HttpCallback} {garbage : ℤ}
    {conn conn' : HttpConnection} {requests : List HttpRequest}
    {effects : List Effect}
    (h : onMessage httpCallback garbage conn =
      .returned conn' requests effects)
    (hzero : conn.context.cgiRequestId = 0) :
    conn'.context.cgiRequestId = 0 ∧
      ∀ request reqid, .serverCgi request reqid ∈ effects → reqid = 0 := by
  unfold onMessage at h
  split at h
  next ok context buf hparse =>
    have hcontext : context.cgiRequestId = 0 :=
      (parseLoop_cgiRequestId hparse).trans hzero
    dsimp only at h
    split at h
    · cases h
      refine ⟨hcontext, ?_⟩
      intro request reqid hmem
      simp only [onRequest] at hmem
      cases ok <;> split at hmem <;>
        cases hcgi : isCgi context.request <;> simp_all
    · cases h
      refine ⟨hcontext, ?_⟩
      intro request reqid hmem
      cases ok <;> simp at hmem
  · cases h
  · cases h

end HttpServer

end MuduoHttp
