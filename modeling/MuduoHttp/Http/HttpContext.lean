import MuduoHttp.Http.HttpRequest
import MuduoHttp.Net.Buffer

/-!
# The request parser of a connection

`HttpContext::parseRequest` is a loop over the parse state.  One iteration is
`parseStep`; the loop runs it while `hasMore` holds, on a bounded amount of
fuel, and `parseRequest` supplies enough of it for every state but `kGotAll`,
where no branch of the loop applies and the source spins.

The local variable `body_lenth` is assigned in the header branch and read in
the body branch.  A call that starts in the body state reads it unassigned,
so its initial value is a parameter of the call.
-/

namespace MuduoHttp

inductive HttpRequestParseState
  | kExpectRequestLine
  | kExpectHeaders
  | kExpectBody
  | kGotAll
  deriving DecidableEq, Repr

/-- The parser's part of `HttpContext` and the fields of the CGI path.  The
constructor leaves `close_` uninitialised. -/
structure HttpContext where
  state : HttpRequestParseState := .kExpectRequestLine
  request : HttpRequest := {}
  cgiRequestId : ℤ := 0
  close : Bool

namespace HttpContext

/-- A newly constructed context. -/
def fresh (close : Bool) : HttpContext := { close := close }

def gotAll (context : HttpContext) : Bool := context.state = .kGotAll

def reset (context : HttpContext) : HttpContext :=
  { context with state := .kExpectRequestLine, request := {} }

/-- The target of a request line: the query starts at the first `?`. -/
def setTarget (request : HttpRequest) (target : Bytes) : HttpRequest :=
  let question := target.idxOf QUESTION
  if question ≠ target.length then
    (request.setPath (target.take question)).setQuery (target.drop question)
  else request.setPath target

theorem setTarget_eq_ite (request : HttpRequest) (target : Bytes) :
    setTarget request target =
      { request with
        path := target.take (target.idxOf QUESTION)
        query :=
          if QUESTION ∈ target then target.drop (target.idxOf QUESTION)
          else request.query } := by
  unfold setTarget
  by_cases hmem : QUESTION ∈ target
  · have hlong : target.idxOf QUESTION ≠ target.length :=
      ne_of_lt (List.idxOf_lt_length_of_mem hmem)
    simp only [if_pos hlong, if_pos hmem]
    rfl
  · have hend : target.idxOf QUESTION = target.length :=
      List.idxOf_eq_length hmem
    simp only [hend, ne_eq, not_true_eq_false, if_false, if_neg hmem,
      List.take_length]
    rfl

/-- The end of a request line, from the byte after the second space. -/
def setHttpVersion (request : HttpRequest) (text : Bytes) :
    Bool × HttpRequest :=
  if text.length = 8 ∧ text.take 7 = ascii "HTTP/1." then
    if text.drop 7 = ascii "1" then (true, request.setVersion .kHttp11)
    else if text.drop 7 = ascii "0" then (true, request.setVersion .kHttp10)
    else (false, request)
  else (false, request)

/-- `processRequestLine` on the request under construction.  A line that is
rejected late leaves the fields set so far behind. -/
def processRequestLine (request : HttpRequest) (line : Bytes) :
    Bool × HttpRequest :=
  let space := line.idxOf SP
  if space = line.length then (false, request)
  else
    let (valid, request) := request.setMethod (line.take space)
    if valid then
      let start := line.drop (space + 1)
      let space := start.idxOf SP
      if space = start.length then (false, request)
      else
        setHttpVersion (setTarget request (start.take space))
          (start.drop (space + 1))
    else (false, request)

/-! ## The loop of `parseRequest` -/

/-- The variables of the loop: the locals of `parseRequest`, the context and
the readable bytes of the buffer. -/
structure ParseLoop where
  ok : Bool := true
  hasMore : Bool := true
  bodyLenth : ℤ
  context : HttpContext
  buf : Bytes

/-- The field that decides how the header section is followed up. -/
def contentLength : Bytes := ascii "Content-Length"

/-- One iteration of the loop. -/
def parseStep (l : ParseLoop) : Except StdException ParseLoop :=
  match l.context.state with
  | .kExpectRequestLine =>
      match Buffer.findCRLF l.buf with
      | some crlf =>
          let (ok, request) :=
            processRequestLine l.context.request (l.buf.take crlf)
          if ok then
            .ok { l with
              ok := ok
              context :=
                { l.context with request := request, state := .kExpectHeaders }
              buf := Buffer.retrieveUntil l.buf (crlf + 2) }
          else
            .ok { l with
              ok := ok, hasMore := false
              context := { l.context with request := request } }
      | none => .ok { l with hasMore := false }
  | .kExpectHeaders =>
      match Buffer.findCRLF l.buf with
      | some crlf =>
          let line := l.buf.take crlf
          let colon := line.idxOf COLON
          if colon ≠ line.length then
            .ok { l with
              context :=
                { l.context with
                  request := l.context.request.addHeader line colon }
              buf := Buffer.retrieveUntil l.buf (crlf + 2) }
          else if (l.context.request.getHeader contentLength).length = 0 then
            .ok { l with
              hasMore := false
              context := { l.context with state := .kGotAll }
              buf := Buffer.retrieveUntil l.buf (crlf + 2) }
          else
            match stoi (l.context.request.getHeader contentLength) with
            | .error exception => .error exception
            | .ok n =>
                .ok { l with
                  bodyLenth := n
                  context := { l.context with state := .kExpectBody }
                  buf := Buffer.retrieveUntil l.buf (crlf + 2) }
      | none => .ok { l with hasMore := false }
  | .kExpectBody =>
      if sizeT l.bodyLenth ≤ l.buf.length then
        .ok { l with
          hasMore := false
          context :=
            { l.context with
              request := l.context.request.setBody
                (l.buf.take (sizeT l.bodyLenth))
              state := .kGotAll } }
      else .ok { l with hasMore := false }
  | .kGotAll => .ok l

/-- How a call of `parseRequest` ends.  `spinning` is the call that never
returns. -/
inductive ParseCall
  | returned (ok : Bool) (context : HttpContext) (buf : Bytes)
  | threw (exception : StdException)
  | spinning

/-- The `while (hasMore)` loop. -/
def parseLoop : ℕ → ParseLoop → ParseCall
  | 0, _ => .spinning
  | fuel + 1, l =>
      if l.hasMore then
        match parseStep l with
        | .error exception => .threw exception
        | .ok l' => parseLoop fuel l'
      else .returned l.ok l.context l.buf

/-- `parseRequest`, with the value that the uninitialised `body_lenth` has at
the start of the call. -/
def parseRequest (garbage : ℤ) (context : HttpContext) (buf : Bytes) :
    ParseCall :=
  parseLoop (buf.length + 2)
    { bodyLenth := garbage, context := context, buf := buf }

end HttpContext

end MuduoHttp
