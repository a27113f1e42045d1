import MuduoHttp.Http.Framing
import MuduoHttp.Http.OnMessage
import MuduoHttp.Support.Backlog

/-!
# Pipelined requests

`onMessage` parses once, so one read dispatches at most one request; the
complete requests that are left in the buffer wait for the next read.  Of
requests without a body that arrive in some number of reads, all are
dispatched exactly when the reads keep up with them: the last `n` reads never
complete more than `n` requests.
-/

namespace MuduoHttp

open Support HttpContext

/-- A complete request without a body. -/
structure BodylessRequest extends RequestMessage where
  bodyless : body = []

namespace BodylessRequest

/-- A request line without header fields. -/
def ofLine (requestLine : RequestLine)
    (isLine : Buffer.findCRLF requestLine.bytes = none) : BodylessRequest where
  grammar := { requestLine := requestLine, isLine := isLine, fields := [] }
  body := []
  announced := by simp
  unannounced := by simp
  bodyless := rfl

variable (r : BodylessRequest)

/-- The request that `onRequest` is to see. -/
def request : HttpRequest := r.grammar.request

theorem bytes_eq : r.bytes = r.grammar.bytes := by
  rw [RequestMessage.bytes, r.bodyless, List.append_nil]

theorem bytes_ne_nil : r.bytes ≠ [] := by
  simp [bytes_eq, RequestGrammar.bytes, CRLF]

/-- The drain of a parser on the request: everything, and nothing left. -/
theorem drain_bytes (garbage : ℤ) (close : Bool) (rest : Bytes) :
    drainRequest garbage (fresh close) (r.bytes ++ rest) =
      .halted (.ok (true,
        { fresh close with request := r.request, state := .kGotAll })) rest := by
  rw [bytes_eq, ← r.grammar.bytes_head, drain_head rfl rfl,
    RequestHead.outcome, r.head_contentLength, r.grammar.request_head]
  rcases r.getHeader_contentLength with ⟨hnone, -⟩ | ⟨hne, hdigits, hlength⟩
  · rw [if_pos hnone]
    rfl
  · rw [r.bodyless, List.length_nil] at hlength
    rw [if_neg hne, stoi_digits hne hdigits (by omega), hlength]
    rfl

theorem parseRequest_bytes (garbage : ℤ) (close : Bool) (rest : Bytes) :
    parseRequest garbage (fresh close) (r.bytes ++ rest) =
      .returned true
        { fresh close with request := r.request, state := .kGotAll } rest := by
  rw [parseRequest_eq_drain (by simp [fresh]), drain_bytes]
  rfl

/-- In front of a missing part of the request the parser is idle, and not in
the body state: there it would leave something of the request behind. -/
theorem drain_part {part missing : Bytes} (hsplit : r.bytes = part ++ missing)
    (hmissing : missing ≠ []) (garbage : ℤ) (close : Bool) :
    ∃ f rest, drainRequest garbage (fresh close) part = .idle f rest ∧
      f.context.state ≠ .kExpectBody := by
  have hall := r.drain_bytes garbage close []
  rw [List.append_nil, hsplit, drainRequest] at hall
  cases hdrain : drainRequest garbage (fresh close) part with
  | halted result rest =>
      rw [Reader.drain_append_of_halted hdrain] at hall
      injection hall with _ hrest
      exact absurd (List.append_eq_nil_iff.mp hrest).2 hmissing
  | idle f rest =>
      refine ⟨f, rest, rfl, ?_⟩
      intro hbody
      rw [Reader.drain_append_of_idle hdrain] at hall
      have hlook := look_body (f := f) hbody (rest ++ missing)
      split_ifs at hlook with hfits
      · rw [Reader.drain_of_halt hlook] at hall
        injection hall with _ hrest
        exact absurd (List.append_eq_nil_iff.mp hrest).2 hmissing
      · rw [Reader.drain_of_wait hlook] at hall
        cases hall

end BodylessRequest

/-! ## Connections between two reads -/

/-- The connection will treat later input as a new one would that had `unread`
in front of it. -/
structure HttpConnection.Resumes (conn : HttpConnection) (unread : Bytes) :
    Prop where
  nothing_left : unread = [] → conn.inputBuffer = []
  resumed : ∃ close, ∀ (garbage : ℤ) (later : Bytes),
    parseRequest garbage conn.context (conn.inputBuffer ++ later) =
      parseRequest garbage (fresh close) (unread ++ later)

theorem HttpConnection.resumes_fresh (close : Bool) (unread : Bytes) :
    HttpConnection.Resumes ⟨fresh close, unread⟩ unread :=
  ⟨id, close, fun _ _ => rfl⟩

/-- Related drains are reported alike. -/
theorem HttpContext.ofDrained_congr {d e : Drained ParseFrame ParseEnd Byte}
    (h : Drained.Related SameParse d e) :
    ParseCall.ofDrained d = ParseCall.ofDrained e := by
  cases h with
  | idle rest hst => rw [ParseCall.ofDrained, ParseCall.ofDrained, hst.1]
  | halted r rest => rfl

/-- A call that ends idle outside the body state keeps all it has read. -/
theorem HttpContext.parseRequest_resumes {close : Bool} {unread : Bytes}
    (hidle : ∀ garbage, ∃ f rest,
      drainRequest garbage (fresh close) unread = .idle f rest ∧
        f.context.state ≠ .kExpectBody) (garbage : ℤ) :
    ∃ context buf, parseRequest garbage (fresh close) unread =
        .returned true context buf ∧
      context.gotAll = false ∧
        HttpConnection.Resumes ⟨context, buf⟩ unread := by
  obtain ⟨f, rest, hdrain, hbody⟩ := hidle garbage
  have hgot : f.context.state ≠ .kGotAll := by
    have hagrees : GotAllAgrees (drainRequest garbage (fresh close) unread) :=
      gotAllAgrees_drain (by simp [fresh]) _
    rw [hdrain] at hagrees
    exact hagrees
  refine ⟨f.context, rest, ?_, by simp [gotAll, hgot], ?_, close, ?_⟩
  · rw [parseRequest_eq_drain (by simp [fresh]), hdrain, ParseCall.ofDrained]
  · rintro rfl
    rw [drainRequest, drain_nil rfl] at hdrain
    injection hdrain with _ hrest
    exact hrest.symm
  · intro garbage' later
    have hsame : SameParse ⟨fresh close, garbage⟩ ⟨fresh close, garbage'⟩ :=
      ⟨rfl, by simp [fresh]⟩
    have hresumed :
        SameParse f ⟨f.context, garbage'⟩ := ⟨rfl, fun h => absurd h hbody⟩
    rw [parseRequest_eq_drain hgot, parseRequest_eq_drain (by simp [fresh]),
      ← ofDrained_congr (drain_related hsame (unread ++ later)),
      Reader.drain_append_of_idle hdrain,
      ofDrained_congr (drain_related hresumed (rest ++ later))]

namespace HttpServer

variable (httpCallback : HttpCallback) {conn : HttpConnection}
variable {unread : Bytes}

/-- A read that completes a request dispatches it, and nothing else. -/
theorem onMessage_complete (hresumes : conn.Resumes unread) (read : Read)
    (r : BodylessRequest) {rest : Bytes}
    (hcomplete : unread ++ read.chunk = r.bytes ++ rest) :
    ∃ conn' effects,
      onMessage httpCallback read.garbage
          { conn with
            inputBuffer := Buffer.append conn.inputBuffer read.chunk } =
        .returned conn' [r.request] effects ∧ conn'.Resumes rest := by
  obtain ⟨close, hparse⟩ := hresumes.resumed
  have hcall := hparse read.garbage read.chunk
  rw [hcomplete, r.parseRequest_bytes] at hcall
  refine ⟨⟨fresh (closes r.request), rest⟩,
    (onRequest httpCallback r.request
      { fresh close with request := r.request, state := .kGotAll }).2, ?_,
    HttpConnection.resumes_fresh _ _⟩
  simp only [onMessage, Buffer.append_eq, hcall, gotAll, decide_true, if_true]
  rfl

/-- A read that completes no request dispatches nothing. -/
theorem onMessage_incomplete (hresumes : conn.Resumes unread) (read : Read)
    (hidle : ∀ garbage close, ∃ f rest,
      drainRequest garbage (fresh close) (unread ++ read.chunk) =
        .idle f rest ∧ f.context.state ≠ .kExpectBody) :
    ∃ conn' effects,
      onMessage httpCallback read.garbage
          { conn with
            inputBuffer := Buffer.append conn.inputBuffer read.chunk } =
        .returned conn' [] effects ∧
          conn'.Resumes (unread ++ read.chunk) := by
  obtain ⟨close, hparse⟩ := hresumes.resumed
  obtain ⟨context, buf, hcall, hgot, hconn⟩ :=
    parseRequest_resumes (fun g => hidle g close) read.garbage
  rw [← hparse] at hcall
  refine ⟨⟨context, buf⟩, [], ?_, hconn⟩
  simp only [onMessage, Buffer.append_eq, hcall, hgot, Bool.false_eq_true,
    if_false, if_true]

end HttpServer

/-! ## Counting -/

namespace BodylessRequest

/-- How many of the requests the first `n` bytes complete. -/
def completed : List BodylessRequest → ℕ → ℕ
  | [], _ => 0
  | r :: requests, n =>
      if r.bytes.length ≤ n then
        completed requests (n - r.bytes.length) + 1
      else 0

/-- How many of the requests each read completes, when `n` bytes were read
before. -/
def completions (requests : List BodylessRequest) : ℕ → List Bytes → List ℕ
  | _, [] => []
  | n, chunk :: chunks =>
      (completed requests (n + chunk.length) - completed requests n) ::
        completions requests (n + chunk.length) chunks

theorem completed_zero (requests : List BodylessRequest) :
    completed requests 0 = 0 := by
  cases requests with
  | nil => rfl
  | cons r requests =>
      have hlen : r.bytes.length ≠ 0 := by simpa using r.bytes_ne_nil
      simp [completed, hlen]

theorem completed_mono (requests : List BodylessRequest) {n k : ℕ}
    (h : n ≤ k) : completed requests n ≤ completed requests k := by
  induction requests generalizing n k with
  | nil => exact le_rfl
  | cons r requests ih =>
      simp only [completed]
      by_cases hfits : r.bytes.length ≤ n
      · rw [if_pos hfits, if_pos (hfits.trans h)]
        exact Nat.succ_le_succ (ih (by omega))
      · rw [if_neg hfits]
        exact Nat.zero_le _

theorem completed_flatMap (requests : List BodylessRequest) :
    completed requests (requests.flatMap (·.bytes)).length =
      requests.length := by
  induction requests with
  | nil => rfl
  | cons r requests ih => simpa [completed] using ih

/-- Requests that are out of the way do not count. -/
theorem completions_cons (r : BodylessRequest)
    (requests : List BodylessRequest) (n : ℕ) (chunks : List Bytes) :
    completions (r :: requests) (r.bytes.length + n) chunks =
      completions requests n chunks := by
  induction chunks generalizing n with
  | nil => rfl
  | cons chunk chunks ih =>
      have hpast : ∀ k, completed (r :: requests) (r.bytes.length + k) =
          completed requests k + 1 := by
        intro k
        rw [completed, if_pos (by omega), Nat.add_sub_cancel_left]
      rw [completions, completions, Nat.add_assoc, ih, hpast, hpast,
        Nat.add_sub_add_right]

/-- One read of the backlog: what is complete after it, less the one that is
dispatched. -/
theorem backlog_completions (requests : List BodylessRequest) (n : ℕ)
    (chunk : Bytes) (chunks : List Bytes) :
    backlog (completed requests n)
        (completions requests n (chunk :: chunks)) =
      backlog (completed requests (n + chunk.length) - 1)
        (completions requests (n + chunk.length) chunks) := by
  have hmono := completed_mono requests (Nat.le_add_right n chunk.length)
  rw [completions, backlog, Nat.add_sub_cancel' hmono]

end BodylessRequest

open BodylessRequest

/-! ## Runs -/

namespace HttpServer

/-- The reads dispatch the first requests in order; the backlog of the reads
is what waits in the buffer at the end. -/
def DispatchFirst (httpCallback : HttpCallback) (conn : HttpConnection)
    (unread : Bytes) (requests : List BodylessRequest) (reads : List Read) :
    Prop :=
  ∃ conn' dispatched pending effects,
    onReads httpCallback conn reads =
        .returned conn' (dispatched.map (·.request)) effects ∧
      requests = dispatched ++ pending ∧
      conn'.Resumes (pending.flatMap (·.bytes)) ∧
      pending.length = backlog (completed requests unread.length)
        (completions requests unread.length (reads.map (·.chunk)))

variable (httpCallback : HttpCallback) {conn : HttpConnection} {unread : Bytes}
variable {requests : List BodylessRequest} {read : Read} {reads : List Read}

theorem onReads_cons {conn' conn'' : HttpConnection}
    {dispatched dispatched' : List HttpRequest} {effects effects' : List Effect}
    (hcall : onMessage httpCallback read.garbage
        { conn with
          inputBuffer := Buffer.append conn.inputBuffer read.chunk } =
      .returned conn' dispatched effects)
    (hcalls : onReads httpCallback conn' reads =
      .returned conn'' dispatched' effects') :
    onReads httpCallback conn (read :: reads) =
      .returned conn'' (dispatched ++ dispatched') (effects ++ effects') := by
  simp only [onReads, hcall, hcalls]

theorem dispatchFirst_incomplete (hresumes : conn.Resumes unread)
    (hnone : completed requests (unread ++ read.chunk).length = 0)
    (hidle : ∀ garbage close, ∃ f rest,
      drainRequest garbage (fresh close) (unread ++ read.chunk) =
        .idle f rest ∧ f.context.state ≠ .kExpectBody)
    (hrest : ∀ conn' : HttpConnection, conn'.Resumes (unread ++ read.chunk) →
      DispatchFirst httpCallback conn' (unread ++ read.chunk) requests reads) :
    DispatchFirst httpCallback conn unread requests (read :: reads) := by
  obtain ⟨conn', effects, hcall, hconn⟩ :=
    onMessage_incomplete httpCallback hresumes read hidle
  obtain ⟨conn'', dispatched, pending, effects', hcalls, hsplit, hleft, hlen⟩ :=
    hrest conn' hconn
  refine ⟨conn'', dispatched, pending, effects ++ effects',
    onReads_cons httpCallback hcall hcalls, hsplit, hleft, ?_⟩
  rw [hlen, hnone, List.map_cons, backlog_completions, ← List.length_append,
    hnone]

theorem dispatchFirst_complete (hresumes : conn.Resumes unread)
    (r : BodylessRequest) {rest : Bytes}
    (hcomplete : unread ++ read.chunk = r.bytes ++ rest)
    (hrest : ∀ conn' : HttpConnection, conn'.Resumes rest →
      DispatchFirst httpCallback conn' rest requests reads) :
    DispatchFirst httpCallback conn unread (r :: requests) (read :: reads) := by
  obtain ⟨conn', effects, hcall, hconn⟩ :=
    onMessage_complete httpCallback hresumes read r hcomplete
  obtain ⟨conn'', dispatched, pending, effects', hcalls, hsplit, hleft, hlen⟩ :=
    hrest conn' hconn
  refine ⟨conn'', r :: dispatched, pending, effects ++ effects',
    onReads_cons httpCallback hcall hcalls, by rw [hsplit, List.cons_append],
    hleft, ?_⟩
  rw [hlen, List.map_cons, backlog_completions, ← List.length_append,
    hcomplete, List.length_append, completions_cons, completed,
    if_pos (Nat.le_add_right _ _), Nat.add_sub_cancel_left,
    Nat.add_sub_cancel]

theorem dispatchFirst_of_cut (hresumes : conn.Resumes unread)
    (hcut : unread ++ readBytes reads = requests.flatMap (·.bytes)) :
    DispatchFirst httpCallback conn unread requests reads := by
  induction reads generalizing conn unread requests with
  | nil =>
      rw [readBytes_nil, List.append_nil] at hcut
      refine ⟨conn, [], requests, [], rfl, rfl, hcut ▸ hresumes, ?_⟩
      rw [List.map_nil, completions, backlog, hcut, completed_flatMap]
  | cons read reads ih =>
      rw [readBytes_cons, ← List.append_assoc] at hcut
      cases requests with
      | nil =>
          have hempty : unread ++ read.chunk = [] :=
            (List.append_eq_nil_iff.mp hcut).1
          refine dispatchFirst_incomplete httpCallback hresumes rfl
            (fun garbage close => ?_) (fun conn' hconn => ih hconn hcut)
          rw [hempty]
          exact ⟨_, [], drain_nil rfl, by simp [fresh]⟩
      | cons r requests =>
          rw [List.flatMap_cons] at hcut
          have hread : unread ++ read.chunk <+:
              r.bytes ++ requests.flatMap (·.bytes) :=
            hcut ▸ List.prefix_append _ _
          have hfirst : r.bytes <+: r.bytes ++ requests.flatMap (·.bytes) :=
            List.prefix_append _ _
          by_cases hfits : r.bytes.length ≤ (unread ++ read.chunk).length
          · obtain ⟨rest, hrest⟩ :=
              List.prefix_of_prefix_length_le hfirst hread hfits
            rw [← hrest, List.append_assoc, List.append_cancel_left_eq] at hcut
            exact dispatchFirst_complete httpCallback hresumes r hrest.symm
              fun conn' hconn => ih hconn hcut
          · obtain ⟨missing, hmissing⟩ :=
              List.prefix_of_prefix_length_le hread hfirst (by omega)
            have hne : missing ≠ [] := by
              rintro rfl
              rw [List.append_nil] at hmissing
              exact hfits (hmissing ▸ le_rfl)
            exact dispatchFirst_incomplete httpCallback hresumes (if_neg hfits)
              (fun garbage close => r.drain_part hmissing.symm hne garbage close)
              (fun conn' hconn => ih hconn hcut)

end HttpServer

/-! ## The exact condition -/

/-- Requests without a body, and a way of cutting their bytes into reads. -/
structure Pipeline where
  requests : List BodylessRequest
  chunks : List Bytes
  cut : chunks.flatten = requests.flatMap (·.bytes)

namespace Pipeline

/-- After the reads, all the requests have been passed to `onRequest`, in
order and once each, and no complete request is left in the buffer. -/
def AllDispatched (p : Pipeline) : Prop :=
  ∀ (httpCallback : HttpCallback) (close : Bool) (reads : List Read),
    reads.map (·.chunk) = p.chunks →
      ∃ conn effects,
        HttpServer.onReads httpCallback ⟨fresh close, []⟩ reads =
            .returned conn (p.requests.map (·.request)) effects ∧
          ∀ (m : RequestMessage) (rest : Bytes),
            conn.inputBuffer ≠ m.bytes ++ rest

/-- The number of requests that each read completes. -/
def completions (p : Pipeline) : List ℕ :=
  BodylessRequest.completions p.requests 0 p.chunks

theorem dispatchFirst (p : Pipeline) (httpCallback : HttpCallback)
    (close : Bool) {reads : List Read} (hreads : reads.map (·.chunk) = p.chunks) :
    ∃ conn dispatched pending effects,
      HttpServer.onReads httpCallback ⟨fresh close, []⟩ reads =
          .returned conn (dispatched.map (·.request)) effects ∧
        p.requests = dispatched ++ pending ∧
        conn.Resumes (pending.flatMap (·.bytes)) ∧
        pending.length = backlog 0 p.completions := by
  have hcut : [] ++ readBytes reads = p.requests.flatMap (·.bytes) := by
    rw [List.nil_append, readBytes, hreads, p.cut]
  have h := HttpServer.dispatchFirst_of_cut httpCallback
    (HttpConnection.resumes_fresh close []) hcut
  rwa [HttpServer.DispatchFirst, hreads, List.length_nil, completed_zero] at h

/-- All requests are dispatched exactly when the reads keep up with them. -/
theorem allDispatched_iff (p : Pipeline) :
    p.AllDispatched ↔ KeepsUp p.completions := by
  rw [← backlog_zero_eq_zero_iff]
  constructor
  · intro hall
    let reads : List Read := p.chunks.map fun chunk => ⟨chunk, 0⟩
    have hreads : reads.map (·.chunk) = p.chunks := by
      simp [reads, Function.comp_def]
    obtain ⟨conn, effects, hcalls, -⟩ := hall (fun _ r => r) false reads hreads
    obtain ⟨conn', dispatched, pending, effects', hcalls', hsplit, -, hlen⟩ :=
      p.dispatchFirst (fun _ r => r) false hreads
    rw [hcalls] at hcalls'
    injection hcalls' with _ hdispatched
    have hlength := congrArg List.length hdispatched
    rw [List.length_map, List.length_map, hsplit, List.length_append]
      at hlength
    omega
  · intro hzero httpCallback close reads hreads
    obtain ⟨conn, dispatched, pending, effects, hcalls, hsplit, hleft, hlen⟩ :=
      p.dispatchFirst httpCallback close hreads
    obtain rfl := List.length_eq_zero_iff.mp (hlen.trans hzero)
    rw [List.append_nil] at hsplit
    refine ⟨conn, effects, hsplit ▸ hcalls, ?_⟩
    intro m rest hbuf
    rw [hleft.nothing_left rfl] at hbuf
    exact absurd (congrArg List.length hbuf)
      (by simp [RequestMessage.bytes, RequestGrammar.bytes, CRLF])

end Pipeline

/-- `GET / HTTP/1.1` without header fields. -/
def plainRequest : BodylessRequest :=
  .ofLine .getRoot RequestLine.isLine_getRoot

/-- Two requests in one read. -/
def twoInOneRead : Pipeline where
  requests := [plainRequest, plainRequest]
  chunks := [plainRequest.bytes ++ plainRequest.bytes]
  cut := by simp

/-- The second request is stranded. -/
theorem not_allDispatched_twoInOneRead : ¬ twoInOneRead.AllDispatched := by
  intro hall
  obtain ⟨conn, effects, hcalls, -⟩ :=
    hall (fun _ r => r) false [⟨plainRequest.bytes ++ plainRequest.bytes, 0⟩] rfl
  have hone : (HttpServer.onReads (fun _ r => r) ⟨fresh false, []⟩
      [⟨plainRequest.bytes ++ plainRequest.bytes, 0⟩]).requests.length = 1 := by
    decide
  rw [hcalls] at hone
  exact absurd hone (by simp [HttpServer.MessageCall.requests, twoInOneRead])

end MuduoHttp
