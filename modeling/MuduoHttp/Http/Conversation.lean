import MuduoHttp.Http.Pipelining
import MuduoHttp.Http.ResponseToEnd
import MuduoHttp.Net.OutputStream
import MuduoHttp.Net.Serving

/-!
# Conversations

A client sends its requests one after the other, each in any number of pieces,
and the kernel takes the responses in pieces of any size.  What the client
reads from the connection is then the answer of the callback to each request,
in order.  When the last answer closes the connection, the server closes its
write side once everything is written, and not before.
-/

namespace MuduoHttp

open Support HttpContext HttpServer Decoder

/-- A connection of the server, with its loop in the connection's thread.
`failed` says that `parseRequest` threw or did not return. -/
structure ServedConnection where
  http : HttpConnection
  session : Session
  failed : Bool := false

namespace ServedConnection

/-- The connection after `onConnection`. -/
def established (close : Bool) : ServedConnection where
  http := ⟨fresh close, []⟩
  session := ({} : Session).connectEstablished

/-- What `onMessage` asks for is done at once, in the loop of the connection;
`server_cgi` is left to the main loop. -/
def perform (session : Session) (writes : ℕ → OpenWrite) :
    List Effect → Session
  | [] => session
  | .send data :: effects =>
      perform (session.call true (writes effects.length) (.send data)) writes
        effects
  | .shutdown :: effects =>
      perform (session.call true (writes effects.length) .shutdown) writes
        effects
  | .serverCgi _ _ :: effects => perform session writes effects

/-- A read that brings something, or a poll event that finds the socket
writable; with the answers of the kernel to the writes. -/
inductive Event
  | read (read : Read) (writes : ℕ → OpenWrite)
  | writable (result : OpenWrite)

def Event.read? : Event → Option Read
  | .read piece _ => some piece
  | .writable _ => none

def step (httpCallback : HttpCallback) (s : ServedConnection) :
    Event → ServedConnection
  | .read piece writes =>
      match onMessage httpCallback piece.garbage
        { s.http with
          inputBuffer := Buffer.append s.http.inputBuffer piece.chunk } with
      | .returned http _ effects =>
          { s with http := http, session := perform s.session writes effects }
      | .threw _ => { s with failed := true }
      | .spinning => { s with failed := true }
  | .writable result =>
      { s with
        session :=
          { s.session with conn := s.session.conn.handleWrite result } }

end ServedConnection

/-- The answer of the callback to a request. -/
def answerTo (httpCallback : HttpCallback) (request : HttpRequest) :
    HttpResponse :=
  httpCallback request { closeConnection := closes request }

/-! ## One message -/

namespace HttpServer

variable (httpCallback : HttpCallback) {conn : HttpConnection}
variable {unread : Bytes}

/-- What a request that is not left to php-fpm asks for. -/
def answerEffects (request : HttpRequest) : List Effect :=
  .send (answerTo httpCallback request).appendToBuffer ::
    if (answerTo httpCallback request).closeConnection then [.shutdown] else []

theorem onMessage_answers (hresumes : conn.Resumes unread) (read : Read)
    (r : BodylessRequest) (hstatic : isCgi r.request = false)
    (hcomplete : unread ++ read.chunk = r.bytes) :
    ∃ conn' : HttpConnection,
      onMessage httpCallback read.garbage
          { conn with
            inputBuffer := Buffer.append conn.inputBuffer read.chunk } =
        .returned conn' [r.request] (answerEffects httpCallback r.request) ∧
      conn'.Resumes [] := by
  obtain ⟨close, hparse⟩ := hresumes.resumed
  have hcall := hparse read.garbage read.chunk
  rw [hcomplete, ← List.append_nil r.bytes, r.parseRequest_bytes] at hcall
  refine ⟨⟨fresh (closes r.request), []⟩, ?_,
    HttpConnection.resumes_fresh _ _⟩
  simp only [onMessage, Buffer.append_eq, hcall, gotAll, decide_true, if_true,
    onRequest, hstatic, Bool.false_eq_true, if_false]
  rfl

theorem onMessage_waits (hresumes : conn.Resumes unread) (read : Read)
    (r : BodylessRequest) {missing : Bytes} (hmissing : missing ≠ [])
    (hpart : unread ++ read.chunk ++ missing = r.bytes) :
    ∃ conn' : HttpConnection,
      onMessage httpCallback read.garbage
          { conn with
            inputBuffer := Buffer.append conn.inputBuffer read.chunk } =
        .returned conn' [] [] ∧
      conn'.Resumes (unread ++ read.chunk) := by
  obtain ⟨close, hparse⟩ := hresumes.resumed
  obtain ⟨context, buf, hcall, hgot, hconn⟩ := parseRequest_resumes
    (fun garbage => r.drain_part hpart.symm hmissing garbage close)
    read.garbage
  rw [← hparse] at hcall
  refine ⟨⟨context, buf⟩, ?_, hconn⟩
  simp only [onMessage, Buffer.append_eq, hcall, hgot, Bool.false_eq_true,
    if_false, if_true]

end HttpServer

/-! ## One event -/

namespace ServedConnection

variable {httpCallback : HttpCallback} {s : ServedConnection}
variable {unread sent : Bytes} {piece : Read} {writes : ℕ → OpenWrite}

/-- The connection serves: it has read `unread` of the next request, and its
responses so far are `sent`. -/
structure Serves (s : ServedConnection) (unread sent : Bytes) : Prop where
  resumes : s.http.Resumes unread
  carries : s.session.conn.Carries sent
  connected : s.session.conn.state = .kConnected
  open' : s.session.conn.writeShut = false

/-- The connection is shut down behind its responses. -/
structure Closes (s : ServedConnection) (sent : Bytes) : Prop where
  carries : s.session.conn.Carries sent
  disconnecting : s.session.conn.state = .kDisconnecting
  shut : s.session.conn.writeShut = true ↔ s.session.conn.outputBuffer = []

theorem serves_established (close : Bool) : (established close).Serves [] [] where
  resumes := HttpConnection.resumes_fresh close []
  carries := TcpConnection.carries_established
  connected := rfl
  open' := rfl

theorem Serves.writable (h : s.Serves unread sent) (result : OpenWrite) :
    (s.step httpCallback (.writable result)).Serves unread sent where
  resumes := h.resumes
  carries := h.carries.handleWrite result
  connected :=
    (TcpConnection.keepsOpen_handleWrite _ _).state_eq.trans h.connected
  open' := by
    have hstate : s.session.conn.state ≠ .kDisconnecting := by
      simp [h.connected]
    exact (TcpConnection.writeShut_handleWrite hstate result.1).trans h.open'

/-- `shutdownInLoop` closes the write side unless something waits. -/
theorem writeShut_shutdownInLoop {conn : TcpConnection}
    (hcarries : conn.Carries sent) (hopen : conn.writeShut = false) :
    conn.shutdownInLoop.writeShut = true ↔
      conn.shutdownInLoop.outputBuffer = [] := by
  unfold TcpConnection.shutdownInLoop
  split
  next hwriting =>
    simp [hopen, hcarries.interest.mp hwriting]
  next hidle =>
    have hempty : conn.outputBuffer = [] := by
      by_contra hne
      exact hidle (hcarries.interest.mpr hne)
    simp [hempty]

theorem writeShut_handleWrite {conn : TcpConnection}
    (hstate : conn.state = .kDisconnecting)
    (hcarries : conn.Carries sent)
    (hshut : conn.writeShut = true ↔ conn.outputBuffer = [])
    (result : WriteResult) :
    (conn.handleWrite result).writeShut = true ↔
      (conn.handleWrite result).outputBuffer = [] := by
  unfold TcpConnection.handleWrite
  split
  next hwriting =>
    have hopen : conn.writeShut = false := by
      simpa [hcarries.interest.mp hwriting] using hshut
    split
    next n =>
      dsimp only
      split
      next hempty =>
        -- the last of the output is written, and the shutdown made up for
        have hidle : conn.channel.disableWriting.isWriting = false :=
          Channel.isWriting_update { conn.channel with writing := false }
        rw [TcpConnection.shutdownInLoop, if_neg (by simp [hidle])]
        simpa using hempty
      next hleft => simpa [hopen] using hleft
    · exact hshut
  · exact hshut

theorem Closes.writable (h : s.Closes sent) (result : OpenWrite) :
    (s.step httpCallback (.writable result)).Closes sent where
  carries := h.carries.handleWrite result
  disconnecting :=
    (TcpConnection.keepsOpen_handleWrite _ _).state_eq.trans h.disconnecting
  shut := writeShut_handleWrite h.disconnecting h.carries h.shut result

/-- A piece that does not complete the request is kept. -/
theorem Serves.waits (h : s.Serves unread sent) (r : BodylessRequest)
    {missing : Bytes} (hmissing : missing ≠ [])
    (hpart : unread ++ piece.chunk ++ missing = r.bytes) :
    (s.step httpCallback (.read piece writes)).Serves (unread ++ piece.chunk)
      sent := by
  obtain ⟨conn, hcall, hconn⟩ :=
    onMessage_waits httpCallback h.resumes piece r hmissing hpart
  simp only [step, hcall, perform]
  exact ⟨hconn, h.carries, h.connected, h.open'⟩

/-- The piece that completes the request is answered. -/
theorem Serves.answered (h : s.Serves unread sent) (r : BodylessRequest)
    (hstatic : isCgi r.request = false)
    (hkeep : (answerTo httpCallback r.request).closeConnection = false)
    (hcomplete : unread ++ piece.chunk = r.bytes) :
    (s.step httpCallback (.read piece writes)).Serves []
      (sent ++ (answerTo httpCallback r.request).appendToBuffer) := by
  obtain ⟨conn, hcall, hconn⟩ :=
    onMessage_answers httpCallback h.resumes piece r hstatic hcomplete
  simp only [step, hcall, answerEffects, hkeep, perform, Session.call,
    h.connected]
  refine ⟨hconn, h.carries.sendInLoop _ (writes _).2, ?_, ?_⟩
  · exact (TcpConnection.keepsOpen_sendInLoop ..).state_eq.trans h.connected
  · exact (TcpConnection.writeShut_sendInLoop ..).trans h.open'

/-- The answer that closes the connection is the last. -/
theorem Serves.closes (h : s.Serves unread sent) (r : BodylessRequest)
    (hstatic : isCgi r.request = false)
    (hclose : (answerTo httpCallback r.request).closeConnection = true)
    (hcomplete : unread ++ piece.chunk = r.bytes) :
    (s.step httpCallback (.read piece writes)).Closes
      (sent ++ (answerTo httpCallback r.request).appendToBuffer) := by
  obtain ⟨conn, hcall, hconn⟩ :=
    onMessage_answers httpCallback h.resumes piece r hstatic hcomplete
  set answer := (answerTo httpCallback r.request).appendToBuffer
  have hsent := h.carries.sendInLoop answer (writes 1).2
  have hstate :
      (s.session.conn.sendInLoop answer (writes 1).1).state = .kConnected :=
    (TcpConnection.keepsOpen_sendInLoop ..).state_eq.trans h.connected
  have hopen :
      (s.session.conn.sendInLoop answer (writes 1).1).writeShut = false :=
    (TcpConnection.writeShut_sendInLoop ..).trans h.open'
  have hconn : (s.step httpCallback (.read piece writes)).session.conn =
      ((s.session.conn.sendInLoop answer (writes 1).1).setState
        .kDisconnecting).shutdownInLoop := by
    simp only [step, hcall, answerEffects, hclose, if_true, perform,
      Session.call, h.connected, List.length_singleton]
    exact congrArg (fun session : Session => session.conn) (if_pos hstate)
  refine ⟨?_, ?_, ?_⟩
  · rw [hconn]
    exact hsent.setDisconnecting.shutdownInLoop
  · rw [hconn]
    exact (TcpConnection.keepsOpen_shutdownInLoop _).state_eq
  · rw [hconn]
    exact writeShut_shutdownInLoop hsent.setDisconnecting hopen

/-! ## Runs -/

/-- The pieces bring the requests one after the other, the first of them
behind `unread`. -/
def Bring : Bytes → List BodylessRequest → List Read → Prop
  | unread, [], pieces => unread = [] ∧ pieces = []
  | _, _ :: _, [] => False
  | unread, r :: requests, piece :: pieces =>
      (unread ++ piece.chunk = r.bytes ∧ Bring [] requests pieces) ∨
        (∃ missing, missing ≠ [] ∧ unread ++ piece.chunk ++ missing = r.bytes) ∧
          Bring (unread ++ piece.chunk) (r :: requests) pieces

/-- The answers to the requests, in order. -/
def answers (httpCallback : HttpCallback) (requests : List BodylessRequest) :
    List HttpResponse :=
  requests.map fun r => answerTo httpCallback r.request

/-- The end of a conversation: the connection waits for another request, or
it is closed behind the last answer. -/
def Ended (s : ServedConnection) (sent : Bytes) (closing : Prop) : Prop :=
  (s.Serves [] sent ∧ ¬ closing) ∨ (s.Closes sent ∧ closing)

theorem Closes.run (httpCallback : HttpCallback) (h : s.Closes sent)
    {events : List Event} (hnone : events.filterMap Event.read? = []) :
    (run (step httpCallback) s events).Closes sent := by
  induction events generalizing s with
  | nil => exact h
  | cons event events ih =>
      cases event with
      | read piece writes => simp [Event.read?] at hnone
      | writable result => exact ih (h.writable result) hnone

theorem mem_dropLast_cons {α : Type*} {l : List α} {a b : α}
    (h : a ∈ l.dropLast) : a ∈ (b :: l).dropLast := by
  have hne : l ≠ [] := by
    rintro rfl
    cases h
  rw [List.dropLast_cons_of_ne_nil hne]
  exact .tail _ h

theorem Serves.run (h : s.Serves unread sent)
    {requests : List BodylessRequest} {events : List Event}
    (hstatic : ∀ r ∈ requests, isCgi r.request = false)
    (hkeep : ∀ answer ∈ (answers httpCallback requests).dropLast,
      answer.closeConnection = false)
    (hbring : Bring unread requests (events.filterMap Event.read?)) :
    Ended (Support.run (step httpCallback) s events)
      (sent ++ (answers httpCallback requests).flatMap
        HttpResponse.appendToBuffer)
      (∃ answer ∈ answers httpCallback requests,
        answer.closeConnection = true) := by
  induction events generalizing s unread sent requests with
  | nil =>
      cases requests with
      | nil =>
          obtain ⟨rfl, -⟩ := hbring
          left
          simpa [answers] using h
      | cons r requests => exact hbring.elim
  | cons event events ih =>
      cases event with
      | writable result => exact ih (h.writable result) hstatic hkeep hbring
      | read piece writes =>
          cases requests with
          | nil => simp [Bring, Event.read?] at hbring
          | cons r requests =>
              simp only [List.filterMap_cons, Event.read?] at hbring
              rcases hbring with ⟨hcomplete, hrest⟩ |
                ⟨⟨missing, hmissing, hpart⟩, hrest⟩
              · by_cases hclose :
                    (answerTo httpCallback r.request).closeConnection = true
                · have hnone : requests = [] := by
                    by_contra hne
                    have hfirst := hkeep (answerTo httpCallback r.request) (by
                      rw [answers, List.map_cons,
                        List.dropLast_cons_of_ne_nil (by simpa using hne)]
                      exact .head _)
                    rw [hclose] at hfirst
                    cases hfirst
                  subst hnone
                  rw [Bring] at hrest
                  have hlast :
                      (s.step httpCallback (.read piece writes)).Closes _ :=
                    h.closes r (hstatic r (.head _)) hclose hcomplete
                  right
                  simpa [answers, hclose] using
                    hlast.run httpCallback hrest.2
                · have hopen :
                      (answerTo httpCallback r.request).closeConnection =
                        false := by simpa using hclose
                  have hnext :
                      (s.step httpCallback (.read piece writes)).Serves [] _ :=
                    h.answered r (hstatic r (.head _)) hopen hcomplete
                  have hend := ih hnext
                    (fun r hr => hstatic r (.tail _ hr))
                    (fun answer hanswer =>
                      hkeep answer (mem_dropLast_cons hanswer)) hrest
                  simpa [answers, hopen, List.append_assoc] using hend
              · exact ih (h.waits r hmissing hpart) hstatic hkeep hrest

/-- Every request comes in pieces of its own, none of them empty: a read that
brings nothing is the end of the stream. -/
def OneByOne (requests : List BodylessRequest) (pieces : List Read) : Prop :=
  (∃ cuts : List (List Read), cuts.flatten = pieces ∧
    List.Forall₂ (fun r cut => readBytes cut = r.bytes) requests cuts) ∧
  ∀ piece ∈ pieces, piece.chunk ≠ []

theorem bring_of_cut {r : BodylessRequest} {requests : List BodylessRequest}
    {cut rest : List Read} (hne : cut ≠ [])
    (hcut : unread ++ readBytes cut = r.bytes)
    (hnonempty : ∀ piece ∈ cut, piece.chunk ≠ [])
    (hrest : Bring [] requests rest) :
    Bring unread (r :: requests) (cut ++ rest) := by
  induction cut generalizing unread with
  | nil => exact absurd rfl hne
  | cons piece cut ih =>
      rw [List.forall_mem_cons] at hnonempty
      rw [readBytes_cons, ← List.append_assoc] at hcut
      rw [List.cons_append, Bring]
      by_cases hlast : cut = []
      · subst hlast
        left
        exact ⟨by simpa using hcut, hrest⟩
      · right
        obtain ⟨next, others, rfl⟩ := List.exists_cons_of_ne_nil hlast
        refine ⟨⟨readBytes (next :: others), ?_, hcut⟩,
          ih hlast hcut hnonempty.2⟩
        rw [readBytes_cons]
        exact List.append_ne_nil_of_left_ne_nil
          (hnonempty.2 next (.head _)) _

theorem OneByOne.bring {requests : List BodylessRequest} {pieces : List Read}
    (h : OneByOne requests pieces) : Bring [] requests pieces := by
  obtain ⟨⟨cuts, rfl, hcut⟩, hnonempty⟩ := h
  induction hcut with
  | nil => exact ⟨rfl, rfl⟩
  | @cons r cut requests cuts hfirst hrest ih =>
      rw [List.flatten_cons] at hnonempty ⊢
      refine bring_of_cut ?_ hfirst
        (fun piece hpiece => hnonempty piece (List.mem_append_left _ hpiece))
        (ih fun piece hpiece =>
          hnonempty piece (List.mem_append_right _ hpiece))
      rintro rfl
      exact r.bytes_ne_nil hfirst.symm

/-- What a client finds on the connection: the replies, and after the last of
them the end of the stream if it was announced. -/
structure Delivers (s : ServedConnection) (replies : List PlainResponse) :
    Prop where
  decoded :
    all ReadResponse.toEnd
        (s.session.conn.written ++ s.session.conn.outputBuffer) =
      some (replies.map PlainResponse.parts)
  writing : s.session.conn.channel.isWriting = true ↔
    s.session.conn.outputBuffer ≠ []
  shut : s.session.conn.writeShut = true ↔
    s.session.conn.outputBuffer = [] ∧
      ∃ reply ∈ replies, reply.closeConnection = true

theorem Ended.delivers {replies : List PlainResponse}
    (h : Ended s (replies.flatMap fun reply => reply.appendToBuffer)
      (∃ reply ∈ replies, reply.closeConnection = true))
    (hkeep : ∀ reply ∈ replies.dropLast, reply.closeConnection = false) :
    s.Delivers replies := by
  have hcarries : s.session.conn.Carries
      (replies.flatMap fun reply => reply.appendToBuffer) :=
    h.elim (fun h => h.1.carries) (fun h => h.1.carries)
  refine ⟨?_, hcarries.interest, ?_⟩
  · rw [hcarries.stream]
    exact PlainResponse.all_toEnd hkeep
  · rcases h with ⟨hserves, hnone⟩ | ⟨hcloses, hsome⟩
    · have hshut : s.session.conn.writeShut = false := hserves.open'
      simp [hshut, hnone]
    · have hshut : s.session.conn.writeShut = true ↔
          s.session.conn.outputBuffer = [] := hcloses.shut
      rw [hshut, and_iff_left hsome]

theorem run_delivers (close : Bool) {requests : List BodylessRequest}
    {replies : List PlainResponse} {events : List Event}
    (hstatic : ∀ r ∈ requests, isCgi r.request = false)
    (hreplies : answers httpCallback requests =
      replies.map PlainResponse.toHttpResponse)
    (hkeep : ∀ reply ∈ replies.dropLast, reply.closeConnection = false)
    (hpieces : OneByOne requests (events.filterMap Event.read?)) :
    (run (step httpCallback) (established close) events).Delivers replies := by
  have hopen : ∀ answer ∈ (answers httpCallback requests).dropLast,
      answer.closeConnection = false := by
    rw [hreplies, ← List.map_dropLast]
    intro answer hanswer
    obtain ⟨reply, hreply, rfl⟩ := List.mem_map.mp hanswer
    exact hkeep reply hreply
  have hended := (serves_established close).run hstatic hopen hpieces.bring
  have hbytes : ([] : Bytes) ++ (answers httpCallback requests).flatMap
      HttpResponse.appendToBuffer =
        replies.flatMap fun reply => reply.appendToBuffer := by
    rw [hreplies, List.nil_append, List.flatMap_map]
  have hclosing : (∃ answer ∈ answers httpCallback requests,
      answer.closeConnection = true) ↔
        ∃ reply ∈ replies, reply.closeConnection = true := by
    rw [hreplies]
    simp
  rw [hbytes, hclosing] at hended
  exact hended.delivers hkeep

end ServedConnection

/-- `GET / HTTP/1.0`, after which the connection is closed. -/
def lastRequest : BodylessRequest :=
  .ofLine { RequestLine.getRoot with
    version := .kHttp10
    version_ne := by decide } (by decide)

/-- A page, and whether it is the last one. -/
def page (close : Bool) : PlainResponse where
  statusCode := .k200Ok
  statusMessage := ascii "OK"
  closeConnection := close
  body := ascii "home"
  message_noBreak := noBreak_ok
  name_noBreak := by simp
  value_noBreak := by simp
  name_noColon := by simp
  name_notFraming := by simp

end MuduoHttp
