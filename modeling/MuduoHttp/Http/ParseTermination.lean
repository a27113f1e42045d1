import MuduoHttp.Http.PristineRequest

/-!
# The parse loop ends

In `kGotAll` no branch of the loop applies, and the loop spins.  In any other
state an iteration consumes a line or is the last one, so that the line ends
of the buffer bound the iterations.  `onMessage` resets a context that has got
everything, and no call ever starts in `kGotAll`.
-/

namespace MuduoHttp

open Support HttpContext

namespace HttpContext

/-- A move leaves one line end less in the buffer. -/
theorem occurrences_lt_of_move {f f' : ParseFrame} {buf rest : Bytes}
    (h : look f buf = .move f' rest) :
    occurrences CRLF rest < occurrences CRLF buf := by
  obtain ⟨-, crlf, hcrlf, rfl⟩ := look_move h
  exact occurrences_drop_lt (by simp [CRLF]) hcrlf

/-- Outside `kGotAll` a call ends after at most one more iteration than the
buffer has line ends. -/
theorem parseRequest_ends {context : HttpContext}
    (hstate : context.state ≠ .kGotAll) (garbage : ℤ) (buf : Bytes) :
    ∃ n ≤ occurrences CRLF buf + 1, ParseLoop.Ends
      { bodyLenth := garbage, context := context, buf := buf } n
      (parseRequest garbage context buf) := by
  refine ⟨requestReader.looks ⟨context, garbage⟩ buf, ?_, ?_⟩
  · exact Reader.looks_le (m := fun _ buf => occurrences CRLF buf + 1)
      (fun _ _ => Nat.succ_pos _)
      (fun _ _ _ _ hlook => Nat.succ_lt_succ (occurrences_lt_of_move hlook))
      _ _
  · rw [parseRequest_eq_drain hstate]
    exact ends_drain (f := ⟨context, garbage⟩) hstate buf

/-! ## Exceptions -/

/-- Only `stoi` throws, on the length of a body. -/
theorem parseStep_error {l : ParseLoop} {exception : StdException}
    (h : parseStep l = .error exception) :
    l.context.state = .kExpectHeaders ∧
      stoi (l.context.request.getHeader contentLength) =
        .error exception := by
  unfold parseStep at h
  split at h
  · split at h
    · dsimp only at h
      split at h <;> cases h
    · cases h
  next hstate =>
    split at h
    · dsimp only at h
      split_ifs at h
      split at h
      next hstoi =>
        cases h
        exact ⟨hstate, hstoi⟩
      · cases h
    · cases h
  · split_ifs at h
  · cases h

/-- An exception that ends a call comes from `stoi`. -/
theorem ParseLoop.Ends.stoi_error {l : ParseLoop} {n : ℕ}
    {exception : StdException} (h : l.Ends n (.threw exception)) :
    ∃ length, stoi length = .error exception := by
  generalize hcall : ParseCall.threw exception = call at h
  induction h with
  | returned => cases hcall
  | threw _ hstep =>
      cases hcall
      exact ⟨_, (parseStep_error hstep).2⟩
  | step _ _ _ ih => exact ih hcall

end HttpContext

/-! ## The contexts of a server -/

namespace HttpServer

/-- The contexts of a connection: the one that `onConnection` makes, what a
call of `onMessage` leaves, and what an exception of `stoi` leaves. -/
inductive Reachable (httpCallback : HttpCallback) : HttpContext → Prop
  | onConnection (close : Bool) : Reachable httpCallback (.fresh close)
  | onMessage {context : HttpContext} (hreach : Reachable httpCallback context)
      {garbage : ℤ} {buf : Bytes} {conn : HttpConnection}
      {requests : List HttpRequest} {effects : List Effect}
      (hcall : HttpServer.onMessage httpCallback garbage ⟨context, buf⟩ =
        .returned conn requests effects) :
      Reachable httpCallback conn.context
  | threw {context : HttpContext} (hreach : Reachable httpCallback context)
      {garbage : ℤ} {buf : Bytes} {l : ParseLoop} {exception : StdException}
      (hiterations : ParseLoop.Reaches
        { bodyLenth := garbage, context := context, buf := buf } l)
      (hmore : l.hasMore = true) (hstep : parseStep l = .error exception) :
      Reachable httpCallback l.context

variable {httpCallback : HttpCallback} {context : HttpContext}

/-- `onMessage` leaves no context that has got everything. -/
theorem onMessage_gotAll {garbage : ℤ} {conn conn' : HttpConnection}
    {requests : List HttpRequest} {effects : List Effect}
    (h : onMessage httpCallback garbage conn =
      .returned conn' requests effects) :
    conn'.context.gotAll = false := by
  unfold onMessage at h
  split at h
  next ok context buf hparse =>
    dsimp only at h
    split at h
    · cases h
      rfl
    next hgot =>
      cases h
      exact Bool.eq_false_iff.mpr hgot
  · cases h
  · cases h

theorem Reachable.state_ne_gotAll (h : Reachable httpCallback context) :
    context.state ≠ .kGotAll := by
  cases h with
  | onConnection close => simp [HttpContext.fresh]
  | onMessage _ hcall => simpa [gotAll] using onMessage_gotAll hcall
  | threw _ _ _ hstep => simp [(parseStep_error hstep).1]

end HttpServer

/-- A call on a context of the server does not start in `kGotAll`, and its
loop ends after at most one more iteration than the buffer has line ends, by
return or by an exception of `stoi`. -/
theorem parse_loop_ends {httpCallback : HttpCallback} {context : HttpContext}
    (h : HttpServer.Reachable httpCallback context) (garbage : ℤ)
    (buf : Bytes) :
    context.state ≠ .kGotAll ∧
      (∃ n ≤ occurrences CRLF buf + 1, ParseLoop.Ends
        { bodyLenth := garbage, context := context, buf := buf } n
        (parseRequest garbage context buf)) ∧
      ∀ exception, parseRequest garbage context buf = .threw exception →
        ∃ length, stoi length = .error exception := by
  have hstate := h.state_ne_gotAll
  obtain ⟨n, hn, hends⟩ := parseRequest_ends hstate garbage buf
  refine ⟨hstate, ⟨n, hn, hends⟩, ?_⟩
  intro exception hthrew
  rw [hthrew] at hends
  exact hends.stoi_error

/-- The context behind a request line. -/
def behindRequestLine : HttpContext :=
  { HttpContext.fresh false with
    state := .kExpectHeaders
    request :=
      { method := .kGet, version := .kHttp11, path := ascii "/" } }

/-- The request line arrives alone, the empty line in the next message. -/
theorem parse_loop_ends_emptyLine :
    behindRequestLine.state ≠ .kGotAll ∧
      (∃ n ≤ occurrences CRLF CRLF + 1, ParseLoop.Ends
        { bodyLenth := 0, context := behindRequestLine, buf := CRLF } n
        (parseRequest 0 behindRequestLine CRLF)) ∧
      ∀ exception, parseRequest 0 behindRequestLine CRLF = .threw exception →
        ∃ length, stoi length = .error exception := by
  have hcall : HttpServer.onMessage (fun _ response => response) 0
      ⟨.fresh false, ascii "GET / HTTP/1.1\r\n"⟩ =
        .returned ⟨behindRequestLine, []⟩ [] [] := by rfl
  exact parse_loop_ends (.onMessage (.onConnection false) hcall) 0 CRLF

end MuduoHttp
