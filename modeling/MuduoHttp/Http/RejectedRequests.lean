import MuduoHttp.Http.OnMessage

/-!
# Connections with a rejected request line

A request line that is rejected stays in the buffer, and the parser stays in
front of it.  The verdict depends on the bytes of the line only, so that every
later call rejects the same line again.

What a rejected line leaves in the request is another matter: a line with a
method has set it.
-/

namespace MuduoHttp

open Support HttpContext

/-- The first line of the buffer, without its line end. -/
structure HasLine (buf line : Bytes) : Prop where
  isLine : Buffer.findCRLF line = none
  split : ∃ rest, buf = line ++ CRLF ++ rest

namespace HasLine

variable {buf line : Bytes}

theorem append (h : HasLine buf line) (data : Bytes) :
    HasLine (Buffer.append buf data) line := by
  obtain ⟨rest, hrest⟩ := h.split
  refine ⟨h.isLine, rest ++ data, ?_⟩
  rw [Buffer.append_eq, hrest, List.append_assoc _ rest data]

theorem findCRLF (h : HasLine buf line) :
    Buffer.findCRLF buf = some line.length := by
  obtain ⟨rest, rfl⟩ := h.split
  exact Buffer.findCRLF_line h.isLine rest

theorem take (h : HasLine buf line) : buf.take line.length = line := by
  obtain ⟨rest, rfl⟩ := h.split
  rw [List.append_assoc, List.take_left]

theorem of_findCRLF {crlf : ℕ} (h : Buffer.findCRLF buf = some crlf) :
    HasLine buf (buf.take crlf) :=
  ⟨Buffer.findCRLF_take_eq_none h, buf.drop (crlf + 2),
    Buffer.findCRLF_split h⟩

end HasLine

namespace HttpContext

/-- Whether a line is accepted does not depend on what earlier attempts have
left in the request. -/
theorem processRequestLine_fst (request : HttpRequest) (line : Bytes) :
    (processRequestLine request line).1 = true ↔
      ∃ r : RequestLine, line = r.bytes := by
  constructor
  · exact RequestLine.exists_of_processRequestLine
  · rintro ⟨r, rfl⟩
    rw [r.processRequestLine_bytes]

/-- The context after a request line that is rejected. -/
def afterLine (context : HttpContext) (line : Bytes) : HttpContext :=
  { context with request := (processRequestLine context.request line).2 }

/-- The parser is in front of a request line that it rejects. -/
structure Rejects (context : HttpContext) (buf line : Bytes) : Prop where
  state : context.state = .kExpectRequestLine
  hasLine : HasLine buf line
  rejected : (processRequestLine context.request line).1 = false

variable {context context' : HttpContext} {buf buf' line : Bytes}
  {garbage : ℤ} {ok : Bool}

theorem Rejects.append (h : context.Rejects buf line) (data : Bytes) :
    context.Rejects (Buffer.append buf data) line :=
  ⟨h.state, h.hasLine.append data, h.rejected⟩

theorem Rejects.afterLine (h : context.Rejects buf line) :
    (context.afterLine line).Rejects buf line where
  state := h.state
  hasLine := h.hasLine
  rejected := by
    have hrejected := h.rejected
    rw [Bool.eq_false_iff, ne_eq, processRequestLine_fst] at hrejected ⊢
    exact hrejected

/-! ## One call -/

/-- An iteration waits in front of a request line, rejects one, or leaves the
parser elsewhere. -/
theorem parseStep_cases {l l' : ParseLoop} (h : parseStep l = .ok l') :
    (l.context.state = .kExpectRequestLine ∧
        Buffer.findCRLF l.buf = none ∧ l' = { l with hasMore := false }) ∨
      (∃ line, l.context.Rejects l.buf line ∧
        l' = { l with
          ok := false, hasMore := false
          context := l.context.afterLine line }) ∨
      (l'.context.state ≠ .kExpectRequestLine ∧ (l.ok = true → l'.ok = true)) := by
  unfold parseStep at h
  split at h
  next hstate =>
    split at h
    next crlf hcrlf =>
      cases hline : processRequestLine l.context.request (l.buf.take crlf) with
      | mk ok request =>
          simp only [hline] at h
          cases ok with
          | true =>
              cases h
              exact .inr (.inr ⟨by simp, fun _ => rfl⟩)
          | false =>
              cases h
              refine .inr (.inl ⟨l.buf.take crlf, ⟨hstate, .of_findCRLF hcrlf,
                by rw [hline]⟩, ?_⟩)
              simp [HttpContext.afterLine, hline]
    next hnone =>
      cases h
      exact .inl ⟨hstate, hnone, rfl⟩
  next hstate =>
    refine .inr (.inr ?_)
    split at h
    · dsimp only at h
      split_ifs at h
      · cases h
        exact ⟨by simp [hstate], id⟩
      · cases h
        exact ⟨by simp, id⟩
      · split at h <;> cases h
        exact ⟨by simp, id⟩
    · cases h
      exact ⟨by simp [hstate], id⟩
  next hstate =>
    refine .inr (.inr ?_)
    split_ifs at h <;> cases h
    · exact ⟨by simp, id⟩
    · exact ⟨by simp [hstate], id⟩
  next hstate =>
    cases h
    exact .inr (.inr ⟨by simp [hstate], id⟩)

/-- Behind the request line a call does not return to it, and rejects
nothing. -/
theorem parseLoop_behind {fuel : ℕ} {l : ParseLoop}
    (hstate : l.context.state ≠ .kExpectRequestLine) (hok : l.ok = true)
    (h : parseLoop fuel l = .returned ok context' buf') :
    ok = true ∧ context'.state ≠ .kExpectRequestLine := by
  induction fuel generalizing l with
  | zero => cases h
  | succ fuel ih =>
      rw [parseLoop] at h
      split at h
      · split at h
        · cases h
        next l' hstep =>
          rcases parseStep_cases hstep with
            ⟨hline, -⟩ | ⟨line, hrejects, -⟩ | ⟨hbehind, hkept⟩
          · exact absurd hline hstate
          · exact absurd hrejects.state hstate
          · exact ih hbehind (hkept hok) h
      · cases h
        exact ⟨hok, hstate⟩

/-- A call of `parseRequest` waits in front of a request line, rejects one, or
returns true with the parser elsewhere. -/
theorem parseRequest_cases
    (h : parseRequest garbage context buf = .returned ok context' buf') :
    (ok = true ∧ context.state = .kExpectRequestLine ∧ context' = context) ∨
      (ok = false ∧ buf' = buf ∧ ∃ line, context.Rejects buf line ∧
        context' = context.afterLine line) ∨
      (ok = true ∧ context'.state ≠ .kExpectRequestLine) := by
  rw [parseRequest, parseLoop] at h
  simp only [if_true] at h
  split at h
  · cases h
  next l' hstep =>
    rcases parseStep_cases hstep with
      ⟨hstate, -, rfl⟩ | ⟨line, hrejects, rfl⟩ | ⟨hbehind, hkept⟩
    · cases h
      exact .inl ⟨rfl, hstate, rfl⟩
    · cases h
      exact .inr (.inl ⟨rfl, rfl, line, hrejects, rfl⟩)
    · exact .inr (.inr (parseLoop_behind hbehind (hkept rfl) h))

/-- In front of a request line that it rejects, a call consumes nothing. -/
theorem Rejects.parseRequest (h : context.Rejects buf line) (garbage : ℤ) :
    parseRequest garbage context buf =
      .returned false (context.afterLine line) buf := by
  have hline := h.rejected
  simp [HttpContext.parseRequest, parseLoop, parseStep, h.state,
    h.hasLine.findCRLF, h.hasLine.take, hline, HttpContext.afterLine]

/-! ## Later calls -/

/-- After each of the reads `parseRequest` returns false again, consumes
nothing, and stays in front of the request line. -/
def StaysRejected : HttpContext → Bytes → List Read → Prop
  | _, _, [] => True
  | context, buf, read :: reads =>
      ∃ context',
        HttpContext.parseRequest read.garbage context
            (Buffer.append buf read.chunk) =
          .returned false context' (Buffer.append buf read.chunk) ∧
        context'.state = .kExpectRequestLine ∧ context'.gotAll = false ∧
        StaysRejected context' (Buffer.append buf read.chunk) reads

theorem Rejects.gotAll (h : context.Rejects buf line) :
    context.gotAll = false := by
  simp [HttpContext.gotAll, h.state]

theorem Rejects.staysRejected (h : context.Rejects buf line)
    (reads : List Read) : StaysRejected context buf reads := by
  induction reads generalizing context buf with
  | nil => trivial
  | cons read reads ih =>
      have hlonger := h.append read.chunk
      have hlater := hlonger.afterLine
      exact ⟨_, hlonger.parseRequest read.garbage, hlater.state, hlater.gotAll,
        ih hlater⟩

/-- A call that has returned false leaves the parser in front of the line that
it rejected. -/
theorem exists_rejects
    (h : HttpContext.parseRequest garbage context buf =
      .returned false context' buf') :
    ∃ line, context.Rejects buf line ∧ context'.Rejects buf' line := by
  rcases parseRequest_cases h with
    ⟨hok, -⟩ | ⟨-, rfl, line, hrejects, rfl⟩ | ⟨hok, -⟩
  · cases hok
  · exact ⟨line, hrejects, hrejects.afterLine⟩
  · cases hok

end HttpContext

namespace HttpServer

variable {context : HttpContext} {buf line : Bytes}

/-- The answer to a rejected request line. -/
theorem onMessage_of_rejects (httpCallback : HttpCallback)
    (h : context.Rejects buf line) (garbage : ℤ) :
    onMessage httpCallback garbage ⟨context, buf⟩ =
      .returned ⟨context.afterLine line, buf⟩ []
        [.send badRequest, .shutdown] := by
  simp [onMessage, h.parseRequest garbage, h.afterLine.gotAll]

theorem onReads_of_rejects (httpCallback : HttpCallback)
    (h : context.Rejects buf line) (reads : List Read) :
    ∃ conn effects,
      onReads httpCallback ⟨context, buf⟩ reads =
        .returned conn [] effects := by
  induction reads generalizing context buf with
  | nil => exact ⟨_, [], rfl⟩
  | cons read reads ih =>
      have hlonger := h.append read.chunk
      have hfirst := onMessage_of_rejects httpCallback hlonger read.garbage
      obtain ⟨conn, effects, hreads⟩ := ih hlonger.afterLine
      refine ⟨conn, [.send badRequest, .shutdown] ++ effects, ?_⟩
      simp only [onReads, hfirst, hreads, List.nil_append]

end HttpServer

/-- A connection on which `parseRequest` has returned false stays rejected:
whatever arrives, each later call returns false, consumes nothing, and stays
in front of the request line, and no request is dispatched any more. -/
theorem rejected_stays_rejected {garbage : ℤ} {context context' : HttpContext}
    {buf buf' : Bytes}
    (h : parseRequest garbage context buf = .returned false context' buf') :
    context'.state = .kExpectRequestLine ∧
      (∀ reads, StaysRejected context' buf' reads) ∧
      ∀ httpCallback : HttpCallback,
        HttpServer.onMessage httpCallback garbage ⟨context, buf⟩ =
            .returned ⟨context', buf'⟩ []
              [.send HttpServer.badRequest, .shutdown] ∧
          ∀ reads, ∃ conn effects,
            HttpServer.onReads httpCallback ⟨context', buf'⟩ reads =
              .returned conn [] effects := by
  obtain ⟨line, hbefore, hafter⟩ := exists_rejects h
  refine ⟨hafter.state, hafter.staysRejected, ?_⟩
  intro httpCallback
  constructor
  · simp [HttpServer.onMessage, h, hafter.gotAll]
  · exact HttpServer.onReads_of_rejects httpCallback hafter

/-- A request line of a version that the parser does not know. -/
def unknownVersion : Bytes := ascii "GET / HTTP/1.2\r\n"

theorem rejected_stays_rejected_unknownVersion :
    parseRequest 0 (.fresh false) unknownVersion =
        .returned false
          ((HttpContext.fresh false).afterLine (ascii "GET / HTTP/1.2"))
          unknownVersion ∧
      ∀ reads, StaysRejected
        ((HttpContext.fresh false).afterLine (ascii "GET / HTTP/1.2"))
        unknownVersion reads := by
  have hrejects : (HttpContext.fresh false).Rejects unknownVersion
      (ascii "GET / HTTP/1.2") :=
    ⟨rfl, ⟨by decide, [], by decide⟩, by decide⟩
  have h := hrejects.parseRequest 0
  exact ⟨h, (rejected_stays_rejected h).2.1⟩

end MuduoHttp
