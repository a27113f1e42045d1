import MuduoHttp.Http.RequestReader

/-!
# Request heads

A request head is the part of a request that the parser consumes line by
line: the request line, the header lines with a colon, and the first line
without one, which ends the header section whatever its contents.

The parser is characterized by heads.  On a head it arrives at the decision
about the body, and it arrives there on no other input.
-/

namespace MuduoHttp

open Support HttpContext

/-! ## Request lines -/

/-- The last word of a request line. -/
def HttpRequest.Version.text : HttpRequest.Version → Bytes
  | .kHttp10 => ascii "HTTP/1.0"
  | .kHttp11 => ascii "HTTP/1.1"
  | .kUnknown => []

/-- `METHOD SP target SP HTTP/1.(0|1)`. -/
structure RequestLine where
  method : HttpRequest.Method
  method_ne : method ≠ .kInvalid
  target : Bytes
  noSpace : SP ∉ target
  version : HttpRequest.Version
  version_ne : version ≠ .kUnknown

namespace RequestLine

def bytes (r : RequestLine) : Bytes :=
  r.method.methodString ++ SP :: (r.target ++ SP :: r.version.text)

/-- `GET / HTTP/1.1`. -/
def getRoot : RequestLine where
  method := .kGet
  method_ne := by decide
  target := ascii "/"
  noSpace := by decide
  version := .kHttp11
  version_ne := by decide

theorem isLine_getRoot : Buffer.findCRLF getRoot.bytes = none := by
  decide

theorem setHttpVersion_text {v : HttpRequest.Version} (hv : v ≠ .kUnknown)
    (request : HttpRequest) :
    setHttpVersion request v.text = (true, request.setVersion v) := by
  cases v with
  | kUnknown => exact absurd rfl hv
  | kHttp10 =>
      have hshape : (HttpRequest.Version.kHttp10.text).length = 8 ∧
          HttpRequest.Version.kHttp10.text.take 7 = ascii "HTTP/1." := by
        decide
      have hdigit : HttpRequest.Version.kHttp10.text.drop 7 = ascii "0" := by
        decide
      rw [setHttpVersion, if_pos hshape, hdigit, if_neg (by decide), if_pos rfl]
  | kHttp11 =>
      have hshape : (HttpRequest.Version.kHttp11.text).length = 8 ∧
          HttpRequest.Version.kHttp11.text.take 7 = ascii "HTTP/1." := by
        decide
      have hdigit : HttpRequest.Version.kHttp11.text.drop 7 = ascii "1" := by
        decide
      rw [setHttpVersion, if_pos hshape, hdigit, if_pos rfl]

theorem exists_version_of_setHttpVersion {request : HttpRequest} {text : Bytes}
    (h : (setHttpVersion request text).1 = true) :
    ∃ v : HttpRequest.Version, v ≠ .kUnknown ∧ text = v.text := by
  unfold setHttpVersion at h
  split_ifs at h with hshape h₁ h₀
  · refine ⟨.kHttp11, by decide, ?_⟩
    rw [← List.take_append_drop 7 text, hshape.2, h₁]
    decide
  · refine ⟨.kHttp10, by decide, ?_⟩
    rw [← List.take_append_drop 7 text, hshape.2, h₀]
    decide

/-- A request line of the grammar is accepted. -/
theorem processRequestLine_bytes (r : RequestLine) (request : HttpRequest) :
    processRequestLine request r.bytes =
      (true,
        (setTarget { request with method := r.method } r.target).setVersion
          r.version) := by
  have hspace : r.bytes.idxOf SP = r.method.methodString.length :=
    idxOf_append_cons r.method.notMem_methodString.1 _
  have hlong : r.method.methodString.length ≠ r.bytes.length := by
    simp [bytes]
  have htake : r.bytes.take r.method.methodString.length =
      r.method.methodString := by
    simp [bytes]
  have hdrop : r.bytes.drop (r.method.methodString.length + 1) =
      r.target ++ SP :: r.version.text := by
    simp [bytes, List.drop_append]
  have hspace' : (r.target ++ SP :: r.version.text).idxOf SP =
      r.target.length :=
    idxOf_append_cons r.noSpace _
  have hlong' : r.target.length ≠
      (r.target ++ SP :: r.version.text).length := by
    simp
  have htake' : (r.target ++ SP :: r.version.text).take r.target.length =
      r.target := by
    simp
  have hdrop' : (r.target ++ SP :: r.version.text).drop (r.target.length + 1) =
      r.version.text := by
    simp [List.drop_append]
  simp only [processRequestLine, hspace, if_neg hlong, htake,
    HttpRequest.setMethod, HttpRequest.Method.ofBytes_methodString r.method_ne,
    decide_eq_true_eq, ne_eq, r.method_ne, not_false_eq_true, if_true, hdrop,
    hspace', if_neg hlong', htake', hdrop', setHttpVersion_text r.version_ne]

/-- Nothing but a request line of the grammar is accepted. -/
theorem exists_of_processRequestLine {request : HttpRequest} {line : Bytes}
    (h : (processRequestLine request line).1 = true) :
    ∃ r : RequestLine, line = r.bytes := by
  simp only [processRequestLine, HttpRequest.setMethod] at h
  by_cases hspace : SP ∈ line
  swap
  · simp [List.idxOf_eq_length hspace] at h
  have hlong : line.idxOf SP ≠ line.length :=
    ne_of_lt (List.idxOf_lt_length_of_mem hspace)
  simp only [if_neg hlong] at h
  by_cases hmethod :
      HttpRequest.Method.ofBytes (line.take (line.idxOf SP)) ≠ .kInvalid
  swap
  · simp [hmethod] at h
  simp only [ne_eq, hmethod, not_false_eq_true, decide_true, if_true] at h
  by_cases hspace' : SP ∈ line.drop (line.idxOf SP + 1)
  swap
  · simp [List.idxOf_eq_length hspace'] at h
  simp only [if_neg (ne_of_lt (List.idxOf_lt_length_of_mem hspace'))] at h
  obtain ⟨v, hv, hversion⟩ := exists_version_of_setHttpVersion h
  refine ⟨⟨_, hmethod, _,
    notMem_take_idxOf SP (line.drop (line.idxOf SP + 1)), v, hv⟩, ?_⟩
  rw [bytes, HttpRequest.Method.methodString_ofBytes hmethod, ← hversion,
    take_idxOf_append_drop hspace', take_idxOf_append_drop hspace]

end RequestLine

/-! ## Heads -/

/-- The lines of a request up to the first header line without a colon. -/
structure RequestHead where
  requestLine : RequestLine
  requestLine_isLine : Buffer.findCRLF requestLine.bytes = none
  headerLines : List Bytes
  headerLines_isLine : ∀ line ∈ headerLines, Buffer.findCRLF line = none
  headerLines_colon : ∀ line ∈ headerLines, COLON ∈ line
  lastLine : Bytes
  lastLine_isLine : Buffer.findCRLF lastLine = none
  lastLine_noColon : COLON ∉ lastLine

/-- Lines, each with its line end. -/
def joinLines (lines : List Bytes) : Bytes :=
  lines.flatMap fun line => line ++ CRLF

@[simp] theorem joinLines_cons (line : Bytes) (lines : List Bytes) :
    joinLines (line :: lines) = line ++ CRLF ++ joinLines lines := rfl

/-- What the header branch does with a line that has a colon. -/
def addHeaderLine (request : HttpRequest) (line : Bytes) : HttpRequest :=
  request.addHeader line (line.idxOf COLON)

namespace RequestHead

def bytes (h : RequestHead) : Bytes :=
  h.requestLine.bytes ++ CRLF ++ (joinLines h.headerLines ++ (h.lastLine ++ CRLF))

/-- The request under construction at the end of the head. -/
def request (h : RequestHead) : HttpRequest :=
  h.headerLines.foldl addHeaderLine
    ((setTarget { method := h.requestLine.method } h.requestLine.target).setVersion
      h.requestLine.version)

/-- The value of the `Content-Length` header, empty when there is none. -/
def contentLength (h : RequestHead) : Bytes :=
  h.request.getHeader HttpContext.contentLength

/-- Where the parser stands once the head is read, with `rest` behind it. -/
def outcome (h : RequestHead) (context : HttpContext) (rest : Bytes) :
    Drained ParseFrame ParseEnd Byte :=
  if h.contentLength = [] then
    .halted (.ok (true,
      { context with request := h.request, state := .kGotAll })) rest
  else
    match stoi h.contentLength with
    | .error exception =>
        .halted (.error exception) (h.lastLine ++ CRLF ++ rest)
    | .ok length =>
        if sizeT length ≤ rest.length then
          .halted (.ok (true,
            { context with
              request := h.request.setBody (rest.take (sizeT length))
              state := .kGotAll })) rest
        else
          .idle ⟨{ context with request := h.request, state := .kExpectBody },
            length⟩ rest

end RequestHead

/-! ## The parser on a head -/

variable {f : ParseFrame} {line : Bytes}

theorem take_line (line rest : Bytes) :
    (line ++ CRLF ++ rest).take line.length = line := by
  rw [List.append_assoc, List.take_left]

theorem drop_line (line rest : Bytes) :
    (line ++ CRLF ++ rest).drop (line.length + 2) = rest :=
  List.drop_left' (by simp [CRLF])

theorem look_requestLine (hstate : f.context.state = .kExpectRequestLine)
    (r : RequestLine) (hline : Buffer.findCRLF r.bytes = none) (rest : Bytes) :
    requestReader.look f (r.bytes ++ CRLF ++ rest) =
      .move { f with
        context :=
          { f.context with
            request :=
              (setTarget { f.context.request with method := r.method }
                r.target).setVersion r.version
            state := .kExpectHeaders } } rest := by
  simp only [requestReader, look, hstate, Buffer.findCRLF_line hline,
    take_line, drop_line, r.processRequestLine_bytes]

theorem look_headerLine (hstate : f.context.state = .kExpectHeaders)
    (hline : Buffer.findCRLF line = none) (hcolon : COLON ∈ line)
    (rest : Bytes) :
    requestReader.look f (line ++ CRLF ++ rest) =
      .move { f with
        context :=
          { f.context with
            request := addHeaderLine f.context.request line } } rest := by
  simp only [requestReader, look, hstate, Buffer.findCRLF_line hline,
    take_line, drop_line, hcolon, if_true, addHeaderLine]

theorem look_body (hstate : f.context.state = .kExpectBody) (rest : Bytes) :
    requestReader.look f rest =
      if sizeT f.bodyLenth ≤ rest.length then
        .halt (.ok (true,
          { f.context with
            request :=
              f.context.request.setBody (rest.take (sizeT f.bodyLenth))
            state := .kGotAll })) rest
      else .wait := by
  simp only [requestReader, look, hstate]

theorem drain_headerLines (hstate : f.context.state = .kExpectHeaders)
    {lines : List Bytes} (hlines : ∀ line ∈ lines, Buffer.findCRLF line = none)
    (hcolons : ∀ line ∈ lines, COLON ∈ line) (rest : Bytes) :
    requestReader.drain f (joinLines lines ++ rest) =
      requestReader.drain { f with
        context :=
          { f.context with
            request := lines.foldl addHeaderLine f.context.request } } rest := by
  induction lines generalizing f with
  | nil => rfl
  | cons line lines ih =>
      have hlook := look_headerLine hstate
        (hlines line (List.mem_cons_self ..))
        (hcolons line (List.mem_cons_self ..)) (joinLines lines ++ rest)
      rw [joinLines_cons, List.append_assoc (line ++ CRLF),
        Reader.drain_of_move hlook, ih (by simpa using hstate)
          (fun l hl => hlines l (List.mem_cons_of_mem _ hl))
          (fun l hl => hcolons l (List.mem_cons_of_mem _ hl))]
      rfl

/-- The decision about the body, on the line that ends the headers. -/
theorem drain_lastLine (context : HttpContext) (n : ℤ) (h : RequestHead)
    (rest : Bytes) :
    requestReader.drain
        ⟨{ context with request := h.request, state := .kExpectHeaders }, n⟩
        (h.lastLine ++ CRLF ++ rest) =
      h.outcome context rest := by
  have hlook : requestReader.look
      ⟨{ context with request := h.request, state := .kExpectHeaders }, n⟩
      (h.lastLine ++ CRLF ++ rest) =
      if h.contentLength = [] then
        .halt (.ok (true,
          { context with request := h.request, state := .kGotAll })) rest
      else
        match stoi h.contentLength with
        | .error exception =>
            .halt (.error exception) (h.lastLine ++ CRLF ++ rest)
        | .ok length =>
            .move ⟨{ context with
              request := h.request, state := .kExpectBody }, length⟩ rest := by
    simp only [requestReader, look, Buffer.findCRLF_line h.lastLine_isLine,
      take_line, drop_line, h.lastLine_noColon, if_false]
    rfl
  unfold RequestHead.outcome
  by_cases hempty : h.contentLength = []
  · rw [if_pos hempty] at hlook ⊢
    exact Reader.drain_of_halt hlook
  · rw [if_neg hempty] at hlook ⊢
    cases hstoi : stoi h.contentLength with
    | error exception =>
        rw [hstoi] at hlook
        exact Reader.drain_of_halt hlook
    | ok length =>
        rw [hstoi] at hlook
        rw [Reader.drain_of_move hlook]
        by_cases hfits : sizeT length ≤ rest.length
        · simp only [if_pos hfits]
          exact Reader.drain_of_halt ((look_body rfl rest).trans (if_pos hfits))
        · simp only [if_neg hfits]
          exact Reader.drain_of_wait ((look_body rfl rest).trans (if_neg hfits))

/-- Every head leads the parser to the decision about the body. -/
theorem drain_head {context : HttpContext}
    (hstate : context.state = .kExpectRequestLine)
    (hrequest : context.request = {}) (n : ℤ) (h : RequestHead)
    (rest : Bytes) :
    drainRequest n context (h.bytes ++ rest) = h.outcome context rest := by
  have hfirst := look_requestLine (f := ⟨context, n⟩) hstate h.requestLine
    h.requestLine_isLine
    (joinLines h.headerLines ++ (h.lastLine ++ CRLF ++ rest))
  have hbytes : h.bytes ++ rest =
      h.requestLine.bytes ++ CRLF ++
        (joinLines h.headerLines ++ (h.lastLine ++ CRLF ++ rest)) := by
    simp [RequestHead.bytes]
  rw [drainRequest, hbytes, Reader.drain_of_move hfirst,
    drain_headerLines rfl h.headerLines_isLine h.headerLines_colon]
  simp only [hrequest]
  exact drain_lastLine context n h rest

/-! ## Nothing else leads there -/

/-- A drain that ended before the end of the head: the parser waits for more
of it, or it rejected the request line. -/
def BeforeBody : Drained ParseFrame ParseEnd Byte → Prop
  | .idle f _ =>
      f.context.state = .kExpectRequestLine ∨
        f.context.state = .kExpectHeaders
  | .halted (.ok (ok, _)) _ => ok = false
  | .halted (.error _) _ => False

/-- From the header state the parser either waits for more header lines, or
the input starts with the rest of a head. -/
theorem exists_headerLines {buf : Bytes}
    (hstate : f.context.state = .kExpectHeaders)
    (hdrain : ¬ BeforeBody (requestReader.drain f buf)) :
    ∃ (lines : List Bytes) (last rest : Bytes),
      (∀ line ∈ lines, Buffer.findCRLF line = none ∧ COLON ∈ line) ∧
        Buffer.findCRLF last = none ∧ COLON ∉ last ∧
          buf = joinLines lines ++ (last ++ CRLF ++ rest) := by
  induction hlen : buf.length using Nat.strongRecOn generalizing f buf with
  | _ len ih =>
      cases hcrlf : Buffer.findCRLF buf with
      | none =>
          have hlook : requestReader.look f buf = .wait := by
            simp [requestReader, look, hstate, hcrlf]
          rw [Reader.drain_of_wait hlook] at hdrain
          exact absurd (.inr hstate) hdrain
      | some crlf =>
          obtain ⟨line, rest, rfl, hline⟩ := Buffer.exists_line hcrlf
          by_cases hcolon : COLON ∈ line
          · have hlook := look_headerLine hstate hline hcolon rest
            rw [Reader.drain_of_move hlook] at hdrain
            obtain ⟨lines, last, more, hlines, hlast, hnone, rfl⟩ :=
              ih rest.length (hlen ▸ look_move_shorter hlook) (by exact hstate)
                hdrain rfl
            refine ⟨line :: lines, last, more, ?_, hlast, hnone, by simp⟩
            simpa [hline, hcolon] using hlines
          · exact ⟨[], line, rest, by simp, hline, hcolon, rfl⟩

/-- A fresh parser that got past the header section read a head. -/
theorem exists_head {context : HttpContext}
    (hstate : context.state = .kExpectRequestLine) {n : ℤ} {buf : Bytes}
    (hdrain : ¬ BeforeBody (drainRequest n context buf)) :
    ∃ (h : RequestHead) (rest : Bytes), buf = h.bytes ++ rest := by
  cases hcrlf : Buffer.findCRLF buf with
  | none =>
      have hlook : requestReader.look ⟨context, n⟩ buf = .wait := by
        simp [requestReader, look, hstate, hcrlf]
      rw [drainRequest, Reader.drain_of_wait hlook] at hdrain
      exact absurd (.inl hstate) hdrain
  | some crlf =>
      obtain ⟨line, rest, rfl, hline⟩ := Buffer.exists_line hcrlf
      by_cases haccept : (processRequestLine context.request line).1 = true
      · obtain ⟨r, rfl⟩ := RequestLine.exists_of_processRequestLine haccept
        have hlook := look_requestLine (f := ⟨context, n⟩) hstate r hline rest
        rw [drainRequest, Reader.drain_of_move hlook] at hdrain
        obtain ⟨lines, last, more, hlines, hlast, hnone, rfl⟩ :=
          exists_headerLines rfl hdrain
        refine ⟨⟨r, hline, lines, fun l hl => (hlines l hl).1,
          fun l hl => (hlines l hl).2, last, hlast, hnone⟩, more, ?_⟩
        simp [RequestHead.bytes]
      · have hlook : requestReader.look ⟨context, n⟩ (line ++ CRLF ++ rest) =
            .halt (.ok (false, { context with
              request := (processRequestLine context.request line).2 }))
              (line ++ CRLF ++ rest) := by
          cases hprocess : processRequestLine context.request line with
          | mk ok request =>
              cases ok with
              | true => exact absurd (by rw [hprocess]) haccept
              | false =>
                  simp only [requestReader, look, hstate, take_line,
                    Buffer.findCRLF_line hline, hprocess]
        rw [drainRequest, Reader.drain_of_halt hlook] at hdrain
        exact absurd rfl hdrain

/-- The head announces a body that `part` does not contain in full. -/
def RequestHead.AwaitsBody (h : RequestHead) (part : Bytes) : Prop :=
  h.contentLength ≠ [] ∧
    ∃ length, stoi h.contentLength = .ok length ∧ part.length < sizeT length

theorem RequestHead.outcome_of_awaitsBody {h : RequestHead} {part : Bytes}
    (hawaits : h.AwaitsBody part) (context : HttpContext) :
    ∃ f, h.outcome context part = .idle f part ∧
      f.context.state = .kExpectBody := by
  obtain ⟨hne, length, hstoi, hshort⟩ := hawaits
  simp only [outcome, if_neg hne, hstoi, if_neg (not_le.mpr hshort)]
  exact ⟨_, rfl, rfl⟩

/-- A fresh parser is idle in the body state exactly behind a head whose body
has not arrived in full. -/
theorem drain_body_iff {context : HttpContext}
    (hstate : context.state = .kExpectRequestLine)
    (hrequest : context.request = {}) {n : ℤ} {buf : Bytes} :
    (∃ f rest, drainRequest n context buf = .idle f rest ∧
        f.context.state = .kExpectBody) ↔
      ∃ (h : RequestHead) (part : Bytes),
        buf = h.bytes ++ part ∧ h.AwaitsBody part := by
  constructor
  · rintro ⟨f, rest, hdrain, hbody⟩
    have hpast : ¬ BeforeBody (drainRequest n context buf) := by
      rw [hdrain]
      simp [BeforeBody, hbody]
    obtain ⟨h, part, rfl⟩ := exists_head hstate hpast
    refine ⟨h, part, rfl, ?_⟩
    rw [drain_head hstate hrequest, RequestHead.outcome] at hdrain
    split at hdrain
    · cases hdrain
    next hne =>
      refine ⟨hne, ?_⟩
      split at hdrain
      · cases hdrain
      next length hstoi =>
        split at hdrain
        · cases hdrain
        next hshort => exact ⟨length, hstoi, not_le.mp hshort⟩
  · rintro ⟨h, part, rfl, hawaits⟩
    obtain ⟨f, hout, hbody⟩ := RequestHead.outcome_of_awaitsBody hawaits context
    exact ⟨f, part, by rw [drain_head hstate hrequest, hout], hbody⟩

/-! ## Heads are read off uniquely -/

theorem joinLines_inj {lines₁ lines₂ : List Bytes}
    {last₁ last₂ rest₁ rest₂ : Bytes}
    (hlines₁ : ∀ line ∈ lines₁, Buffer.findCRLF line = none ∧ COLON ∈ line)
    (hlines₂ : ∀ line ∈ lines₂, Buffer.findCRLF line = none ∧ COLON ∈ line)
    (hlast₁ : Buffer.findCRLF last₁ = none ∧ COLON ∉ last₁)
    (hlast₂ : Buffer.findCRLF last₂ = none ∧ COLON ∉ last₂)
    (h : joinLines lines₁ ++ (last₁ ++ CRLF ++ rest₁) =
      joinLines lines₂ ++ (last₂ ++ CRLF ++ rest₂)) :
    lines₁ = lines₂ ∧ last₁ = last₂ ∧ rest₁ = rest₂ := by
  induction lines₁ generalizing lines₂ with
  | nil =>
      cases lines₂ with
      | nil =>
          obtain ⟨hlast, hrest⟩ := Buffer.line_inj hlast₁.1 hlast₂.1 h
          exact ⟨rfl, hlast, hrest⟩
      | cons line lines₂ =>
          obtain ⟨hisLine, hcolon⟩ := hlines₂ line (List.mem_cons_self ..)
          rw [joinLines_cons, List.append_assoc (line ++ CRLF)] at h
          obtain ⟨rfl, -⟩ := Buffer.line_inj hlast₁.1 hisLine h
          exact absurd hcolon hlast₁.2
  | cons line lines₁ ih =>
      obtain ⟨hisLine, hcolon⟩ := hlines₁ line (List.mem_cons_self ..)
      rw [joinLines_cons, List.append_assoc (line ++ CRLF)] at h
      cases lines₂ with
      | nil =>
          obtain ⟨rfl, -⟩ := Buffer.line_inj hisLine hlast₂.1 h
          exact absurd hcolon hlast₂.2
      | cons line₂ lines₂ =>
          have hisLine₂ := (hlines₂ line₂ (List.mem_cons_self ..)).1
          rw [joinLines_cons, List.append_assoc (line₂ ++ CRLF)] at h
          obtain ⟨rfl, hmore⟩ := Buffer.line_inj hisLine hisLine₂ h
          obtain ⟨rfl, hlast, hrest⟩ :=
            ih (fun l hl => hlines₁ l (List.mem_cons_of_mem _ hl))
              (fun l hl => hlines₂ l (List.mem_cons_of_mem _ hl)) hmore
          exact ⟨rfl, hlast, hrest⟩

namespace RequestHead

theorem headerLines_spec (h : RequestHead) :
    ∀ line ∈ h.headerLines, Buffer.findCRLF line = none ∧ COLON ∈ line :=
  fun line hline =>
    ⟨h.headerLines_isLine line hline, h.headerLines_colon line hline⟩

/-- At most one head starts an input, as far as the lines go. -/
theorem bytes_inj {h₁ h₂ : RequestHead} {rest₁ rest₂ : Bytes}
    (h : h₁.bytes ++ rest₁ = h₂.bytes ++ rest₂) :
    h₁.requestLine.bytes = h₂.requestLine.bytes ∧
      h₁.headerLines = h₂.headerLines ∧
        h₁.lastLine = h₂.lastLine ∧ rest₁ = rest₂ := by
  have hsplit : ∀ (h : RequestHead) (rest : Bytes), h.bytes ++ rest =
      h.requestLine.bytes ++ CRLF ++
        (joinLines h.headerLines ++ (h.lastLine ++ CRLF ++ rest)) := by
    intro h rest
    simp [RequestHead.bytes]
  rw [hsplit, hsplit] at h
  obtain ⟨hfirst, hmore⟩ :=
    Buffer.line_inj h₁.requestLine_isLine h₂.requestLine_isLine h
  exact ⟨hfirst, joinLines_inj h₁.headerLines_spec h₂.headerLines_spec
    ⟨h₁.lastLine_isLine, h₁.lastLine_noColon⟩
    ⟨h₂.lastLine_isLine, h₂.lastLine_noColon⟩ hmore⟩

end RequestHead

end MuduoHttp
