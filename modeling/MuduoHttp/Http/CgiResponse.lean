import MuduoHttp.Http.CgiRecords
import MuduoHttp.Http.HttpResponse

/-!
# Responses from the output of a CGI script

`parseFromcgi` turns a message into a response: header lines up to the first
line end without a colon anywhere behind it, and the rest as the body.  The
loop of `onCGIMessage` does so for every record on its own, so that an output
is answered by one response with its headers and its body exactly when it
comes in one record and the body has no colon.
-/

namespace MuduoHttp

open Support FastCgi

namespace HttpServer

/-! ## The parser -/

/-- `message.find("\r\n", l)`. -/
def findLineEnd (message : Bytes) (l : ℕ) : Option ℕ :=
  (search CRLF (message.drop l)).map (l + ·)

/-- `message.find(':', l)`. -/
def findColon (message : Bytes) (l : ℕ) : Option ℕ :=
  if COLON ∈ message.drop l then some (l + (message.drop l).idxOf COLON)
  else none

/-- `string(message.begin() + first, message.begin() + last)`. -/
def substring (message : Bytes) (first last : ℕ) :
    Except StdException Bytes :=
  if last < first then .error .lengthError
  else .ok ((message.take last).drop first)

/-- A header line of the loop of `parseFromcgi`, on the flag `error` and the
response. -/
def addCgiHeader (name value : Bytes) (state : Bool × HttpResponse) :
    Bool × HttpResponse :=
  if name = ascii "Status" ∧ value = ascii "404 Not Found" then
    (true, ((state.2.setStatusCode .k404NotFound).setStatusMessage
      (ascii "Not Found")).addHeader name value)
  else (state.1, state.2.addHeader name value)

/-- The loop of `parseFromcgi` from position `l` on, with the last result of
the search for a line end. -/
def parseHeaders (message : Bytes) :
    ℕ → ℕ → Bool × HttpResponse →
      Except StdException (Option ℕ × Bool × HttpResponse)
  | 0, _, state => .ok (none, state)
  | fuel + 1, l, state =>
      match findLineEnd message l with
      | none => .ok (none, state)
      | some n =>
          match findColon message l with
          | none => .ok (some n, state)
          | some cl =>
              match substring message l cl, substring message (cl + 2) n with
              | .ok name, .ok value =>
                  parseHeaders message fuel (n + 2)
                    (addCgiHeader name value state)
              | .error exception, _ => .error exception
              | _, .error exception => .error exception

/-- Every turn of the loop gets two bytes further, so that the number of bytes
is enough fuel.  When no line end was found, `n + 2` wraps around to one. -/
def parseFromcgi (message : Bytes) (resp : HttpResponse) :
    Except StdException HttpResponse :=
  match parseHeaders message (message.length + 1) 0 (false, resp) with
  | .error exception => .error exception
  | .ok (n, error, resp) =>
      let start := match n with
        | some n => n + 2
        | none => 1
      match substring message start message.length with
      | .error exception => .error exception
      | .ok content =>
          let resp := resp.setBody content
          let resp :=
            if error then resp
            else (resp.setStatusCode .k200Ok).setStatusMessage (ascii "OK")
          .ok (resp.addHeader (ascii "Server") (ascii "Muduo"))

/-- The responses that the loop of `onCGIMessage` sends for the messages of one
request while its connection is there.  Messages of the request id zero are
only logged. -/
def cgiResponses (close : Bool) :
    List CgiMessage → Except StdException (List HttpResponse)
  | [] => .ok []
  | message :: messages =>
      if message.requestid = 0 ∨ message.content = [] then
        cgiResponses close messages
      else
        match parseFromcgi message.content { closeConnection := close } with
        | .error exception => .error exception
        | .ok response =>
            match cgiResponses close messages with
            | .error exception => .error exception
            | .ok responses => .ok (response :: responses)

/-- Every message with content is answered by a response of its own. -/
theorem length_cgiResponses {close : Bool} {messages : List CgiMessage}
    (hcontent : ∀ m ∈ messages, ¬ (m.requestid = 0 ∨ m.content = []))
    {responses : List HttpResponse}
    (h : cgiResponses close messages = .ok responses) :
    responses.length = messages.length := by
  induction messages generalizing responses with
  | nil =>
      cases h
      rfl
  | cons m messages ih =>
      rw [cgiResponses, if_neg (hcontent m (List.mem_cons_self ..))] at h
      split at h
      · cases h
      · split at h
        · cases h
        next rest hrest =>
          cases h
          rw [List.length_cons, List.length_cons,
            ih (fun m hm => hcontent m (List.mem_cons_of_mem _ hm)) hrest]

end HttpServer

/-! ## The output of a script -/

/-- A header line `Name: value`. -/
structure CgiHeader where
  name : Bytes
  value : Bytes
  noColon : COLON ∉ name
  isLine : Buffer.findCRLF (name ++ COLON :: SP :: value) = none

def CgiHeader.line (header : CgiHeader) : Bytes :=
  header.name ++ COLON :: SP :: header.value

theorem CgiHeader.length_line (header : CgiHeader) :
    header.line.length = header.name.length + 2 + header.value.length := by
  simp only [CgiHeader.line, List.length_append, List.length_cons]
  omega

/-- Header lines, an empty line and a body. -/
structure CgiOutput where
  headers : List CgiHeader
  body : Bytes

namespace CgiOutput

def bytes (output : CgiOutput) : Bytes :=
  output.headers.flatMap (fun header => header.line ++ CRLF) ++
    (CRLF ++ output.body)

/-- The output says that the script was not found. -/
def NotFound (output : CgiOutput) : Prop :=
  ∃ header ∈ output.headers,
    header.name = ascii "Status" ∧ header.value = ascii "404 Not Found"

instance (output : CgiOutput) : Decidable output.NotFound :=
  inferInstanceAs (Decidable (∃ header ∈ output.headers, _))

/-- The last value of each name. -/
def headerMap (output : CgiOutput) : HeaderMap :=
  output.headers.foldl
    (fun headers header => headers.insert header.name header.value)
    (∅ : HeaderMap)

/-- The response that the output stands for. -/
def response (output : CgiOutput) (close : Bool) : HttpResponse where
  headers := output.headerMap.insert (ascii "Server") (ascii "Muduo")
  statusCode := if output.NotFound then .k404NotFound else .k200Ok
  statusMessage := if output.NotFound then ascii "Not Found" else ascii "OK"
  closeConnection := close
  body := output.body

/-- The header section is a byte at least for each header. -/
theorem length_headers_le (output : CgiOutput) :
    output.headers.length ≤ output.bytes.length := by
  have hlines : output.headers.length ≤
      (output.headers.flatMap fun header => header.line ++ CRLF).length := by
    induction output.headers with
    | nil => exact le_rfl
    | cons header headers ih =>
        simp only [List.flatMap_cons, List.length_append, List.length_cons,
          CRLF] at ih ⊢
        omega
  rw [bytes, List.length_append]
  omega

theorem drop_headers (output : CgiOutput) :
    output.bytes.drop
        (output.headers.flatMap fun header => header.line ++ CRLF).length =
      CRLF ++ output.body := by
  rw [bytes, List.drop_left]

/-- There are enough turns for the headers and one more. -/
theorem exists_fuel (output : CgiOutput) : ∃ fuel,
    output.bytes.length + 1 = output.headers.length + (fuel + 1) := by
  have hshort := output.length_headers_le
  exact ⟨output.bytes.length - output.headers.length, by omega⟩

end CgiOutput

namespace HttpServer

variable {message rest : Bytes} {l : ℕ} {state : Bool × HttpResponse}

theorem substring_add (message : Bytes) (l a b : ℕ) (hab : a ≤ b) :
    substring message (l + a) (l + b) =
      .ok (((message.drop l).take b).drop a) := by
  rw [substring, if_neg (by omega), List.take_drop, List.drop_drop]

theorem findLineEnd_line {line : Bytes} (hline : Buffer.findCRLF line = none)
    (hdrop : message.drop l = line ++ CRLF ++ rest) :
    findLineEnd message l = some (l + line.length) := by
  rw [findLineEnd, hdrop]
  exact congrArg _ (Buffer.findCRLF_line hline rest)

theorem findColon_line (header : CgiHeader)
    (hdrop : message.drop l = header.line ++ CRLF ++ rest) :
    findColon message l = some (l + header.name.length) := by
  have hidx : (header.line ++ CRLF ++ rest).idxOf COLON =
      header.name.length := by
    rw [CgiHeader.line, List.append_assoc, List.append_assoc]
    exact idxOf_append_cons header.noColon _
  have hmem : COLON ∈ header.line ++ CRLF ++ rest := by
    simp [CgiHeader.line]
  rw [findColon, hdrop, if_pos hmem, hidx]

/-- In front of the body there is no colon but the ones of the body. -/
theorem findColon_body {body : Bytes} (hdrop : message.drop l = CRLF ++ body) :
    findColon message l =
      if COLON ∈ body then some (l + (2 + body.idxOf COLON)) else none := by
  have hmem : COLON ∈ CRLF ++ body ↔ COLON ∈ body := by
    simp [CRLF, show COLON ≠ CR by decide, show COLON ≠ LF by decide]
  rw [findColon, hdrop]
  by_cases hcolon : COLON ∈ body
  · rw [if_pos (hmem.mpr hcolon), if_pos hcolon,
      List.idxOf_append_of_notMem (by decide)]
    rfl
  · rw [if_neg fun h => hcolon (hmem.mp h), if_neg hcolon]

theorem drop_headerLine {line : Bytes}
    (hdrop : message.drop l = line ++ CRLF ++ rest) :
    message.drop (l + (line.length + 2)) = rest := by
  rw [← List.drop_drop, hdrop]
  exact List.drop_left' (by simp [CRLF])

/-- One turn of the loop on a header line. -/
theorem parseHeaders_line (header : CgiHeader) (fuel : ℕ)
    (hdrop : message.drop l = header.line ++ CRLF ++ rest) :
    parseHeaders message (fuel + 1) l state =
      parseHeaders message fuel (l + (header.line.length + 2))
        (addCgiHeader header.name header.value state) := by
  have hend : findLineEnd message l = some (l + header.line.length) :=
    findLineEnd_line header.isLine hdrop
  have hcolon := findColon_line header hdrop
  have hname : substring message l (l + header.name.length) =
      .ok header.name := by
    have h := substring_add message l 0 header.name.length
      (Nat.zero_le _)
    rw [hdrop, CgiHeader.line, List.append_assoc, List.append_assoc,
      List.take_left, List.drop_zero] at h
    exact h
  have hlength := header.length_line
  have hvalue : substring message (l + header.name.length + 2)
      (l + header.line.length) = .ok header.value := by
    have h := substring_add message l
      (header.name.length + 2) header.line.length (by omega)
    rw [hdrop, List.append_assoc, List.take_left, CgiHeader.line,
      ← List.drop_drop, List.drop_left] at h
    exact h
  rw [parseHeaders, hend]
  simp only [hcolon, hname, hvalue]
  rw [Nat.add_assoc]

/-- The loop on the header section. -/
theorem parseHeaders_lines (headers : List CgiHeader) (fuel : ℕ)
    (hdrop : message.drop l =
      headers.flatMap (fun header => header.line ++ CRLF) ++ rest) :
    parseHeaders message (headers.length + fuel) l state =
      parseHeaders message fuel
        (l + (headers.flatMap (fun header => header.line ++ CRLF)).length)
        (headers.foldl
          (fun state header => addCgiHeader header.name header.value state)
          state) := by
  induction headers generalizing l state with
  | nil => simp
  | cons header headers ih =>
      rw [List.flatMap_cons, List.append_assoc] at hdrop
      rw [List.length_cons, Nat.add_right_comm, parseHeaders_line header _ hdrop,
        ih (drop_headerLine hdrop), List.foldl_cons, List.flatMap_cons,
        List.length_append,
        List.length_append, Nat.add_assoc]
      rfl

/-- The end of the loop, on the empty line in front of the body. -/
theorem parseHeaders_body {body : Bytes} (fuel : ℕ)
    (hdrop : message.drop l = CRLF ++ body) :
    parseHeaders message (fuel + 1) l state =
      if COLON ∈ body then .error .lengthError else .ok (some l, state) := by
  have hend : findLineEnd message l = some (l + 0) :=
    findLineEnd_line (show Buffer.findCRLF [] = none from rfl) hdrop
  have hfind := findColon_body hdrop
  rw [parseHeaders, hend, Nat.add_zero]
  by_cases hcolon : COLON ∈ body
  · rw [if_pos hcolon] at hfind ⊢
    have hname : substring message l (l + (2 + body.idxOf COLON)) =
        .ok ((message.drop l).take (2 + body.idxOf COLON)) :=
      substring_add message l 0 _ (Nat.zero_le _)
    have hvalue : substring message (l + (2 + body.idxOf COLON) + 2) l =
        .error .lengthError := if_pos (by omega)
    simp only [hfind, hname, hvalue]
  · rw [if_neg hcolon] at hfind ⊢
    simp only [hfind]

/-- What the header lines do to the flag and the response. -/
theorem foldl_addCgiHeader (headers : List CgiHeader)
    (state : Bool × HttpResponse) :
    headers.foldl
        (fun state header => addCgiHeader header.name header.value state)
        state =
      (state.1 || decide (CgiOutput.NotFound ⟨headers, []⟩),
        { state.2 with
          headers :=
            headers.foldl
              (fun headers header => headers.insert header.name header.value)
              state.2.headers
          statusCode :=
            if CgiOutput.NotFound ⟨headers, []⟩ then .k404NotFound
            else state.2.statusCode
          statusMessage :=
            if CgiOutput.NotFound ⟨headers, []⟩ then ascii "Not Found"
            else state.2.statusMessage }) := by
  induction headers generalizing state with
  | nil => simp [CgiOutput.NotFound]
  | cons header headers ih =>
      rw [List.foldl_cons, ih]
      by_cases hhead : header.name = ascii "Status" ∧
          header.value = ascii "404 Not Found"
      · have hfound : CgiOutput.NotFound ⟨header :: headers, []⟩ :=
          ⟨header, List.mem_cons_self .., hhead⟩
        simp [addCgiHeader, hhead, hfound, HttpResponse.addHeader,
          HttpResponse.setStatusCode, HttpResponse.setStatusMessage]
      · have hfound : CgiOutput.NotFound ⟨header :: headers, []⟩ ↔
            CgiOutput.NotFound ⟨headers, []⟩ := by
          simp [CgiOutput.NotFound, hhead]
        simp [addCgiHeader, hhead, hfound, HttpResponse.addHeader]

/-- A whole output is parsed into the response it stands for, unless there is a
colon in the body; then a range of the message is invalid. -/
theorem parseFromcgi_bytes (output : CgiOutput) (close : Bool) :
    parseFromcgi output.bytes { closeConnection := close } =
      if COLON ∈ output.body then .error .lengthError
      else .ok (output.response close) := by
  obtain ⟨fuel, hfuel⟩ := output.exists_fuel
  have hdrop : output.bytes.drop
      (0 + (output.headers.flatMap fun header => header.line ++ CRLF).length) =
        CRLF ++ output.body := by
    rw [Nat.zero_add, output.drop_headers]
  have hheaders :
      parseHeaders output.bytes (output.headers.length + (fuel + 1)) 0
        (false, { closeConnection := close }) = _ :=
    parseHeaders_lines output.headers (fuel + 1) rfl
  rw [parseHeaders_body fuel hdrop, ← hfuel] at hheaders
  rw [parseFromcgi, hheaders]
  by_cases hcolon : COLON ∈ output.body
  · simp only [if_pos hcolon]
  · have hcontent : substring output.bytes
        (0 + (output.headers.flatMap
          fun header => header.line ++ CRLF).length + 2)
        output.bytes.length = .ok output.body := by
      rw [substring, List.take_length, ← List.drop_drop, hdrop, if_neg]
      · rfl
      · simp only [CgiOutput.bytes, List.length_append, CRLF, List.length_cons,
          List.length_nil]
        omega
    simp only [if_neg hcolon, hcontent, foldl_addCgiHeader]
    by_cases hfound : output.NotFound
    · have hflag : CgiOutput.NotFound ⟨output.headers, []⟩ := hfound
      simp [hflag, hfound, CgiOutput.response, CgiOutput.headerMap,
        HttpResponse.addHeader, HttpResponse.setBody]
    · have hflag : ¬ CgiOutput.NotFound ⟨output.headers, []⟩ := hfound
      simp [hflag, hfound, CgiOutput.response, CgiOutput.headerMap,
        HttpResponse.addHeader, HttpResponse.setBody,
        HttpResponse.setStatusCode, HttpResponse.setStatusMessage]

end HttpServer

/-! ## Outputs in records -/

/-- The output of a script in records of standard output of one request, none
of them empty. -/
structure CgiReply where
  output : CgiOutput
  requestId : ℕ
  requestId_ne : requestId ≠ 0
  records : List CgiRecord
  requestIds : ∀ r ∈ records, r.header.requestId = requestId
  stdout : ∀ r ∈ records, r.header.type = FCGI_STDOUT
  content : ∀ r ∈ records, r.content ≠ []
  split : records.flatMap (·.content) = output.bytes

namespace CgiReply

/-- The records are answered by one response, the one that the output stands
for. -/
def AnsweredOnce (reply : CgiReply) : Prop :=
  ∀ (stale : ℕ → Byte) (close : Bool),
    HttpServer.cgiResponses close
        (cgiMessages stale (reply.records.flatMap (·.bytes))).1 =
      .ok [reply.output.response close]

theorem message_content (reply : CgiReply) {r : CgiRecord}
    (hr : r ∈ reply.records) : r.message.content = r.content :=
  if_pos (reply.stdout r hr)

/-- No message of the reply is skipped. -/
theorem message_answered (reply : CgiReply) {r : CgiRecord}
    (hr : r ∈ reply.records) :
    ¬ (r.message.requestid = 0 ∨ r.message.content = []) := by
  rw [reply.message_content hr]
  rintro (hzero | hempty)
  · exact reply.requestId_ne ((reply.requestIds r hr).symm.trans hzero)
  · exact reply.content r hr hempty

/-- An output is answered by one response, with its headers and its body,
exactly when it comes in one record and its body has no colon. -/
theorem answeredOnce_iff (reply : CgiReply) :
    reply.AnsweredOnce ↔
      reply.records.length = 1 ∧ COLON ∉ reply.output.body := by
  have hone : reply.records.length = 1 → ∀ stale close,
      HttpServer.cgiResponses close
          (cgiMessages stale (reply.records.flatMap (·.bytes))).1 =
        if COLON ∈ reply.output.body then .error .lengthError
        else .ok [reply.output.response close] := by
    intro hlength stale close
    obtain ⟨r, hr⟩ := List.length_eq_one_iff.mp hlength
    have hmem : r ∈ reply.records := by simp [hr]
    have hbytes : r.content = reply.output.bytes := by
      rw [← reply.split, hr, List.flatMap_singleton]
    rw [CgiRecord.cgiMessages_flatMap, hr, List.map_singleton,
      HttpServer.cgiResponses, if_neg (reply.message_answered hmem),
      reply.message_content hmem, hbytes, HttpServer.parseFromcgi_bytes]
    by_cases hcolon : COLON ∈ reply.output.body
    · simp only [if_pos hcolon]
    · simp only [if_neg hcolon, HttpServer.cgiResponses]
  constructor
  · intro hanswered
    have hlength : reply.records.length = 1 := by
      have h := HttpServer.length_cgiResponses (fun m hm => by
        rw [CgiRecord.cgiMessages_flatMap] at hm
        obtain ⟨r, hr, rfl⟩ := List.mem_map.mp hm
        exact reply.message_answered hr) (hanswered (fun _ => 0) false)
      rw [CgiRecord.cgiMessages_flatMap, List.length_map] at h
      exact h.symm
    refine ⟨hlength, ?_⟩
    intro hcolon
    have h := hanswered (fun _ => 0) false
    rw [hone hlength, if_pos hcolon] at h
    cases h
  · rintro ⟨hlength, hcolon⟩ stale close
    rw [hone hlength, if_neg hcolon]

end CgiReply

/-- An output without headers whose body comes in two records. -/
def replyInTwoRecords : CgiReply where
  output := { headers := [], body := ascii "hi" }
  requestId := 1
  requestId_ne := by decide
  requestIds := by decide
  records :=
    [{ header := makeHeader FCGI_STDOUT 1 3 0
       content := ascii "\r\nh"
       padding := []
       content_length := by decide
       padding_length := by decide
       wellFormed := .inl rfl },
     { header := makeHeader FCGI_STDOUT 1 1 0
       content := ascii "i"
       padding := []
       content_length := by decide
       padding_length := by decide
       wellFormed := .inl rfl }]
  stdout := by simp [makeHeader]
  content := by decide
  split := by decide

/-- Both records are answered. -/
theorem not_answeredOnce_replyInTwoRecords :
    ¬ replyInTwoRecords.AnsweredOnce := by
  intro hanswered
  have hcount := congrArg
    (fun responses => responses.toOption.map List.length)
    (hanswered (fun _ => 0) false)
  revert hcount
  decide

end MuduoHttp
