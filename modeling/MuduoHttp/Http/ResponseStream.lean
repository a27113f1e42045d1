import MuduoHttp.Http.HttpResponse
import MuduoHttp.Net.Buffer
import MuduoHttp.Support.Decoder

/-!
# Streams of responses

`appendToBuffer` prints the status line and the length of the body into an
array of 32 bytes.  As long as the length has thirteen digits at most, nothing
is cut off.  A reader that takes the lines up to the first empty one, and then
as many bytes as `Content-Length` says, gets back from a stream of responses
that keep their connections alive what each of them was built from.
-/

namespace MuduoHttp

open Support Decoder

/-! ## The code -/

/-- What `snprintf` leaves in an array of `size` bytes, up to the zero. -/
def snprintf (size : ℕ) (text : Bytes) : Bytes := text.take (size - 1)

namespace HttpResponse

/-- `HttpResponse::appendToBuffer`, on the bytes of the buffer. -/
def appendToOutput (resp : HttpResponse) (output : Bytes) : Bytes :=
  let buf := snprintf 32
    (ascii "HTTP/1.1 " ++ ascii (toString resp.statusCode.code) ++ [SP])
  let output := Buffer.append output buf
  let output := Buffer.append output resp.statusMessage
  let output := Buffer.append output CRLF
  let output :=
    if resp.closeConnection then
      Buffer.append output (ascii "Connection: close\r\n")
    else
      let buf := snprintf 32
        (ascii "Content-Length: " ++ ascii (toString resp.body.length) ++ CRLF)
      Buffer.append (Buffer.append output buf)
        (ascii "Connection: Keep-Alive\r\n")
  let output := resp.headers.toList.foldl
    (fun output header =>
      Buffer.append
        (Buffer.append
          (Buffer.append (Buffer.append output header.1) (ascii ": ")) header.2)
        CRLF)
    output
  Buffer.append (Buffer.append output CRLF) resp.body

/-- Nothing is cut off from a length of thirteen digits. -/
theorem appendToOutput_eq {resp : HttpResponse}
    (h : resp.body.length < 10 ^ 13) (output : Bytes) :
    resp.appendToOutput output = output ++ resp.appendToBuffer := by
  have hstatus : snprintf 32
      (ascii "HTTP/1.1 " ++ ascii (toString resp.statusCode.code) ++ [SP]) =
        ascii "HTTP/1.1 " ++ ascii (toString resp.statusCode.code) ++ [SP] := by
    cases resp.statusCode <;> decide
  have hlength : snprintf 32
      (ascii "Content-Length: " ++ ascii (toString resp.body.length) ++ CRLF) =
        ascii "Content-Length: " ++ ascii (toString resp.body.length) ++
          CRLF := by
    have hdigits := (length_toString_le_iff (by decide)).mpr h
    have hname : (ascii "Content-Length: ").length = 16 := by decide
    apply List.take_of_length_le
    rw [List.length_append, List.length_append, hname,
      show CRLF.length = 2 from rfl]
    omega
  have hheaders : ∀ (headers : List (Bytes × Bytes)) (output : Bytes),
      headers.foldl
          (fun output header => output ++ header.1 ++ ascii ": " ++ header.2 ++
            CRLF) output =
        output ++ headers.flatMap
          fun header => header.1 ++ ascii ": " ++ header.2 ++ CRLF := by
    intro headers
    induction headers with
    | nil => simp
    | cons header headers ih =>
        intro output
        rw [List.foldl_cons, ih, List.flatMap_cons]
        simp only [List.append_assoc]
  rw [appendToOutput, appendToBuffer]
  simp only [hstatus, hlength, Buffer.append_eq, hheaders]
  split <;> simp only [List.append_assoc]

end HttpResponse

/-! ## The reader -/

def lowerByte (b : Byte) : Byte := if 65 ≤ b ∧ b ≤ 90 then b + 32 else b

/-- The names are the same but for the case of their letters. -/
def SameName (name name' : Bytes) : Prop :=
  name.map lowerByte = name'.map lowerByte

instance (name name' : Bytes) : Decidable (SameName name name') :=
  inferInstanceAs (Decidable (_ = _))

/-- The headers that `appendToBuffer` writes itself. -/
def IsFraming (name : Bytes) : Prop :=
  SameName name (ascii "Content-Length") ∨ SameName name (ascii "Connection")

instance (name : Bytes) : Decidable (IsFraming name) :=
  inferInstanceAs (Decidable (_ ∨ _))

/-- What a reader gets from a response. -/
structure ReadResponse where
  code : ℕ
  message : Bytes
  headers : HeaderMap
  body : Bytes

namespace ReadResponse

/-- A line, without its end. -/
def line : Decoder Byte Bytes := fun s =>
  (Buffer.findCRLF s).map fun crlf => (s.take crlf, s.drop (crlf + 2))

/-- `HTTP/1.1 SP code SP message`. -/
def statusLine (text : Bytes) : Option (ℕ × Bytes) :=
  if ascii "HTTP/1.1 " <+: text then
    let rest := text.drop 9
    some (decimal (rest.take (rest.idxOf SP)), rest.drop (rest.idxOf SP + 1))
  else none

/-- `name ": " value`. -/
def headerLine (text : Bytes) : Bytes × Bytes :=
  (text.take (text.idxOf COLON), text.drop (text.idxOf COLON + 2))

/-- The number that the `Content-Length` header gives. -/
def bodyLength (headers : List (Bytes × Bytes)) : Option ℕ :=
  (headers.find? fun header => SameName header.1 (ascii "Content-Length")).map
    fun header => decimal header.2

/-- A response: lines up to the first empty one, then the body. -/
def response : Decoder Byte ReadResponse := do
  let status ← line
  let (code, message) ← ofOption (statusLine status)
  let lines ← upTo line List.isEmpty
  let headers := lines.map headerLine
  let length ← ofOption (bodyLength headers)
  let body ← next length
  return {
    code := code
    message := message
    headers := .ofList (headers.filter fun header => ¬ IsFraming header.1)
    body := body }

end ReadResponse

/-! ## What the reader gets -/

/-- A response that a reader can take apart: it keeps the connection alive, its
texts fit in lines, and its headers are not the ones that `appendToBuffer`
writes itself. -/
structure KeepAliveResponse extends HttpResponse where
  keepsAlive : closeConnection = false
  message_noBreak : NoBreak statusMessage
  name_noBreak : ∀ header ∈ headers.toList, NoBreak header.1
  value_noBreak : ∀ header ∈ headers.toList, NoBreak header.2
  name_noColon : ∀ header ∈ headers.toList, COLON ∉ header.1
  name_notFraming : ∀ header ∈ headers.toList, ¬ IsFraming header.1
  body_short : body.length < 10 ^ 13

/-- A header map from its headers. -/
theorem HeaderMap.ofList_toList (headers : HeaderMap) :
    (.ofList headers.toList : HeaderMap) = headers := by
  apply Std.ExtTreeMap.ext_getElem?
  intro name
  cases hvalue : headers[name]? with
  | some value =>
      exact Std.ExtTreeMap.getElem?_ofList_of_mem Std.ReflCmp.compare_self
        Std.ExtTreeMap.distinct_keys_toList
        (Std.ExtTreeMap.mem_toList_iff_getElem?_eq_some.mpr hvalue)
  | none =>
      apply Std.ExtTreeMap.getElem?_ofList_of_contains_eq_false
      rw [← Bool.not_eq_true, List.contains_iff_mem]
      intro hmem
      obtain ⟨header, hheader, rfl⟩ := List.mem_map.mp hmem
      rw [Std.ExtTreeMap.mem_toList_iff_getElem?_eq_some.mp hheader] at hvalue
      cases hvalue

theorem not_mem_toString {b : Byte} (hb : isdigit b = false) (n : ℕ) :
    b ∉ ascii (toString n) := by
  intro h
  rw [isdigit_of_mem_toString h] at hb
  cases hb

namespace ReadResponse

variable {text message name value : Bytes}

theorem reads_line (h : CR ∉ text) : Reads line (text ++ CRLF) text := by
  intro rest
  have hline := Buffer.findCRLF_line (Buffer.findCRLF_eq_none h) rest
  have hdrop : (text ++ CRLF ++ rest).drop (text.length + 2) = rest :=
    List.drop_left' (by simp [CRLF])
  simp only [line, StateT.run, hline, Option.map_some, hdrop]
  rw [List.append_assoc, List.take_left]

theorem statusLine_eq (code : ℕ) (message : Bytes) :
    statusLine
        (ascii "HTTP/1.1 " ++ ascii (toString code) ++ [SP] ++ message) =
      some (code, message) := by
  have hspace : SP ∉ ascii (toString code) := not_mem_toString (by decide) code
  have hdrop : (ascii "HTTP/1.1 " ++ (ascii (toString code) ++ SP :: message)
      ).drop 9 = ascii (toString code) ++ SP :: message :=
    List.drop_left' (by decide)
  have hmessage : (ascii (toString code) ++ SP :: message).drop
      ((ascii (toString code)).length + 1) = message := by
    rw [← List.drop_drop, List.drop_left]
    rfl
  rw [List.append_assoc, List.append_assoc, List.singleton_append, statusLine,
    if_pos (List.prefix_append _ _), hdrop]
  simp only [idxOf_append_cons hspace, List.take_left, hmessage,
    decimal_toString]

theorem headerLine_eq (h : COLON ∉ name) (value : Bytes) :
    headerLine (name ++ ascii ": " ++ value) = (name, value) := by
  have hcolon : (name ++ ascii ": " ++ value).idxOf COLON = name.length := by
    rw [List.append_assoc]
    exact idxOf_append_cons h (SP :: value)
  have hvalue : (name ++ ascii ": " ++ value).drop (name.length + 2) = value :=
    List.drop_left' (by simp [ascii])
  rw [headerLine, hcolon, hvalue, List.append_assoc, List.take_left]

theorem line_noBreak (hname : NoBreak name) (hvalue : NoBreak value) :
    CR ∉ name ++ ascii ": " ++ value := by
  simp only [List.mem_append, hname.cr, hvalue.cr]
  decide

end ReadResponse

namespace KeepAliveResponse

/-- What the response was built from. -/
def parts (r : KeepAliveResponse) : ReadResponse where
  code := r.statusCode.code
  message := r.statusMessage
  headers := r.headers
  body := r.body

/-- The headers on the wire. -/
def wireHeaders (r : KeepAliveResponse) : List (Bytes × Bytes) :=
  (ascii "Content-Length", ascii (toString r.body.length)) ::
    (ascii "Connection", ascii "Keep-Alive") :: r.headers.toList

theorem appendToBuffer_eq (r : KeepAliveResponse) :
    r.appendToBuffer =
      ascii "HTTP/1.1 " ++ ascii (toString r.statusCode.code) ++ [SP] ++
          r.statusMessage ++ CRLF ++
        (r.wireHeaders.flatMap
            (fun header => header.1 ++ ascii ": " ++ header.2 ++ CRLF) ++
          CRLF ++ r.body) := by
  have hlength : ascii "Content-Length: " =
      ascii "Content-Length" ++ ascii ": " := by decide
  have hconnection : ascii "Connection: Keep-Alive\r\n" =
      ascii "Connection" ++ ascii ": " ++ ascii "Keep-Alive" ++ CRLF := by
    decide
  rw [HttpResponse.appendToBuffer, r.keepsAlive, if_neg (by decide), hlength,
    hconnection, wireHeaders, List.flatMap_cons, List.flatMap_cons]
  simp only [List.append_assoc]

/-- The headers on the wire can be told apart. -/
theorem wireHeaders_spec (r : KeepAliveResponse) :
    ∀ header ∈ r.wireHeaders,
      COLON ∉ header.1 ∧ CR ∉ header.1 ++ ascii ": " ++ header.2 := by
  intro header hheader
  rw [wireHeaders, List.mem_cons, List.mem_cons] at hheader
  rcases hheader with rfl | rfl | hheader
  · have hname : COLON ∉ ascii "Content-Length" := by decide
    have hdigits : CR ∉ ascii (toString r.body.length) :=
      not_mem_toString (by decide) _
    refine ⟨hname, ?_⟩
    simp only [List.mem_append, hdigits]
    decide
  · decide
  · exact ⟨r.name_noColon header hheader,
      ReadResponse.line_noBreak (r.name_noBreak header hheader)
        (r.value_noBreak header hheader)⟩

theorem bodyLength_wireHeaders (r : KeepAliveResponse) :
    ReadResponse.bodyLength r.wireHeaders = some r.body.length := by
  have hname : decide
      (SameName (ascii "Content-Length") (ascii "Content-Length")) = true :=
    decide_eq_true rfl
  simp only [ReadResponse.bodyLength, wireHeaders, List.find?_cons, hname,
    Option.map_some, decimal_toString]

theorem filter_wireHeaders (r : KeepAliveResponse) :
    r.wireHeaders.filter (fun header => ¬ IsFraming header.1) =
      r.headers.toList := by
  have hlength : ¬ decide (¬ IsFraming (ascii "Content-Length")) = true := by
    decide
  have hconnection : ¬ decide (¬ IsFraming (ascii "Connection")) = true := by
    decide
  rw [wireHeaders, List.filter_cons, if_neg hlength, List.filter_cons,
    if_neg hconnection, List.filter_eq_self]
  intro header hheader
  exact decide_eq_true (r.name_notFraming header hheader)

theorem reads_response (r : KeepAliveResponse) :
    Reads ReadResponse.response r.appendToBuffer r.parts := by
  have hstatus : CR ∉ ascii "HTTP/1.1 " ++
      ascii (toString r.statusCode.code) ++ [SP] ++ r.statusMessage := by
    have hdigits : CR ∉ ascii (toString r.statusCode.code) :=
      not_mem_toString (by decide) _
    simp only [List.mem_append, hdigits, r.message_noBreak.cr]
    decide
  have hlines : (r.wireHeaders.map fun header =>
      header.1 ++ ascii ": " ++ header.2).map ReadResponse.headerLine =
        r.wireHeaders := by
    rw [List.map_map]
    conv_rhs => rw [← List.map_id r.wireHeaders]
    apply List.map_congr_left
    intro header hheader
    exact ReadResponse.headerLine_eq (r.wireHeaders_spec header hheader).1 _
  have hempty : Reads ReadResponse.line CRLF [] :=
    ReadResponse.reads_line List.not_mem_nil
  unfold ReadResponse.response
  rw [r.appendToBuffer_eq]
  apply (ReadResponse.reads_line hstatus).bind
  apply (reads_ofOption (ReadResponse.statusLine_eq _ _)).nil_bind
  apply Reads.bind
  · apply reads_upTo hempty rfl
    · intro header hheader
      exact ReadResponse.reads_line (r.wireHeaders_spec header hheader).2
    · intro header _
      simp [ascii]
    · intro header _
      simp [ascii]
  simp only [hlines]
  apply (reads_ofOption r.bodyLength_wireHeaders).nil_bind
  apply (reads_next rfl).bind_nil
  rw [r.filter_wireHeaders, HeaderMap.ofList_toList]
  exact reads_pure _

end KeepAliveResponse

theorem noBreak_ok : NoBreak (ascii "OK") := ⟨by decide, by decide⟩

/-- A page with two headers, and a body that looks like more of them. -/
def twoHeaders : KeepAliveResponse where
  statusCode := .k200Ok
  statusMessage := ascii "OK"
  headers := .ofList
    [(ascii "Server", ascii "Muduo"), (ascii "Content-Type", ascii "text/html")]
  closeConnection := false
  body := ascii "a: b\r\n\r\nContent-Length: 1\r\n"
  keepsAlive := rfl
  message_noBreak := noBreak_ok
  name_noBreak := by decide
  value_noBreak := by decide
  name_noColon := by decide
  name_notFraming := by decide
  body_short := by decide

/-- A page that was not found. -/
def notFound : KeepAliveResponse :=
  { twoHeaders with
    statusCode := .k404NotFound
    statusMessage := ascii "Not Found"
    body := []
    message_noBreak := ⟨by decide, by decide⟩
    body_short := by decide }

end MuduoHttp
