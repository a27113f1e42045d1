import MuduoHttp.Http.Framing

/-!
# Rendered requests

A request is rendered as a request line with its path and its query, header
lines, an empty line and the body, which a `Content-Length` header announces.
Rendering gives a message of the grammar, so that the parser, called once,
builds the request again, whatever follows.
-/

namespace MuduoHttp

open Support HttpContext

/-- A header as a request has it: its value is trimmed. -/
structure RequestHeader where
  name : Bytes
  value : Bytes
  name_noColon : COLON ∉ name
  name_noBreak : NoBreak name
  value_noBreak : NoBreak value
  value_head : ∀ b ∈ value.head?, isspace b = false
  value_getLast : ∀ b ∈ value.getLast?, isspace b = false

/-- The parts of a request.  The query is empty or starts with its question
mark, and the body is the one that the only `Content-Length` announces, or
empty without one. -/
structure RenderedRequest where
  method : HttpRequest.Method
  method_ne : method ≠ .kInvalid
  path : Bytes
  path_noBreak : NoBreak path
  path_noSpace : SP ∉ path
  path_noQuestion : QUESTION ∉ path
  query : Bytes
  query_noBreak : NoBreak query
  query_noSpace : SP ∉ query
  query_head : query = [] ∨ query.head? = some QUESTION
  version : HttpRequest.Version
  version_ne : version ≠ .kUnknown
  headers : List RequestHeader
  body : Bytes
  announced :
    ((headers.filter (·.name = contentLength)).map (·.value) = [] ∧
        body = []) ∨
      ((headers.filter (·.name = contentLength)).map (·.value) =
          [ascii (toString body.length)] ∧
        body.length < 2 ^ 31)

namespace RequestHeader

def bytes (h : RequestHeader) : Bytes := h.name ++ ascii ": " ++ h.value

theorem trim_value (h : RequestHeader) :
    HttpRequest.trim (SP :: h.value) = h.value := by
  have hleading : (SP :: h.value).dropWhile isspace = h.value := by
    rw [List.dropWhile_cons_of_pos (by decide)]
    cases hvalue : h.value with
    | nil => rfl
    | cons b bs =>
        have hb := h.value_head b (by simp [hvalue])
        exact List.dropWhile_cons_of_neg (by simp [hb])
  rw [HttpRequest.trim, hleading, List.rdropWhile_eq_self_iff]
  intro hne
  have hlast := h.value_getLast _ (List.getLast?_eq_getLast_of_ne_nil hne)
  simp [hlast]

/-- The header as a field of the grammar. -/
def field (h : RequestHeader) : HeaderField where
  name := h.name
  value := SP :: h.value
  noColon := h.name_noColon
  isLine := by
    apply Buffer.findCRLF_eq_none
    simp [h.name_noBreak.cr, h.value_noBreak.cr, show CR ≠ COLON by decide,
      show CR ≠ SP by decide]

theorem line_field (h : RequestHeader) : h.field.line = h.bytes :=
  (List.append_assoc h.name [COLON, SP] h.value).symm

end RequestHeader

namespace RenderedRequest

def bytes (r : RenderedRequest) : Bytes :=
  r.method.methodString ++ [SP] ++ r.path ++ r.query ++ [SP] ++
    r.version.text ++ CRLF ++
    r.headers.flatMap (fun header => header.bytes ++ CRLF) ++ CRLF ++ r.body

/-- The request itself: the last value of each header name wins. -/
def request (r : RenderedRequest) : HttpRequest where
  method := r.method
  version := r.version
  path := r.path
  query := r.query
  headers := r.headers.foldl
    (fun headers header => headers.insert header.name header.value) ∅
  body := r.body

def requestLine (r : RenderedRequest) : RequestLine where
  method := r.method
  method_ne := r.method_ne
  target := r.path ++ r.query
  noSpace := by simp [r.path_noSpace, r.query_noSpace]
  version := r.version
  version_ne := r.version_ne

theorem isLine_requestLine (r : RenderedRequest) :
    Buffer.findCRLF r.requestLine.bytes = none := by
  have hversion : CR ∉ r.version.text := by
    cases r.version <;> decide
  apply Buffer.findCRLF_eq_none
  simp [RequestLine.bytes, requestLine, r.path_noBreak.cr, r.query_noBreak.cr,
    r.method.notMem_methodString.2, hversion, show CR ≠ SP by decide]

def grammar (r : RenderedRequest) : RequestGrammar where
  requestLine := r.requestLine
  isLine := r.isLine_requestLine
  fields := r.headers.map RequestHeader.field

theorem idxOf_target (r : RenderedRequest) :
    (r.path ++ r.query).idxOf QUESTION = r.path.length := by
  rcases r.query_head with hempty | hhead
  · rw [hempty, List.append_nil, List.idxOf_eq_length r.path_noQuestion]
  · obtain ⟨rest, hquery⟩ := List.head?_eq_some_iff.mp hhead
    rw [hquery]
    exact idxOf_append_cons r.path_noQuestion rest

theorem request_grammar (r : RenderedRequest) :
    r.grammar.request.setBody r.body = r.request := by
  have hfields : ∀ headers : HeaderMap,
      (r.headers.map RequestHeader.field).foldl
          (fun headers field =>
            headers.insert field.name (HttpRequest.trim field.value)) headers =
        r.headers.foldl
          (fun headers header => headers.insert header.name header.value)
          headers := by
    intro headers
    rw [List.foldl_map]
    simp only [RequestHeader.field, RequestHeader.trim_value]
  have htarget := r.idxOf_target
  simp only [RequestGrammar.request, grammar, requestLine, htarget, hfields,
    List.take_left, List.drop_left]
  rfl

/-- The values of the `Content-Length` headers are values of the fields. -/
theorem value_mem (r : RenderedRequest) {header : RequestHeader}
    (hheader : header ∈ r.headers) (hname : header.name = contentLength) :
    header.value ∈
      (r.headers.filter (·.name = contentLength)).map (·.value) :=
  List.mem_map_of_mem (List.mem_filter.mpr ⟨hheader, by simpa using hname⟩)

/-- A rendered request as a message of the grammar. -/
def message (r : RenderedRequest) : RequestMessage where
  grammar := r.grammar
  body := r.body
  announced := by
    intro field hfield hname
    obtain ⟨header, hheader, rfl⟩ := List.mem_map.mp hfield
    have hvalue := r.value_mem hheader hname
    rw [show header.field.value = SP :: header.value from rfl,
      header.trim_value]
    rcases r.announced with ⟨hnone, -⟩ | ⟨hone, -⟩
    · rw [hnone] at hvalue
      exact absurd hvalue List.not_mem_nil
    · rw [hone, List.mem_singleton] at hvalue
      rw [hvalue]
      exact ⟨ascii_toString_ne_nil _, fun d => isdigit_of_mem_toString,
        decimal_toString _⟩
  unannounced := by
    intro hnone
    rcases r.announced with ⟨-, hbody⟩ | ⟨hone, -⟩
    · exact hbody
    · have hmem : ascii (toString r.body.length) ∈
          (r.headers.filter (·.name = contentLength)).map (·.value) := by
        rw [hone]
        exact List.mem_singleton_self _
      obtain ⟨header, hheader, -⟩ := List.mem_map.mp hmem
      obtain ⟨hheader, hname⟩ := List.mem_filter.mp hheader
      exact absurd (of_decide_eq_true hname)
        (hnone header.field (List.mem_map_of_mem hheader))

theorem bytes_message (r : RenderedRequest) : r.message.bytes = r.bytes := by
  have hlines : joinLines (r.grammar.fields.map HeaderField.line) =
      r.headers.flatMap fun header => header.bytes ++ CRLF := by
    rw [joinLines, grammar, List.map_map, List.flatMap_map]
    apply List.flatMap_congr
    intro header _
    rw [Function.comp_apply, header.line_field]
  rw [RequestMessage.bytes, RequestGrammar.bytes]
  change r.requestLine.bytes ++ CRLF ++
    (joinLines (r.grammar.fields.map HeaderField.line) ++ CRLF) ++ r.body = _
  rw [hlines, RequestLine.bytes, bytes]
  simp [requestLine]

/-- An `int` can count the body. -/
theorem length_body_lt (r : RenderedRequest) : r.body.length < 2 ^ 31 := by
  rcases r.announced with ⟨-, hbody⟩ | ⟨-, hfits⟩
  · simp [hbody]
  · exact hfits

end RenderedRequest

/-- One call on a rendered request and whatever follows it returns true, has
got everything, and has built the request. -/
theorem parseRequest_rendered (r : RenderedRequest) (close : Bool)
    (garbage : ℤ) (rest : Bytes) :
    parseRequest garbage (fresh close) (r.bytes ++ rest) =
      .returned true
        { fresh close with request := r.request, state := .kGotAll }
        (r.body ++ rest) := by
  have hcall :=
    parseRequest_of_length_lt r.message r.length_body_lt close garbage rest
  rw [r.bytes_message] at hcall
  rw [hcall, ← r.request_grammar]
  rfl

theorem kPost_ne : HttpRequest.Method.kPost ≠ .kInvalid := by decide

/-- `POST /a/b?c=d` with two headers and a body of two lines. -/
def postTwoLines : RenderedRequest where
  method := .kPost
  method_ne := kPost_ne
  path := ascii "/a/b"
  path_noBreak := ⟨by decide, by decide⟩
  path_noSpace := by decide
  path_noQuestion := by decide
  query := ascii "?c=d"
  query_noBreak := ⟨by decide, by decide⟩
  query_noSpace := by decide
  query_head := .inr rfl
  version := .kHttp11
  version_ne := RequestLine.getRoot.version_ne
  headers :=
    [{ name := ascii "Host"
       value := ascii "a b"
       name_noColon := by decide
       name_noBreak := ⟨by decide, by decide⟩
       value_noBreak := ⟨by decide, by decide⟩
       value_head _ h := Option.some.inj h ▸ rfl
       value_getLast _ h := Option.some.inj h ▸ rfl },
     { name := contentLength
       value := ascii "6"
       name_noColon := by decide
       name_noBreak := ⟨by decide, by decide⟩
       value_noBreak := ⟨by decide, by decide⟩
       value_head _ h := Option.some.inj h ▸ rfl
       value_getLast _ h := Option.some.inj h ▸ rfl }]
  body := ascii "e\r\nf\r\n"
  announced := .inr ⟨by decide, by decide⟩

theorem parseRequest_postTwoLines :
    parseRequest 0 (fresh false)
        (ascii ("POST /a/b?c=d HTTP/1.1\r\nHost: a b\r\n" ++
          "Content-Length: 6\r\n\r\ne\r\nf\r\nGET /")) =
      .returned true
        { fresh false with request := postTwoLines.request, state := .kGotAll }
        (ascii "e\r\nf\r\nGET /") := by
  have hbytes : ascii ("POST /a/b?c=d HTTP/1.1\r\nHost: a b\r\n" ++
      "Content-Length: 6\r\n\r\ne\r\nf\r\nGET /") =
        postTwoLines.bytes ++ ascii "GET /" := by
    decide
  rw [hbytes]
  exact parseRequest_rendered postTwoLines false 0 (ascii "GET /")

end MuduoHttp
