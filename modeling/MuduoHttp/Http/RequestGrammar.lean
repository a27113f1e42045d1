import MuduoHttp.Http.RequestHead

/-!
# The request grammar

A request of the grammar is a request line, header fields and an empty line.
It is a request head whose last line is empty, and the head determines the
request that the parser builds: the path and query are the two parts of the
target, and the last value of each header name wins.
-/

namespace MuduoHttp

open Support HttpContext

/-- `name ':' value`. -/
structure HeaderField where
  name : Bytes
  value : Bytes
  noColon : COLON ∉ name
  isLine : Buffer.findCRLF (name ++ COLON :: value) = none

def HeaderField.line (field : HeaderField) : Bytes :=
  field.name ++ COLON :: field.value

/-- `request-line CRLF *(name ':' value CRLF) CRLF`. -/
structure RequestGrammar where
  requestLine : RequestLine
  isLine : Buffer.findCRLF requestLine.bytes = none
  fields : List HeaderField

namespace RequestGrammar

def bytes (g : RequestGrammar) : Bytes :=
  g.requestLine.bytes ++ CRLF ++
    (joinLines (g.fields.map HeaderField.line) ++ CRLF)

/-- A request of the grammar as a head, ended by the empty line. -/
def head (g : RequestGrammar) : RequestHead where
  requestLine := g.requestLine
  requestLine_isLine := g.isLine
  headerLines := g.fields.map HeaderField.line
  headerLines_isLine := by
    intro line hline
    obtain ⟨field, -, rfl⟩ := List.mem_map.mp hline
    exact field.isLine
  headerLines_colon := by
    intro line hline
    obtain ⟨field, -, rfl⟩ := List.mem_map.mp hline
    simp [HeaderField.line]
  lastLine := []
  lastLine_isLine := rfl
  lastLine_noColon := List.not_mem_nil

theorem bytes_head (g : RequestGrammar) : g.head.bytes = g.bytes := rfl

end RequestGrammar

theorem HeaderField.exists_of_colon {line : Bytes}
    (hline : Buffer.findCRLF line = none) (hcolon : COLON ∈ line) :
    ∃ field : HeaderField, field.line = line := by
  have hsplit := take_idxOf_append_drop hcolon
  exact ⟨⟨line.take (line.idxOf COLON), line.drop (line.idxOf COLON + 1),
    notMem_take_idxOf COLON line, hsplit.symm ▸ hline⟩, hsplit⟩

/-- A head that is ended by the empty line is a request of the grammar. -/
theorem RequestHead.exists_grammar (h : RequestHead) (hlast : h.lastLine = []) :
    ∃ g : RequestGrammar, g.bytes = h.bytes := by
  have hfields : ∀ lines : List Bytes,
      (∀ line ∈ lines, Buffer.findCRLF line = none ∧ COLON ∈ line) →
        ∃ fields : List HeaderField,
          fields.map HeaderField.line = lines := by
    intro lines hlines
    induction lines with
    | nil => exact ⟨[], rfl⟩
    | cons line lines ih =>
        obtain ⟨hline, hcolon⟩ := hlines line (List.mem_cons_self ..)
        obtain ⟨field, hfield⟩ := HeaderField.exists_of_colon hline hcolon
        obtain ⟨fields, hmore⟩ :=
          ih fun l hl => hlines l (List.mem_cons_of_mem _ hl)
        exact ⟨field :: fields, by rw [List.map_cons, hfield, hmore]⟩
  obtain ⟨fields, hmap⟩ := hfields h.headerLines h.headerLines_spec
  refine ⟨⟨h.requestLine, h.requestLine_isLine, fields⟩, ?_⟩
  rw [RequestGrammar.bytes, hmap, RequestHead.bytes, hlast, List.nil_append]

/-! ## The request that is built -/

namespace RequestGrammar

/-- What the parser is meant to report: the target split at the first `?`, the
values trimmed, and the last value of each name. -/
def request (g : RequestGrammar) : HttpRequest where
  method := g.requestLine.method
  version := g.requestLine.version
  path := g.requestLine.target.take (g.requestLine.target.idxOf QUESTION)
  query := g.requestLine.target.drop (g.requestLine.target.idxOf QUESTION)
  headers := g.fields.foldl
    (fun headers field =>
      headers.insert field.name (HttpRequest.trim field.value)) ∅

end RequestGrammar

theorem setTarget_eq (request : HttpRequest) (hquery : request.query = [])
    (target : Bytes) :
    setTarget request target =
      { request with
        path := target.take (target.idxOf QUESTION)
        query := target.drop (target.idxOf QUESTION) } := by
  rw [setTarget_eq_ite]
  split_ifs with hmem
  · rfl
  · have hend : target.idxOf QUESTION = target.length :=
      List.idxOf_eq_length hmem
    rw [hend, List.drop_length, hquery]

theorem addHeaderLine_line (request : HttpRequest) (field : HeaderField) :
    addHeaderLine request field.line =
      { request with
        headers :=
          request.headers.insert field.name
            (HttpRequest.trim field.value) } := by
  have hcolon : field.line.idxOf COLON = field.name.length :=
    idxOf_append_cons field.noColon _
  have hvalue : field.line.drop (field.name.length + 1) = field.value := by
    rw [← List.drop_drop, HeaderField.line, List.drop_left, List.drop_one,
      List.tail_cons]
  have hname : field.line.take field.name.length = field.name :=
    List.take_left
  rw [addHeaderLine, hcolon, HttpRequest.addHeader, hname, hvalue]

theorem foldl_addHeaderLine (request : HttpRequest)
    (fields : List HeaderField) :
    (fields.map HeaderField.line).foldl addHeaderLine request =
      { request with
        headers := fields.foldl
          (fun headers field =>
            headers.insert field.name (HttpRequest.trim field.value))
          request.headers } := by
  induction fields generalizing request with
  | nil => rfl
  | cons field fields ih =>
      rw [List.map_cons, List.foldl_cons, ih, addHeaderLine_line]
      rfl

/-- The head of a request of the grammar builds that request. -/
theorem RequestGrammar.request_head (g : RequestGrammar) :
    g.head.request = g.request := by
  rw [RequestHead.request, RequestGrammar.head, foldl_addHeaderLine,
    setTarget_eq _ rfl]
  rfl

/-- The value of a header is the trimmed value of its last field. -/
theorem RequestGrammar.getHeader_request (g : RequestGrammar) (name : Bytes) :
    g.request.getHeader name =
      match (g.fields.filter (·.name = name)).getLast? with
      | none => []
      | some field => HttpRequest.trim field.value := by
  rw [HttpRequest.getHeader, RequestGrammar.request]
  simp only
  induction g.fields using List.reverseRecOn with
  | nil => simp
  | append_singleton fields field ih =>
      rw [List.foldl_append, List.foldl_cons, List.foldl_nil,
        Std.ExtTreeMap.getElem?_insert, List.filter_append]
      by_cases hname : field.name = name
      · simp [hname]
      · simpa [hname, List.filter_cons] using ih

end MuduoHttp
