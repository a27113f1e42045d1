import MuduoHttp.Http.ResponseStream

/-!
# Responses up to the end of the connection

A response that closes the connection has no `Content-Length`: its body ends
with the stream.  A reader that takes as many bytes as `Content-Length` says,
and without it all that comes, gets back every response of a stream in which
only the last one closes the connection.
-/

namespace MuduoHttp

open Support Decoder

namespace ReadResponse

/-- All that is left. -/
def remaining : Decoder Byte Bytes := fun s => some (s, [])

/-- The status line and the headers, up to the empty line. -/
def head : Decoder Byte ((ℕ × Bytes) × List (Bytes × Bytes)) := do
  let status ← line
  let status ← ofOption (statusLine status)
  let lines ← upTo line List.isEmpty
  return (status, lines.map headerLine)

/-- A response, whether or not it closes the connection. -/
def toEnd : Decoder Byte ReadResponse := do
  let (status, headers) ← head
  let body ←
    match bodyLength headers with
    | some length => next length
    | none => remaining
  return {
    code := status.1
    message := status.2
    headers := .ofList (headers.filter fun header => ¬ IsFraming header.1)
    body := body }

end ReadResponse

/-- A response that a reader can take apart: its texts fit in lines, and its
headers are not the ones that `appendToBuffer` writes itself. -/
structure PlainResponse extends HttpResponse where
  message_noBreak : NoBreak statusMessage
  name_noBreak : ∀ header ∈ headers.toList, NoBreak header.1
  value_noBreak : ∀ header ∈ headers.toList, NoBreak header.2
  name_noColon : ∀ header ∈ headers.toList, COLON ∉ header.1
  name_notFraming : ∀ header ∈ headers.toList, ¬ IsFraming header.1

namespace PlainResponse

variable (r : PlainResponse)

/-- What the response was built from. -/
def parts : ReadResponse where
  code := r.statusCode.code
  message := r.statusMessage
  headers := r.headers
  body := r.body

/-- The headers that `appendToBuffer` writes itself. -/
def framing : List (Bytes × Bytes) :=
  if r.closeConnection then [(ascii "Connection", ascii "close")]
  else
    [(ascii "Content-Length", ascii (toString r.body.length)),
      (ascii "Connection", ascii "Keep-Alive")]

/-- The headers on the wire. -/
def wireHeaders : List (Bytes × Bytes) := r.framing ++ r.headers.toList

/-- What is in front of the body. -/
def headBytes : Bytes :=
  ascii "HTTP/1.1 " ++ ascii (toString r.statusCode.code) ++ [SP] ++
      r.statusMessage ++ CRLF ++
    (r.wireHeaders.flatMap
        (fun header => header.1 ++ ascii ": " ++ header.2 ++ CRLF) ++ CRLF)

theorem appendToBuffer_eq : r.appendToBuffer = r.headBytes ++ r.body := by
  have hlength : ascii "Content-Length: " =
      ascii "Content-Length" ++ ascii ": " := by decide
  have hconnection : ascii "Connection: Keep-Alive\r\n" =
      ascii "Connection" ++ ascii ": " ++ ascii "Keep-Alive" ++ CRLF := by
    decide
  have hclose : ascii "Connection: close\r\n" =
      ascii "Connection" ++ ascii ": " ++ ascii "close" ++ CRLF := by
    decide
  rw [HttpResponse.appendToBuffer, headBytes, wireHeaders, framing, hlength,
    hconnection, hclose]
  split
  · simp only [List.cons_append, List.nil_append, List.flatMap_cons,
      List.append_assoc]
  · simp only [List.cons_append, List.nil_append, List.flatMap_cons,
      List.append_assoc]

theorem appendToBuffer_ne_nil : r.appendToBuffer ≠ [] := by
  rw [appendToBuffer_eq, headBytes]
  simp [CRLF]

theorem framing_spec : ∀ header ∈ r.framing,
    IsFraming header.1 ∧ COLON ∉ header.1 ∧
      CR ∉ header.1 ++ ascii ": " ++ header.2 := by
  intro header hheader
  have hdigits : CR ∉ ascii (toString r.body.length) :=
    not_mem_toString (by decide) _
  have hlength : IsFraming (ascii "Content-Length") ∧
      COLON ∉ ascii "Content-Length" := by decide
  rw [framing] at hheader
  split at hheader
  · obtain rfl := List.mem_singleton.mp hheader
    decide
  · rw [List.mem_cons, List.mem_singleton] at hheader
    rcases hheader with rfl | rfl
    · refine ⟨hlength.1, hlength.2, ?_⟩
      simp only [List.mem_append, hdigits]
      decide
    · decide

theorem filter_wireHeaders :
    r.wireHeaders.filter (fun header => ¬ IsFraming header.1) =
      r.headers.toList := by
  have hframing :
      r.framing.filter (fun header => ¬ IsFraming header.1) = [] := by
    rw [List.filter_eq_nil_iff]
    intro header hheader
    simp [(r.framing_spec header hheader).1]
  have hothers : r.headers.toList.filter
      (fun header => ¬ IsFraming header.1) = r.headers.toList := by
    rw [List.filter_eq_self]
    intro header hheader
    exact decide_eq_true (r.name_notFraming header hheader)
  rw [wireHeaders, List.filter_append, hframing, hothers, List.nil_append]

theorem bodyLength_wireHeaders :
    ReadResponse.bodyLength r.wireHeaders =
      if r.closeConnection then none else some r.body.length := by
  have hnone : ∀ header ∈ r.headers.toList,
      ¬ SameName header.1 (ascii "Content-Length") :=
    fun header hheader hname => r.name_notFraming header hheader (.inl hname)
  rw [ReadResponse.bodyLength, wireHeaders, framing]
  split
  next hclose =>
    have hconnection :
        ¬ SameName (ascii "Connection") (ascii "Content-Length") := by decide
    rw [List.find?_eq_none.mpr, Option.map_none]
    intro header hheader
    rw [List.singleton_append, List.mem_cons] at hheader
    rcases hheader with rfl | hheader
    · simpa using hconnection
    · simpa using hnone header hheader
  next hkeep =>
    have hname : decide
        (SameName (ascii "Content-Length") (ascii "Content-Length")) = true :=
      decide_eq_true rfl
    simp only [List.cons_append, List.find?_cons, hname, Option.map_some,
      decimal_toString]

theorem reads_head :
    Reads ReadResponse.head r.headBytes
      ((r.statusCode.code, r.statusMessage), r.wireHeaders) := by
  have hspec : ∀ header ∈ r.wireHeaders,
      COLON ∉ header.1 ∧ CR ∉ header.1 ++ ascii ": " ++ header.2 := by
    intro header hheader
    rcases List.mem_append.mp hheader with hheader | hheader
    · exact (r.framing_spec header hheader).2
    · exact ⟨r.name_noColon header hheader,
        ReadResponse.line_noBreak (r.name_noBreak header hheader)
          (r.value_noBreak header hheader)⟩
  have hstatus : CR ∉ ascii "HTTP/1.1 " ++
      ascii (toString r.statusCode.code) ++ [SP] ++ r.statusMessage := by
    have hdigits : CR ∉ ascii (toString r.statusCode.code) :=
      not_mem_toString (by decide) _
    simp only [List.mem_append, hdigits, r.message_noBreak.cr]
    decide
  have hlines : (r.wireHeaders.map fun header =>
      header.1 ++ ascii ": " ++ header.2).map ReadResponse.headerLine =
        r.wireHeaders := by
    rw [List.map_map]
    conv_rhs => rw [← List.map_id r.wireHeaders]
    apply List.map_congr_left
    intro header hheader
    exact ReadResponse.headerLine_eq (hspec header hheader).1 _
  have hempty : Reads ReadResponse.line CRLF [] :=
    ReadResponse.reads_line List.not_mem_nil
  unfold ReadResponse.head headBytes
  apply (ReadResponse.reads_line hstatus).bind
  apply (reads_ofOption (ReadResponse.statusLine_eq _ _)).nil_bind
  apply Reads.bind_nil
  · apply reads_upTo hempty rfl
    · intro header hheader
      exact ReadResponse.reads_line (hspec header hheader).2
    · intro header _
      simp [ascii]
    · intro header _
      simp [ascii]
  rw [hlines]
  exact reads_pure _

/-- A response that keeps the connection alive ends with its body. -/
theorem reads_toEnd (hkeep : r.closeConnection = false) :
    Reads ReadResponse.toEnd r.appendToBuffer r.parts := by
  rw [appendToBuffer_eq]
  apply r.reads_head.bind
  simp only [r.bodyLength_wireHeaders, hkeep, Bool.false_eq_true, if_false]
  apply (reads_next rfl).bind_nil
  rw [r.filter_wireHeaders, HeaderMap.ofList_toList]
  exact reads_pure _

/-- A response that closes the connection ends with the stream. -/
theorem run_toEnd (hclose : r.closeConnection = true) :
    ReadResponse.toEnd.run r.appendToBuffer = some (r.parts, []) := by
  rw [appendToBuffer_eq, ReadResponse.toEnd, StateT.run_bind,
    r.reads_head r.body, Option.bind_eq_bind, Option.bind_some]
  simp only [r.bodyLength_wireHeaders, hclose, if_true]
  rw [StateT.run_bind]
  simp only [ReadResponse.remaining, StateT.run, Option.bind_eq_bind,
    Option.bind_some, r.filter_wireHeaders, HeaderMap.ofList_toList]
  rfl

end PlainResponse

/-- A reader gets back every response of the stream, with nothing left
over, when only the last one may close the connection. -/
theorem PlainResponse.all_toEnd {responses : List PlainResponse}
    (hkeep : ∀ r ∈ responses.dropLast, r.closeConnection = false) :
    all ReadResponse.toEnd (responses.flatMap fun r => r.appendToBuffer) =
      some (responses.map PlainResponse.parts) := by
  rcases List.eq_nil_or_concat responses with rfl | ⟨first, last, rfl⟩
  · rfl
  · rw [List.concat_eq_append, List.dropLast_concat] at hkeep
    have hread : ∀ r ∈ first,
        Reads ReadResponse.toEnd r.appendToBuffer r.parts :=
      fun r hr => r.reads_toEnd (hkeep r hr)
    have hlast : ReadResponse.toEnd.run last.appendToBuffer =
        some (last.parts, []) := by
      by_cases hclose : last.closeConnection = true
      · exact last.run_toEnd hclose
      · have hreads := last.reads_toEnd (by simpa using hclose) []
        rwa [List.append_nil] at hreads
    rw [List.concat_eq_append, List.flatMap_append, List.map_append,
      List.flatMap_singleton, List.map_singleton]
    exact all_flatMap_append hread (fun r _ => r.appendToBuffer_ne_nil) hlast
      last.appendToBuffer_ne_nil

end MuduoHttp
