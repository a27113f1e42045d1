import MuduoHttp.Http.ChunkInvariance

/-!
# Malformed content lengths

`parseRequest` promises to return false on any error.  The value of a
`Content-Length` header goes through `std::stoi` unchecked: what `stoi` cannot
convert leaves the parser as an exception that nothing catches, what it
converts in part is taken for a length, and an empty value passes for a
missing header.

The parser therefore keeps its promise exactly on the inputs without a
malformed content length.
-/

namespace MuduoHttp

open Support HttpContext

/-- A non-negative decimal integer that an `int` can hold. -/
def IsContentLength (value : Bytes) : Prop :=
  value ≠ [] ∧ (∀ d ∈ value, isdigit d = true) ∧ decimal value < 2 ^ 31

/-- The header section has a `Content-Length` header, and its value is not a
content length. -/
def RequestHead.MalformedLength (h : RequestHead) : Prop :=
  HttpContext.contentLength ∈ h.request.headers ∧
    ¬ IsContentLength h.contentLength

/-- However the reads cut the input, every call returns, and false as soon as
a malformed content length has been read. -/
def RejectsMalformed (chunks : List Bytes) : Prop :=
  ∀ (close : Bool) (reads : List Read), reads.map (·.chunk) = chunks →
    ∃ ok context buf,
      parseReads (fresh close) [] reads = .returned ok context buf ∧
        ∀ (h : RequestHead) (rest : Bytes), chunks.flatten = h.bytes ++ rest →
          h.MalformedLength → ok = false

/-- A header that is read as non-empty is there. -/
theorem mem_headers_of_getHeader {request : HttpRequest} {field : Bytes}
    (h : request.getHeader field ≠ []) : field ∈ request.headers := by
  by_contra hmem
  exact h (by rw [HttpRequest.getHeader, Std.ExtTreeMap.getElem?_eq_none hmem,
    Option.getD_none])

/-- What `stoi` rejects is a malformed content length. -/
theorem RequestHead.malformedLength_of_stoi {h : RequestHead}
    {exception : StdException} (hne : h.contentLength ≠ [])
    (hstoi : stoi h.contentLength = .error exception) :
    h.MalformedLength := by
  refine ⟨mem_headers_of_getHeader hne, ?_⟩
  rintro ⟨-, hdigits, hfits⟩
  rw [stoi_digits hne hdigits hfits] at hstoi
  cases hstoi

/-- Past the header section a call never returns false. -/
theorem RequestHead.observed_outcome {h : RequestHead} (context : HttpContext)
    (rest : Bytes) {state : HttpRequestParseState} {request : HttpRequest} :
    (ParseCall.ofDrained (h.outcome context rest)).observed ≠
      some (.ok (false, state, request)) := by
  unfold outcome
  split
  · simp [ParseCall.ofDrained, ParseCall.observed]
  · split
    · simp [ParseCall.ofDrained, ParseCall.observed]
    · split <;> simp [ParseCall.ofDrained, ParseCall.observed]

/-- A fresh parser shows a return value, unless `stoi` throws on the content
length of a head. -/
theorem observed_drain_fresh (close : Bool) (n : ℤ) {buf : Bytes}
    (hgood : ∀ (h : RequestHead) (rest : Bytes), buf = h.bytes ++ rest →
      ¬ h.MalformedLength) :
    ∃ shown, (ParseCall.ofDrained
      (drainRequest n (fresh close) buf)).observed = some (.ok shown) := by
  by_cases hbefore : BeforeBody (drainRequest n (fresh close) buf)
  · cases hdrain : drainRequest n (fresh close) buf with
    | idle f rest => exact ⟨_, rfl⟩
    | halted result rest =>
        rw [hdrain] at hbefore
        cases result with
        | error exception => exact hbefore.elim
        | ok result => exact ⟨_, rfl⟩
  · obtain ⟨h, rest, rfl⟩ := exists_head rfl hbefore
    rw [drain_head rfl rfl, RequestHead.outcome]
    split
    · exact ⟨_, rfl⟩
    next hne =>
      split
      next exception hstoi =>
        exact absurd (RequestHead.malformedLength_of_stoi hne hstoi)
          (hgood h rest rfl)
      · split <;> exact ⟨_, rfl⟩

/-- The parser rejects what it must, and nothing leaves it but return values,
exactly when the input has no malformed content length. -/
theorem rejectsMalformed_iff (chunks : List Bytes) :
    RejectsMalformed chunks ↔
      ∀ (h : RequestHead) (rest : Bytes), chunks.flatten = h.bytes ++ rest →
        ¬ h.MalformedLength := by
  constructor
  · intro hrejects h rest hbytes hmalformed
    let reads : List Read := chunks.map fun chunk => ⟨chunk, 0⟩
    have hchunks : reads.map (·.chunk) = chunks := by
      simp [reads, Function.comp_def]
    obtain ⟨ok, context, buf, hcalls, hfalse⟩ := hrejects false reads hchunks
    obtain rfl := hfalse h rest hbytes hmalformed
    rcases parseReads_fresh false 0 hchunks with ⟨-, context', buf', htrue⟩ | hobs
    · rw [hcalls] at htrue
      cases htrue
    · rw [hcalls, hbytes, drain_head rfl rfl] at hobs
      exact RequestHead.observed_outcome _ _ hobs.symm
  · intro hgood close reads hreads
    have hreturns : ∃ ok context buf,
        parseReads (fresh close) [] reads = .returned ok context buf := by
      rcases parseReads_fresh close 0 hreads with ⟨-, hret⟩ | hobs
      · exact ⟨true, hret⟩
      · obtain ⟨shown, hshown⟩ := observed_drain_fresh close 0 hgood
        rw [hshown] at hobs
        cases hcalls : parseReads (fresh close) [] reads with
        | returned ok context buf => exact ⟨ok, context, buf, rfl⟩
        | threw exception =>
            rw [hcalls] at hobs
            cases hobs
        | spinning =>
            rw [hcalls] at hobs
            cases hobs
    obtain ⟨ok, context, buf, hcalls⟩ := hreturns
    exact ⟨ok, context, buf, hcalls, fun h rest hbytes hmalformed =>
      absurd hmalformed (hgood h rest hbytes)⟩

/-- A content length of letters. -/
def lettersLength : List Bytes :=
  [ascii "GET / HTTP/1.1\r\nContent-Length: abc\r\n\r\n"]

/-- On letters, `stoi` throws out of the parser. -/
theorem not_rejectsMalformed_lettersLength :
    ¬ RejectsMalformed lettersLength := by
  intro hrejects
  obtain ⟨ok, context, buf, hcalls, -⟩ :=
    hrejects false (lettersLength.map fun chunk => ⟨chunk, 0⟩) rfl
  have hthrew : (parseReads (fresh false) []
      (lettersLength.map fun chunk => ⟨chunk, 0⟩)).observed.map
        (fun shown => shown.toOption.isSome) = some false := by
    decide
  rw [hcalls] at hthrew
  cases hthrew

end MuduoHttp
