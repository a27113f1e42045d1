import MuduoHttp.Http.RequestGrammar

/-!
# Where a request ends

The body branch of the parser copies the body and leaves it in the buffer, so
a complete request is consumed up to the end of its head only.  What follows a
request is left alone exactly when the request has no body; behind any other
request the next one is parsed from the first byte of the body.
-/

namespace MuduoHttp

open Support HttpContext

/-- The value of a `Content-Length` field before a body of `n` bytes. -/
def Announces (value : Bytes) (n : ℕ) : Prop :=
  value ≠ [] ∧ (∀ d ∈ value, isdigit d = true) ∧ decimal value = n

/-- A request of the grammar with the body it announces. -/
structure RequestMessage where
  grammar : RequestGrammar
  body : Bytes
  announced : ∀ field ∈ grammar.fields, field.name = contentLength →
    Announces (HttpRequest.trim field.value) body.length
  unannounced : (∀ field ∈ grammar.fields, field.name ≠ contentLength) →
    body = []

namespace RequestMessage

def bytes (m : RequestMessage) : Bytes := m.grammar.bytes ++ m.body

/-- The parser finds no content length, and there is no body; or it finds the
length of the body. -/
theorem getHeader_contentLength (m : RequestMessage) :
    (m.grammar.request.getHeader contentLength = [] ∧ m.body = []) ∨
      Announces (m.grammar.request.getHeader contentLength) m.body.length := by
  rw [RequestGrammar.getHeader_request]
  cases hlast :
      (m.grammar.fields.filter (·.name = contentLength)).getLast? with
  | none =>
      refine .inl ⟨rfl, m.unannounced fun field hfield hname => ?_⟩
      have hmem : field ∈ m.grammar.fields.filter (·.name = contentLength) :=
        List.mem_filter.mpr ⟨hfield, by simpa using hname⟩
      rw [List.getLast?_eq_none_iff.mp hlast] at hmem
      exact List.not_mem_nil hmem
  | some field =>
      have hmem := List.mem_of_getLast? hlast
      obtain ⟨hfield, hname⟩ := List.mem_filter.mp hmem
      exact .inr (m.announced field hfield (by simpa using hname))

/-- The same for the head that the parser reads. -/
theorem head_contentLength (m : RequestMessage) :
    m.grammar.head.contentLength =
      m.grammar.request.getHeader contentLength := by
  rw [RequestHead.contentLength, RequestGrammar.request_head]

end RequestMessage

/-- One call on the request and whatever follows it reports everything and
leaves what follows, to be parsed by a context that is as good as new. -/
def FramedExactly (m : RequestMessage) (t : Bytes) : Prop :=
  ∀ (close : Bool) (garbage : ℤ), ∃ context,
    parseRequest garbage (fresh close) (m.bytes ++ t) =
        .returned true context t ∧
      context.gotAll = true ∧ context.reset = fresh close

/-- What the parser does behind the head of a request with a body. -/
theorem parseRequest_message (m : RequestMessage) (close : Bool) (garbage : ℤ)
    (t : Bytes) :
    parseRequest garbage (fresh close) (m.bytes ++ t) =
      .ofDrained (m.grammar.head.outcome (fresh close) (m.body ++ t)) := by
  rw [parseRequest_eq_drain (by simp [fresh]), RequestMessage.bytes,
    List.append_assoc, ← m.grammar.bytes_head, drain_head rfl rfl]

/-- Behind a request whose body an `int` can count, everything is got, and the
body is copied. -/
theorem parseRequest_of_length_lt (m : RequestMessage)
    (hfits : m.body.length < 2 ^ 31) (close : Bool) (garbage : ℤ) (t : Bytes) :
    parseRequest garbage (fresh close) (m.bytes ++ t) =
      .returned true
        { fresh close with
          request := m.grammar.request.setBody m.body
          state := .kGotAll }
        (m.body ++ t) := by
  rw [parseRequest_message, RequestHead.outcome, m.head_contentLength,
    m.grammar.request_head]
  rcases m.getHeader_contentLength with ⟨hnone, hbody⟩ | ⟨hne, hdigits, hlength⟩
  · rw [if_pos hnone, hbody]
    rfl
  · have hsize : sizeT (m.body.length : ℤ) = m.body.length := by
      rw [sizeT]
      omega
    have hroom : m.body.length ≤ (m.body ++ t).length := by
      rw [List.length_append]
      omega
    rw [if_neg hne, stoi_digits hne hdigits (by omega), hlength]
    simp only [hsize, if_pos hroom, List.take_left]
    rfl

theorem framedExactly_of_body_nil {m : RequestMessage} (hbody : m.body = [])
    (t : Bytes) : FramedExactly m t := by
  intro close garbage
  have hcall := parseRequest_of_length_lt m (by simp [hbody]) close garbage t
  rw [hbody, List.nil_append] at hcall
  exact ⟨_, hcall, rfl, rfl⟩

/-- A body is left in the buffer, in front of what follows. -/
theorem body_nil_of_framedExactly {m : RequestMessage} {t : Bytes}
    (hframed : FramedExactly m t) : m.body = [] := by
  obtain ⟨context, hcall, -⟩ := hframed false 0
  have hleft : ∀ rest : Bytes, rest = m.body ++ t → rest = t → m.body = [] := by
    intro rest hrest ht
    rw [ht] at hrest
    exact List.append_left_eq_self.mp hrest.symm
  rw [parseRequest_message, RequestHead.outcome, m.head_contentLength] at hcall
  rcases m.getHeader_contentLength with ⟨-, hbody⟩ | ⟨hne, hdigits, hlength⟩
  · exact hbody
  · rw [if_neg hne, stoi_of_digits hne hdigits] at hcall
    by_cases hfits : decimal (m.grammar.request.getHeader contentLength) < 2 ^ 31
    · rw [if_pos hfits] at hcall
      simp only at hcall
      split at hcall
      · exact hleft _ rfl (by injection hcall)
      · exact hleft _ rfl (by injection hcall)
    · rw [if_neg hfits] at hcall
      cases hcall

/-- A request is framed exactly when it has no body. -/
theorem framedExactly_iff (m : RequestMessage) (t : Bytes) :
    FramedExactly m t ↔ m.body = [] :=
  ⟨body_nil_of_framedExactly, fun hbody => framedExactly_of_body_nil hbody t⟩

/-- A request with a body of one byte. -/
def oneByteMessage : RequestMessage where
  grammar :=
    { requestLine :=
        { RequestLine.getRoot with
          method := .kPost
          method_ne := by decide }
      isLine := by decide
      fields :=
        [{ name := ascii "Content-Length"
           value := ascii " 1"
           noColon := by decide
           isLine := by decide }] }
  body := ascii "x"
  announced := by
    intro field hfield _
    obtain rfl := List.mem_singleton.mp hfield
    exact ⟨by decide, List.all_eq_true.mp (by decide), by decide⟩
  unannounced := by
    intro hnone
    exact absurd rfl (hnone _ (List.mem_singleton.mpr rfl))

/-- Its body is left in the buffer for the next request to start with. -/
theorem not_framedExactly_oneByteMessage : ¬ FramedExactly oneByteMessage [] :=
  fun hframed => absurd (body_nil_of_framedExactly hframed) (by decide)

end MuduoHttp
