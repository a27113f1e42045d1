import MuduoHttp.Http.RequestGrammar

/-!
# What ends the header section

The comment in the header branch calls the line that ends the section empty,
but the test is for a colon: any line without one ends the section.  A request
that is reported complete is one of the grammar exactly when the line that
ended its header section was really empty.
-/

namespace MuduoHttp

open Support HttpContext

/-- Whatever a single call on the input reports as complete starts with a
request of the grammar. -/
def GrammarSound (input : Bytes) : Prop :=
  ∀ (close : Bool) (garbage : ℤ) (ok : Bool) (context : HttpContext)
    (buf : Bytes),
    parseRequest garbage (fresh close) input = .returned ok context buf →
      context.gotAll = true →
        ∃ (g : RequestGrammar) (rest : Bytes), input = g.bytes ++ rest

/-- The head announces no body, or one that `rest` contains in full. -/
def RequestHead.Completes (h : RequestHead) (rest : Bytes) : Prop :=
  h.contentLength = [] ∨
    ∃ length, stoi h.contentLength = .ok length ∧ sizeT length ≤ rest.length

/-- The input holds a complete request whose header section is ended by a
line that is not empty. -/
def EndedByNonEmptyLine (input : Bytes) : Prop :=
  ∃ (h : RequestHead) (rest : Bytes),
    input = h.bytes ++ rest ∧ h.lastLine ≠ [] ∧ h.Completes rest

/-- The parser reports a head as complete exactly when its body is there. -/
theorem RequestHead.completes_iff {h : RequestHead} {rest : Bytes}
    (context : HttpContext) :
    h.Completes rest ↔
      ∃ ok context' buf, ParseCall.ofDrained (h.outcome context rest) =
        .returned ok context' buf ∧ context'.gotAll = true := by
  unfold Completes outcome
  by_cases hempty : h.contentLength = []
  · simp [hempty, ParseCall.ofDrained, gotAll]
  · cases hstoi : stoi h.contentLength with
    | error exception => simp [hempty, ParseCall.ofDrained]
    | ok length =>
        by_cases hfits : sizeT length ≤ rest.length
        · simp [hempty, hfits, ParseCall.ofDrained, gotAll]
        · simp [hempty, hfits, ParseCall.ofDrained, gotAll]

/-- A call on a fresh context that reports everything got past a head. -/
theorem exists_head_of_gotAll {close : Bool} {garbage : ℤ} {input buf : Bytes}
    {ok : Bool} {context : HttpContext}
    (hcall : parseRequest garbage (fresh close) input = .returned ok context buf)
    (hgot : context.gotAll = true) :
    ∃ (h : RequestHead) (rest : Bytes),
      input = h.bytes ++ rest ∧ h.Completes rest := by
  rw [parseRequest_eq_drain (by simp [fresh])] at hcall
  have hagrees : GotAllAgrees (drainRequest garbage (fresh close) input) :=
    gotAllAgrees_drain (by simp [fresh]) _
  have hpast : ¬ BeforeBody (drainRequest garbage (fresh close) input) := by
    cases hdrain : drainRequest garbage (fresh close) input with
    | idle f rest =>
        rw [hdrain] at hcall hagrees
        cases hcall
        exact absurd (by simpa [gotAll] using hgot) hagrees
    | halted result rest =>
        rw [hdrain] at hcall hagrees
        cases result with
        | error exception => cases hcall
        | ok result =>
            cases hcall
            have hok : result.2.gotAll = result.1 := hagrees
            simp [BeforeBody, ← hok, hgot]
  obtain ⟨h, rest, rfl⟩ := exists_head rfl hpast
  rw [drain_head rfl rfl] at hcall
  exact ⟨h, rest, rfl,
    (RequestHead.completes_iff _).mpr ⟨ok, context, buf, hcall, hgot⟩⟩

/-- A complete request that a non-empty line ended is no request of the
grammar: the lines of the input are read off uniquely. -/
theorem not_grammarSound_of_head {h : RequestHead} {rest : Bytes}
    (hlast : h.lastLine ≠ []) (hcompletes : h.Completes rest) :
    ¬ GrammarSound (h.bytes ++ rest) := by
  intro hsound
  obtain ⟨ok, context, buf, hcall, hgot⟩ :=
    (RequestHead.completes_iff (fresh false)).mp hcompletes
  rw [← drain_head rfl rfl 0 h rest,
    ← parseRequest_eq_drain (by simp [fresh])] at hcall
  obtain ⟨g, more, hbytes⟩ := hsound false 0 ok context buf hcall hgot
  rw [← g.bytes_head] at hbytes
  exact hlast (RequestHead.bytes_inj hbytes).2.2.1

/-- What the parser reports as complete is a request of the grammar exactly
when it was not a non-empty line that ended the header section. -/
theorem grammarSound_iff (input : Bytes) :
    GrammarSound input ↔ ¬ EndedByNonEmptyLine input := by
  constructor
  · rintro hsound ⟨h, rest, rfl, hlast, hcompletes⟩
    exact not_grammarSound_of_head hlast hcompletes hsound
  · intro hended close garbage ok context buf hcall hgot
    obtain ⟨h, rest, rfl, hcompletes⟩ := exists_head_of_gotAll hcall hgot
    have hlast : h.lastLine = [] := by
      by_contra hne
      exact hended ⟨h, rest, rfl, hne, hcompletes⟩
    obtain ⟨g, hg⟩ := h.exists_grammar hlast
    exact ⟨g, rest, by rw [hg]⟩

/-- A request line and a header line without a colon. -/
def colonlessHead : RequestHead where
  requestLine := .getRoot
  requestLine_isLine := RequestLine.isLine_getRoot
  headerLines := []
  headerLines_isLine := by simp
  headerLines_colon := by simp
  lastLine := ascii "abc"
  lastLine_isLine := by decide
  lastLine_noColon := by decide

/-- The request line and the colonless line are reported as a complete
request, and no request of the grammar starts them. -/
theorem not_grammarSound_colonless :
    ¬ GrammarSound (ascii "GET / HTTP/1.1\r\nabc\r\n") := by
  have hbytes : ascii "GET / HTTP/1.1\r\nabc\r\n" =
      colonlessHead.bytes ++ [] := by
    decide
  rw [hbytes]
  exact not_grammarSound_of_head (by decide) (.inl (by decide))

end MuduoHttp
