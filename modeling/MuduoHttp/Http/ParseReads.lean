import MuduoHttp.Http.RequestHead

/-!
# Parsing a request read by read

Each read appends a chunk to the buffer and calls `parseRequest`, until a call
fails, reports a whole request or throws.  Between two calls only the context
and the buffer survive; the local `body_lenth` of the next call starts with
whatever its stack slot holds.

As long as no call starts in the body state, the calls together are one drain
of the reader on all the bytes that were read.
-/

namespace MuduoHttp

open Support HttpContext

/-- One read, with the initial value of `body_lenth` in the call after it. -/
structure Read where
  chunk : Bytes
  garbage : ℤ

/-- The bytes of a sequence of reads. -/
def readBytes (reads : List Read) : Bytes := (reads.map (·.chunk)).flatten

@[simp] theorem readBytes_nil : readBytes [] = [] := rfl

@[simp] theorem readBytes_cons (read : Read) (reads : List Read) :
    readBytes (read :: reads) = read.chunk ++ readBytes reads := rfl

/-- The calls of `parseRequest` after successive reads. -/
def parseReads (context : HttpContext) (buf : Bytes) : List Read → ParseCall
  | [] => .returned true context buf
  | read :: reads =>
      match parseRequest read.garbage context
        (Buffer.append buf read.chunk) with
      | .returned true context buf =>
          if context.gotAll then .returned true context buf
          else parseReads context buf reads
      | call => call

/-- What a caller can see of a call: the return value, the parse state and
the request.  A call that never returns shows nothing. -/
def HttpContext.ParseCall.observed :
    ParseCall →
      Option (Except StdException (Bool × HttpRequestParseState × HttpRequest))
  | .returned ok context _ => some (.ok (ok, context.state, context.request))
  | .threw exception => some (.error exception)
  | .spinning => none

/-! ## Single reads -/

variable {context : HttpContext} {f : ParseFrame} {buf : Bytes}

/-- What a read does to a parser that is idle in frame `f`: the drain of the
reader continues, except that `body_lenth` is lost. -/
theorem parseRequest_resumed (hgot : f.context.state ≠ .kGotAll)
    (hbody : f.context.state ≠ .kExpectBody) (garbage : ℤ) (buf : Bytes) :
    (∃ f' rest, requestReader.drain f buf = .idle f' rest ∧
        f'.context.state ≠ .kGotAll ∧
        parseRequest garbage f.context buf = .returned true f'.context rest) ∨
      (∃ result rest, requestReader.drain f buf = .halted result rest ∧
        parseRequest garbage f.context buf =
          .ofDrained (.halted result rest)) := by
  have hsame : SameParse f ⟨f.context, garbage⟩ :=
    ⟨rfl, fun h => absurd h hbody⟩
  have hrel := drain_related hsame buf
  have hagrees := gotAllAgrees_drain hgot buf
  rw [parseRequest_eq_drain hgot, drainRequest]
  cases hdrain : requestReader.drain f buf with
  | idle f' rest =>
      rw [hdrain] at hrel hagrees
      cases hdrain' : requestReader.drain ⟨f.context, garbage⟩ buf with
      | halted r rest' => rw [hdrain'] at hrel; cases hrel
      | idle g rest' =>
          rw [hdrain'] at hrel
          cases hrel with
          | idle rest hst =>
              exact .inl ⟨f', rest, rfl, hagrees, by
                rw [ParseCall.ofDrained, hst.1]⟩
  | halted result rest =>
      rw [hdrain] at hrel
      cases hdrain' : requestReader.drain ⟨f.context, garbage⟩ buf with
      | idle g rest' => rw [hdrain'] at hrel; cases hrel
      | halted r rest' =>
          rw [hdrain'] at hrel
          cases hrel
          exact .inr ⟨result, rest, rfl, rfl⟩

/-- A call that starts in the body state returns true whatever happens. -/
theorem parseRequest_body (hstate : context.state = .kExpectBody)
    (garbage : ℤ) (buf : Bytes) :
    parseRequest garbage context buf =
      if sizeT garbage ≤ buf.length then
        .returned true
          { context with
            request := context.request.setBody (buf.take (sizeT garbage))
            state := .kGotAll } buf
      else .returned true context buf := by
  have hlook := look_body (f := ⟨context, garbage⟩) hstate buf
  rw [parseRequest_eq_drain (by simp [hstate])]
  by_cases hfits : sizeT garbage ≤ buf.length
  · rw [if_pos hfits] at hlook ⊢
    rw [drainRequest, Reader.drain_of_halt hlook]
    rfl
  · rw [if_neg hfits] at hlook ⊢
    rw [drainRequest, Reader.drain_of_wait hlook]
    rfl

/-- So do all the calls after one that left the parser in the body state. -/
theorem parseReads_body (hstate : context.state = .kExpectBody)
    (buf : Bytes) (reads : List Read) :
    ∃ context' buf', parseReads context buf reads =
      .returned true context' buf' := by
  induction reads generalizing buf with
  | nil => exact ⟨context, buf, rfl⟩
  | cons read reads ih =>
      rw [parseReads, parseRequest_body hstate]
      by_cases hfits : sizeT read.garbage ≤
          (Buffer.append buf read.chunk).length
      · rw [if_pos hfits]
        exact ⟨_, _, rfl⟩
      · simp only [if_neg hfits]
        by_cases hgot : context.gotAll = true
        · exact ⟨_, _, if_pos hgot⟩
        · obtain ⟨context', buf', h⟩ := ih (Buffer.append buf read.chunk)
          exact ⟨context', buf', by rw [if_neg hgot, h]⟩

/-! ## Sequences of reads -/

/-- Some call other than the first one starts in the body state, when the
reader starts in `start` and the reads arrive one after another. -/
def EntersBody (start : ParseFrame) (seen : Bytes) (reads : List Read) : Prop :=
  ∃ before after, reads = before ++ after ∧ after ≠ [] ∧
    ∃ f rest, requestReader.drain start (seen ++ readBytes before) =
      .idle f rest ∧ f.context.state = .kExpectBody

/-- The calls show what one drain of all the bytes shows, unless one of them
starts in the body state; then they return true. -/
theorem parseReads_cases {start : ParseFrame} {seen : Bytes}
    (hgot : f.context.state ≠ .kGotAll)
    (hidle : requestReader.drain start seen = .idle f buf)
    (reads : List Read) :
    (EntersBody start seen reads ∧
        ∃ context' buf', parseReads f.context buf reads =
          .returned true context' buf') ∨
      (parseReads f.context buf reads).observed =
        (ParseCall.ofDrained
          (requestReader.drain start (seen ++ readBytes reads))).observed := by
  induction reads generalizing f buf seen with
  | nil =>
      right
      rw [readBytes_nil, List.append_nil, hidle]
      rfl
  | cons read reads ih =>
      by_cases hbody : f.context.state = .kExpectBody
      · refine .inl ⟨⟨[], read :: reads, rfl, by simp, f, buf, ?_, hbody⟩,
          parseReads_body hbody buf _⟩
        rw [readBytes_nil, List.append_nil, hidle]
      have hresume := Reader.drain_append_of_idle hidle read.chunk
      rw [parseReads]
      rcases parseRequest_resumed hgot hbody read.garbage
          (Buffer.append buf read.chunk) with
        ⟨f', rest, hdrain, hgot', hcall⟩ | ⟨result, rest, hdrain, hcall⟩
      · have hidle' := hresume.trans hdrain
        have hnot : f'.context.gotAll = false := by simp [gotAll, hgot']
        simp only [hcall, hnot, Bool.false_eq_true, if_false]
        rcases ih hgot' hidle' with
          ⟨⟨before, after, rfl, hne, g, more, hg⟩, hret⟩ | hobs
        · refine .inl ⟨⟨read :: before, after, rfl, hne, g, more, ?_⟩, hret⟩
          simpa using hg
        · exact .inr (by simpa using hobs)
      · right
        have hwhole : requestReader.drain start
            (seen ++ readBytes (read :: reads)) =
            .halted result (rest ++ readBytes reads) := by
          rw [readBytes_cons, ← List.append_assoc]
          exact Reader.drain_append_of_halted (hresume.trans hdrain) _
        have hagrees := gotAllAgrees_drain hgot
          (Buffer.append buf read.chunk)
        rw [hdrain] at hagrees
        rw [hwhole, hcall]
        cases result with
        | error exception => rfl
        | ok result =>
            obtain ⟨ok, context⟩ := result
            cases ok with
            | false => rfl
            | true =>
                simp only [ParseCall.ofDrained, show context.gotAll = true
                  from hagrees, if_true]
                rfl

end MuduoHttp
