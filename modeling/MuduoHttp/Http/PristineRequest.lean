import MuduoHttp.Http.RejectedRequests
import MuduoHttp.Support.Transition

/-!
# The request object between requests

In front of a request line the request object should be empty, as `setMethod`
asserts of the method.  `reset` empties it after a request; after a request
line that is rejected nothing does, and the connection goes on reading.  So
the object stays empty as long as no line is rejected behind its method.
-/

namespace MuduoHttp

open Support HttpContext

/-! ## What a request line leaves -/

namespace HttpContext

theorem setTarget_method (request : HttpRequest) (target : Bytes) :
    (setTarget request target).method = request.method := by
  rw [setTarget_eq_ite]

theorem setHttpVersion_method (request : HttpRequest) (text : Bytes) :
    (setHttpVersion request text).2.method = request.method := by
  rw [setHttpVersion]
  split_ifs <;> rfl

/-- The method that `setMethod` takes from the line, if it is called. -/
def methodOf (line : Bytes) : HttpRequest.Method :=
  if SP ∈ line then .ofBytes (line.take (line.idxOf SP)) else .kInvalid

/-- A line begins with a method and a space. -/
def BeginsWithMethod (line : Bytes) : Prop :=
  ∃ m : HttpRequest.Method, m ≠ .kInvalid ∧ m.methodString ++ [SP] <+: line

theorem beginsWithMethod_iff {line : Bytes} :
    BeginsWithMethod line ↔ methodOf line ≠ .kInvalid := by
  constructor
  · rintro ⟨m, hm, rest, rfl⟩
    have hline : m.methodString ++ [SP] ++ rest =
        m.methodString ++ SP :: rest := by
      rw [List.append_assoc, List.singleton_append]
    have hspace : (m.methodString ++ SP :: rest).idxOf SP =
        m.methodString.length :=
      idxOf_append_cons m.notMem_methodString.1 rest
    rw [hline, methodOf, if_pos (by simp), hspace, List.take_left,
      HttpRequest.Method.ofBytes_methodString hm]
    exact hm
  · intro h
    unfold methodOf at h
    split at h
    next hspace =>
      refine ⟨_, h, line.drop (line.idxOf SP + 1), ?_⟩
      rw [HttpRequest.Method.methodString_ofBytes h, List.append_assoc,
        List.singleton_append]
      exact take_idxOf_append_drop hspace
    · exact absurd rfl h

/-- A line without a method leaves an empty request empty. -/
theorem processRequestLine_of_methodOf {line : Bytes}
    (h : methodOf line = .kInvalid) :
    processRequestLine {} line = (false, {}) := by
  unfold methodOf at h
  split at h
  next hspace =>
    have hlong : line.idxOf SP ≠ line.length :=
      ne_of_lt (List.idxOf_lt_length_of_mem hspace)
    simp [processRequestLine, hlong, HttpRequest.setMethod, h]
  next hspace =>
    simp [processRequestLine, List.idxOf_eq_length hspace]

/-- A line with a method leaves it in the request, accepted or not. -/
theorem method_processRequestLine {line : Bytes}
    (h : methodOf line ≠ .kInvalid) (request : HttpRequest) :
    (processRequestLine request line).2.method = methodOf line := by
  unfold methodOf at h ⊢
  split at h
  next hspace =>
    have hlong : line.idxOf SP ≠ line.length :=
      ne_of_lt (List.idxOf_lt_length_of_mem hspace)
    rw [if_pos hspace]
    simp only [processRequestLine, if_neg hlong, HttpRequest.setMethod, ne_eq,
      h, not_false_eq_true, decide_true, if_true]
    split
    · rfl
    · rw [setHttpVersion_method, setTarget_method]
  · exact absurd rfl h

/-! ## The assertion -/

namespace ParseLoop

/-- The iterations of a call. -/
inductive Reaches : ParseLoop → ParseLoop → Prop
  | refl (l : ParseLoop) : Reaches l l
  | step {l l' l'' : ParseLoop} (hmore : l.hasMore = true)
      (hstep : parseStep l = .ok l') (hrest : Reaches l' l'') : Reaches l l''

/-- `assert(method_ == kInvalid)`, where an iteration calls `setMethod`. -/
def MethodUnset (l : ParseLoop) : Prop :=
  ∀ line, l.context.state = .kExpectRequestLine → HasLine l.buf line →
    SP ∈ line → l.context.request.method = .kInvalid

/-- Behind the request line a call does not return to it. -/
theorem Reaches.behind {l l' : ParseLoop} (h : Reaches l l')
    (hstate : l.context.state ≠ .kExpectRequestLine) :
    l'.context.state ≠ .kExpectRequestLine := by
  induction h with
  | refl => exact hstate
  | step hmore hstep hrest ih =>
      rcases parseStep_cases hstep with
        ⟨hline, -⟩ | ⟨line, hrejects, -⟩ | ⟨hbehind, -⟩
      · exact absurd hline hstate
      · exact absurd hrejects.state hstate
      · exact ih hbehind

/-- A call processes one request line at most, and that at its start. -/
theorem Reaches.start_or {l l' : ParseLoop} (h : Reaches l l')
    (hmore : l'.hasMore = true) :
    l' = l ∨ l'.context.state ≠ .kExpectRequestLine := by
  cases h with
  | refl => exact .inl rfl
  | step _ hstep hrest =>
      rcases parseStep_cases hstep with
        ⟨-, -, rfl⟩ | ⟨line, -, rfl⟩ | ⟨hbehind, -⟩
      · cases hrest with
        | refl => cases hmore
        | step hmore' => cases hmore'
      · cases hrest with
        | refl => cases hmore
        | step hmore' => cases hmore'
      · exact .inr (hrest.behind hbehind)

end ParseLoop

/-- In front of a request line the request is empty. -/
def Pristine (context : HttpContext) : Prop :=
  context.state = .kExpectRequestLine → context.request = {}

theorem pristine_fresh (close : Bool) : (HttpContext.fresh close).Pristine :=
  fun _ => rfl

theorem pristine_reset (context : HttpContext) : context.reset.Pristine :=
  fun _ => rfl

end HttpContext

/-! ## Reads of a connection -/

namespace HttpServer

variable {httpCallback : HttpCallback} {conn conn' : HttpConnection}
  {read : Read}

/-- The bytes that `onMessage` finds after a read. -/
def found (conn : HttpConnection) (read : Read) : Bytes :=
  Buffer.append conn.inputBuffer read.chunk

/-- A read and the call of `onMessage` after it.  Nothing is left of a
connection whose call does not return. -/
def readStep (httpCallback : HttpCallback) :
    Option HttpConnection → Read → Option HttpConnection
  | none, _ => none
  | some conn, read =>
      match onMessage httpCallback read.garbage
        { conn with inputBuffer := found conn read } with
      | .returned conn _ _ => some conn
      | _ => none

/-- The call after a read meets the assertion, leaves the context alone when
it rejects a request line, and leaves an empty request in front of the next
request line. -/
structure KeepsPristine (httpCallback : HttpCallback) (conn : HttpConnection)
    (read : Read) : Prop where
  assertion : ∀ l : ParseLoop,
    ParseLoop.Reaches
        { bodyLenth := read.garbage, context := conn.context
          buf := found conn read } l →
      l.hasMore = true → l.MethodUnset
  unchanged : ∀ context buf,
    parseRequest read.garbage conn.context (found conn read) =
        .returned false context buf → context = conn.context
  pristine : ∀ conn', readStep httpCallback (some conn) read = some conn' →
    conn'.context.Pristine

/-- In front of a request line, the buffer begins with a line that begins with
a method and is no request line. -/
def LateRejection (conn : HttpConnection) (read : Read) : Prop :=
  conn.context.state = .kExpectRequestLine ∧
    ∃ line, HasLine (found conn read) line ∧ BeginsWithMethod line ∧
      ¬ ∃ r : RequestLine, line = r.bytes

theorem lateRejection_iff :
    LateRejection conn read ↔
      ∃ line, conn.context.Rejects (found conn read) line ∧
        methodOf line ≠ .kInvalid := by
  constructor
  · rintro ⟨hstate, line, hline, hmethod, hrejected⟩
    refine ⟨line, ⟨hstate, hline, ?_⟩, beginsWithMethod_iff.mp hmethod⟩
    rwa [Bool.eq_false_iff, ne_eq, processRequestLine_fst]
  · rintro ⟨line, hrejects, hmethod⟩
    refine ⟨hrejects.state, line, hrejects.hasLine,
      beginsWithMethod_iff.mpr hmethod, ?_⟩
    rw [← processRequestLine_fst conn.context.request, hrejects.rejected]
    decide

/-- A line that is rejected behind its method stays in the request. -/
theorem not_keepsPristine (h : LateRejection conn read) :
    ¬ KeepsPristine httpCallback conn read := by
  intro hkeeps
  obtain ⟨line, hrejects, hmethod⟩ := lateRejection_iff.mp h
  have hcall := onMessage_of_rejects httpCallback hrejects read.garbage
  have hempty : (processRequestLine conn.context.request line).2 = {} :=
    hkeeps.pristine ⟨conn.context.afterLine line, found conn read⟩
      (by simp [readStep, hcall]) hrejects.state
  have hset := method_processRequestLine hmethod conn.context.request
  rw [hempty] at hset
  exact hmethod hset.symm

/-- Any other line that is rejected leaves an empty request empty. -/
theorem afterLine_of_rejects (hpristine : conn.context.Pristine)
    (h : ¬ LateRejection conn read) {line : Bytes}
    (hrejects : conn.context.Rejects (found conn read) line) :
    conn.context.afterLine line = conn.context := by
  have hmethod : methodOf line = .kInvalid := by
    by_contra hmethod
    exact h (lateRejection_iff.mpr ⟨line, hrejects, hmethod⟩)
  rw [HttpContext.afterLine, hpristine hrejects.state,
    processRequestLine_of_methodOf hmethod, ← hpristine hrejects.state]

theorem pristine_readStep (hpristine : conn.context.Pristine)
    (h : ¬ LateRejection conn read)
    (hstep : readStep httpCallback (some conn) read = some conn') :
    conn'.context.Pristine := by
  simp only [readStep, onMessage] at hstep
  cases hparse : parseRequest read.garbage conn.context (found conn read) with
  | threw exception => simp [hparse] at hstep
  | spinning => simp [hparse] at hstep
  | returned ok context buf =>
      have hcontext : context.Pristine := by
        rcases parseRequest_cases hparse with
          ⟨-, -, rfl⟩ | ⟨-, -, line, hrejects, rfl⟩ | ⟨-, hbehind⟩
        · exact hpristine
        · rw [afterLine_of_rejects hpristine h hrejects]
          exact hpristine
        · exact fun hstate => absurd hstate hbehind
      simp only [hparse] at hstep
      split at hstep
      next hcall =>
        split at hcall
        · cases hcall
          cases hstep
          exact pristine_reset _
        · cases hcall
          cases hstep
          exact hcontext
      · cases hstep

theorem keepsPristine_iff (hpristine : conn.context.Pristine) :
    KeepsPristine httpCallback conn read ↔ ¬ LateRejection conn read := by
  constructor
  · exact fun hkeeps hlate => not_keepsPristine hlate hkeeps
  · intro h
    refine ⟨?_, ?_, fun conn' => pristine_readStep hpristine h⟩
    · intro l hreaches hmore line hstate _ _
      rcases hreaches.start_or hmore with rfl | hbehind
      · rw [hpristine hstate]
      · exact absurd hstate hbehind
    · intro context buf hparse
      rcases parseRequest_cases hparse with
        ⟨hok, -⟩ | ⟨-, -, line, hrejects, rfl⟩ | ⟨hok, -⟩
      · cases hok
      · exact afterLine_of_rejects hpristine h hrejects
      · cases hok

/-- What holds of a connection, if it is still there. -/
def IfThere (P : HttpConnection → Read → Prop) (s : Option HttpConnection)
    (read : Read) : Prop :=
  ∀ conn, s = some conn → P conn read

/-- Over the reads of a connection, every call keeps the request pristine
exactly when no call rejects a request line behind its method. -/
theorem keepsPristine_reads_iff (httpCallback : HttpCallback) (close : Bool)
    (reads : List Read) :
    EveryStep (readStep httpCallback) (IfThere (KeepsPristine httpCallback))
        (some ⟨.fresh close, []⟩) reads ↔
      EveryStep (readStep httpCallback)
        (IfThere fun conn read => ¬ LateRejection conn read)
        (some ⟨.fresh close, []⟩) reads := by
  apply everyStep_iff (readStep httpCallback) _
    (fun s => ∀ conn, s = some conn → conn.context.Pristine)
  · intro s read _ hkeeps conn' hnext
    cases s with
    | none => cases hnext
    | some conn => exact (hkeeps conn rfl).pristine conn' hnext
  · intro s read hpristine
    exact forall₂_congr fun conn hconn =>
      keepsPristine_iff (hpristine conn hconn)
  · rintro conn ⟨rfl⟩
    exact pristine_fresh close

end HttpServer

/-- One read, with a request line of a version that the parser does not
know. -/
def unknownVersionRead : Read := ⟨unknownVersion, 0⟩

/-- The method of the rejected line is still there when the next line comes. -/
theorem not_keepsPristine_unknownVersion :
    ¬ ∀ (httpCallback : HttpCallback) (close : Bool) (reads : List Read),
      EveryStep (HttpServer.readStep httpCallback)
        (HttpServer.IfThere (HttpServer.KeepsPristine httpCallback))
        (some ⟨.fresh close, []⟩) reads := by
  intro h
  have hkeeps := (h (fun _ response => response) false [unknownVersionRead]).1
    ⟨.fresh false, []⟩ rfl
  have hlate : HttpServer.LateRejection ⟨.fresh false, []⟩
      unknownVersionRead :=
    HttpServer.lateRejection_iff.mpr ⟨ascii "GET / HTTP/1.2",
      ⟨rfl, ⟨by decide, [], by decide⟩, by decide⟩, by decide⟩
  exact HttpServer.not_keepsPristine hlate hkeeps

end MuduoHttp
