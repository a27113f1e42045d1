import MuduoHttp.Http.HttpContext
import MuduoHttp.Support.Reader

/-!
# The parse loop as a resumable reader

One iteration of the loop is one look of a reader whose state is the context
together with `body_lenth`.  The reader keeps that local between calls, which
the code does not; `parseRequest` is one drain of the reader, and the two
differ only in what the next call starts from.
-/

namespace MuduoHttp

open Support

namespace HttpContext

/-- What the loop carries from one iteration to the next. -/
structure ParseFrame where
  context : HttpContext
  bodyLenth : ℤ

/-- What ends a call for good: the return value with the context, or an
exception. -/
abbrev ParseEnd := Except StdException (Bool × HttpContext)

/-- One iteration, seen from outside the loop.  The only exit that may be
revised by later input is the one taken for want of input. -/
def look (f : ParseFrame) (buf : Bytes) : Look ParseFrame ParseEnd Byte :=
  match f.context.state with
  | .kExpectRequestLine =>
      match Buffer.findCRLF buf with
      | none => .wait
      | some crlf =>
          match processRequestLine f.context.request (buf.take crlf) with
          | (true, request) =>
              .move { f with
                context :=
                  { f.context with
                    request := request, state := .kExpectHeaders } }
                (buf.drop (crlf + 2))
          | (false, request) =>
              .halt (.ok (false, { f.context with request := request })) buf
  | .kExpectHeaders =>
      match Buffer.findCRLF buf with
      | none => .wait
      | some crlf =>
          if COLON ∈ buf.take crlf then
            .move { f with
              context :=
                { f.context with
                  request := f.context.request.addHeader (buf.take crlf)
                    ((buf.take crlf).idxOf COLON) } }
              (buf.drop (crlf + 2))
          else if f.context.request.getHeader contentLength = [] then
            .halt (.ok (true, { f.context with state := .kGotAll }))
              (buf.drop (crlf + 2))
          else
            match stoi (f.context.request.getHeader contentLength) with
            | .error exception => .halt (.error exception) buf
            | .ok length =>
                .move ⟨{ f.context with state := .kExpectBody }, length⟩
                  (buf.drop (crlf + 2))
  | .kExpectBody =>
      if sizeT f.bodyLenth ≤ buf.length then
        .halt (.ok (true,
          { f.context with
            request := f.context.request.setBody (buf.take (sizeT f.bodyLenth))
            state := .kGotAll })) buf
      else .wait
  | .kGotAll => .wait

variable {f f' : ParseFrame} {buf rest : Bytes} {crlf : ℕ}

/-- One iteration of the loop does what the look says. -/
theorem parseStep_eq (hstate : f.context.state ≠ .kGotAll) (buf : Bytes) :
    parseStep { bodyLenth := f.bodyLenth, context := f.context, buf := buf } =
      match look f buf with
      | .wait =>
          .ok { hasMore := false, bodyLenth := f.bodyLenth
                context := f.context, buf := buf }
      | .move f' rest =>
          .ok { bodyLenth := f'.bodyLenth, context := f'.context, buf := rest }
      | .halt (.ok (ok, context)) rest =>
          .ok { ok := ok, hasMore := false, bodyLenth := f.bodyLenth
                context := context, buf := rest }
      | .halt (.error exception) _ => .error exception := by
  obtain ⟨context, n⟩ := f
  cases hcase : context.state with
  | kExpectRequestLine =>
      simp only [parseStep, look, hcase]
      cases Buffer.findCRLF buf with
      | none => simp
      | some crlf =>
          cases hline :
              processRequestLine context.request (buf.take crlf) with
          | mk ok request => cases ok <;> simp [hline]
  | kExpectHeaders =>
      simp only [parseStep, look, hcase]
      cases Buffer.findCRLF buf with
      | none => simp
      | some crlf =>
          simp only [Buffer.retrieveUntil_eq_drop]
          generalize buf.take crlf = line
          by_cases hmem : COLON ∈ line
          · have hcolon : line.idxOf COLON ≠ line.length := by
              simpa [List.idxOf_eq_length_iff] using hmem
            simp [hcolon, hmem]
          · by_cases hempty : context.request.getHeader contentLength = []
            · simp [hmem, hempty]
            · cases hstoi : stoi (context.request.getHeader contentLength) with
              | error exception => simp [hmem, hempty]
              | ok length => simp [hmem, hempty]
  | kExpectBody =>
      simp only [parseStep, look, hcase]
      by_cases hfits : sizeT n ≤ buf.length <;> simp [hfits]
  | kGotAll => exact absurd hcase hstate

/-! ## The reader -/

theorem take_append_of_findCRLF (h : Buffer.findCRLF buf = some crlf)
    (data : Bytes) : (buf ++ data).take crlf = buf.take crlf := by
  have hfits := Buffer.findCRLF_add_two_le h
  exact List.take_append_of_le_length (by omega)

theorem drop_append_of_findCRLF (h : Buffer.findCRLF buf = some crlf)
    (data : Bytes) :
    (buf ++ data).drop (crlf + 2) = buf.drop (crlf + 2) ++ data :=
  List.drop_append_of_le_length (Buffer.findCRLF_add_two_le h)

/-- A move consumes the first line and does not lead to `kGotAll`. -/
theorem look_move (h : look f buf = .move f' rest) :
    f'.context.state ≠ .kGotAll ∧
      ∃ crlf, Buffer.findCRLF buf = some crlf ∧
        rest = buf.drop (crlf + 2) := by
  unfold look at h
  split at h
  · split at h
    · cases h
    next crlf hcrlf =>
      split at h <;> cases h
      exact ⟨by simp, crlf, hcrlf, rfl⟩
  next hstate =>
    split at h
    · cases h
    next crlf hcrlf =>
      split_ifs at h
      · cases h
        exact ⟨by simp [hstate], crlf, hcrlf, rfl⟩
      · split at h <;> cases h
        exact ⟨by simp, crlf, hcrlf, rfl⟩
  · split_ifs at h
  · cases h

theorem look_move_shorter (h : look f buf = .move f' rest) :
    rest.length < buf.length := by
  obtain ⟨-, crlf, hcrlf, rfl⟩ := look_move h
  have hfits := Buffer.findCRLF_add_two_le hcrlf
  rw [List.length_drop]
  omega

theorem look_append (data : Bytes) (h : look f buf ≠ .wait) :
    look f (buf ++ data) = (look f buf).append data := by
  cases hstate : f.context.state with
  | kExpectRequestLine =>
      simp only [look, hstate] at h ⊢
      cases hcrlf : Buffer.findCRLF buf with
      | none => simp [hcrlf] at h
      | some crlf =>
          simp only [Buffer.findCRLF_append hcrlf,
            take_append_of_findCRLF hcrlf, drop_append_of_findCRLF hcrlf]
          split <;> rfl
  | kExpectHeaders =>
      simp only [look, hstate] at h ⊢
      cases hcrlf : Buffer.findCRLF buf with
      | none => simp [hcrlf] at h
      | some crlf =>
          simp only [Buffer.findCRLF_append hcrlf,
            take_append_of_findCRLF hcrlf, drop_append_of_findCRLF hcrlf]
          split
          · rfl
          · split
            · rfl
            · cases stoi (f.context.request.getHeader contentLength) <;> rfl
  | kExpectBody =>
      simp only [look, hstate] at h ⊢
      by_cases hfits : sizeT f.bodyLenth ≤ buf.length
      · have hmore : sizeT f.bodyLenth ≤ (buf ++ data).length := by
          rw [List.length_append]
          omega
        rw [if_pos hfits, if_pos hmore, List.take_append_of_le_length hfits]
        rfl
      · simp [hfits] at h
  | kGotAll => simp [look, hstate] at h

/-- The parse loop as a resumable reader. -/
def requestReader : Reader ParseFrame ParseEnd Byte where
  look := look
  move_shorter := look_move_shorter
  look_append := look_append

/-- The frame of a call that starts in `context`. -/
abbrev drainRequest (n : ℤ) (context : HttpContext) (buf : Bytes) :
    Drained ParseFrame ParseEnd Byte :=
  requestReader.drain ⟨context, n⟩ buf

/-- A parser without input is idle. -/
theorem drain_nil {f : ParseFrame}
    (hstate : f.context.state = .kExpectRequestLine) :
    requestReader.drain f [] = .idle f [] :=
  Reader.drain_of_wait (by
    simp [requestReader, look, hstate, Buffer.findCRLF, search, CRLF])

/-- A drained parser, reported the way the call reports it. -/
def ParseCall.ofDrained : Drained ParseFrame ParseEnd Byte → ParseCall
  | .idle f rest => .returned true f.context rest
  | .halted (.ok (ok, context)) rest => .returned ok context rest
  | .halted (.error exception) _ => .threw exception

/-- A waiting parser has not got everything; a halted one has exactly when it
reports success. -/
def GotAllAgrees : Drained ParseFrame ParseEnd Byte → Prop
  | .idle f _ => f.context.state ≠ .kGotAll
  | .halted (.ok (ok, context)) _ => context.gotAll = ok
  | .halted (.error _) _ => True

theorem gotAllAgrees_drain (hstate : f.context.state ≠ .kGotAll)
    (buf : Bytes) :
    GotAllAgrees (requestReader.drain f buf) := by
  induction f, buf using Reader.drain_induction (R := requestReader) with
  | wait f buf hlook =>
      rw [Reader.drain_of_wait hlook]
      exact hstate
  | move f buf f' rest hlook ih =>
      rw [Reader.drain_of_move hlook]
      exact ih (look_move hlook).1
  | halt f buf r rest hlook =>
      rw [Reader.drain_of_halt hlook]
      change look f buf = _ at hlook
      unfold look at hlook
      split at hlook
      next hcase =>
        split at hlook
        · cases hlook
        · split at hlook <;> cases hlook
          simp [GotAllAgrees, gotAll, hcase]
      · split at hlook
        · cases hlook
        · split_ifs at hlook
          · cases hlook
            simp [GotAllAgrees, gotAll]
          · split at hlook <;> cases hlook
            trivial
      · split_ifs at hlook
        cases hlook
        simp [GotAllAgrees, gotAll]
      · cases hlook

/-! ## The iterations of a call -/

/-- The loop ends after `n` iterations, the one that throws included. -/
inductive ParseLoop.Ends : ParseLoop → ℕ → ParseCall → Prop
  | returned {l : ParseLoop} (hmore : l.hasMore = false) :
      Ends l 0 (.returned l.ok l.context l.buf)
  | threw {l : ParseLoop} {exception : StdException}
      (hmore : l.hasMore = true) (hstep : parseStep l = .error exception) :
      Ends l 1 (.threw exception)
  | step {l l' : ParseLoop} {n : ℕ} {call : ParseCall}
      (hmore : l.hasMore = true) (hstep : parseStep l = .ok l')
      (hrest : Ends l' n call) : Ends l (n + 1) call

/-- Enough fuel lets a loop that ends do so. -/
theorem ParseLoop.Ends.parseLoop {l : ParseLoop} {n fuel : ℕ}
    {call : ParseCall} (h : l.Ends n call) (hfuel : n < fuel) :
    parseLoop fuel l = call := by
  induction h generalizing fuel with
  | returned hmore =>
      obtain ⟨fuel, rfl⟩ : ∃ k, fuel = k + 1 := ⟨fuel - 1, by omega⟩
      simp [HttpContext.parseLoop, hmore]
  | threw hmore hstep =>
      obtain ⟨fuel, rfl⟩ : ∃ k, fuel = k + 1 := ⟨fuel - 1, by omega⟩
      simp [HttpContext.parseLoop, hmore, hstep]
  | step hmore hstep hrest ih =>
      obtain ⟨fuel, rfl⟩ : ∃ k, fuel = k + 1 := ⟨fuel - 1, by omega⟩
      have hend := ih (Nat.lt_of_succ_lt_succ hfuel)
      simp [HttpContext.parseLoop, hmore, hstep, hend]

/-- One iteration for each look of the drain. -/
theorem ends_drain (hstate : f.context.state ≠ .kGotAll) (buf : Bytes) :
    ParseLoop.Ends
      { bodyLenth := f.bodyLenth, context := f.context, buf := buf }
      (requestReader.looks f buf) (.ofDrained (requestReader.drain f buf)) := by
  induction f, buf using Reader.drain_induction (R := requestReader) with
  | wait f buf hlook =>
      have hstep := parseStep_eq hstate buf
      rw [show look f buf = .wait from hlook] at hstep
      rw [Reader.looks_of_wait hlook, Reader.drain_of_wait hlook]
      exact .step rfl hstep (.returned rfl)
  | move f buf f' rest hlook ih =>
      have hstep := parseStep_eq hstate buf
      rw [show look f buf = .move f' rest from hlook] at hstep
      rw [Reader.looks_of_move hlook, Reader.drain_of_move hlook]
      exact .step rfl hstep (ih (look_move hlook).1)
  | halt f buf r rest hlook =>
      have hstep := parseStep_eq hstate buf
      rw [show look f buf = .halt r rest from hlook] at hstep
      rw [Reader.looks_of_halt hlook, Reader.drain_of_halt hlook]
      cases r with
      | error exception => exact .threw rfl hstep
      | ok result =>
          obtain ⟨ok, context⟩ := result
          exact .step rfl hstep (.returned rfl)

theorem parseLoop_eq_drain (hstate : f.context.state ≠ .kGotAll)
    {fuel : ℕ} (hfuel : buf.length + 2 ≤ fuel) :
    parseLoop fuel
        { bodyLenth := f.bodyLenth, context := f.context, buf := buf } =
      .ofDrained (requestReader.drain f buf) := by
  have hlooks := requestReader.looks_le_length f buf
  exact (ends_drain hstate buf).parseLoop (by omega)

/-- Outside `kGotAll`, one call of `parseRequest` is one drain. -/
theorem parseRequest_eq_drain {context : HttpContext}
    (hstate : context.state ≠ .kGotAll) (garbage : ℤ) (buf : Bytes) :
    parseRequest garbage context buf =
      .ofDrained (drainRequest garbage context buf) :=
  parseLoop_eq_drain (f := ⟨context, garbage⟩) hstate le_rfl

/-! ## The uninitialised local -/

/-- Two frames that every later input treats alike: `body_lenth` counts in the
body state only. -/
def SameParse (f g : ParseFrame) : Prop :=
  f.context = g.context ∧
    (f.context.state = .kExpectBody → f.bodyLenth = g.bodyLenth)

theorem look_related {g : ParseFrame} (h : SameParse f g) (buf : Bytes) :
    Look.Related SameParse (requestReader.look f buf)
      (requestReader.look g buf) := by
  obtain ⟨context, n⟩ := f
  obtain ⟨context', m⟩ := g
  obtain ⟨rfl, hn⟩ := h
  simp only [requestReader, look]
  split
  next hstate =>
    split
    · exact .wait
    · split
      · exact .move _ ⟨rfl, by simp⟩
      · exact .halt _ _
  next hstate =>
    split
    · exact .wait
    · split_ifs
      · exact .move _ ⟨rfl, by simp [hstate]⟩
      · exact .halt _ _
      · split
        · exact .halt _ _
        · exact .move _ ⟨rfl, fun _ => rfl⟩
  next hstate =>
    obtain rfl := hn hstate
    split_ifs
    · exact .halt _ _
    · exact .wait
  · exact .wait

/-- A call that does not start in the body state does not depend on the
initial value of `body_lenth`. -/
theorem drain_related {g : ParseFrame} (h : SameParse f g) (buf : Bytes) :
    Drained.Related SameParse (requestReader.drain f buf)
      (requestReader.drain g buf) :=
  Reader.drain_related (fun _ _ xs hst => look_related hst xs) h buf

end HttpContext

end MuduoHttp
