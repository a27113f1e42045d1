import MuduoHttp.Http.ParseReads

/-!
# Cutting a request into reads

The parser keeps everything it has read in the context, except the announced
length of the body: `body_lenth` is a local variable of `parseRequest`, and a
call that resumes in the body state reads it without having assigned it.

Reading in chunks therefore gives what reading at once gives, for every value
of the unassigned local, exactly when no read ends inside an announced body
with another read after it.
-/

namespace MuduoHttp

open Support HttpContext

/-- Reading in these chunks shows what one call on all the bytes shows,
whatever the uninitialised local holds in each call. -/
def ChunkInvariant (chunks : List Bytes) : Prop :=
  ∀ (close : Bool) (garbage : ℤ) (reads : List Read),
    reads.map (·.chunk) = chunks →
      (parseReads (fresh close) [] reads).observed =
        (parseRequest garbage (fresh close) chunks.flatten).observed

/-- A read that is not the last one ends inside an announced body. -/
def CutInsideBody (chunks : List Bytes) : Prop :=
  ∃ before after, chunks = before ++ after ∧ after ≠ [] ∧
    ∃ (h : RequestHead) (part : Bytes),
      before.flatten = h.bytes ++ part ∧ h.AwaitsBody part

/-- Some call resumes in the body state exactly when a read ended inside an
announced body. -/
theorem entersBody_iff {close : Bool} {n : ℤ} {reads : List Read} :
    EntersBody ⟨fresh close, n⟩ [] reads ↔
      CutInsideBody (reads.map (·.chunk)) := by
  constructor
  · rintro ⟨before, after, rfl, hne, hidle⟩
    refine ⟨before.map (·.chunk), after.map (·.chunk), by simp, by simpa, ?_⟩
    exact (drain_body_iff rfl rfl).mp hidle
  · rintro ⟨before, after, hsplit, hne, hawaits⟩
    obtain ⟨first, last, rfl, rfl, rfl⟩ := List.map_eq_append_iff.mp hsplit
    refine ⟨first, last, rfl, by simpa using hne, ?_⟩
    exact (drain_body_iff rfl rfl).mpr hawaits

/-- The calls on a fresh context show what one drain of all the bytes shows,
unless a read ends inside an announced body; then they return true. -/
theorem parseReads_fresh (close : Bool) (n : ℤ) {chunks : List Bytes}
    {reads : List Read} (hreads : reads.map (·.chunk) = chunks) :
    (CutInsideBody chunks ∧
        ∃ context buf, parseReads (fresh close) [] reads =
          .returned true context buf) ∨
      (parseReads (fresh close) [] reads).observed =
        (ParseCall.ofDrained
          (drainRequest n (fresh close) chunks.flatten)).observed := by
  subst hreads
  rcases parseReads_cases (f := ⟨fresh close, n⟩) (by simp [fresh])
      (drain_nil rfl) reads with ⟨henters, hret⟩ | hobs
  · exact .inl ⟨entersBody_iff.mp henters, hret⟩
  · exact .inr hobs

/-! ## A stack slot that holds zero -/

/-- When the stack slot holds zero, the first call that resumes in the body
state reports a request with an empty body. -/
theorem parseReads_of_entersBody {start f : ParseFrame} {seen buf : Bytes}
    {reads : List Read} (hgot : f.context.state ≠ .kGotAll)
    (hidle : requestReader.drain start seen = .idle f buf)
    (henters : EntersBody start seen reads)
    (hzero : ∀ read ∈ reads, read.garbage = 0) :
    ∃ context buf', parseReads f.context buf reads =
        .returned true context buf' ∧
      context.gotAll = true ∧ context.request.body = [] := by
  induction reads generalizing f buf seen with
  | nil =>
      obtain ⟨before, after, hsplit, hne, -⟩ := henters
      exact absurd (List.append_eq_nil_iff.mp hsplit.symm).2 hne
  | cons read reads ih =>
      have hread : read.garbage = 0 := hzero read (List.mem_cons_self ..)
      by_cases hbody : f.context.state = .kExpectBody
      · rw [parseReads, parseRequest_body hbody, hread,
          if_pos (by simp [sizeT])]
        exact ⟨_, _, if_pos rfl, rfl, by simp [HttpRequest.setBody, sizeT]⟩
      -- The call does not start in the body state, so a later one does.
      obtain ⟨before, after, hsplit, hne, g, rest, hg, hgbody⟩ := henters
      cases before with
      | nil =>
          rw [readBytes_nil, List.append_nil, hidle] at hg
          cases hg
          exact absurd hgbody hbody
      | cons first before =>
          obtain ⟨rfl, rfl⟩ := List.cons_eq_cons.mp hsplit
          rw [readBytes_cons, ← List.append_assoc] at hg
          have hresume := Reader.drain_append_of_idle hidle read.chunk
          rw [parseReads]
          rcases parseRequest_resumed hgot hbody read.garbage
              (Buffer.append buf read.chunk) with
            ⟨f', more, hdrain, hgot', hcall⟩ | ⟨result, more, hdrain, hcall⟩
          · have hnot : f'.context.gotAll = false := by simp [gotAll, hgot']
            simp only [hcall, hnot, Bool.false_eq_true, if_false]
            exact ih hgot' (hresume.trans hdrain)
              ⟨before, after, rfl, hne, g, rest, hg, hgbody⟩
              (fun r hr => hzero r (List.mem_cons_of_mem _ hr))
          · have hend := Reader.drain_append_of_halted
              (hresume.trans hdrain) (readBytes before)
            rw [hg] at hend
            cases hend

/-- One call on the whole input never reports an empty body for a head that
announces more than `part`. -/
theorem observed_of_awaitsBody {h : RequestHead} {part : Bytes}
    (hawaits : h.AwaitsBody part) (close : Bool) (garbage : ℤ)
    (more : Bytes) {context : HttpContext} {buf : Bytes}
    (hgot : context.gotAll = true) (hbody : context.request.body = []) :
    (parseRequest garbage (fresh close) (h.bytes ++ (part ++ more))).observed ≠
      (ParseCall.returned true context buf).observed := by
  obtain ⟨hne, length, hstoi, hshort⟩ := hawaits
  rw [parseRequest_eq_drain (by simp [fresh]), drain_head rfl rfl,
    RequestHead.outcome, if_neg hne, hstoi]
  simp only [gotAll, decide_eq_true_eq] at hgot
  by_cases hfits : sizeT length ≤ (part ++ more).length
  · intro hobs
    simp only [if_pos hfits, ParseCall.ofDrained, ParseCall.observed,
      Option.some.injEq, Except.ok.injEq, Prod.mk.injEq] at hobs
    have hempty : (part ++ more).take (sizeT length) = [] := by
      rw [← hobs.2.2] at hbody
      exact hbody
    have hlen := congrArg List.length hempty
    rw [List.length_take, List.length_nil] at hlen
    omega
  · intro hobs
    simp only [if_neg hfits, ParseCall.ofDrained, ParseCall.observed,
      Option.some.injEq, Except.ok.injEq, Prod.mk.injEq, hgot] at hobs
    cases hobs.2.1

/-! ## The exact condition -/

/-- The reads of the cut request that `chunkInvariant_iff` excludes: the body
arrives in a read of its own. -/
def cutRequest : List Bytes :=
  [ascii "POST / HTTP/1.1\r\nContent-Length: 2\r\n\r\n", ascii "hi"]

/-- Chunking invariance holds exactly when no read but the last one ends
inside an announced body. -/
theorem chunkInvariant_iff (chunks : List Bytes) :
    ChunkInvariant chunks ↔ ¬ CutInsideBody chunks := by
  constructor
  · intro hinvariant hcut
    let reads : List Read := chunks.map fun chunk => ⟨chunk, 0⟩
    have hchunks : reads.map (·.chunk) = chunks := by
      simp [reads, Function.comp_def]
    have henters : EntersBody ⟨fresh false, 0⟩ [] reads :=
      entersBody_iff.mpr (hchunks.symm ▸ hcut)
    obtain ⟨context, buf, hcalls, hgot, hbody⟩ :=
      parseReads_of_entersBody (by simp [fresh]) (drain_nil rfl) henters
        (by simp [reads])
    obtain ⟨before, after, rfl, -, h, part, hbefore, hawaits⟩ := hcut
    have hobs := hinvariant false 0 reads hchunks
    rw [hcalls, List.flatten_append, hbefore, List.append_assoc] at hobs
    exact observed_of_awaitsBody hawaits false 0 after.flatten hgot hbody
      hobs.symm
  · intro hcut close garbage reads hreads
    rw [parseRequest_eq_drain (by simp [fresh])]
    rcases parseReads_fresh close garbage hreads with ⟨hinside, -⟩ | hobs
    · exact absurd hinside hcut
    · exact hobs

/-- With the body in a read of its own and a stack slot that holds zero, the
request is reported without its body. -/
theorem not_chunkInvariant_cutRequest : ¬ ChunkInvariant cutRequest := by
  intro hinvariant
  have hobs := hinvariant false 0 (cutRequest.map fun chunk => ⟨chunk, 0⟩) rfl
  have hbody := congrArg (fun shown =>
    shown.map fun result => result.map fun seen => seen.2.2.body) hobs
  revert hbody
  decide

end MuduoHttp
