import MuduoHttp.Base.Bytes
import MuduoHttp.Support.Handoff
import MuduoHttp.Support.Transition

/-!
# Asynchronous logging

The threads of a program append lines to `currentBuffer_` under `mutex_`.  The
back end swaps all filled buffers for its own under the mutex, writes them to
the LogFile without it, and keeps two of them for the next swap.  The lines
are handed over in batches, and none is lost between the swaps.

The back end tests `running_` only between two batches.  What is appended
after its last swap is never written, whether or not `append` returned before
`stop` was called.
-/

namespace MuduoHttp

open Support

abbrev Line := Bytes

/-- `detail::kLargeBuffer`. -/
def kLargeBuffer : ℕ := 4000 * 1000

/-- A `detail::FixedBuffer<kLargeBuffer>`, by the lines that were appended to
it one after the other. -/
@[ext] structure LogBuffer where
  lines : List Line
  fits : lines.flatten.length < kLargeBuffer

namespace LogBuffer

def empty : LogBuffer := ⟨[], by decide⟩

instance : Inhabited LogBuffer := ⟨empty⟩

def data (b : LogBuffer) : Bytes := b.lines.flatten

def length (b : LogBuffer) : ℕ := b.data.length

def avail (b : LogBuffer) : ℕ := kLargeBuffer - b.length

/-- `FixedBuffer::append`: a line that does not fit is ignored. -/
def append (b : LogBuffer) (logline : Line) : LogBuffer :=
  if h : b.avail > logline.length then
    ⟨b.lines ++ [logline], by
      have hfits : b.lines.flatten.length + logline.length < kLargeBuffer :=
        Nat.add_lt_of_lt_sub' h
      simpa using hfits⟩
  else b

/-- `FixedBuffer::reset`. -/
def reset (_ : LogBuffer) : LogBuffer := empty

@[simp] theorem lines_empty : empty.lines = [] := rfl

theorem lines_append {b : LogBuffer} {logline : Line}
    (h : logline.length < b.avail) :
    (b.append logline).lines = b.lines ++ [logline] := by
  rw [append, dif_pos h]

theorem avail_empty : empty.avail = kLargeBuffer := rfl

end LogBuffer

/-- Where the back end stands in `threadFunc`. -/
inductive BackEnd
  | notStarted
  /-- Before the test of `running_`. -/
  | testing
  /-- Before the swap, without the mutex. -/
  | locking
  /-- In `cond_.waitForSeconds`, which has given the mutex back. -/
  | waiting
  /-- After the swap. -/
  | writing
  | returned
  deriving DecidableEq, Repr

/-- How far the call of `stop` is. -/
inductive StopCall
  | notCalled
  | called
  /-- `running_` is false, and `stop` joins the thread. -/
  | joining
  | returned
  deriving DecidableEq, Repr

structure AsyncLogging where
  running_ : Bool := false
  currentBuffer_ : Option LogBuffer := some .empty
  nextBuffer_ : Option LogBuffer := some .empty
  buffers_ : List LogBuffer := []
  backEnd : BackEnd := .notStarted
  newBuffer1 : Option LogBuffer := none
  newBuffer2 : Option LogBuffer := none
  buffersToWrite : List LogBuffer := []
  /-- The lines that were passed to the LogFile. -/
  output : List Line := []
  stopCall : StopCall := .notCalled
  /-- The lines appended before `stop` was called, while it ran, and after it
  returned, in the order in which their appends held the mutex. -/
  before : List Line := []
  during : List Line := []
  after : List Line := []
  /-- An assertion failed, or a null pointer was used. -/
  failed : Bool := false

/-- A step of the threads.  The part of `threadFunc` that is next depends on
where the back end stands; the parts are separated where other threads can
come between. -/
inductive LogAction
  | start
  | append (logline : Line)
  /-- The back end goes on; `now` is what `Timestamp::now` prints. -/
  | threadFunc (now : String)
  | callStop
  /-- `running_ = false` in `stop`. -/
  | clearRunning
  /-- `thread_.join` in `stop` returns. -/
  | join
  deriving DecidableEq, Repr

/-- A line that is appended is shorter than a buffer. -/
def LogAction.Fits : LogAction → Prop
  | .append logline => logline.length < kLargeBuffer
  | _ => True

instance : DecidablePred LogAction.Fits
  | .append logline => inferInstanceAs (Decidable (logline.length < _))
  | .start | .threadFunc _ | .callStop | .clearRunning | .join =>
      .isTrue trivial

namespace AsyncLogging

/-- The front end: `AsyncLogging::append` holds the mutex all the time. -/
def append (s : AsyncLogging) (logline : Line) : AsyncLogging :=
  match s.currentBuffer_ with
  | none => { s with failed := true }
  | some currentBuffer =>
      if currentBuffer.avail > logline.length then
        { s with currentBuffer_ := some (currentBuffer.append logline) }
      else
        -- `nextBuffer_`, or a new buffer when there is none
        let next := s.nextBuffer_.getD .empty
        { s with
          buffers_ := s.buffers_ ++ [currentBuffer]
          currentBuffer_ := some (next.append logline)
          nextBuffer_ := none }

/-- The line is on record as appended. -/
def record (s : AsyncLogging) (logline : Line) : AsyncLogging :=
  match s.stopCall with
  | .notCalled => { s with before := s.before ++ [logline] }
  | .called | .joining => { s with during := s.during ++ [logline] }
  | .returned => { s with after := s.after ++ [logline] }

/-- The buffer is there and has length 0. -/
def isFresh (newBuffer : Option LogBuffer) : Bool :=
  newBuffer.any fun b => b.length = 0

/-- The test of `running_`, and the assertions at the head of the loop. -/
def testRunning (s : AsyncLogging) : AsyncLogging :=
  if s.running_ then
    { s with
      backEnd := .locking
      failed := s.failed || !(isFresh s.newBuffer1 && isFresh s.newBuffer2 &&
        s.buffersToWrite.isEmpty) }
  else { s with backEnd := .returned }

/-- The rest of the critical section of the loop. -/
def swapBuffers (s : AsyncLogging) : AsyncLogging :=
  match s.currentBuffer_ with
  | none => { s with failed := true }
  | some currentBuffer =>
      let s := { s with
        currentBuffer_ := s.newBuffer1
        newBuffer1 := none
        buffers_ := s.buffersToWrite
        buffersToWrite := s.buffers_ ++ [currentBuffer]
        backEnd := .writing }
      if s.nextBuffer_.isNone then
        { s with nextBuffer_ := s.newBuffer2, newBuffer2 := none }
      else s

/-- The start of the critical section: the back end waits, once, if no buffer
is full. -/
def lockMutex (s : AsyncLogging) : AsyncLogging :=
  if s.buffers_.isEmpty then { s with backEnd := .waiting } else s.swapBuffers

/-- The message about buffers that are not written. -/
def droppedMessage (now : String) (buffers : ℕ) : Line :=
  ascii ("Dropped log messages at " ++ now ++ ", " ++ toString buffers ++
    " larger buffers\n")

/-- A missing buffer is replaced by the last of the written ones. -/
def refill (newBuffer : Option LogBuffer) (buffersToWrite : List LogBuffer) :
    Option LogBuffer × List LogBuffer :=
  if newBuffer.isNone then
    (buffersToWrite.getLast?.map LogBuffer.reset, buffersToWrite.dropLast)
  else (newBuffer, buffersToWrite)

/-- The rest of the loop after the critical section. -/
def writeBuffers (s : AsyncLogging) (now : String) : AsyncLogging :=
  let size := s.buffersToWrite.length
  let dropped := if size > 25 then [droppedMessage now (size - 2)] else []
  let buffersToWrite :=
    if size > 25 then s.buffersToWrite.take 2 else s.buffersToWrite
  let written := buffersToWrite.flatMap LogBuffer.lines
  let (newBuffer1, left) := refill s.newBuffer1 (buffersToWrite.take 2)
  let (newBuffer2, _) := refill s.newBuffer2 left
  { s with
    output := s.output ++ dropped ++ written
    newBuffer1 := newBuffer1
    newBuffer2 := newBuffer2
    buffersToWrite := []
    backEnd := .testing
    failed := s.failed || newBuffer1.isNone || newBuffer2.isNone ||
      s.buffersToWrite.isEmpty }

/-- The part of `threadFunc` that is next.  The wait ends after
`flushInterval_` at the latest, so the back end can always go on. -/
def threadFunc (s : AsyncLogging) (now : String) : AsyncLogging :=
  match s.backEnd with
  | .notStarted => s
  | .testing => s.testRunning
  | .locking => s.lockMutex
  | .waiting => s.swapBuffers
  | .writing => s.writeBuffers now
  | .returned => s

/-- `start` returns when the back end is about to enter its loop, and `stop`
is called once after it. -/
def step (s : AsyncLogging) : LogAction → AsyncLogging
  | .start =>
      if s.backEnd = .notStarted then
        { s with
          running_ := true
          newBuffer1 := some .empty
          newBuffer2 := some .empty
          backEnd := .testing }
      else s
  | .append logline => (s.append logline).record logline
  | .threadFunc now => s.threadFunc now
  | .callStop =>
      if s.backEnd ≠ .notStarted ∧ s.stopCall = .notCalled then
        { s with stopCall := .called }
      else s
  | .clearRunning =>
      if s.stopCall = .called then
        { s with running_ := false, stopCall := .joining }
      else s
  | .join =>
      if s.stopCall = .joining ∧ s.backEnd = .returned then
        { s with stopCall := .returned }
      else s

/-- The line is shorter than a buffer, and a swap takes at most 25 buffers. -/
def WithinLimits (s : AsyncLogging) (a : LogAction) : Prop :=
  a.Fits ∧ (s.step a).buffersToWrite.length ≤ 25

instance (s : AsyncLogging) (a : LogAction) : Decidable (s.WithinLimits a) :=
  inferInstanceAs (Decidable (_ ∧ _))

/-- The LogFile has the lines appended before the call of `stop`, each once
and in order, followed only by lines appended before `stop` returned. -/
def LosesNoLine (s : AsyncLogging) : Prop :=
  ∃ more, more <+: s.during ∧ s.output = s.before ++ more

/-! ## The circulation of the buffers -/

/-- What `threadFunc` asserts at the head of its loop. -/
def LoopReady (s : AsyncLogging) : Prop :=
  s.newBuffer1 = some .empty ∧ s.newBuffer2 = some .empty ∧
    s.buffersToWrite = []

/-- The buffers that the back end has where it stands. -/
def LocalsReady (s : AsyncLogging) : Prop :=
  match s.backEnd with
  | .notStarted | .returned => s.buffersToWrite = []
  | .testing | .locking | .waiting => s.LoopReady
  | .writing =>
      s.newBuffer1 = none ∧ s.buffersToWrite ≠ [] ∧
        (s.newBuffer2 = some .empty ∨
          s.newBuffer2 = none ∧ 2 ≤ s.buffersToWrite.length)

/-- There is a current buffer, the next one is empty, and it is missing only
while there is a full one. -/
structure Ready (s : AsyncLogging) : Prop where
  notFailed : s.failed = false
  current : s.currentBuffer_ ≠ none
  next : ∀ b, s.nextBuffer_ = some b → b = .empty
  spare : s.nextBuffer_ = none → s.buffers_ ≠ []
  locals : s.LocalsReady

variable {s : AsyncLogging}

theorem ready_empty : Ready {} where
  notFailed := rfl
  current := Option.some_ne_none _
  next _ h := (Option.some.inj h).symm
  spare h := absurd h (Option.some_ne_none _)
  locals := rfl

/-- An append has a current buffer, and a line that does not fit goes to an
empty buffer. -/
theorem Ready.append_cases (h : s.Ready) (logline : Line) :
    ∃ currentBuffer, s.currentBuffer_ = some currentBuffer ∧
      (logline.length < currentBuffer.avail ∧
          s.append logline =
            { s with currentBuffer_ := some (currentBuffer.append logline) } ∨
        currentBuffer.avail ≤ logline.length ∧
          s.append logline =
            { s with
              buffers_ := s.buffers_ ++ [currentBuffer]
              currentBuffer_ := some (LogBuffer.empty.append logline)
              nextBuffer_ := none }) := by
  obtain ⟨currentBuffer, hcurrent⟩ := Option.ne_none_iff_exists'.mp h.current
  refine ⟨currentBuffer, hcurrent, ?_⟩
  by_cases hfits : logline.length < currentBuffer.avail
  · exact .inl ⟨hfits, by simp [append, hcurrent, hfits]⟩
  · refine .inr ⟨Nat.le_of_not_lt hfits, ?_⟩
    have hnext : s.nextBuffer_.getD .empty = .empty := by
      cases hb : s.nextBuffer_ with
      | none => rfl
      | some b => exact h.next b hb
    simp [append, hcurrent, hfits, hnext]

theorem Ready.append (h : s.Ready) (logline : Line) :
    (s.append logline).Ready := by
  obtain ⟨currentBuffer, -, ⟨-, heq⟩ | ⟨-, heq⟩⟩ := h.append_cases logline
  · rw [heq]
    exact ⟨h.notFailed, Option.some_ne_none _, h.next, h.spare, h.locals⟩
  · rw [heq]
    exact ⟨h.notFailed, Option.some_ne_none _, by simp, fun _ => by simp,
      h.locals⟩

theorem Ready.record (h : s.Ready) (logline : Line) :
    (s.record logline).Ready := by
  unfold AsyncLogging.record
  split <;> exact ⟨h.notFailed, h.current, h.next, h.spare, h.locals⟩

theorem Ready.testRunning (h : s.Ready) (hloop : s.LoopReady) :
    s.testRunning.Ready := by
  obtain ⟨hone, htwo, hnone⟩ := hloop
  unfold AsyncLogging.testRunning
  split
  · have hfresh : isFresh (some .empty) = true := rfl
    refine ⟨?_, h.current, h.next, h.spare, ⟨hone, htwo, hnone⟩⟩
    simp [h.notFailed, hone, htwo, hnone, hfresh]
  · exact ⟨h.notFailed, h.current, h.next, h.spare, hnone⟩

/-- The swap hands over the full buffers and the current one, and the buffers
of the back end take their places. -/
theorem Ready.swapBuffers_eq (h : s.Ready) (hloop : s.LoopReady) :
    ∃ currentBuffer, s.currentBuffer_ = some currentBuffer ∧
      s.swapBuffers =
        { s with
          currentBuffer_ := some .empty
          newBuffer1 := none
          buffers_ := []
          buffersToWrite := s.buffers_ ++ [currentBuffer]
          backEnd := .writing
          nextBuffer_ := some .empty
          newBuffer2 :=
            if s.nextBuffer_ = none then none else some .empty } := by
  obtain ⟨currentBuffer, hcurrent⟩ := Option.ne_none_iff_exists'.mp h.current
  obtain ⟨hone, htwo, hnone⟩ := hloop
  refine ⟨currentBuffer, hcurrent, ?_⟩
  cases hnext : s.nextBuffer_ with
  | none => simp [AsyncLogging.swapBuffers, hcurrent, hone, htwo, hnone, hnext]
  | some b =>
      obtain rfl := h.next b hnext
      simp [AsyncLogging.swapBuffers, hcurrent, hone, htwo, hnone, hnext]

theorem Ready.swapBuffers (h : s.Ready) (hloop : s.LoopReady) :
    s.swapBuffers.Ready := by
  obtain ⟨currentBuffer, hcurrent, heq⟩ := h.swapBuffers_eq hloop
  rw [heq]
  refine ⟨h.notFailed, Option.some_ne_none _, fun b hb => ?_, by simp,
    ⟨rfl, by simp, ?_⟩⟩
  · exact (Option.some.inj hb).symm
  · by_cases hnext : s.nextBuffer_ = none
    · have hfull := List.length_pos_of_ne_nil (h.spare hnext)
      refine .inr ⟨if_pos hnext, ?_⟩
      simp only [List.length_append, List.length_singleton]
      omega
    · exact .inl (if_neg hnext)

theorem refill_some (b : LogBuffer) (left : List LogBuffer) :
    refill (some b) left = (some b, left) := rfl

theorem refill_none {left : List LogBuffer} (h : left ≠ []) :
    refill none left = (some .empty, left.dropLast) := by
  simp [refill, List.getLast?_eq_getLast_of_ne_nil h, LogBuffer.reset]

/-- After the batch is written the back end has two empty buffers again. -/
theorem Ready.writeBuffers_eq (h : s.Ready) (hphase : s.backEnd = .writing)
    (now : String) :
    ∃ written,
      (s.buffersToWrite.length ≤ 25 →
        written = s.buffersToWrite.flatMap LogBuffer.lines) ∧
      s.writeBuffers now =
        { s with
          output := s.output ++ written
          newBuffer1 := some .empty
          newBuffer2 := some .empty
          buffersToWrite := []
          backEnd := .testing } := by
  have hlocals := h.locals
  simp only [LocalsReady, hphase] at hlocals
  obtain ⟨hone, hne, htwo⟩ := hlocals
  -- At most two buffers are kept, whether or not some were dropped.
  have hkept : (if s.buffersToWrite.length > 25 then s.buffersToWrite.take 2
      else s.buffersToWrite).take 2 = s.buffersToWrite.take 2 := by
    split_ifs <;> simp [List.take_take]
  have hfirst : refill s.newBuffer1 (s.buffersToWrite.take 2) =
      (some .empty, (s.buffersToWrite.take 2).dropLast) := by
    rw [hone, refill_none (by simpa using hne)]
  have hsecond : (refill s.newBuffer2
      (s.buffersToWrite.take 2).dropLast).1 = some .empty := by
    rcases htwo with htwo | ⟨htwo, hlength⟩
    · rw [htwo, refill_some]
    · have hleft : (s.buffersToWrite.take 2).dropLast ≠ [] := by
        apply List.ne_nil_of_length_pos
        simp only [List.length_dropLast, List.length_take]
        omega
      rw [htwo, refill_none hleft]
  have hempty : s.buffersToWrite.isEmpty = false := by simpa using hne
  refine ⟨(if s.buffersToWrite.length > 25 then
      [droppedMessage now (s.buffersToWrite.length - 2)] else []) ++
    (if s.buffersToWrite.length > 25 then s.buffersToWrite.take 2
      else s.buffersToWrite).flatMap LogBuffer.lines, fun hsize => ?_, ?_⟩
  · simp [Nat.not_lt.mpr hsize]
  · simp [AsyncLogging.writeBuffers, hkept, hfirst, hsecond, hempty,
      h.notFailed]

theorem Ready.writeBuffers (h : s.Ready) (hphase : s.backEnd = .writing)
    (now : String) : (s.writeBuffers now).Ready := by
  obtain ⟨written, -, heq⟩ := h.writeBuffers_eq hphase now
  rw [heq]
  exact ⟨h.notFailed, h.current, h.next, h.spare, rfl, rfl, rfl⟩

theorem Ready.threadFunc (h : s.Ready) (now : String) :
    (s.threadFunc now).Ready := by
  have hlocals := h.locals
  unfold AsyncLogging.threadFunc
  unfold LocalsReady at hlocals
  cases hphase : s.backEnd with
  | notStarted => exact h
  | testing =>
      rw [hphase] at hlocals
      exact h.testRunning hlocals
  | locking =>
      rw [hphase] at hlocals
      simp only [lockMutex]
      split
      · exact ⟨h.notFailed, h.current, h.next, h.spare, hlocals⟩
      · exact h.swapBuffers hlocals
  | waiting =>
      rw [hphase] at hlocals
      exact h.swapBuffers hlocals
  | writing => exact h.writeBuffers hphase now
  | returned => exact h

theorem Ready.step (h : s.Ready) (a : LogAction) : (s.step a).Ready := by
  obtain ⟨hfailed, hcurrent, hnext, hspare, hlocals⟩ := h
  cases a with
  | start =>
      simp only [AsyncLogging.step]
      split_ifs with hphase
      · simp only [LocalsReady, hphase] at hlocals
        exact ⟨hfailed, hcurrent, hnext, hspare, rfl, rfl, hlocals⟩
      · exact ⟨hfailed, hcurrent, hnext, hspare, hlocals⟩
  | append logline =>
      exact Ready.record (Ready.append ⟨hfailed, hcurrent, hnext, hspare,
        hlocals⟩ logline) logline
  | threadFunc now =>
      exact Ready.threadFunc ⟨hfailed, hcurrent, hnext, hspare, hlocals⟩ now
  | callStop | clearRunning | join =>
      simp only [AsyncLogging.step]
      split_ifs <;> exact ⟨hfailed, hcurrent, hnext, hspare, hlocals⟩

/-- No assertion fails and no null pointer is used, whatever the lengths of
the lines and the numbers of buffers. -/
theorem not_failed_run (actions : List LogAction) :
    (run step {} actions).failed = false :=
  (run_invariant_of_forall Ready (fun _ a h => h.step a) ready_empty
    actions).notFailed

end AsyncLogging

end MuduoHttp
