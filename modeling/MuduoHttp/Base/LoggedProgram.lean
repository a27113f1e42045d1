import MuduoHttp.Base.LogFile
import MuduoHttp.Base.Logger
import MuduoHttp.Base.LoggingShutdown

/-!
# From the log statements to the log files

A program that sets `g_output` to a function that appends to an `AsyncLogging`
logs in three stages.  The threads make lines, the front end collects them in
buffers, and the back end appends the buffers to a `LogFile`.  A line is
shorter than a buffer because it was made in a smaller one, and it is never
divided between two files because whole buffers are appended.

The runs end before a `FATAL` statement, which aborts.
-/

namespace MuduoHttp

open Support Logger

/-- The files hold text that was passed to `stdio`. -/
structure LoggedProgram where
  threads : Int32 → ThreadLog := fun _ => {}
  async : AsyncLogging := {}
  /-- The `LogFile` of the back end. -/
  output : Option LogFile := none
  files : Files

namespace LoggedProgram

/-- What the constructors are given, and what does not change. -/
structure Config where
  basename : Bytes
  hostname : Bytes
  pid : ℤ
  rollSize : ℕ
  zone : Option TimeZone.Data
  strerror_tl : Int32 → Bytes

/-- What an append to the `LogFile` meets: the bytes that `fwrite` takes, and
the times that are read. -/
structure Append where
  takes : ℕ → ℕ
  now : ℤ
  rollNow : ℤ

inductive Action
  | log (c : Call)
  /-- `now` is the time that the constructor of the `LogFile` reads. -/
  | start (now : ℤ)
  /-- The back end goes on; `appends` is what its appends would meet. -/
  | threadFunc (now : String) (appends : ℕ → Append)
  | callStop
  | clearRunning
  | join

/-- What the back end appends: the message about dropped buffers, and the
buffers that are kept. -/
def appended (s : AsyncLogging) (now : String) : List (List Line) :=
  let size := s.buffersToWrite.length
  let dropped :=
    if size > 25 then [AsyncLogging.droppedMessage now (size - 2)] else []
  let buffersToWrite :=
    if size > 25 then s.buffersToWrite.take 2 else s.buffersToWrite
  dropped.map (fun line => [line]) ++ buffersToWrite.map LogBuffer.lines

/-- The calls of the `LogFile` while the back end writes a batch. -/
def fileCalls (s : AsyncLogging) (now : String) (appends : ℕ → Append) :
    List LogFile.Action :=
  ((appended s now).zipIdx.map fun (lines, k) =>
    .append lines.flatten (appends k).takes (appends k).now
      (appends k).rollNow) ++ [.flush]

/-- A part of `threadFunc`, with the calls of the `LogFile`. -/
def threadFunc (s : LoggedProgram) (now : String) (appends : ℕ → Append) :
    LoggedProgram :=
  match s.async.backEnd, s.output with
  | .writing, some log =>
      let w := run LogFile.step ⟨log, s.files⟩ (fileCalls s.async now appends)
      { s with
        async := s.async.threadFunc now
        output := some w.log
        files := w.files }
  | _, _ => { s with async := s.async.threadFunc now }

def step (cfg : Config) (s : LoggedProgram) : Action → LoggedProgram
  | .log c =>
      if c.enabled then
        match Logger.log cfg.zone cfg.strerror_tl (s.threads c.tid) c with
        | some (t, line) =>
            { s with
              threads := Function.update s.threads c.tid t
              async := s.async.step (.append line) }
        | none => s
      else s
  | .start now =>
      { s with
        async := s.async.step .start
        output :=
          if s.async.backEnd = .notStarted then
            LogFile.new cfg.basename cfg.hostname cfg.pid cfg.rollSize 3 1024
              now
          else s.output }
  | .threadFunc now appends => s.threadFunc now appends
  | .callStop => { s with async := s.async.step .callStop }
  | .clearRunning => { s with async := s.async.step .clearRunning }
  | .join => { s with async := s.async.step .join }

/-- The statement of an action, if it passes a line on. -/
def Action.call? : Action → Option Call
  | .log c => if c.enabled then some c else none
  | .start _ | .threadFunc _ _ | .callStop | .clearRunning | .join => none

/-- The years have four digits, and only the first `fwrite` may take
nothing. -/
structure Append.Regular (a : Append) : Prop where
  inRange : Timestamp.InFourDigits a.rollNow
  progresses : ∀ k, 0 < k → 0 < a.takes k

/-- No statement aborts, the clock is in range, and a swap takes at most 25
buffers. -/
def Admissible (cfg : Config) (s : LoggedProgram) : Action → Prop
  | .log c => c.enabled →
      c.Dated cfg.zone ∧ c.statement.level ≠ .fatal
  | .start now => 0 < now ∧ Timestamp.InFourDigits now
  | .threadFunc now appends => (∀ k, (appends k).Regular) ∧
      (s.async.threadFunc now).buffersToWrite.length ≤ 25
  | .callStop | .clearRunning | .join => True

/-! ## What the back end appends -/

theorem output_writeBuffers (s : AsyncLogging) (now : String) :
    (s.writeBuffers now).output = s.output ++ (appended s now).flatten := by
  rw [appended, List.flatten_append, ← List.flatMap_def, ← List.flatMap_def,
    List.flatMap_singleton', ← List.append_assoc]
  rfl

theorem output_swapBuffers (s : AsyncLogging) :
    s.swapBuffers.output = s.output := by
  unfold AsyncLogging.swapBuffers
  split
  · rfl
  · dsimp only
    split_ifs <;> rfl

/-- Only a batch that is written adds to the output. -/
theorem output_threadFunc {s : AsyncLogging} (h : s.backEnd ≠ .writing)
    (now : String) : (s.threadFunc now).output = s.output := by
  unfold AsyncLogging.threadFunc
  cases hphase : s.backEnd with
  | notStarted => rfl
  | testing =>
      simp only [AsyncLogging.testRunning]
      split_ifs <;> rfl
  | locking =>
      simp only [AsyncLogging.lockMutex]
      split_ifs
      · rfl
      · exact output_swapBuffers s
  | waiting => exact output_swapBuffers s
  | writing => exact absurd hphase h
  | returned => rfl

theorem filterMap_fileCalls (s : AsyncLogging) (now : String)
    {appends : ℕ → Append} (h : ∀ k, (appends k).Regular) :
    (fileCalls s now appends).filterMap LogFile.Action.text? =
      (appended s now).map List.flatten := by
  have hwritten (k : ℕ) (lines : List Line) :
      AppendFile.written (appends k).takes lines.flatten = lines.flatten :=
    LogFile.written_eq (h k).progresses _
  simp only [fileCalls, List.filterMap_append, List.filterMap_map,
    Function.comp_def, LogFile.Action.text?, hwritten, List.filterMap_cons,
    List.filterMap_nil, List.append_nil]
  calc
    (appended s now).zipIdx.filterMap (fun lines => some lines.1.flatten) =
        ((appended s now).zipIdx.map Prod.fst).map List.flatten := by
      rw [List.map_map, ← List.filterMap_eq_map]
      rfl
    _ = (appended s now).map List.flatten := by rw [List.zipIdx_map_fst]

theorem clockInRange_fileCalls (s : AsyncLogging) (now : String)
    {appends : ℕ → Append} (h : ∀ k, (appends k).Regular) :
    ∀ a ∈ fileCalls s now appends, a.ClockInRange := by
  intro a ha
  obtain ha | ha := List.mem_append.mp ha
  · obtain ⟨⟨lines, k⟩, -, rfl⟩ := List.mem_map.mp ha
    exact (h k).inRange
  · rw [List.mem_singleton.mp ha]
    trivial

/-! ## What the files hold -/

/-- The back end has no `LogFile` yet, or its files hold the output, whole
buffers at a time. -/
def Stored (initial : Files) (s : LoggedProgram) : Prop :=
  ∃ groups : List (List Line), groups.flatten = s.async.output ∧
    (s.async.backEnd = .notStarted ∧ s.files = initial ∧ groups = [] ∨
      ∃ log, s.async.backEnd ≠ .notStarted ∧ s.output = some log ∧
        LogFile.Holds initial ⟨log, s.files⟩ (groups.map List.flatten))

/-- The back end stays where it is, writes nothing, and is not set going. -/
structure Quiet (s s' : AsyncLogging) : Prop where
  backEnd : s'.backEnd = s.backEnd
  output : s'.output = s.output
  running_ : s'.running_ = true → s.running_ = true

theorem quiet_refl (s : AsyncLogging) : Quiet s s := ⟨rfl, rfl, id⟩

theorem quiet_append {s : AsyncLogging} (h : s.Ready) (logline : Line) :
    Quiet s (s.step (.append logline)) := by
  obtain ⟨_, _, _, happend⟩ := h.append_eq logline
  obtain ⟨_, _, _, hrecord⟩ := AsyncLogging.record_eq (s.append logline) logline
  rw [AsyncLogging.step, hrecord, happend]
  exact ⟨rfl, rfl, id⟩

/-- The steps of `stop` move no line. -/
theorem quiet_stop (s : AsyncLogging) {a : LogAction}
    (ha : a = .callStop ∨ a = .clearRunning ∨ a = .join) :
    Quiet s (s.step a) ∧ (s.step a).handoff = s.handoff ∧ a.Fits := by
  obtain rfl | rfl | rfl := ha
  · simp only [AsyncLogging.step]
    split_ifs
    · exact ⟨⟨rfl, rfl, id⟩, rfl, trivial⟩
    · exact ⟨quiet_refl s, rfl, trivial⟩
  · simp only [AsyncLogging.step]
    split_ifs
    · exact ⟨⟨rfl, rfl, fun h => absurd h Bool.false_ne_true⟩, rfl, trivial⟩
    · exact ⟨quiet_refl s, rfl, trivial⟩
  · simp only [AsyncLogging.step]
    split_ifs
    · exact ⟨⟨rfl, rfl, id⟩, rfl, trivial⟩
    · exact ⟨quiet_refl s, rfl, trivial⟩

variable {cfg : Config} {initial : Files} {s : LoggedProgram}

theorem Stored.quiet (h : Stored initial s) {s' : LoggedProgram}
    (hasync : Quiet s.async s'.async) (houtput : s'.output = s.output)
    (hfiles : s'.files = s.files) : Stored initial s' := by
  unfold Stored
  rw [hasync.backEnd, hasync.output, houtput, hfiles]
  exact h

/-- The first start opens a file, and later ones do nothing. -/
theorem Stored.start (h : Stored initial s) {now : ℤ} (hpos : 0 < now)
    (hnow : Timestamp.InFourDigits now) :
    Stored initial (step cfg s (.start now)) := by
  obtain ⟨groups, hgroups,
    ⟨hphase, hfiles, rfl⟩ | ⟨log, hphase, hlog, hholds⟩⟩ := h
  · obtain ⟨log, hlog⟩ : ∃ log, LogFile.new cfg.basename cfg.hostname cfg.pid
        cfg.rollSize 3 1024 now = some log := ⟨_, if_pos hpos⟩
    have hholds := LogFile.journal_new hlog hnow initial
    rw [← hfiles] at hholds ⊢
    refine ⟨[], ?_, .inr ⟨log, ?_, ?_, hholds⟩⟩
    · simpa [step, AsyncLogging.step, hphase] using hgroups
    · simp [step, AsyncLogging.step, hphase]
    · simpa [step, hphase] using hlog
  · have hsame : step cfg s (.start now) = s := by
      simp [step, AsyncLogging.step, hphase]
    rw [hsame]
    exact ⟨groups, hgroups, .inr ⟨log, hphase, hlog, hholds⟩⟩

/-- The back end is started once, and does not begin anew. -/
theorem notStarted_threadFunc {s : AsyncLogging} (h : s.Accounted)
    (now : String) :
    (s.threadFunc now).backEnd = .notStarted ↔ s.backEnd = .notStarted := by
  constructor
  · intro hphase
    obtain ⟨-, hprogress⟩ := h.threadFunc_cases now
    cases hprogress with
    | keeps _ _ _ hstarted => exact hstarted hphase
    | takes _ _ _ hwriting => simp [hwriting] at hphase
    | delivers _ _ htesting => simp [htesting] at hphase
  · intro hphase
    simp only [AsyncLogging.threadFunc, hphase]

theorem Stored.threadFunc (h : Stored initial s) (hs : s.async.Accounted)
    (now : String) {appends : ℕ → Append} (ha : ∀ k, (appends k).Regular) :
    Stored initial (s.threadFunc now appends) := by
  obtain ⟨groups, hgroups,
    ⟨hphase, hfiles, rfl⟩ | ⟨log, hphase, hlog, hholds⟩⟩ := h
  · have hsame : s.threadFunc now appends = s := by
      simp [LoggedProgram.threadFunc, AsyncLogging.threadFunc, hphase]
    rw [hsame]
    exact ⟨[], hgroups, .inl ⟨hphase, hfiles, rfl⟩⟩
  · have hstarted := (notStarted_threadFunc hs now).not.mpr hphase
    by_cases hwriting : s.async.backEnd = .writing
    · have heq : s.threadFunc now appends =
          let w := run LogFile.step ⟨log, s.files⟩
            (fileCalls s.async now appends)
          { s with
            async := s.async.threadFunc now
            output := some w.log
            files := w.files } := by
        simp only [LoggedProgram.threadFunc, hwriting, hlog]
      have hrun := hholds.run (clockInRange_fileCalls s.async now ha)
      rw [filterMap_fileCalls s.async now ha, ← List.map_append] at hrun
      rw [heq]
      refine ⟨groups ++ appended s.async now, ?_,
        .inr ⟨_, hstarted, rfl, hrun⟩⟩
      rw [List.flatten_append, hgroups, ← output_writeBuffers]
      simp only [AsyncLogging.threadFunc, hwriting]
    · have heq : s.threadFunc now appends =
          { s with async := s.async.threadFunc now } := by
        unfold LoggedProgram.threadFunc
        split
        · next hphase' _ => exact absurd hphase' hwriting
        · rfl
      rw [heq]
      exact ⟨groups, hgroups.trans (output_threadFunc hwriting now).symm,
        .inr ⟨log, hstarted, hlog, hholds⟩⟩

/-! ## The invariant -/

/-- While `running_` is set, the back end is in its loop. -/
def Looping (s : AsyncLogging) : Prop :=
  s.running_ = true → s.backEnd ≠ .notStarted ∧ s.backEnd ≠ .returned

theorem Looping.quiet {s s' : AsyncLogging} (h : Looping s)
    (hquiet : Quiet s s') : Looping s' := by
  intro hrunning
  rw [hquiet.backEnd]
  exact h (hquiet.running_ hrunning)

theorem Looping.start {s : AsyncLogging} (h : Looping s) :
    Looping (s.step .start) := by
  simp only [AsyncLogging.step]
  split_ifs
  · exact fun _ => ⟨BackEnd.noConfusion, BackEnd.noConfusion⟩
  · exact h

theorem running_threadFunc {s : AsyncLogging} (h : s.Accounted)
    (now : String) : (s.threadFunc now).running_ = s.running_ :=
  (h.threadFunc_cases now).1.running_

/-- A part of the loop, and what becomes of the lines. -/
inductive LoopStep (s s' : AsyncLogging) : Prop
  | tests (hphase : s.backEnd = .testing) (hnext : s'.backEnd = .locking)
      (hlines : s'.handoff = s.handoff)
  | waits (hphase : s.backEnd = .locking) (hnext : s'.backEnd = .waiting)
      (hlines : s'.handoff = s.handoff)
  | swaps (habout : s.AboutToSwap) (hbatch : s.handoff.batch = [])
      (hnext : s'.backEnd = .writing) (hlines : s'.handoff = s.handoff.take)
  | writes (hphase : s.backEnd = .writing) (hnext : s'.backEnd = .testing)
      (hlines : s'.handoff = s.handoff.deliver)

theorem loopStep_swapBuffers {s : AsyncLogging} (h : s.Accounted)
    (hloop : s.LoopReady) (habout : s.AboutToSwap) :
    LoopStep s s.swapBuffers := by
  have hlines := h.ready.handoff_swapBuffers hloop
  have hbatch : s.handoff.batch = [] := by
    simp [AsyncLogging.handoff, hloop.2.2]
  obtain ⟨_, -, heq⟩ := h.ready.swapBuffers_eq hloop
  exact .swaps habout hbatch (by rw [heq]) hlines

theorem loopStep {s : AsyncLogging} (h : s.Accounted) (hlooping : Looping s)
    (hrunning : s.running_ = true) (now : String) :
    LoopStep s (s.threadFunc now) := by
  obtain ⟨hstarted, hnotReturned⟩ := hlooping hrunning
  have hlocals := h.ready.locals
  unfold AsyncLogging.LocalsReady at hlocals
  unfold AsyncLogging.threadFunc
  cases hphase : s.backEnd with
  | notStarted => exact absurd hphase hstarted
  | returned => exact absurd hphase hnotReturned
  | testing =>
      simp only [AsyncLogging.testRunning, if_pos hrunning]
      exact .tests hphase rfl rfl
  | locking =>
      rw [hphase] at hlocals
      simp only [AsyncLogging.lockMutex]
      split_ifs
      · exact .waits hphase rfl rfl
      · exact loopStep_swapBuffers h hlocals (.inl hphase)
  | waiting =>
      rw [hphase] at hlocals
      exact loopStep_swapBuffers h hlocals (.inr hphase)
  | writing =>
      exact .writes hphase rfl
        (h.ready.handoff_writeBuffers hphase h.size now)

theorem Looping.threadFunc {s : AsyncLogging} (h : Looping s)
    (hs : s.Accounted) (now : String) : Looping (s.threadFunc now) := by
  intro hrunning
  rw [running_threadFunc hs now] at hrunning
  cases loopStep hs h hrunning now with
  | tests _ hnext _ | waits _ hnext _ | swaps _ _ hnext _
  | writes _ hnext _ =>
      rw [hnext]
      exact ⟨by decide, by decide⟩

/-- What holds after the statements `done` passed their lines on. -/
structure Flows (cfg : Config) (initial : Files) (s : LoggedProgram)
    (done : List Call) : Prop where
  threads : ∀ tid, (s.threads tid).Keeps cfg.zone tid
  accounted : s.async.Accounted
  lines : List.Forall₂ (IsLine cfg.zone cfg.strerror_tl) done
    s.async.handoff.put
  stored : Stored initial s
  looping : Looping s.async

theorem flows_empty (cfg : Config) (initial : Files) :
    Flows cfg initial { files := initial } [] where
  threads _ := keeps_empty _
  accounted := AsyncLogging.accounted_empty
  lines := .nil
  stored := ⟨[], rfl, .inl ⟨rfl, rfl, rfl⟩⟩
  looping h := absurd h Bool.false_ne_true

variable {done : List Call}

/-- The line of a statement is waiting. -/
theorem Flows.log (h : Flows cfg initial s done) {c : Call}
    (henabled : c.enabled = true) (hc : c.Dated cfg.zone) :
    Flows cfg initial (step cfg s (.log c)) (done ++ [c]) := by
  obtain ⟨t, line, hlog, hkeeps, hline⟩ :=
    log_of_keeps cfg.strerror_tl (h.threads c.tid) hc
  have hlength : line.length < kLargeBuffer :=
    hline.length_lt.trans (by decide)
  have hquiet := quiet_append h.accounted.ready line
  have heq : step cfg s (.log c) =
      { s with
        threads := Function.update s.threads c.tid t
        async := s.async.step (.append line) } := by
    simp only [step, henabled, if_true, hlog]
  rw [heq]
  refine ⟨fun tid => ?_, h.accounted.append hlength, ?_,
    h.stored.quiet hquiet rfl rfl, h.looping.quiet hquiet⟩
  · obtain rfl | htid := eq_or_ne tid c.tid
    · simpa using hkeeps
    · simpa [Function.update_of_ne htid] using h.threads tid
  · have hhandoff := h.accounted.ready.handoff_append h.accounted.staged hlength
    have hput : (s.async.step (.append line)).handoff.put =
        s.async.handoff.put ++ [line] := congrArg Handoff.put hhandoff
    rw [hput]
    exact List.rel_append h.lines (.cons hline .nil)

theorem Flows.start (h : Flows cfg initial s done) {now : ℤ} (hpos : 0 < now)
    (hnow : Timestamp.InFourDigits now) :
    Flows cfg initial (step cfg s (.start now)) done where
  threads := h.threads
  accounted := by
    refine h.accounted.step (a := .start) ⟨trivial, ?_⟩
    have hsize := h.accounted.size
    simp only [AsyncLogging.step]
    split_ifs <;> exact hsize
  lines := by
    have hput : (s.async.step .start).handoff.put = s.async.handoff.put := by
      simp only [AsyncLogging.step]
      split_ifs <;> rfl
    exact hput ▸ h.lines
  stored := h.stored.start hpos hnow
  looping := h.looping.start

theorem Flows.threadFunc (h : Flows cfg initial s done) {now : String}
    {appends : ℕ → Append} (ha : ∀ k, (appends k).Regular)
    (hsize : (s.async.threadFunc now).buffersToWrite.length ≤ 25) :
    Flows cfg initial (s.threadFunc now appends) done := by
  have hasync : (s.threadFunc now appends).async = s.async.threadFunc now := by
    unfold LoggedProgram.threadFunc
    split <;> rfl
  have hthreads : (s.threadFunc now appends).threads = s.threads := by
    unfold LoggedProgram.threadFunc
    split <;> rfl
  have hcall := (h.accounted.threadFunc_cases now).1
  refine ⟨?_, ?_, ?_, h.stored.threadFunc h.accounted now ha, ?_⟩
  · rw [hthreads]
    exact h.threads
  · rw [hasync]
    exact h.accounted.threadFunc hsize
  · have hput : (s.async.threadFunc now).handoff.put = s.async.handoff.put := by
      simp only [AsyncLogging.handoff, hcall.before, hcall.during, hcall.after]
    rw [hasync, hput]
    exact h.lines
  · rw [hasync]
    exact h.looping.threadFunc h.accounted now

theorem Flows.stop (h : Flows cfg initial s done) {a : LogAction}
    (ha : a = .callStop ∨ a = .clearRunning ∨ a = .join) :
    Flows cfg initial { s with async := s.async.step a } done := by
  obtain ⟨hquiet, hlines, hfits⟩ := quiet_stop s.async ha
  have hbatch : (s.async.step a).buffersToWrite = s.async.buffersToWrite := by
    obtain rfl | rfl | rfl := ha <;> simp only [AsyncLogging.step] <;>
      split_ifs <;> rfl
  refine ⟨h.threads, h.accounted.step ⟨hfits, ?_⟩, hlines ▸ h.lines,
    h.stored.quiet hquiet rfl rfl, h.looping.quiet hquiet⟩
  rw [hbatch]
  exact h.accounted.size

/-- The statements that have passed their lines on. -/
def addCall (done : List Call) (a : Action) : List Call :=
  done ++ a.call?.toList

theorem Flows.step (h : Flows cfg initial s done) {a : Action}
    (ha : Admissible cfg s a) :
    Flows cfg initial (LoggedProgram.step cfg s a) (addCall done a) := by
  cases a with
  | log c =>
      by_cases henabled : c.enabled = true
      · simpa [addCall, Action.call?, henabled] using
          h.log henabled (ha henabled).1
      · simpa [addCall, Action.call?, LoggedProgram.step, henabled] using h
  | start now =>
      simpa [addCall, Action.call?] using h.start ha.1 ha.2
  | threadFunc now appends =>
      simpa [addCall, Action.call?, LoggedProgram.step] using
        h.threadFunc ha.1 ha.2
  | callStop =>
      simpa [addCall, Action.call?, LoggedProgram.step] using
        h.stop (.inl rfl)
  | clearRunning =>
      simpa [addCall, Action.call?, LoggedProgram.step] using
        h.stop (.inr (.inl rfl))
  | join =>
      simpa [addCall, Action.call?, LoggedProgram.step] using
        h.stop (.inr (.inr rfl))

/-! ## The lines in the files -/

/-- The texts of the blocks are the groups, some for each block. -/
theorem exists_parts {blocks : List (ℤ × List Bytes)}
    {groups : List (List Line)}
    (h : blocks.flatMap Prod.snd = groups.map List.flatten) :
    ∃ parts : List (ℤ × List (List Line)),
      blocks = parts.map (fun p => (p.1, p.2.map List.flatten)) ∧
        parts.flatMap Prod.snd = groups := by
  induction blocks generalizing groups with
  | nil => exact ⟨[], rfl, (List.map_eq_nil_iff.mp h.symm).symm⟩
  | cons b blocks ih =>
      obtain ⟨first, rest, rfl, hfirst, hrest⟩ :=
        List.map_eq_append_iff.mp (h.symm.trans (List.flatMap_cons ..))
      obtain ⟨parts, rfl, rfl⟩ := ih hrest.symm
      exact ⟨(b.1, first) :: parts, by rw [List.map_cons, hfirst], rfl⟩

theorem Stored.blocks (h : Stored initial s) :
    ∃ blocks : List (Bytes × List Line),
      (blocks.map Prod.fst).Pairwise (fun m n => m < n) ∧
        blocks.flatMap Prod.snd = s.async.output ∧
        (∀ b ∈ blocks, s.files b.1 = initial b.1 ++ b.2.flatten) ∧
        ∀ n, n ∉ blocks.map Prod.fst → s.files n = initial n := by
  obtain ⟨groups, hgroups, ⟨-, hfiles, rfl⟩ | ⟨log, -, -, hholds⟩⟩ := h
  · exact ⟨[], .nil, hgroups, by simp, fun n _ => congrFun hfiles n⟩
  · obtain ⟨blocks, htexts, hjournal⟩ := hholds
    obtain ⟨parts, rfl, rfl⟩ := exists_parts htexts
    refine ⟨parts.map fun p => (log.name p.1, p.2.flatten), ?_, ?_, ?_, ?_⟩
    · have hnames := List.pairwise_map.mp hjournal.names
      rw [List.map_map, List.pairwise_map]
      exact hnames
    · rw [← hgroups, List.flatMap_map, List.flatMap_def, List.flatMap_def,
        List.flatten_flatten, List.map_map]
      rfl
    · intro b hb
      obtain ⟨p, hp, rfl⟩ := List.mem_map.mp hb
      have hstored := hjournal.stored _ (List.mem_map_of_mem hp)
      rw [← List.flatten_flatten] at hstored
      exact hstored
    · intro n hn
      refine hjournal.others n fun b hb heq => hn ?_
      obtain ⟨p, hp, rfl⟩ := List.mem_map.mp hb
      rw [List.map_map]
      exact List.mem_map.mpr ⟨p, hp, heq.symm⟩

theorem run_addCall (done : List Call) (actions : List Action) :
    run addCall done actions = done ++ actions.filterMap Action.call? := by
  induction actions generalizing done with
  | nil => exact (List.append_nil done).symm
  | cons a actions ih =>
      rw [run_cons, ih, addCall, List.append_assoc]
      cases h : a.call? <;> simp [h]

theorem flows_run (cfg : Config) (initial : Files) {actions : List Action}
    (h : EveryStep (step cfg) (Admissible cfg) { files := initial } actions) :
    Flows cfg initial (run (step cfg) { files := initial } actions)
      (actions.filterMap Action.call?) := by
  have hrun := run_simulation addCall (Flows cfg initial)
    (fun _ _ _ hs ha => hs.step ha) (flows_empty cfg initial) h
  rwa [run_addCall] at hrun

/-- The parts of the loop until the next batch is written. -/
def untilWritten : BackEnd → ℕ
  | .writing => 5
  | .testing => 4
  | .locking => 3
  | .waiting => 2
  | .notStarted | .returned => 0

/-- The parts of the loop until all lines are delivered, if no others come. -/
def undelivered (s : AsyncLogging) : ℕ :=
  if s.handoff.waiting = [] then
    if s.handoff.batch = [] then 0
    else if s.backEnd = .writing then 1 else untilWritten s.backEnd
  else untilWritten s.backEnd

theorem untilWritten_le (b : BackEnd) : untilWritten b ≤ 5 := by
  cases b <;> decide

theorem undelivered_le (s : AsyncLogging) : undelivered s ≤ 5 := by
  have hle := untilWritten_le s.backEnd
  unfold undelivered
  split_ifs <;> omega

theorem LoopStep.undelivered_le {s s' : AsyncLogging} (h : LoopStep s s') :
    undelivered s' ≤ undelivered s - 1 := by
  unfold undelivered
  cases h with
  | tests hphase hnext hlines | waits hphase hnext hlines =>
      rw [hlines, hnext, hphase]
      split_ifs <;> simp_all [untilWritten]
  | swaps habout hbatch hnext hlines =>
      have hparts : 2 ≤ untilWritten s.backEnd := by
        obtain hphase | hphase := habout
        · rw [hphase]
          decide
        · rw [hphase]
          decide
      simp only [hlines, hnext, Handoff.take, hbatch, if_true]
      split_ifs <;> omega
  | writes hphase hnext hlines =>
      simp only [hlines, hnext, hphase, Handoff.deliver, if_true, untilWritten]
      split_ifs <;> omega

theorem eq_nil_of_undelivered {s : AsyncLogging} (hlooping : Looping s)
    (hrunning : s.running_ = true) (h : undelivered s = 0) :
    s.handoff.waiting = [] ∧ s.handoff.batch = [] := by
  obtain ⟨hstarted, hnotReturned⟩ := hlooping hrunning
  have hparts : untilWritten s.backEnd ≠ 0 := by
    cases hphase : s.backEnd with
    | notStarted => exact absurd hphase hstarted
    | returned => exact absurd hphase hnotReturned
    | testing | locking | waiting | writing => decide
  unfold undelivered at h
  split_ifs at h with hwaiting hbatch
  · exact ⟨hwaiting, hbatch⟩
  · exact absurd h hparts
  · exact absurd h hparts

/-- The parts of the back end, without other steps. -/
def backEndParts (parts : List (String × (ℕ → Append))) : List Action :=
  parts.map fun part => .threadFunc part.1 part.2

theorem Flows.drain (h : Flows cfg initial s done)
    (hrunning : s.async.running_ = true)
    {parts : List (String × (ℕ → Append))}
    (hparts : EveryStep (LoggedProgram.step cfg) (Admissible cfg) s
      (backEndParts parts)) :
    let s' := run (LoggedProgram.step cfg) s (backEndParts parts)
    Flows cfg initial s' done ∧ s'.async.running_ = true ∧
      undelivered s'.async ≤ undelivered s.async - parts.length := by
  induction parts generalizing s with
  | nil => exact ⟨h, hrunning, Nat.le_refl _⟩
  | cons part parts ih =>
      obtain ⟨now, appends⟩ := part
      obtain ⟨⟨hregular, hsize⟩, hrest⟩ := hparts
      have hasync : (s.threadFunc now appends).async =
          s.async.threadFunc now := by
        unfold LoggedProgram.threadFunc
        split <;> rfl
      have hone := (loopStep h.accounted h.looping hrunning now).undelivered_le
      have hruns := (running_threadFunc h.accounted now).trans hrunning
      rw [← hasync] at hone hruns
      obtain ⟨hflows, hlast, hless⟩ :=
        ih (h.threadFunc hregular hsize) hruns hrest
      refine ⟨hflows, hlast, hless.trans ?_⟩
      dsimp only
      rw [List.length_cons]
      omega

end LoggedProgram

end MuduoHttp
