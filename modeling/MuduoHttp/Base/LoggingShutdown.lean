import MuduoHttp.Base.AsyncLogging

/-!
# The last lines of an asynchronous log

The lines of the front end are handed over to the back end in batches.  When
`stop` clears `running_`, the back end is about to swap, or it has swapped for
the last time.  In the second case the lines that were appended since that
swap are never written.
-/

namespace MuduoHttp

open Support

namespace AsyncLogging

/-- The lines on their way to the LogFile. -/
def handoff (s : AsyncLogging) : Handoff Line where
  put := s.before ++ s.during ++ s.after
  waiting := (s.buffers_ ++ s.currentBuffer_.toList).flatMap LogBuffer.lines
  batch := s.buffersToWrite.flatMap LogBuffer.lines
  delivered := s.output

/-- The back end has passed the test of `running_` and not yet swapped. -/
def AboutToSwap (s : AsyncLogging) : Prop :=
  s.backEnd = .locking ∨ s.backEnd = .waiting

/-- `stop` has cleared `running_`. -/
def Stopping (s : AsyncLogging) : Prop :=
  s.stopCall = .joining ∨ s.stopCall = .returned

/-- The swaps took all lines that were appended before `stop` was called. -/
def TookAll (s : AsyncLogging) : Prop :=
  s.before <+: s.handoff.taken

/-- When `stop` clears `running_`, the back end is about to swap, or it has
taken all lines that were appended before `stop` was called. -/
def InTime (s : AsyncLogging) (a : LogAction) : Prop :=
  a = .clearRunning → s.stopCall = .called → s.AboutToSwap ∨ s.TookAll

instance (s : AsyncLogging) (a : LogAction) : Decidable (s.InTime a) :=
  inferInstanceAs (Decidable (_ → _ → (_ ∨ _) ∨ _ <+: _))

/-- Some line was not taken, and there will be no further swap. -/
def Late (s : AsyncLogging) : Prop :=
  s.Stopping ∧ ¬ s.AboutToSwap ∧ ¬ s.TookAll

/-- What the progress of `stop` says about the rest of the state. -/
structure Staged (s : AsyncLogging) : Prop where
  during : s.stopCall = .notCalled → s.during = []
  after : s.stopCall ≠ .returned → s.after = []
  stopped : s.Stopping → s.running_ = false
  unstarted : s.backEnd = .notStarted → s.stopCall = .notCalled
  returned : s.stopCall = .returned → s.backEnd = .returned

/-- The invariant of all runs within the limits. -/
structure Accounted (s : AsyncLogging) : Prop where
  ready : s.Ready
  staged : s.Staged
  size : s.buffersToWrite.length ≤ 25
  conserved : s.handoff.Conserved
  prompt : s.handoff.taken <+: s.before ++ s.during

theorem accounted_empty : Accounted {} where
  ready := ready_empty
  staged := ⟨fun _ => rfl, fun _ => rfl, by simp [Stopping], fun _ => rfl,
    by simp⟩
  size := Nat.zero_le _
  conserved := rfl
  prompt := List.prefix_refl _

variable {s : AsyncLogging}

/-! ## One operation of the handoff for each action -/

theorem record_cases (s : AsyncLogging) (logline : Line) :
    s.stopCall = .notCalled ∧
        s.record logline = { s with before := s.before ++ [logline] } ∨
      (s.stopCall = .called ∨ s.stopCall = .joining) ∧
        s.record logline = { s with during := s.during ++ [logline] } ∨
      s.stopCall = .returned ∧
        s.record logline = { s with after := s.after ++ [logline] } := by
  cases hcall : s.stopCall <;> simp [record, hcall]

theorem record_eq (s : AsyncLogging) (logline : Line) :
    ∃ before during after, s.record logline =
      { s with before := before, during := during, after := after } := by
  rcases s.record_cases logline with ⟨-, heq⟩ | ⟨-, heq⟩ | ⟨-, heq⟩ <;>
    exact ⟨_, _, _, heq⟩

theorem Ready.append_eq (h : s.Ready) (logline : Line) :
    ∃ buffers_ currentBuffer_ nextBuffer_, s.append logline =
      { s with
        buffers_ := buffers_
        currentBuffer_ := currentBuffer_
        nextBuffer_ := nextBuffer_ } := by
  obtain ⟨_, -, ⟨-, heq⟩ | ⟨-, heq⟩⟩ := h.append_cases logline
  · exact ⟨_, _, _, heq⟩
  · exact ⟨_, _, _, heq⟩

theorem Staged.append (h : s.Staged) (hready : s.Ready) (logline : Line) :
    (s.append logline).Staged := by
  obtain ⟨_, _, _, heq⟩ := hready.append_eq logline
  rw [heq]
  exact ⟨h.during, h.after, h.stopped, h.unstarted, h.returned⟩

theorem Staged.put_record (h : s.Staged) (logline : Line) :
    (s.record logline).handoff.put = s.handoff.put ++ [logline] := by
  rcases s.record_cases logline with
    ⟨hcall, heq⟩ | ⟨hcall, heq⟩ | ⟨hcall, heq⟩
  · have hafter := h.after (by simp [hcall])
    simp [heq, handoff, h.during hcall, hafter]
  · have hafter := h.after (by rcases hcall with hcall | hcall <;> simp [hcall])
    simp [heq, handoff, hafter]
  · simp [heq, handoff]

/-- An append adds its line to the waiting ones, in whichever buffer. -/
theorem Ready.waiting_append (h : s.Ready) {logline : Line}
    (hlength : logline.length < kLargeBuffer) :
    (s.append logline).handoff.waiting = s.handoff.waiting ++ [logline] := by
  obtain ⟨currentBuffer, hcurrent, ⟨hfits, heq⟩ | ⟨-, heq⟩⟩ :=
    h.append_cases logline
  · rw [heq]
    simp [handoff, hcurrent, LogBuffer.lines_append hfits]
  · rw [← LogBuffer.avail_empty] at hlength
    rw [heq]
    simp [handoff, hcurrent, LogBuffer.lines_append hlength]

theorem Ready.handoff_append (h : s.Ready) (hs : s.Staged) {logline : Line}
    (hlength : logline.length < kLargeBuffer) :
    ((s.append logline).record logline).handoff = s.handoff.add logline := by
  have hwaiting := h.waiting_append hlength
  obtain ⟨_, _, _, happend⟩ := h.append_eq logline
  obtain ⟨_, _, _, hrecord⟩ := record_eq (s.append logline) logline
  apply Handoff.ext
  · rw [(hs.append h logline).put_record, happend]
    rfl
  · rw [hrecord]
    exact hwaiting
  · rw [hrecord, happend]
    rfl
  · rw [hrecord, happend]
    rfl

theorem Ready.handoff_swapBuffers (h : s.Ready) (hloop : s.LoopReady) :
    s.swapBuffers.handoff = s.handoff.take := by
  obtain ⟨currentBuffer, hcurrent, heq⟩ := h.swapBuffers_eq hloop
  rw [heq]
  simp [handoff, Handoff.take, hcurrent, hloop.2.2]

theorem Ready.handoff_writeBuffers (h : s.Ready)
    (hphase : s.backEnd = .writing) (hsize : s.buffersToWrite.length ≤ 25)
    (now : String) : (s.writeBuffers now).handoff = s.handoff.deliver := by
  obtain ⟨written, hwritten, heq⟩ := h.writeBuffers_eq hphase now
  rw [heq, hwritten hsize]
  rfl

/-! ## What a part of `threadFunc` does -/

/-- The front end and `stop` are not affected by the back end. -/
structure SameCall (s s' : AsyncLogging) : Prop where
  running_ : s'.running_ = s.running_
  stopCall : s'.stopCall = s.stopCall
  before : s'.before = s.before
  during : s'.during = s.during
  after : s'.after = s.after

/-- The back end leaves the lines alone, takes or delivers them. -/
inductive Progress (s s' : AsyncLogging) : Prop
  /-- It passes the test of `running_` only before `stop`. -/
  | keeps (hlines : s'.handoff = s.handoff)
      (habout : s.Stopping → (s'.AboutToSwap ↔ s.AboutToSwap))
      (hstays : s.backEnd = .returned → s'.backEnd = .returned)
      (hstarted : s'.backEnd = .notStarted → s.backEnd = .notStarted)
  | takes (habout : s.AboutToSwap) (hbatch : s.handoff.batch = [])
      (hlines : s'.handoff = s.handoff.take) (hphase : s'.backEnd = .writing)
  | delivers (hwriting : s.backEnd = .writing)
      (hlines : s'.handoff = s.handoff.deliver)
      (hphase : s'.backEnd = .testing)

theorem Accounted.swapBuffers (h : s.Accounted) (hloop : s.LoopReady)
    (habout : s.AboutToSwap) :
    SameCall s s.swapBuffers ∧ Progress s s.swapBuffers := by
  have hlines := h.ready.handoff_swapBuffers hloop
  have hbatch : s.handoff.batch = [] := by simp [handoff, hloop.2.2]
  obtain ⟨_, -, heq⟩ := h.ready.swapBuffers_eq hloop
  refine ⟨?_, .takes habout hbatch hlines (by rw [heq])⟩
  rw [heq]
  exact ⟨rfl, rfl, rfl, rfl, rfl⟩

theorem Accounted.threadFunc_cases (h : s.Accounted) (now : String) :
    SameCall s (s.threadFunc now) ∧ Progress s (s.threadFunc now) := by
  have hlocals := h.ready.locals
  unfold LocalsReady at hlocals
  unfold threadFunc
  cases hphase : s.backEnd with
  | notStarted | returned =>
      exact ⟨⟨rfl, rfl, rfl, rfl, rfl⟩, .keeps rfl (fun _ => Iff.rfl) id id⟩
  | testing =>
      simp only [testRunning]
      split
      · next hrunning =>
          refine ⟨⟨rfl, rfl, rfl, rfl, rfl⟩, .keeps rfl (fun hstop => ?_)
            (by simp [hphase]) (by simp)⟩
          rw [h.staged.stopped hstop] at hrunning
          contradiction
      · refine ⟨⟨rfl, rfl, rfl, rfl, rfl⟩, .keeps rfl (fun _ => ?_)
          (fun _ => rfl) (by simp)⟩
        simp [AboutToSwap, hphase]
  | locking =>
      rw [hphase] at hlocals
      simp only [lockMutex]
      split
      · refine ⟨⟨rfl, rfl, rfl, rfl, rfl⟩, .keeps rfl (fun _ => ?_)
          (by simp [hphase]) (by simp)⟩
        simp [AboutToSwap, hphase]
      · exact h.swapBuffers hlocals (.inl hphase)
  | waiting =>
      rw [hphase] at hlocals
      exact h.swapBuffers hlocals (.inr hphase)
  | writing =>
      have hlines := h.ready.handoff_writeBuffers hphase h.size now
      obtain ⟨_, -, heq⟩ := h.ready.writeBuffers_eq hphase now
      refine ⟨?_, .delivers hphase hlines (by rw [heq])⟩
      rw [heq]
      exact ⟨rfl, rfl, rfl, rfl, rfl⟩

theorem Staged.threadFunc (h : s.Staged) {s' : AsyncLogging}
    (hcall : SameCall s s') (hprogress : Progress s s') : s'.Staged where
  during hnot := by
    rw [hcall.during]
    exact h.during (hcall.stopCall ▸ hnot)
  after hnot := by
    rw [hcall.after]
    exact h.after (hcall.stopCall ▸ hnot)
  stopped hstop := by
    rw [hcall.running_]
    rw [Stopping, hcall.stopCall] at hstop
    exact h.stopped hstop
  unstarted hphase := by
    rw [hcall.stopCall]
    cases hprogress with
    | keeps _ _ _ hstarted => exact h.unstarted (hstarted hphase)
    | takes _ _ _ hwriting => simp [hwriting] at hphase
    | delivers _ _ htesting => simp [htesting] at hphase
  returned hreturned := by
    have hphase := h.returned (hcall.stopCall ▸ hreturned)
    cases hprogress with
    | keeps _ _ hstays _ => exact hstays hphase
    | takes habout => simp [AboutToSwap, hphase] at habout
    | delivers hwriting => simp [hphase] at hwriting

/-- While the back end is about to swap, `stop` has not returned, so a swap
takes no line that is appended later. -/
theorem Accounted.put_eq (h : s.Accounted) (habout : s.AboutToSwap) :
    s.handoff.put = s.before ++ s.during := by
  have hafter : s.after = [] := h.staged.after fun hreturned => by
    have hphase := h.staged.returned hreturned
    simp [AboutToSwap, hphase] at habout
  simp [handoff, hafter]

theorem Accounted.threadFunc (h : s.Accounted) {now : String}
    (hsize : (s.threadFunc now).buffersToWrite.length ≤ 25) :
    (s.threadFunc now).Accounted := by
  obtain ⟨hcall, hprogress⟩ := h.threadFunc_cases now
  refine ⟨h.ready.threadFunc now, h.staged.threadFunc hcall hprogress, hsize,
    ?_, ?_⟩
  · cases hprogress with
    | keeps hlines => exact hlines ▸ h.conserved
    | takes _ hbatch hlines => exact hlines ▸ h.conserved.take hbatch
    | delivers _ hlines => exact hlines ▸ h.conserved.deliver
  · rw [hcall.before, hcall.during]
    cases hprogress with
    | keeps hlines => exact hlines ▸ h.prompt
    | takes habout hbatch hlines =>
        rw [hlines, h.conserved.taken_take hbatch, h.put_eq habout]
    | delivers _ hlines =>
        rw [hlines, Handoff.taken_deliver]
        exact h.prompt

theorem Staged.record (h : s.Staged) (logline : Line) :
    (s.record logline).Staged := by
  rcases s.record_cases logline with
    ⟨hcall, heq⟩ | ⟨hcall, heq⟩ | ⟨hcall, heq⟩
  · rw [heq]
    exact ⟨h.during, h.after, h.stopped, h.unstarted, h.returned⟩
  · rw [heq]
    refine ⟨fun hnot => ?_, h.after, h.stopped, h.unstarted, h.returned⟩
    rcases hcall with hcall | hcall <;> simp [hcall] at hnot
  · rw [heq]
    refine ⟨h.during, fun hnot => ?_, h.stopped, h.unstarted, h.returned⟩
    exact absurd hcall hnot

theorem Staged.record_extends (h : s.Staged) (logline : Line) :
    s.before ++ s.during <+:
      (s.record logline).before ++ (s.record logline).during := by
  rcases s.record_cases logline with ⟨hcall, heq⟩ | ⟨-, heq⟩ | ⟨-, heq⟩
  · simp [heq, h.during hcall]
  · simp [heq]
  · simp [heq]

/-- A line that is appended is taken later, and before `stop` returns it
counts as one that may be. -/
theorem Accounted.append (h : s.Accounted) {logline : Line}
    (hlength : logline.length < kLargeBuffer) :
    ((s.append logline).record logline).Accounted := by
  have hlines := h.ready.handoff_append h.staged hlength
  refine ⟨(h.ready.append logline).record logline,
    (h.staged.append h.ready logline).record logline, ?_, ?_, ?_⟩
  · obtain ⟨_, _, _, hrecord⟩ := record_eq (s.append logline) logline
    obtain ⟨_, _, _, happend⟩ := h.ready.append_eq logline
    rw [hrecord, happend]
    exact h.size
  · rw [hlines]
    exact h.conserved.add logline
  · rw [hlines, Handoff.taken_add]
    refine h.prompt.trans ?_
    have hbound := (h.staged.append h.ready logline).record_extends logline
    obtain ⟨_, _, _, happend⟩ := h.ready.append_eq logline
    rwa [happend] at hbound ⊢

theorem Accounted.step (h : s.Accounted) {a : LogAction}
    (ha : s.WithinLimits a) : (s.step a).Accounted := by
  have hready := h.ready.step a
  obtain ⟨hstaged, hsize⟩ := And.intro h.staged h.size
  cases a with
  | start =>
      simp only [AsyncLogging.step] at hready ⊢
      split_ifs at hready ⊢ with hphase
      · have hcall := hstaged.unstarted hphase
        exact ⟨hready, ⟨hstaged.during, hstaged.after,
          by simp [Stopping, hcall], by simp, by simp [hcall]⟩, hsize,
          h.conserved, h.prompt⟩
      · exact h
  | append logline => exact h.append ha.1
  | threadFunc now => exact h.threadFunc ha.2
  | callStop =>
      simp only [AsyncLogging.step] at hready ⊢
      split_ifs at hready ⊢ with hcall
      · obtain ⟨hstarted, hnot⟩ := hcall
        exact ⟨hready, ⟨by simp, fun _ => hstaged.after (by simp [hnot]),
          by simp [Stopping], fun hphase => absurd hphase hstarted, by simp⟩,
          hsize, h.conserved, h.prompt⟩
      · exact h
  | clearRunning =>
      simp only [AsyncLogging.step] at hready ⊢
      split_ifs at hready ⊢ with hcall
      · refine ⟨hready, ⟨by simp, fun _ => hstaged.after (by simp [hcall]),
          fun _ => rfl, fun hphase => ?_, by simp⟩, hsize, h.conserved,
          h.prompt⟩
        simp [hstaged.unstarted hphase] at hcall
      · exact h
  | join =>
      simp only [AsyncLogging.step] at hready ⊢
      split_ifs at hready ⊢ with hcall
      · obtain ⟨hjoining, hphase⟩ := hcall
        exact ⟨hready, ⟨by simp, fun hnot => absurd rfl hnot,
          fun _ => hstaged.stopped (.inl hjoining), by simp [hphase],
          fun _ => hphase⟩, hsize, h.conserved, h.prompt⟩
      · exact h

/-! ## When lines are lost -/

/-- While `stop` joins the thread, a part of `threadFunc` neither saves a late
line nor makes one late. -/
theorem Accounted.late_threadFunc_iff (h : s.Accounted) (now : String) :
    (s.threadFunc now).Late ↔ s.Late := by
  obtain ⟨hcall, hprogress⟩ := h.threadFunc_cases now
  have hstop : (s.threadFunc now).Stopping ↔ s.Stopping := by
    rw [Stopping, Stopping, hcall.stopCall]
  unfold Late TookAll
  rw [hstop, hcall.before]
  cases hprogress with
  | keeps hlines habout =>
      rw [hlines]
      exact and_congr_right fun hs => by rw [habout hs]
  | takes habout hbatch hlines =>
      have hall : s.before <+: s.handoff.take.taken := by
        rw [h.conserved.taken_take hbatch, h.put_eq habout]
        exact List.prefix_append _ _
      simp [hlines, hall, habout]
  | delivers hwriting hlines hphase =>
      simp [hlines, AboutToSwap, hwriting, hphase]

theorem Accounted.late_append_iff (h : s.Accounted) {logline : Line}
    (hlength : logline.length < kLargeBuffer) :
    ((s.append logline).record logline).Late ↔ s.Late := by
  have hlines := h.ready.handoff_append h.staged hlength
  unfold Late TookAll
  rw [hlines, Handoff.taken_add]
  obtain ⟨_, _, _, happend⟩ := h.ready.append_eq logline
  rcases (s.append logline).record_cases logline with
    ⟨hcall, heq⟩ | ⟨-, heq⟩ | ⟨-, heq⟩
  · rw [heq, happend]
    rw [happend] at hcall
    simp [Stopping, show s.stopCall = .notCalled from hcall]
  · rw [heq, happend]
    rfl
  · rw [heq, happend]
    rfl

/-- A step makes a line late exactly when `stop` clears `running_` too
late for it. -/
theorem Accounted.late_step_iff (h : s.Accounted) {a : LogAction}
    (ha : s.WithinLimits a) : (s.step a).Late ↔ s.Late ∨ ¬ s.InTime a := by
  cases a with
  | start =>
      simp only [AsyncLogging.step, InTime]
      split_ifs with hphase
      · have hcall := h.staged.unstarted hphase
        simp [Late, Stopping, hcall]
      · simp
  | append logline =>
      simpa [AsyncLogging.step, InTime] using
        h.late_append_iff ha.1
  | threadFunc now =>
      simpa [AsyncLogging.step, InTime] using h.late_threadFunc_iff now
  | callStop =>
      simp only [AsyncLogging.step, InTime]
      split_ifs with hcall
      · simp [Late, Stopping, hcall.2]
      · simp
  | clearRunning =>
      simp only [AsyncLogging.step, InTime]
      split_ifs with hcall
      · simp [Late, Stopping, hcall, AboutToSwap, TookAll, handoff]
      · simp [hcall]
  | join =>
      simp only [AsyncLogging.step, InTime]
      split_ifs with hcall
      · simp [Late, Stopping, hcall.1, AboutToSwap, TookAll, handoff]
      · simp

theorem accounted_run {actions : List LogAction}
    (hlimits : EveryStep step WithinLimits {} actions) :
    (run step {} actions).Accounted :=
  run_invariant Accounted (fun _ _ h ha => h.step ha) accounted_empty hlimits

theorem late_run_iff {actions : List LogAction}
    (hlimits : EveryStep step WithinLimits {} actions) :
    (run step {} actions).Late ↔ ¬ EveryStep step InTime {} actions := by
  have hiff := damaged_run_iff step InTime Accounted Late
    (fun _ _ h ha => h.step ha) (fun _ _ h ha => h.late_step_iff ha)
    accounted_empty hlimits
  simpa [Late, Stopping] using hiff

/-- Once `stop` has returned, a line is missing exactly when one was late. -/
theorem Accounted.losesNoLine_iff_not_late (h : s.Accounted)
    (hreturned : s.stopCall = .returned) : s.LosesNoLine ↔ ¬ s.Late := by
  have hphase := h.staged.returned hreturned
  have hlocals := h.ready.locals
  simp only [LocalsReady, hphase] at hlocals
  have hbatch : s.handoff.batch = [] := by simp [handoff, hlocals]
  have hstop : s.Stopping := .inr hreturned
  have habout : ¬ s.AboutToSwap := by simp [AboutToSwap, hphase]
  calc
    s.LosesNoLine ↔ s.TookAll := Handoff.delivered_iff hbatch h.prompt
    _ ↔ ¬ s.Late := by simp [Late, hstop, habout]

/-- After `stop` has returned, no line that was appended before its call is
missing exactly when it cleared `running_` in time. -/
theorem losesNoLine_iff {actions : List LogAction}
    (hlimits : EveryStep step WithinLimits {} actions)
    (hreturned : (run step {} actions).stopCall = .returned) :
    (run step {} actions).LosesNoLine ↔
      EveryStep step InTime {} actions := by
  rw [(accounted_run hlimits).losesNoLine_iff_not_late hreturned,
    late_run_iff hlimits, not_not]

/-- A line is appended, and the back end waits when `stop` is called. -/
def stoppedWaiting : List LogAction :=
  [.start, .append (ascii "line\n"), .threadFunc "now", .threadFunc "now",
    .callStop, .clearRunning, .threadFunc "now", .threadFunc "now",
    .threadFunc "now", .join]

theorem losesNoLine_stoppedWaiting :
    (run step {} stoppedWaiting).LosesNoLine :=
  (losesNoLine_iff (by decide) (by decide)).mpr (by decide)

/-- A second line is appended while the back end writes the first one, and
`stop` is called before it is done. -/
def stoppedWriting : List LogAction :=
  [.start, .append (ascii "first\n"), .threadFunc "now", .threadFunc "now",
    .threadFunc "now", .append (ascii "second\n"), .callStop, .clearRunning,
    .threadFunc "now", .threadFunc "now", .join]

theorem not_losesNoLine_stoppedWriting :
    EveryStep step WithinLimits {} stoppedWriting ∧
      (run step {} stoppedWriting).stopCall = .returned ∧
      ¬ (run step {} stoppedWriting).LosesNoLine := by
  refine ⟨by decide, by decide, ?_⟩
  rintro ⟨more, -, hmore⟩
  have hlength := congrArg List.length hmore
  have hone : (run step {} stoppedWriting).output.length = 1 := by decide
  have htwo : (run step {} stoppedWriting).before.length = 2 := by decide
  rw [List.length_append] at hlength
  omega

/-! ## The call of `stop` returns -/

/-- The parts of `threadFunc` that are left when `running_` is false. -/
def remaining : BackEnd → ℕ
  | .locking => 4
  | .waiting => 3
  | .writing => 2
  | .testing => 1
  | .notStarted | .returned => 0

theorem remaining_le (b : BackEnd) : remaining b ≤ 4 := by
  cases b <;> decide

theorem remaining_eq_zero_iff {b : BackEnd} (h : b ≠ .notStarted) :
    remaining b = 0 ↔ b = .returned := by
  cases b <;> simp [remaining] at h ⊢

/-- The back end was started, and `stop` joins it. -/
structure Joining (s : AsyncLogging) : Prop where
  ready : s.Ready
  running_ : s.running_ = false
  stopCall : s.stopCall = .joining
  started : s.backEnd ≠ .notStarted

theorem Accounted.joining (h : s.Accounted) (hcall : s.stopCall = .joining) :
    s.Joining where
  ready := h.ready
  running_ := h.staged.stopped (.inl hcall)
  stopCall := hcall
  started hphase := by simp [h.staged.unstarted hphase] at hcall

theorem Joining.swapBuffers (h : s.Joining) (hloop : s.LoopReady) :
    s.swapBuffers.Joining ∧ remaining s.swapBuffers.backEnd = 2 := by
  have hready := h.ready.swapBuffers hloop
  obtain ⟨_, -, heq⟩ := h.ready.swapBuffers_eq hloop
  rw [heq] at hready ⊢
  exact ⟨⟨hready, h.running_, h.stopCall, by simp⟩, rfl⟩

theorem Joining.threadFunc (h : s.Joining) (now : String) :
    (s.threadFunc now).Joining ∧
      remaining (s.threadFunc now).backEnd ≤ remaining s.backEnd - 1 := by
  have hready := h.ready.threadFunc now
  have hlocals := h.ready.locals
  unfold LocalsReady at hlocals
  unfold AsyncLogging.threadFunc at hready ⊢
  cases hphase : s.backEnd with
  | notStarted => exact absurd hphase h.started
  | returned => exact ⟨h, by simp [remaining, hphase]⟩
  | testing =>
      simp only [hphase, testRunning, h.running_, Bool.false_eq_true,
        if_false] at hready ⊢
      exact ⟨⟨hready, rfl, h.stopCall, by simp⟩, Nat.le_refl _⟩
  | locking =>
      rw [hphase] at hlocals
      simp only [hphase, lockMutex] at hready ⊢
      split_ifs at hready ⊢
      · exact ⟨⟨hready, h.running_, h.stopCall, by simp⟩, Nat.le_refl _⟩
      · obtain ⟨hnext, htwo⟩ := h.swapBuffers hlocals
        exact ⟨hnext, htwo ▸ by decide⟩
  | waiting =>
      rw [hphase] at hlocals
      obtain ⟨hnext, htwo⟩ := h.swapBuffers hlocals
      exact ⟨hnext, htwo ▸ by decide⟩
  | writing =>
      simp only [hphase] at hready ⊢
      obtain ⟨_, -, heq⟩ := h.ready.writeBuffers_eq hphase now
      rw [heq] at hready ⊢
      exact ⟨⟨hready, h.running_, h.stopCall, by simp⟩, Nat.le_refl _⟩

theorem Joining.run_threadFunc (h : s.Joining) (now : String) (n : ℕ) :
    (run step s (List.replicate n (.threadFunc now))).Joining ∧
      remaining (run step s (List.replicate n (.threadFunc now))).backEnd ≤
        remaining s.backEnd - n := by
  induction n generalizing s with
  | zero => exact ⟨h, Nat.le_refl _⟩
  | succ n ih =>
      obtain ⟨hnext, hone⟩ := h.threadFunc now
      obtain ⟨hlast, hrest⟩ := ih hnext
      exact ⟨hlast, hrest.trans (by omega)⟩

end AsyncLogging

end MuduoHttp
