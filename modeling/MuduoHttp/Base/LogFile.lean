import Mathlib.Logic.Function.Basic
import MuduoHttp.Base.Timestamp
import MuduoHttp.Support.Transition

/-!
# Log files

`LogFile` appends the lines to a file, and goes on to another one when the
file is full or its day is over.  The name of a file has the second in it at
which it was opened, and none is opened in a second that is not later than
that of the last one.  So the names are in order, and every line is in exactly
one file, in the order of the lines.
-/

namespace MuduoHttp

open Support TimeZone

/-- What has been written to the files, by their names; `stdio` may still
hold the end of it. -/
abbrev Files := Bytes → Bytes

namespace AppendFile

/-- The loop of `AppendFile::append`: what the calls of `fwrite` from the
`k`th on write.  A call that writes nothing ends it. -/
def writeRest (takes : ℕ → ℕ) : ℕ → ℕ → Bytes → Bytes
  | 0, _, _ => []
  | fuel + 1, k, rest =>
      let x := min (takes k) rest.length
      if x = 0 then []
      else rest.take x ++ writeRest takes fuel (k + 1) (rest.drop x)

/-- What `AppendFile::append` writes, if the `k`th call of `fwrite` is ready to
take `takes k` bytes; after the first call there may be as many as bytes. -/
def written (takes : ℕ → ℕ) (logline : Bytes) : Bytes :=
  let n := min (takes 0) logline.length
  logline.take n ++ writeRest takes logline.length 1 (logline.drop n)

end AppendFile

/-- `FileUtil::AppendFile`, opened for appending. -/
structure AppendFile where
  filename : Bytes
  writtenBytes : ℕ := 0

/-- A `LogFile` with a file; the host name and the process id are those of
`ProcessInfo`. -/
structure LogFile where
  basename : Bytes
  hostname : Bytes
  pid : ℤ
  rollSize : ℕ
  flushInterval : ℤ
  checkEveryN : ℤ
  count : ℤ := 0
  startOfPeriod : ℤ
  lastRoll : ℤ
  lastFlush : ℤ
  file : AppendFile

namespace LogFile

def kRollPerSeconds : ℤ := 60 * 60 * 24

/-- `strftime` with `.%Y%m%d-%H%M%S.`. -/
def timebuf (tm : Tm) : Bytes :=
  ascii "." ++ printInt false 0 (tm.year + 1900) ++ printInt true 2 (tm.mon + 1)
    ++ printInt true 2 tm.mday ++ ascii "-" ++ printInt true 2 tm.hour ++
    printInt true 2 tm.min ++ printInt true 2 tm.sec ++ ascii "."

def getLogFileName (basename hostname : Bytes) (pid now : ℤ) : Bytes :=
  basename ++ timebuf (gmtimeR now) ++ hostname ++
    (ascii "." ++ printInt false 0 pid) ++ ascii ".log"

/-- The start of the day of a time. -/
def periodOf (now : ℤ) : ℤ := now.tdiv kRollPerSeconds * kRollPerSeconds

/-- The constructor; without a time after the epoch it opens no file. -/
def new (basename hostname : Bytes) (pid : ℤ) (rollSize : ℕ)
    (flushInterval checkEveryN now : ℤ) : Option LogFile :=
  if now > 0 then
    some
      { basename, hostname, pid, rollSize, flushInterval, checkEveryN
        startOfPeriod := periodOf now
        lastRoll := now
        lastFlush := now
        file := ⟨getLogFileName basename hostname pid now, 0⟩ }
  else none

/-- `LogFile::rollFile`, with the time that `getLogFileName` reads. -/
def rollFile (s : LogFile) (now : ℤ) : LogFile :=
  let filename := getLogFileName s.basename s.hostname s.pid now
  let start := periodOf now
  if now > s.lastRoll then
    { s with
      lastRoll := now
      lastFlush := now
      startOfPeriod := start
      file := ⟨filename, 0⟩ }
  else s

/-- What `append_unlocked` does after the line is written; `now` is the time
that it reads, and `rollNow` the one that `rollFile` reads. -/
def afterAppend (s : LogFile) (now rollNow : ℤ) : LogFile :=
  if s.file.writtenBytes > s.rollSize then s.rollFile rollNow
  else
    let s := { s with count := s.count + 1 }
    if s.count ≥ s.checkEveryN then
      let s := { s with count := 0 }
      let thisPeriod := periodOf now
      if thisPeriod ≠ s.startOfPeriod then s.rollFile rollNow
      else if now - s.lastFlush > s.flushInterval then
        { s with lastFlush := now }
      else s
    else s

/-- The log file and all the files. -/
structure World where
  log : LogFile
  files : Files

/-- The calls of other threads; the mutex makes them one after the other. -/
inductive Action
  | append (logline : Bytes) (takes : ℕ → ℕ) (now rollNow : ℤ)
  | flush
  | rollFile (now : ℤ)

def step (w : World) : Action → World
  | .append logline takes now rollNow =>
      let file := w.log.file
      let log :=
        { w.log with
          file :=
            { file with
              writtenBytes := file.writtenBytes + logline.length } }
      { log := log.afterAppend now rollNow
        files := Function.update w.files file.filename
          (w.files file.filename ++ AppendFile.written takes logline) }
  | .flush => w
  | .rollFile now => { w with log := w.log.rollFile now }

/-- What a call writes. -/
def Action.text? : Action → Option Bytes
  | .append logline takes _ _ => some (AppendFile.written takes logline)
  | .flush => none
  | .rollFile _ => none

/-- The line that a call is to write. -/
def Action.line? : Action → Option Bytes
  | .append logline _ _ _ => some logline
  | .flush => none
  | .rollFile _ => none

/-- The times that `rollFile` reads have years of four digits. -/
def Action.ClockInRange : Action → Prop
  | .append _ _ _ rollNow => Timestamp.InFourDigits rollNow
  | .flush => True
  | .rollFile now => Timestamp.InFourDigits now

/-- Only the first call of `fwrite` may take nothing. -/
def Action.Progresses : Action → Prop
  | .append _ takes _ _ => ∀ k, 0 < k → 0 < takes k
  | .flush => True
  | .rollFile _ => True

/-! ## Whole lines -/

theorem writeRest_eq {takes : ℕ → ℕ} (htakes : ∀ k, 0 < k → 0 < takes k)
    {fuel k : ℕ} (hk : 0 < k) {rest : Bytes} (hfuel : rest.length ≤ fuel) :
    AppendFile.writeRest takes fuel k rest = rest := by
  induction fuel generalizing k rest with
  | zero => exact (List.length_eq_zero_iff.mp (Nat.le_zero.mp hfuel)).symm
  | succ fuel ih =>
      have htake := htakes k hk
      rw [AppendFile.writeRest]
      split
      next hzero =>
        have hempty : rest.length = 0 := by omega
        exact (List.length_eq_zero_iff.mp hempty).symm
      next hsome =>
        rw [ih (Nat.succ_pos k) (by rw [List.length_drop]; omega),
          List.take_append_drop]

theorem written_eq {takes : ℕ → ℕ} (htakes : ∀ k, 0 < k → 0 < takes k)
    (logline : Bytes) : AppendFile.written takes logline = logline := by
  rw [AppendFile.written, writeRest_eq htakes Nat.one_pos
    (by rw [List.length_drop]; omega), List.take_append_drop]

theorem Action.text?_eq {a : Action} (h : a.Progresses) :
    a.text? = a.line? := by
  cases a with
  | append logline takes now rollNow => exact congrArg some (written_eq h _)
  | flush => rfl
  | rollFile now => rfl

/-! ## Names in order -/

theorem timebuf_tm {c : CivilTime} (h : Timestamp.FourDigits c.toCivilDate) :
    timebuf c.tm =
      ascii "." ++ (Timestamp.civilText (ascii "-") [] c ++ ascii ".") := by
  have hmonth := c.one_le_month
  have hmonthLe := c.month_le
  have hday := c.one_le_day
  have hdayLe := Timestamp.day_le c.toCivilDate
  have hhour := c.hour_lt
  have hminute := c.minute_lt
  have hsecond := c.second_lt
  rw [Timestamp.civilText, Timestamp.digitsText_dateCode h]
  simp only [timebuf, CivilTime.tm, Int.sub_add_cancel,
    Timestamp.printInt_year h.1 h.2 (by decide : 0 ≤ 4),
    Timestamp.printInt_field (v := c.month) (by omega) (by omega),
    Timestamp.printInt_field (v := c.day) (by omega) (by omega),
    Timestamp.printInt_field c.hour_nonneg (by omega),
    Timestamp.printInt_field c.minute_nonneg (by omega),
    Timestamp.printInt_field c.second_nonneg (by omega), List.append_assoc,
    List.nil_append]

theorem getLogFileName_lt (basename hostname : Bytes) (pid : ℤ) {t u : ℤ}
    (ht : Timestamp.InFourDigits t) (hu : Timestamp.InFourDigits u)
    (hlt : t < u) :
    getLogFileName basename hostname pid t <
      getLogFileName basename hostname pid u := by
  obtain ⟨c, hc, rfl, htm⟩ := Timestamp.exists_civilTime ht
  obtain ⟨c', hc', rfl, htm'⟩ := Timestamp.exists_civilTime hu
  have htext := (Timestamp.civilText_lt_iff hc hc' (ascii "-") []).mpr hlt
  have hlength := (Timestamp.length_civilText (ascii "-") [] c).trans
    (Timestamp.length_civilText (ascii "-") [] c').symm
  simp only [getLogFileName, htm, htm', timebuf_tm hc, timebuf_tm hc',
    List.append_assoc]
  refine List.append_left_lt (List.append_left_lt ?_)
  exact (append_lt_append_iff hlength).mpr (.inl htext)

/-! ## What the steps do to the log file -/

/-- The name of the file of a second. -/
def name (s : LogFile) (t : ℤ) : Bytes :=
  getLogFileName s.basename s.hostname s.pid t

/-- The same file, with the same names to come. -/
structure Same (s s' : LogFile) : Prop where
  name : s'.name = s.name
  lastRoll : s'.lastRoll = s.lastRoll
  filename : s'.file.filename = s.file.filename

theorem rollFile_cases (s : LogFile) (now : ℤ) :
    s.rollFile now = s ∧ now ≤ s.lastRoll ∨
      s.lastRoll < now ∧ (s.rollFile now).name = s.name ∧
        (s.rollFile now).lastRoll = now ∧
        (s.rollFile now).file = ⟨s.name now, 0⟩ := by
  unfold rollFile
  split_ifs with hlater
  · exact .inr ⟨hlater, rfl, rfl, rfl⟩
  · exact .inl ⟨rfl, not_lt.mp hlater⟩

/-- After a line the log file stays, or it is rolled. -/
theorem afterAppend_cases (s : LogFile) (now rollNow : ℤ) :
    Same s (s.afterAppend now rollNow) ∨
      ∃ s', Same s s' ∧ s.afterAppend now rollNow = s'.rollFile rollNow := by
  unfold afterAppend
  split_ifs
  · exact .inr ⟨s, ⟨rfl, rfl, rfl⟩, rfl⟩
  · dsimp only
    split_ifs
    · exact .inr ⟨{ s with count := 0 }, ⟨rfl, rfl, rfl⟩, rfl⟩
    · exact .inl ⟨rfl, rfl, rfl⟩
    · exact .inl ⟨rfl, rfl, rfl⟩
    · exact .inl ⟨rfl, rfl, rfl⟩

/-- A full file is kept only within the second in which it was opened. -/
theorem afterAppend_full {s : LogFile} {now rollNow : ℤ}
    (h : (s.afterAppend now rollNow).rollSize <
      (s.afterAppend now rollNow).file.writtenBytes) :
    rollNow ≤ (s.afterAppend now rollNow).lastRoll := by
  have hroll {s : LogFile}
      (h : (s.rollFile rollNow).rollSize <
        (s.rollFile rollNow).file.writtenBytes) :
      rollNow ≤ (s.rollFile rollNow).lastRoll := by
    obtain ⟨heq, hle⟩ | ⟨-, -, hlast, hfile⟩ := s.rollFile_cases rollNow
    · rwa [heq]
    · rw [hlast]
  revert h
  unfold afterAppend
  split_ifs with hfull
  · exact hroll
  · dsimp only
    split_ifs
    · exact hroll
    · exact fun h => absurd h hfull
    · exact fun h => absurd h hfull
    · exact fun h => absurd h hfull

/-! ## The journal -/

/-- The files that were opened, by the seconds of their names, with what has
been written to them. -/
structure Journal (initial : Files) (blocks : List (ℤ × List Bytes))
    (w : World) : Prop where
  times : blocks.Pairwise fun a b => a.1 < b.1
  inRange : ∀ b ∈ blocks, Timestamp.InFourDigits b.1
  last : ∃ front texts, blocks = front ++ [(w.log.lastRoll, texts)]
  filename : w.log.file.filename = w.log.name w.log.lastRoll
  stored : ∀ b ∈ blocks,
    w.files (w.log.name b.1) = initial (w.log.name b.1) ++ b.2.flatten
  others : ∀ n, (∀ b ∈ blocks, n ≠ w.log.name b.1) → w.files n = initial n

variable {initial : Files} {blocks : List (ℤ × List Bytes)} {w : World}

theorem name_ne (s : LogFile) {t u : ℤ} (ht : Timestamp.InFourDigits t)
    (hu : Timestamp.InFourDigits u) (hlt : t < u) : s.name t ≠ s.name u := by
  intro heq
  have hless := getLogFileName_lt s.basename s.hostname s.pid ht hu hlt
  change s.name t < s.name u at hless
  rw [heq] at hless
  exact List.lt_irrefl _ hless

/-- The names of the files are in order. -/
theorem Journal.names (h : Journal initial blocks w) :
    blocks.Pairwise fun a b => w.log.name a.1 < w.log.name b.1 :=
  h.times.imp_of_mem fun ha hb hlt =>
    getLogFileName_lt _ _ _ (h.inRange _ ha) (h.inRange _ hb) hlt

theorem Journal.same (h : Journal initial blocks w) (log : LogFile)
    (hsame : Same w.log log) : Journal initial blocks ⟨log, w.files⟩ where
  times := h.times
  inRange := h.inRange
  last := by
    rw [hsame.lastRoll]
    exact h.last
  filename := by
    rw [hsame.filename, hsame.name, hsame.lastRoll]
    exact h.filename
  stored := by
    rw [hsame.name]
    exact h.stored
  others := by
    rw [hsame.name]
    exact h.others

/-- The journal with another last block, or one more block. -/
theorem pairwise_concat {front : List (ℤ × List Bytes)}
    {block : ℤ × List Bytes} (hfront : front.Pairwise fun a b => a.1 < b.1)
    (hlast : ∀ b ∈ front, b.1 < block.1) :
    (front ++ [block]).Pairwise fun a b => a.1 < b.1 := by
  refine List.pairwise_append.mpr ⟨hfront, List.pairwise_singleton _ _, ?_⟩
  intro a ha b hb
  rw [List.mem_singleton.mp hb]
  exact hlast a ha

/-- A text is added to the last file. -/
theorem Journal.write (h : Journal initial blocks w) (text : Bytes) :
    ∃ blocks', blocks'.flatMap Prod.snd = blocks.flatMap Prod.snd ++ [text] ∧
      Journal initial blocks' ⟨w.log, Function.update w.files
        w.log.file.filename (w.files w.log.file.filename ++ text)⟩ := by
  obtain ⟨front, texts, rfl⟩ := h.last
  obtain ⟨hordered, -, hcross⟩ := List.pairwise_append.mp h.times
  have hfront : ∀ b ∈ front, b.1 < w.log.lastRoll :=
    fun b hb => hcross b hb _ (List.mem_singleton.mpr rfl)
  have hlast : (w.log.lastRoll, texts) ∈ front ++ [(w.log.lastRoll, texts)] :=
    List.mem_append_right _ (List.mem_singleton.mpr rfl)
  have hrange := h.inRange _ hlast
  refine ⟨front ++ [(w.log.lastRoll, texts ++ [text])], by simp, ?_⟩
  refine ⟨pairwise_concat hordered hfront, ?_, ⟨front, _, rfl⟩, h.filename,
    ?_, ?_⟩
  · intro b hb
    obtain hb | hb := List.mem_append.mp hb
    · exact h.inRange b (List.mem_append_left _ hb)
    · rwa [List.mem_singleton.mp hb]
  · intro b hb
    dsimp only
    rw [h.filename]
    obtain hb | hb := List.mem_append.mp hb
    · have hmem := List.mem_append_left [(w.log.lastRoll, texts)] hb
      rw [Function.update_of_ne
        (name_ne w.log (h.inRange b hmem) hrange (hfront b hb))]
      exact h.stored b hmem
    · obtain rfl := List.mem_singleton.mp hb
      have hstored := h.stored _ hlast
      dsimp only at hstored ⊢
      rw [Function.update_self, hstored, List.flatten_concat, List.append_assoc]
  · intro n hn
    have hname := hn (w.log.lastRoll, texts ++ [text])
      (List.mem_append_right _ (List.mem_singleton.mpr rfl))
    dsimp only at hname ⊢
    rw [h.filename, Function.update_of_ne hname]
    refine h.others n fun b hb => ?_
    obtain hb | hb := List.mem_append.mp hb
    · exact hn b (List.mem_append_left _ hb)
    · rwa [List.mem_singleton.mp hb]

/-- Another file is opened, or not. -/
theorem Journal.roll (h : Journal initial blocks w) {now : ℤ}
    (hnow : Timestamp.InFourDigits now) :
    ∃ blocks', blocks'.flatMap Prod.snd = blocks.flatMap Prod.snd ∧
      Journal initial blocks' ⟨w.log.rollFile now, w.files⟩ := by
  obtain ⟨heq, -⟩ | ⟨hlater, hname, hlastRoll, hfile⟩ :=
    w.log.rollFile_cases now
  · rw [heq]
    exact ⟨blocks, rfl, h⟩
  · obtain ⟨front, texts, hblocks⟩ := h.last
    have hbefore : ∀ b ∈ blocks, b.1 < now := by
      intro b hb
      rw [hblocks, List.mem_append, List.mem_singleton] at hb
      obtain hb | rfl := hb
      · have htimes := h.times
        rw [hblocks] at htimes
        have hless := (List.pairwise_append.mp htimes).2.2 b hb _
          (List.mem_singleton.mpr rfl)
        exact hless.trans hlater
      · exact hlater
    refine ⟨blocks ++ [(now, [])], by simp, pairwise_concat h.times hbefore,
      ?_, ⟨blocks, [], by rw [hlastRoll]⟩, by rw [hfile, hname, hlastRoll],
      ?_, ?_⟩
    · intro b hb
      obtain hb | hb := List.mem_append.mp hb
      · exact h.inRange b hb
      · rwa [List.mem_singleton.mp hb]
    · intro b hb
      rw [hname]
      obtain hb | hb := List.mem_append.mp hb
      · exact h.stored b hb
      · rw [List.mem_singleton.mp hb, List.flatten_nil, List.append_nil]
        exact h.others _ fun b hb =>
          (name_ne w.log (h.inRange b hb) hnow (hbefore b hb)).symm
    · intro n hn
      rw [hname] at hn
      exact h.others n fun b hb => hn b (List.mem_append_left _ hb)

/-! ## Runs -/

/-- The texts of a run. -/
def addText (texts : List Bytes) (a : Action) : List Bytes :=
  texts ++ a.text?.toList

theorem run_addText (texts : List Bytes) (actions : List Action) :
    run addText texts actions = texts ++ actions.filterMap Action.text? := by
  induction actions generalizing texts with
  | nil => exact (List.append_nil texts).symm
  | cons a actions ih =>
      rw [run_cons, ih, addText, List.append_assoc]
      cases h : a.text? <;> simp [h]

/-- The files hold the texts. -/
def Holds (initial : Files) (w : World) (texts : List Bytes) : Prop :=
  ∃ blocks, blocks.flatMap Prod.snd = texts ∧ Journal initial blocks w

theorem Holds.step {texts : List Bytes} (h : Holds initial w texts)
    {a : Action} (ha : a.ClockInRange) :
    Holds initial (step w a) (addText texts a) := by
  obtain ⟨blocks, rfl, hjournal⟩ := h
  cases a with
  | append logline takes now rollNow =>
      obtain ⟨blocks', hblocks', hwritten⟩ :=
        hjournal.write (AppendFile.written takes logline)
      obtain hsame | ⟨log, hsame, hroll⟩ := afterAppend_cases
        { w.log with
          file :=
            { w.log.file with
              writtenBytes := w.log.file.writtenBytes + logline.length } }
        now rollNow
      · exact ⟨blocks', hblocks', hwritten.same _
          ⟨hsame.name, hsame.lastRoll, hsame.filename⟩⟩
      · have hlog := hwritten.same log
          ⟨hsame.name, hsame.lastRoll, hsame.filename⟩
        obtain ⟨blocks'', hblocks'', hrolled⟩ := hlog.roll ha
        refine ⟨blocks'', hblocks''.trans hblocks', ?_⟩
        simp only [LogFile.step, hroll]
        exact hrolled
  | flush => exact ⟨blocks, (List.append_nil _).symm, hjournal⟩
  | rollFile now =>
      obtain ⟨blocks', hblocks', hrolled⟩ := hjournal.roll ha
      exact ⟨blocks', hblocks'.trans (List.append_nil _).symm, hrolled⟩

theorem Holds.run {texts : List Bytes} (h : Holds initial w texts)
    {actions : List Action} (hclock : ∀ a ∈ actions, a.ClockInRange) :
    Holds initial (Support.run LogFile.step w actions)
      (texts ++ actions.filterMap Action.text?) := by
  rw [← run_addText]
  exact run_simulation addText (Holds initial)
    (fun _ _ _ hs ha => hs.step ha) h
    (everyStep_of_mem (fun a ha _ => hclock a ha) w)

theorem journal_new {basename hostname : Bytes} {pid : ℤ} {rollSize : ℕ}
    {flushInterval checkEveryN now : ℤ} {log : LogFile}
    (h : new basename hostname pid rollSize flushInterval checkEveryN now =
      some log)
    (hnow : Timestamp.InFourDigits now) (initial : Files) :
    Holds initial ⟨log, initial⟩ [] := by
  unfold new at h
  split_ifs at h
  cases h
  refine ⟨[(now, [])], rfl, List.pairwise_singleton _ _, ?_, ⟨[], [], rfl⟩, rfl,
    ?_, fun _ _ => rfl⟩
  · intro b hb
    rwa [List.mem_singleton.mp hb]
  · intro b hb
    rw [List.mem_singleton.mp hb, List.flatten_nil, List.append_nil]

/-- The files of a log file, whatever the clock does, as long as only the
first call of `fwrite` for a line takes nothing: the names of the files that
were opened are in order; their lines are those that were appended, in order
and each of them in one file; no other file changes; and a file stays full
only if the time at which it should be rolled is not later than the second in
which it was opened. -/
theorem log_files (initial : Files) {basename hostname : Bytes} {pid : ℤ}
    {rollSize : ℕ} {flushInterval checkEveryN now : ℤ} {log : LogFile}
    (hnew : new basename hostname pid rollSize flushInterval checkEveryN now =
      some log)
    (hnow : Timestamp.InFourDigits now) {actions : List Action}
    (hclock : ∀ a ∈ actions, a.ClockInRange)
    (hwrites : ∀ a ∈ actions, a.Progresses) :
    let w := run step ⟨log, initial⟩ actions
    (∃ blocks : List (Bytes × List Bytes),
      (blocks.map Prod.fst).Pairwise (fun m n => m < n) ∧
        blocks.flatMap Prod.snd = actions.filterMap Action.line? ∧
        (∀ b ∈ blocks, w.files b.1 = initial b.1 ++ b.2.flatten) ∧
        ∀ n, n ∉ blocks.map Prod.fst → w.files n = initial n) ∧
      ∀ logline takes t rollNow,
        let log' := (step w (.append logline takes t rollNow)).log
        log'.rollSize < log'.file.writtenBytes → rollNow ≤ log'.lastRoll := by
  intro w
  refine ⟨?_, fun _ _ _ _ => afterAppend_full⟩
  obtain ⟨blocks, htexts, hjournal⟩ :=
    (journal_new hnew hnow initial).run hclock
  have hlines : actions.filterMap Action.text? =
      actions.filterMap Action.line? :=
    List.filterMap_congr fun a ha => Action.text?_eq (hwrites a ha)
  refine ⟨blocks.map fun b => (w.log.name b.1, b.2), ?_, ?_, ?_, ?_⟩
  · rw [List.map_map, List.pairwise_map]
    exact hjournal.names
  · rw [List.flatMap_map, ← hlines]
    exact htexts
  · intro b hb
    obtain ⟨b, hmem, rfl⟩ := List.mem_map.mp hb
    exact hjournal.stored b hmem
  · intro n hn
    refine hjournal.others n fun b hb heq => hn ?_
    rw [List.map_map]
    exact List.mem_map.mpr ⟨b, hb, heq.symm⟩

/-- Three lines of four bytes in files of four: the second makes the first
file full, and a second later the third one opens another. -/
theorem log_files_full :
    let actions : List Action :=
      [.append (ascii "one\n") (fun _ => 3) 1400000000 1400000000,
        .append (ascii "two\n") (fun _ => 2) 1400000000 1400000000,
        .append (ascii "six\n") (fun _ => 9) 1400000001 1400000001]
    ∃ log w, new (ascii "log") (ascii "host") 7 4 3 1024 1400000000 = some log ∧
      w = run step ⟨log, fun _ => []⟩ actions ∧
      ∃ blocks : List (Bytes × List Bytes),
        (blocks.map Prod.fst).Pairwise (fun m n => m < n) ∧
          blocks.flatMap Prod.snd = actions.filterMap Action.line? ∧
          (∀ b ∈ blocks, w.files b.1 = [] ++ b.2.flatten) ∧
          ∀ n, n ∉ blocks.map Prod.fst → w.files n = [] := by
  have hnew : new (ascii "log") (ascii "host") 7 4 3 1024 1400000000 =
    some _ := rfl
  have hnow : Timestamp.InFourDigits 1400000000 := ⟨by decide, by decide⟩
  refine ⟨_, _, hnew, rfl, ?_⟩
  refine (log_files (fun _ => []) hnew hnow ?_ ?_).1
  · simp only [List.forall_mem_cons, List.not_mem_nil, false_implies,
      implies_true, and_true, Action.ClockInRange]
    exact ⟨⟨by decide, by decide⟩, ⟨by decide, by decide⟩,
      ⟨by decide, by decide⟩⟩
  · simp only [List.forall_mem_cons, List.not_mem_nil, false_implies,
      implies_true, and_true, Action.Progresses]
    exact ⟨fun _ _ => by decide, fun _ _ => by decide, fun _ _ => by decide⟩

end LogFile

end MuduoHttp
