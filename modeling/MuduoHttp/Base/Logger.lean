import Mathlib.Data.List.DropRight
import Mathlib.Data.List.Forall2
import MuduoHttp.Base.LogTime

/-!
# The lines of the log statements

A log statement builds a `Logger`, inserts into its stream, and destroys it,
which passes one line to `g_output`.  The line is begun and ended by the
`Logger`, in the same buffer of fixed size as what the statement inserts.  Its
header is always whole; the rest is written as far as there is room, and the
newline is lost exactly when a single byte is left for it.
-/

namespace MuduoHttp

open Support TimeZone

namespace Logger

inductive LogLevel
  | trace
  | debug
  | info
  | warn
  | error
  | fatal
  deriving DecidableEq, Repr

/-- The value of the enumerator. -/
def LogLevel.toNat : LogLevel → ℕ
  | .trace => 0
  | .debug => 1
  | .info => 2
  | .warn => 3
  | .error => 4
  | .fatal => 5

def logLevelName : LogLevel → Bytes
  | .trace => ascii "TRACE "
  | .debug => ascii "DEBUG "
  | .info => ascii "INFO  "
  | .warn => ascii "WARN  "
  | .error => ascii "ERROR "
  | .fatal => ascii "FATAL "

/-- The macros, with `__func__` where they pass it. -/
inductive LogMacro
  | logTrace (func : Bytes)
  | logDebug (func : Bytes)
  | logInfo
  | logWarn
  | logError
  | logFatal
  | logSyserr
  | logSysfatal
  deriving DecidableEq

namespace LogMacro

/-- The test in front of the statement, with `g_logLevel`. -/
def enabled (logLevel : LogLevel) : LogMacro → Bool
  | .logTrace _ => logLevel.toNat ≤ LogLevel.trace.toNat
  | .logDebug _ => logLevel.toNat ≤ LogLevel.debug.toNat
  | .logInfo => logLevel.toNat ≤ LogLevel.info.toNat
  | .logWarn | .logError | .logFatal | .logSyserr | .logSysfatal => true

/-- The level that the constructors of `Logger` pass on. -/
def level : LogMacro → LogLevel
  | .logTrace _ => .trace
  | .logDebug _ => .debug
  | .logInfo => .info
  | .logWarn => .warn
  | .logError => .error
  | .logFatal => .fatal
  | .logSyserr => .error
  | .logSysfatal => .fatal

/-- The `savedErrno` that they pass on. -/
def savedErrno (errno : Int32) : LogMacro → Int32
  | .logSyserr | .logSysfatal => errno
  | .logTrace _ | .logDebug _ | .logInfo | .logWarn | .logError
  | .logFatal => 0

/-- What the constructor inserts behind the header. -/
def funcItems : LogMacro → List LogItem
  | .logTrace func | .logDebug func => [.charPointer (some func), .char SP]
  | .logInfo | .logWarn | .logError | .logFatal | .logSyserr
  | .logSysfatal => []

end LogMacro

/-- `SourceFile`: what is behind the last slash. -/
def basename (filename : Bytes) : Bytes :=
  filename.rtakeWhile fun b => b ≠ 47

/-- A log statement when a thread comes to it. -/
structure Call where
  statement : LogMacro
  file : Bytes
  line : Int32
  /-- What the statement inserts. -/
  items : List LogItem
  /-- What `gettid` returns in the thread. -/
  tid : Int32
  logLevel : LogLevel
  errno : Int32
  /-- What `Timestamp::now` returns. -/
  now : ℤ
  /-- What is in the buffer of the new stream. -/
  data : FixedArray Byte kSmallBuffer

def Call.enabled (c : Call) : Bool := c.statement.enabled c.logLevel

/-- What a thread keeps between its log statements. -/
structure ThreadLog where
  time : ThreadTime := {}
  t_cachedTid : Int32 := 0
  t_tidString : Bytes := List.replicate 32 0
  t_tidStringLength : ℕ := 6

/-- `CurrentThread::tid`, which caches what `gettid` returns. -/
def ThreadLog.cacheTid (s : ThreadLog) (gettid : Int32) : ThreadLog :=
  if s.t_cachedTid = 0 then
    let text := printInt false 5 gettid.toInt ++ ascii " "
    { s with
      t_cachedTid := gettid
      t_tidString := printInto s.t_tidString text
      t_tidStringLength := text.length }
  else s

/-- The items for a `savedErrno`. -/
def errnoItems (strerror_tl : Int32 → Bytes) (savedErrno : Int32) :
    List LogItem :=
  if savedErrno ≠ 0 then
    [.charPointer (some (strerror_tl savedErrno)),
      .charPointer (some (ascii " (errno=")), .int savedErrno,
      .charPointer (some (ascii ") "))]
  else []

/-- `Logger::Impl::Impl`. -/
def Impl (zone : Option Data) (strerror_tl : Int32 → Bytes) (s : ThreadLog)
    (c : Call) : Option (ThreadLog × LogStream) := do
  let (time, text) ← formatTime zone s.time c.now
  -- `T(t_time, 17)` and the microseconds
  let stream ← (LogStream.new c.data).append (text.take 17)
  let stream ← stream.append (text.drop 17)
  let s := { s with time := time }.cacheTid c.tid
  let stream ← stream.append (s.t_tidString.take s.t_tidStringLength)
  let stream ← stream.append (logLevelName c.statement.level)
  let stream ← stream.insertAll
    (errnoItems strerror_tl (c.statement.savedErrno c.errno))
  some (s, stream)

/-- What `finish` inserts in front of the newline. -/
def sourceItems (c : Call) : List LogItem :=
  [.charPointer (some (ascii " - ")), .stringPiece (basename c.file),
    .char COLON, .int c.line]

/-- A log statement: the constructor, the insertions and the destructor, with
the line that it passes to `g_output`. -/
def log (zone : Option Data) (strerror_tl : Int32 → Bytes) (s : ThreadLog)
    (c : Call) : Option (ThreadLog × Bytes) := do
  let (s, stream) ← Impl zone strerror_tl s c
  let stream ← stream.insertAll c.statement.funcItems
  let stream ← stream.insertAll c.items
  let stream ← stream.insertAll (sourceItems c)
  let stream ← stream.insert (.char LF)
  some (s, stream.buffer_.toString)

/-- The lines of the statements of all threads.  A `FATAL` one aborts. -/
def logAll (zone : Option Data) (strerror_tl : Int32 → Bytes) :
    (Int32 → ThreadLog) → List Call → Option (List Bytes)
  | _, [] => some []
  | threads, c :: calls =>
      if c.enabled then do
        let (s, line) ← log zone strerror_tl (threads c.tid) c
        if c.statement.level = .fatal then some [line]
        else do
          let lines ← logAll zone strerror_tl
            (Function.update threads c.tid s) calls
          some (line :: lines)
      else logAll zone strerror_tl threads calls

/-- The statements that pass a line to `g_output`. -/
def executed : List Call → List Call
  | [] => []
  | c :: calls =>
      if c.enabled then
        if c.statement.level = .fatal then [c] else c :: executed calls
      else executed calls

/-! ## What a line is -/

def tidText (tid : Int32) : Bytes := printInt false 5 tid.toInt ++ ascii " "

/-- The items between the header and the newline. -/
def Call.pieces (strerror_tl : Int32 → Bytes) (c : Call) : List LogItem :=
  errnoItems strerror_tl (c.statement.savedErrno c.errno) ++
    (c.statement.funcItems ++ (c.items ++ sourceItems c))

/-- A header with the time as if formatted afresh, the pieces for which there
is room, and the newline unless a single byte is left. -/
def IsLine (zone : Option Data) (strerror_tl : Int32 → Bytes) (c : Call)
    (line : Bytes) : Prop :=
  ∃ time w, stamp zone c.now = some time ∧
    let header := time ++ tidText c.tid ++ logLevelName c.statement.level
    let body := header ++ (w.map Prod.snd).flatten
    Written (kSmallBuffer - header.length) (c.pieces strerror_tl) w ∧
      line = body ++ if body.length + 1 < kSmallBuffer then [LF] else []

/-- The statement is not made in the second zero, and its time has fields. -/
structure Call.Dated (zone : Option Data) (c : Call) : Prop where
  second : c.now.tdiv Timestamp.kMicroSecondsPerSecond ≠ 0
  stamped : stamp zone c.now ≠ none

variable {zone : Option Data} {strerror_tl : Int32 → Bytes}

/-! ## Insertions one after the other -/

theorem insertAll_append (s : LogStream) (items items' : List LogItem) :
    s.insertAll (items ++ items') =
      (s.insertAll items).bind fun s => s.insertAll items' := by
  induction items generalizing s with
  | nil => rfl
  | cons item items ih =>
      simp only [List.cons_append, LogStream.insertAll, Option.bind_eq_bind,
        ih, Option.bind_assoc]

/-- Items for which there is room in any case are all written. -/
theorem written_of_fits {avail : ℕ} {items : List LogItem}
    {texts : List Bytes}
    (hrenders : List.Forall₂ LogItem.Renders items texts)
    (hfits : texts.flatten.length + kMaxNumericSize ≤ avail)
    {w : List (LogItem × Bytes)} (h : Written avail items w) :
    w.map Prod.snd = texts := by
  induction hrenders generalizing avail w with
  | nil =>
      cases h
      rfl
  | @cons item text items texts htext hrest ih =>
      rw [List.flatten_cons, List.length_append] at hfits
      cases h with
      | written hroom htext' hwritten =>
          obtain rfl := htext.unique htext'
          rw [List.map_cons, ih (by omega) hwritten]
      | skipped hfull _ =>
          refine absurd ?_ hfull
          change item.value.Renders text at htext
          cases hvalue : item.value with
          | plain bytes =>
              rw [hvalue] at htext
              obtain rfl : text = bytes := htext
              have hpos : 0 < kMaxNumericSize := by decide
              change text.length < avail
              omega
          | integer v bound =>
              change kMaxNumericSize ≤ avail
              omega
          | pointer p =>
              change kMaxNumericSize ≤ avail
              omega

/-- What is left of a buffer, by its contents. -/
theorem avail_eq {SIZE : ℕ} (b : FixedBuffer SIZE) :
    b.avail = SIZE - b.toString.length := by
  rw [b.length_toString]
  rfl

theorem insertAll_fits (s : LogStream) {items : List LogItem}
    {texts : List Bytes}
    (hrenders : List.Forall₂ LogItem.Renders items texts)
    (hfits : texts.flatten.length + kMaxNumericSize ≤ s.buffer_.avail) :
    ∃ s', s.insertAll items = some s' ∧
      s'.buffer_.toString = s.buffer_.toString ++ texts.flatten := by
  obtain ⟨s', w, hall, hwritten, hcontents⟩ := s.insertAll_written items
  rw [written_of_fits hrenders hfits hwritten] at hcontents
  exact ⟨s', hall, hcontents⟩

theorem renders_strings (texts : List Bytes) :
    List.Forall₂ LogItem.Renders (texts.map LogItem.string) texts := by
  rw [List.forall₂_map_left_iff]
  exact List.forall₂_same.mpr fun _ _ => rfl

/-! ## The header -/

theorem length_tidText_le (tid : Int32) : (tidText tid).length ≤ 12 := by
  have hdigits : (numeralText 10 tid.toInt.natAbs).length ≤ 10 := by
    refine length_numeralText_le (by decide) (by decide) ?_
    have hlow := tid.le_toInt
    have hhigh := tid.toInt_lt
    omega
  have hblank : (ascii " ").length = 1 := by decide
  simp only [tidText, printInt, List.length_append, List.length_replicate,
    hblank, Bool.false_eq_true, if_false]
  split
  · rw [List.length_singleton]
    omega
  · rw [List.length_nil]
    omega

theorem length_logLevelName (level : LogLevel) :
    (logLevelName level).length = 6 := by
  cases level <;> decide

/-- What is inserted for the time is short. -/
theorem length_stamp_le {t : ℤ} {time : Bytes}
    (h : stamp zone t = some time) : time.length ≤ 26 := by
  simp only [stamp, Option.bind_eq_bind, Option.bind_eq_some_iff,
    Option.some.injEq] at h
  obtain ⟨tm, -, rfl⟩ := h
  rw [List.length_append, List.length_take]
  have hmicro : (microText zone (toInt (t.tmod
      Timestamp.kMicroSecondsPerSecond))).length ≤ 9 := by
    unfold microText
    split <;> rw [List.length_take] <;> omega
  omega

/-- The id that is kept is that of the thread, if there is one. -/
structure ThreadLog.Keeps (zone : Option Data) (tid : Int32)
    (s : ThreadLog) : Prop where
  time : s.time = {} ∨ s.time.Sound zone
  tid : s.t_cachedTid = 0 ∨
    s.t_cachedTid = tid ∧
      s.t_tidString.take s.t_tidStringLength = tidText tid

theorem keeps_empty (tid : Int32) : ({} : ThreadLog).Keeps zone tid :=
  ⟨.inl rfl, .inl rfl⟩

theorem cacheTid_keeps {s : ThreadLog} {tid : Int32}
    (h : s.Keeps zone tid) :
    (s.cacheTid tid).t_tidString.take (s.cacheTid tid).t_tidStringLength =
        tidText tid ∧
      (s.cacheTid tid).Keeps zone tid ∧
      (s.cacheTid tid).time = s.time := by
  unfold ThreadLog.cacheTid
  split_ifs with hnone
  · have hlength := length_tidText_le tid
    have htake : (printInto s.t_tidString (tidText tid)).take
        (tidText tid).length = tidText tid := by
      rw [printInto, List.take_of_length_le (by omega : _ ≤ 31),
        List.append_assoc, List.take_left]
    exact ⟨htake, ⟨h.time, .inr ⟨rfl, htake⟩⟩, rfl⟩
  · obtain hzero | hcached := h.tid
    · exact absurd hzero hnone
    · exact ⟨hcached.2, h, rfl⟩

/-- The time that is kept is that of the second, or the second differs. -/
theorem Call.Dated.ready {c : Call} (h : c.Dated zone) {s : ThreadLog}
    (hs : s.Keeps zone c.tid) :
    Ready zone s.time (c.now.tdiv Timestamp.kMicroSecondsPerSecond) := by
  obtain htime | hsound := hs.time
  · rw [htime]
    exact .inl h.second
  · exact .inr hsound

/-- The constructor writes the header, and the pieces for an error. -/
theorem impl_eq (strerror_tl : Int32 → Bytes) {s : ThreadLog} {c : Call}
    (hs : s.Keeps zone c.tid) (hc : c.Dated zone) :
    ∃ (time : Bytes) (s' : ThreadLog) (stream : LogStream),
      stamp zone c.now = some time ∧ s'.Keeps zone c.tid ∧
      stream.buffer_.toString =
        time ++ tidText c.tid ++ logLevelName c.statement.level ∧
      Impl zone strerror_tl s c =
        (stream.insertAll (errnoItems strerror_tl
          (c.statement.savedErrno c.errno))).map
          fun stream => (s', stream) := by
  obtain ⟨hstamp, -⟩ | ⟨time', text, hstamp, hformat, hsound⟩ :=
    formatTime_of_ready (hc.ready hs)
  · exact absurd hstamp hc.stamped
  have hkeeps : ({ s with time := time' } : ThreadLog).Keeps zone c.tid :=
    ⟨.inr hsound, hs.tid⟩
  obtain ⟨htid, hcached, -⟩ := cacheTid_keeps hkeeps
  have hfits : [text.take 17, text.drop 17, tidText c.tid,
        logLevelName c.statement.level].flatten.length + kMaxNumericSize ≤
      (LogStream.new c.data).buffer_.avail := by
    have htext := length_stamp_le hstamp
    have hlength := length_tidText_le c.tid
    have hlevel := length_logLevelName c.statement.level
    have havail : (LogStream.new c.data).buffer_.avail = 4000 := rfl
    simp only [List.flatten_cons, List.flatten_nil, List.length_append,
      List.length_take, List.length_drop, List.length_nil, hlevel, havail,
      kMaxNumericSize]
    omega
  obtain ⟨stream, hstream, hcontents⟩ :=
    insertAll_fits _ (renders_strings _) hfits
  refine ⟨text, _, stream, hstamp, hcached, ?_, ?_⟩
  · have hempty : (LogStream.new c.data).buffer_.toString = [] := rfl
    rw [hcontents, hempty]
    simp only [List.flatten_cons, List.flatten_nil, List.nil_append,
      List.append_nil]
    rw [← List.append_assoc, List.take_append_drop, List.append_assoc]
  · simp only [List.map_cons, List.map_nil, LogStream.insertAll,
      LogStream.insert, Option.bind_eq_bind, Option.bind_eq_some_iff,
      Option.some.injEq] at hstream
    obtain ⟨s₁, hone, s₂, htwo, s₃, hthree, s₄, hfour, rfl⟩ := hstream
    simp only [Impl, hformat, hone, htwo, htid, hthree, hfour,
      Option.bind_eq_bind, Option.bind_some, Option.map_eq_bind]
    rfl

/-! ## The line -/

theorem insert_newline (s : LogStream) :
    ∃ s', s.insert (.char LF) = some s' ∧
      s'.buffer_.toString = s.buffer_.toString ++
        if s.buffer_.toString.length + 1 < kSmallBuffer then [LF] else [] := by
  have havail := avail_eq s.buffer_
  by_cases hroom : ([LF] : Bytes).length < s.buffer_.avail
  · obtain ⟨s', hput, hadds⟩ := s.append_of_lt hroom
    rw [List.length_singleton] at hroom
    refine ⟨s', hput, ?_⟩
    rw [hadds.contents, if_pos (by omega)]
  · refine ⟨s, ?_, ?_⟩
    · change s.append [LF] = some s
      rw [LogStream.append, s.buffer_.append_of_le (Nat.not_lt.mp hroom)]
      rfl
    · rw [List.length_singleton] at hroom
      rw [if_neg (by omega), List.append_nil]

/-- A thread that keeps what is right passes a line on, and goes on so. -/
theorem log_of_keeps (strerror_tl : Int32 → Bytes) {s : ThreadLog} {c : Call}
    (hs : s.Keeps zone c.tid) (hc : c.Dated zone) :
    ∃ s' line, log zone strerror_tl s c = some (s', line) ∧
      s'.Keeps zone c.tid ∧ IsLine zone strerror_tl c line := by
  obtain ⟨time, s', stream, hstamp, hkeeps, hheader, himpl⟩ :=
    impl_eq strerror_tl hs hc
  obtain ⟨body, w, hall, hwritten, hcontents⟩ :=
    stream.insertAll_written (c.pieces strerror_tl)
  obtain ⟨last, hnewline, hlast⟩ := insert_newline body
  rw [avail_eq, hheader] at hwritten
  rw [hheader] at hcontents
  rw [hcontents] at hlast
  refine ⟨s', last.buffer_.toString, ?_, hkeeps, time, w, hstamp, hwritten,
    hlast⟩
  -- The insertions behind the header are made one after the other.
  simp only [Call.pieces, insertAll_append, Option.bind_eq_some_iff] at hall
  obtain ⟨s₁, hone, s₂, htwo, s₃, hthree, hfour⟩ := hall
  simp only [log, himpl, hone, htwo, hthree, hfour, hnewline,
    Option.bind_eq_bind, Option.bind_some, Option.map_some]

theorem length_lt_of_room {v : LogValue} {text : Bytes} {avail : ℕ}
    (htext : v.Renders text) (hroom : v.Room avail) : text.length < avail := by
  cases v with
  | plain bytes =>
      obtain rfl : text = bytes := htext
      exact hroom
  | integer v bound =>
      obtain ⟨ds, hds, rfl⟩ := htext
      rw [hds.eq_numeral (by decide)]
      exact (LogStream.length_decimalText_le bound).trans_lt
        (Nat.lt_of_lt_of_le (by decide) hroom)
  | pointer p =>
      obtain ⟨ds, hds, rfl⟩ := htext
      rw [hds.eq_numeral (by decide)]
      have hdigits := LogStream.length_hexText_le p
      have htwo : (ascii "0x").length = 2 := by decide
      change kMaxNumericSize ≤ avail at hroom
      rw [kMaxNumericSize] at hroom
      rw [numeralText] at hdigits
      rw [List.length_append, htwo]
      omega

/-- A byte is always left. -/
theorem length_written_lt {avail : ℕ} {items : List LogItem}
    {w : List (LogItem × Bytes)} (h : Written avail items w)
    (hpos : 0 < avail) : (w.map Prod.snd).flatten.length < avail := by
  induction h with
  | nil avail => exact hpos
  | written hroom htext hrest ih =>
      have hless := length_lt_of_room htext hroom
      have hrest := ih (by omega)
      simp only [List.map_cons, List.flatten_cons, List.length_append]
      omega
  | skipped hfull hrest ih => exact ih hpos

theorem length_header_le {c : Call} {time : Bytes}
    (h : stamp zone c.now = some time) :
    (time ++ tidText c.tid ++ logLevelName c.statement.level).length ≤ 44 := by
  have htime := length_stamp_le h
  have htid := length_tidText_le c.tid
  have hlevel := length_logLevelName c.statement.level
  rw [List.length_append, List.length_append]
  omega

theorem IsLine.length_lt {c : Call} {line : Bytes}
    (h : IsLine zone strerror_tl c line) : line.length < kSmallBuffer := by
  obtain ⟨time, w, hstamp, hwritten, rfl⟩ := h
  have hheader := length_header_le hstamp
  have hsize : kSmallBuffer = 4000 := rfl
  have hless := length_written_lt hwritten (by omega)
  rw [List.length_append]
  split_ifs with hroom
  · rwa [List.length_singleton]
  · rw [List.length_append, List.length_nil]
    omega

/-- A line that leaves room for a number has all pieces and its newline. -/
theorem IsLine.whole {c : Call} {line time : Bytes}
    (h : IsLine zone strerror_tl c line) (hstamp : stamp zone c.now = some time)
    {texts : List Bytes}
    (hrenders : List.Forall₂ LogItem.Renders (c.pieces strerror_tl) texts)
    (hfits : (time ++ tidText c.tid ++ logLevelName c.statement.level ++
      texts.flatten).length + kMaxNumericSize ≤ kSmallBuffer) :
    line = time ++ tidText c.tid ++ logLevelName c.statement.level ++
      texts.flatten ++ [LF] := by
  obtain ⟨time', w, hstamp', hwritten, rfl⟩ := h
  obtain rfl : time' = time := Option.some.inj (hstamp'.symm.trans hstamp)
  have hpos : 1 < kMaxNumericSize := by decide
  rw [List.length_append] at hfits
  rw [written_of_fits hrenders (by omega) hwritten, if_pos]
  rw [List.length_append]
  omega

/-- The log statements of all threads, in the order in which they pass their
lines on, whatever they insert and whatever the clock shows.  Every statement
that is enabled passes one line to `g_output`, up to the first `FATAL` one.  A
line is shorter than the buffer, and one that leaves room for a number has all
of its pieces and ends with a newline. -/
theorem log_lines (zone : Option Data) (strerror_tl : Int32 → Bytes)
    {calls : List Call} (hcalls : ∀ c ∈ calls, c.Dated zone) :
    (∃ lines, logAll zone strerror_tl (fun _ => {}) calls = some lines ∧
      List.Forall₂ (IsLine zone strerror_tl) (executed calls) lines) ∧
    ∀ c line, IsLine zone strerror_tl c line →
      line.length < kSmallBuffer ∧
      ∀ time texts, stamp zone c.now = some time →
        List.Forall₂ LogItem.Renders (c.pieces strerror_tl) texts →
        (time ++ tidText c.tid ++ logLevelName c.statement.level ++
          texts.flatten).length + kMaxNumericSize ≤ kSmallBuffer →
        line = time ++ tidText c.tid ++ logLevelName c.statement.level ++
          texts.flatten ++ [LF] := by
  refine ⟨?_, fun c line h => ⟨h.length_lt, fun _ _ hs => h.whole hs⟩⟩
  have hrun : ∀ threads : Int32 → ThreadLog,
      (∀ tid, (threads tid).Keeps zone tid) →
      ∃ lines, logAll zone strerror_tl threads calls = some lines ∧
        List.Forall₂ (IsLine zone strerror_tl) (executed calls) lines := by
    induction calls with
    | nil => exact fun _ _ => ⟨[], rfl, .nil⟩
    | cons c calls ih =>
        intro threads hthreads
        obtain ⟨hc, hrest⟩ := List.forall_mem_cons.mp hcalls
        rw [logAll, executed]
        split_ifs with henabled hfatal
        · obtain ⟨s, line, hlog, -, hline⟩ :=
            log_of_keeps strerror_tl (hthreads c.tid) hc
          exact ⟨[line], by rw [hlog]; rfl, .cons hline .nil⟩
        · obtain ⟨s, line, hlog, hkeeps, hline⟩ :=
            log_of_keeps strerror_tl (hthreads c.tid) hc
          obtain ⟨lines, hlines, hall⟩ :=
            ih hrest (Function.update threads c.tid s) fun tid => by
              obtain rfl | htid := eq_or_ne tid c.tid
              · rwa [Function.update_self]
              · rw [Function.update_of_ne htid]
                exact hthreads tid
          refine ⟨line :: lines, ?_, .cons hline hall⟩
          simp only [hlog, hlines, Option.bind_eq_bind, Option.bind_some]
        · exact ih hrest threads hthreads
  exact hrun _ fun _ => keeps_empty _

/-- Without a zone every time has fields. -/
theorem dated_none {c : Call}
    (h : c.now.tdiv Timestamp.kMicroSecondsPerSecond ≠ 0) : c.Dated none where
  second := h
  stamped := by
    simp only [stamp, tmTime, Option.bind_eq_bind, Option.bind_some, ne_eq,
      reduceCtorEq, not_false_eq_true]

/-- Two threads; the second statement aborts. -/
theorem log_lines_two :
    let data : FixedArray Byte kSmallBuffer := 
      ⟨List.replicate 4000 0, List.length_replicate⟩
    let first : Call :=
      { statement := .logInfo, file := ascii "base/tests/a.cc", line := 7
        items := [.int 42], tid := 100, logLevel := .info, errno := 0
        now := 1420070400000000, data }
    let last : Call :=
      { statement := .logSysfatal, file := ascii "b.cc", line := 8
        items := [.charPointer (some (ascii "bind"))], tid := 101
        logLevel := .info, errno := 98, now := 1420070400000001, data }
    ∃ lines, logAll none (fun _ => ascii "in use") (fun _ => {})
        [first, last, first] = some lines ∧
      List.Forall₂ (IsLine none fun _ => ascii "in use") [first, last]
        lines := by
  intro data first last
  refine (log_lines none (fun _ => ascii "in use") ?_).1
  simp only [List.forall_mem_cons, List.not_mem_nil, false_implies,
    implies_true, and_true]
  exact ⟨dated_none (by decide), dated_none (by decide),
    dated_none (by decide)⟩

end Logger

end MuduoHttp
