import MuduoHttp.Base.Timestamp

/-!
# The times of log lines

`Logger::Impl::formatTime` keeps the text of the last second of a thread, and
formats a second only when it differs from that one.  What it prints is what
formatting every line afresh would print, but for a first line in the second
zero, which the thread takes for formatted when it starts.
-/

namespace MuduoHttp

open Support TimeZone

namespace Logger

/-- `t_time` and `t_lastSecond` of a thread, zero when it starts. -/
structure ThreadTime where
  t_time : Bytes := List.replicate 32 0
  t_lastSecond : ℤ := 0

/-- `snprintf` into an array of 32 bytes. -/
def printInto (array text : Bytes) : Bytes :=
  let stored := text.take 31 ++ [NUL]
  stored ++ array.drop stored.length

/-- The fields of a second in `g_logTimeZone`, if it is valid. -/
def tmTime (zone : Option Data) (seconds : ℤ) : Option Tm :=
  match zone with
  | some data => toLocalTime data seconds
  | none => some (gmtimeR seconds)

/-- The microseconds, with a `Z` if no zone is set. -/
def microText (zone : Option Data) (microseconds : ℤ) : Bytes :=
  match zone with
  | some _ => (ascii "." ++ printInt true 6 microseconds ++ ascii " ").take 8
  | none => (ascii "." ++ printInt true 6 microseconds ++ ascii "Z ").take 9

/-- The branch of `formatTime` for a second that is not the last one. -/
def refresh (zone : Option Data) (s : ThreadTime) (seconds : ℤ) :
    Option ThreadTime :=
  if seconds ≠ s.t_lastSecond then
    (tmTime zone seconds).map fun tm =>
      { t_lastSecond := seconds
        t_time := printInto s.t_time (Timestamp.dateTimeText tm) }
  else some s

/-- `Logger::Impl::formatTime`: what it keeps and what it inserts. -/
def formatTime (zone : Option Data) (s : ThreadTime)
    (microSecondsSinceEpoch : ℤ) : Option (ThreadTime × Bytes) := do
  let seconds := microSecondsSinceEpoch.tdiv Timestamp.kMicroSecondsPerSecond
  let microseconds :=
    toInt (microSecondsSinceEpoch.tmod Timestamp.kMicroSecondsPerSecond)
  let s ← refresh zone s seconds
  some (s, s.t_time.take 17 ++ microText zone microseconds)

/-- The times of the lines of a thread. -/
def formatTimes (zone : Option Data) (s : ThreadTime) :
    List ℤ → Option (List Bytes)
  | [] => some []
  | t :: ts => do
      let (s, text) ← formatTime zone s t
      let texts ← formatTimes zone s ts
      some (text :: texts)

/-- The time of a line, formatted afresh. -/
def stamp (zone : Option Data) (microSecondsSinceEpoch : ℤ) : Option Bytes := do
  let seconds := microSecondsSinceEpoch.tdiv Timestamp.kMicroSecondsPerSecond
  let microseconds :=
    toInt (microSecondsSinceEpoch.tmod Timestamp.kMicroSecondsPerSecond)
  let tm ← tmTime zone seconds
  some ((Timestamp.dateTimeText tm).take 17 ++ microText zone microseconds)

/-! ## The kept text -/

/-- The text is that of the second it is kept for. -/
def ThreadTime.Sound (zone : Option Data) (s : ThreadTime) : Prop :=
  ∃ tm, tmTime zone s.t_lastSecond = some tm ∧
    s.t_time.take 17 = (Timestamp.dateTimeText tm).take 17

theorem le_length_printInt (zero : Bool) (width : ℕ) (v : ℤ) :
    width ≤ (printInt zero width v).length := by
  unfold printInt
  cases zero <;> simp <;> omega

theorem le_length_dateTimeText (tm : Tm) :
    17 ≤ (Timestamp.dateTimeText tm).length := by
  have hyear := le_length_printInt false 4 (tm.year + 1900)
  have hmon := le_length_printInt true 2 (tm.mon + 1)
  have hmday := le_length_printInt true 2 tm.mday
  have hhour := le_length_printInt true 2 tm.hour
  have hmin := le_length_printInt true 2 tm.min
  have hsec := le_length_printInt true 2 tm.sec
  simp only [Timestamp.dateTimeText, List.length_append,
    List.length_singleton]
  omega

theorem take_printInto (array : Bytes) {text : Bytes}
    (h : 17 ≤ text.length) :
    (printInto array text).take 17 = text.take 17 := by
  have hlength : 17 ≤ (text.take 31).length := by
    rw [List.length_take]
    omega
  rw [printInto, List.append_assoc, List.take_append_of_le_length hlength,
    List.take_take]
  rfl

variable {zone : Option Data} {s : ThreadTime}

/-- The second is not the kept one, or it is kept rightly. -/
def Ready (zone : Option Data) (s : ThreadTime) (seconds : ℤ) : Prop :=
  seconds ≠ s.t_lastSecond ∨ s.Sound zone

theorem refresh_of_ready {seconds : ℤ} (h : Ready zone s seconds) :
    (tmTime zone seconds = none ∧ refresh zone s seconds = none) ∨
      ∃ tm s', tmTime zone seconds = some tm ∧
        refresh zone s seconds = some s' ∧ s'.Sound zone ∧
        s'.t_time.take 17 = (Timestamp.dateTimeText tm).take 17 := by
  unfold refresh
  by_cases hsecond : seconds = s.t_lastSecond
  · obtain hne | hsound := h
    · exact absurd hsecond hne
    · obtain ⟨tm, htm, htext⟩ := hsound
      right
      exact ⟨tm, s, hsecond ▸ htm, if_neg (not_not.mpr hsecond),
        ⟨tm, htm, htext⟩, htext⟩
  · rw [if_pos hsecond]
    cases htm : tmTime zone seconds with
    | none => exact .inl ⟨rfl, rfl⟩
    | some tm =>
        right
        have htake := take_printInto s.t_time (le_length_dateTimeText tm)
        exact ⟨tm, _, rfl, rfl, ⟨tm, htm, htake⟩, htake⟩

theorem formatTime_of_ready {t : ℤ}
    (h : Ready zone s (t.tdiv Timestamp.kMicroSecondsPerSecond)) :
    (stamp zone t = none ∧ formatTime zone s t = none) ∨
      ∃ s' text, stamp zone t = some text ∧
        formatTime zone s t = some (s', text) ∧ s'.Sound zone := by
  obtain ⟨htm, hrefresh⟩ | ⟨tm, s', htm, hrefresh, hsound, htext⟩ :=
    refresh_of_ready h
  · left
    simp only [stamp, formatTime, htm, hrefresh, Option.bind_eq_bind,
      Option.bind_none, and_self]
  · right
    refine ⟨s', s'.t_time.take 17 ++ microText zone
      (toInt (t.tmod Timestamp.kMicroSecondsPerSecond)), ?_, ?_, hsound⟩
    · simp only [stamp, htm, htext, Option.bind_eq_bind, Option.bind_some]
    · simp only [formatTime, hrefresh, Option.bind_eq_bind, Option.bind_some]

/-- A first line that is ready makes the others so. -/
theorem formatTimes_of_ready {t : ℤ} {ts : List ℤ}
    (h : Ready zone s (t.tdiv Timestamp.kMicroSecondsPerSecond)) :
    formatTimes zone s (t :: ts) = (t :: ts).mapM (stamp zone) := by
  induction ts generalizing s t with
  | nil =>
      obtain ⟨hstamp, hformat⟩ | ⟨s', text, hstamp, hformat, -⟩ :=
        formatTime_of_ready h
      · simp [formatTimes, hstamp, hformat]
      · simp [formatTimes, hstamp, hformat]
  | cons u ts ih =>
      rw [formatTimes, List.mapM_cons]
      obtain ⟨hstamp, hformat⟩ | ⟨s', text, hstamp, hformat, hsound⟩ :=
        formatTime_of_ready h
      · simp only [hstamp, hformat, Option.bind_eq_bind, Option.bind_none]
      · simp only [hstamp, hformat, Option.bind_eq_bind, Option.bind_some,
          ih (.inr hsound)]
        rfl

/-- The time that a line begins with when no zone is set. -/
theorem stamp_none {t : ℤ}
    (h : Timestamp.InFourDigits (t / Timestamp.kMicroSecondsPerSecond)) :
    stamp none t =
      some (Timestamp.toFormattedString t true ++ ascii "Z ") := by
  have hlength := Timestamp.length_toFormattedString h
  have hdot : (ascii ".").length = 1 := by decide
  have hZ : (ascii "Z ").length = 2 := by decide
  simp only [Timestamp.toFormattedString, if_true] at hlength ⊢
  simp only [stamp, tmTime, microText, Option.bind_eq_bind, Option.bind_some,
    Option.some.injEq]
  set date := Timestamp.dateTimeText
    (gmtimeR (t.tdiv Timestamp.kMicroSecondsPerSecond))
  set micro := printInt true 6
    (toInt (t.tmod Timestamp.kMicroSecondsPerSecond))
  have hdate : 17 ≤ date.length := le_length_dateTimeText _
  have hmicro : 6 ≤ micro.length := le_length_printInt ..
  simp only [List.length_take, List.length_append, hdot] at hlength
  rw [List.take_of_length_le (by omega : date.length ≤ 17),
    List.take_of_length_le (by simp [hdot, hZ]; omega),
    List.take_of_length_le (by simp [hdot]; omega), List.append_assoc,
    List.append_assoc, List.append_assoc]

theorem stamp_none_lt_iff {t u : ℤ}
    (ht : Timestamp.InFourDigits (t / Timestamp.kMicroSecondsPerSecond))
    (hu : Timestamp.InFourDigits (u / Timestamp.kMicroSecondsPerSecond)) :
    ∃ text text', stamp none t = some text ∧ stamp none u = some text' ∧
      (text < text' ↔ t < u) := by
  refine ⟨_, _, stamp_none ht, stamp_none hu, ?_⟩
  have hirrefl : ¬ ascii "Z " < ascii "Z " := by decide
  have hlength := (Timestamp.length_toFormattedString ht).trans
    (Timestamp.length_toFormattedString hu).symm
  rw [append_lt_append_iff hlength, Timestamp.toFormattedString_lt_iff ht hu,
    or_iff_left fun h => hirrefl h.2]

/-- The lines of a thread begin with the times that formatting each of them
afresh would print, in whatever order the times come, unless the first is in
the second zero.  Without a zone, the texts compare like the times. -/
theorem log_times (zone : Option Data) {t : ℤ} (ts : List ℤ)
    (ht : t.tdiv Timestamp.kMicroSecondsPerSecond ≠ 0) :
    formatTimes zone {} (t :: ts) = (t :: ts).mapM (stamp zone) ∧
      ∀ u v, Timestamp.InFourDigits (u / Timestamp.kMicroSecondsPerSecond) →
        Timestamp.InFourDigits (v / Timestamp.kMicroSecondsPerSecond) →
        ∃ text text', stamp none u = some text ∧ stamp none v = some text' ∧
          (text < text' ↔ u < v) :=
  ⟨formatTimes_of_ready (.inl ht), fun _ _ => stamp_none_lt_iff⟩

/-- Three lines, two of them in the same second. -/
theorem log_times_same_second :
    formatTimes none {} [1420070400000000, 1420070400999999, 1420070401000000] =
      [1420070400000000, 1420070400999999, 1420070401000000].mapM
        (stamp none) :=
  (log_times none [1420070400999999, 1420070401000000] (by decide)).1

end Logger

end MuduoHttp
