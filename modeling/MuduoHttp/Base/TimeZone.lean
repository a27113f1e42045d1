import MuduoHttp.Base.Bytes
import MuduoHttp.Base.Date

/-!
# Coordinated universal time

`TimeZone::toUtcTime` breaks the seconds since the epoch down to a date and a
time of the day, and `fromUtcTime` puts them together again.  Times before the
epoch count too: the division of C rounds towards zero, and a negative rest is
brought up by a day.
-/

namespace MuduoHttp

open Support

/-- `struct tm`. -/
structure Tm where
  sec : ℤ := 0
  min : ℤ := 0
  hour : ℤ := 0
  mday : ℤ := 0
  mon : ℤ := 0
  year : ℤ := 0
  wday : ℤ := 0
  yday : ℤ := 0
  isdst : ℤ := 0
  gmtoff : ℤ := 0
  zone : Bytes := []
  deriving DecidableEq

namespace TimeZone

open Date

def kSecondsPerDay : ℤ := 24 * 60 * 60

/-- `static_cast<int>`. -/
def toInt (x : ℤ) : ℤ := x.bmod (2 ^ 32)

/-- `detail::fillHMS`; the seconds are not negative. -/
def fillHMS (seconds : ℤ) (utc : Tm) : Tm :=
  let minutes := seconds / 60
  { utc with sec := seconds % 60, min := minutes % 60, hour := minutes / 60 }

def toUtcTime (secondsSinceEpoch : ℤ) (yday : Bool) : Tm :=
  let utc : Tm := { zone := ascii "GMT" }
  let seconds := toInt (secondsSinceEpoch.tmod kSecondsPerDay)
  let days := toInt (secondsSinceEpoch.tdiv kSecondsPerDay)
  let (seconds, days) :=
    if seconds < 0 then (seconds + kSecondsPerDay, days - 1)
    else (seconds, days)
  let utc := fillHMS seconds utc
  let date := days + kJulianDayOf1970_01_01
  let ymd := getYearMonthDay date
  let utc :=
    { utc with
      year := ymd.year - 1900
      mon := ymd.month - 1
      mday := ymd.day
      wday := weekDay date }
  if yday then { utc with yday := date - getJulianDayNumber ymd.year 1 1 }
  else utc

def fromUtcFields (year month day hour minute seconds : ℤ) : ℤ :=
  let date := getJulianDayNumber year month day
  let secondsInDay := hour * 3600 + minute * 60 + seconds
  let days := date - kJulianDayOf1970_01_01
  days * kSecondsPerDay + secondsInDay

def fromUtcTime (utc : Tm) : ℤ :=
  fromUtcFields (utc.year + 1900) (utc.mon + 1) utc.mday utc.hour utc.min
    utc.sec

/-- A date with a time of the day. -/
structure CivilTime extends CivilDate where
  hour : ℤ
  minute : ℤ
  second : ℤ
  hour_nonneg : 0 ≤ hour
  hour_lt : hour < 24
  minute_nonneg : 0 ≤ minute
  minute_lt : minute < 60
  second_nonneg : 0 ≤ second
  second_lt : second < 60

/-- The times whose days an `int` can count: from the year -4800 on, for about
1.4 million years. -/
def InRange (t : ℤ) : Prop :=
  -2472632 ≤ t / kSecondsPerDay ∧ t / kSecondsPerDay ≤ 534398279

/-- The fields of a date with a time of the day, as `gmtime` gives them. -/
def CivilTime.tm (c : CivilTime) : Tm where
  sec := c.second
  min := c.minute
  hour := c.hour
  mday := c.day
  mon := c.month - 1
  year := c.year - 1900
  wday := weekDay (number c.toCivilDate)
  yday := number c.toCivilDate - getJulianDayNumber c.year 1 1
  zone := ascii "GMT"

/-- The seconds since the epoch. -/
def CivilTime.seconds (c : CivilTime) : ℤ :=
  (number c.toCivilDate - kJulianDayOf1970_01_01) * kSecondsPerDay +
    (c.hour * 3600 + c.minute * 60 + c.second)

/-- The time of the day after some seconds. -/
def CivilTime.ofSeconds (d : CivilDate) (n : ℤ) (hn : 0 ≤ n)
    (hlt : n < kSecondsPerDay) : CivilTime where
  toCivilDate := d
  hour := n / 60 / 60
  minute := n / 60 % 60
  second := n % 60
  hour_nonneg := by omega
  hour_lt := by
    unfold kSecondsPerDay at hlt
    omega
  minute_nonneg := by omega
  minute_lt := by omega
  second_nonneg := by omega
  second_lt := by omega

/-! ## Breaking down -/

theorem toInt_eq {x : ℤ} (hle : -2 ^ 31 ≤ x) (hlt : x < 2 ^ 31) :
    toInt x = x :=
  Int.bmod_eq_of_le (by omega) (by omega)

/-- The division of C, corrected for negative times, rounds down. -/
theorem days_and_seconds {t : ℤ} (h : InRange t) :
    (if toInt (t.tmod kSecondsPerDay) < 0 then
        (toInt (t.tmod kSecondsPerDay) + kSecondsPerDay,
          toInt (t.tdiv kSecondsPerDay) - 1)
      else (toInt (t.tmod kSecondsPerDay), toInt (t.tdiv kSecondsPerDay))) =
      (t % kSecondsPerDay, t / kSecondsPerDay) := by
  obtain ⟨hle, hge⟩ := h
  have hnonneg : 0 ≤ t % kSecondsPerDay := Int.emod_nonneg _ (by decide)
  have hlt : t % kSecondsPerDay < 86400 := Int.emod_lt_of_pos _ (by decide)
  by_cases hdown : 0 ≤ t ∨ kSecondsPerDay ∣ t
  · have hdiv : t.tdiv kSecondsPerDay = t / kSecondsPerDay := by
      rw [Int.tdiv_eq_ediv, if_pos hdown, Int.add_zero]
    have hmod : t.tmod kSecondsPerDay = t % kSecondsPerDay := by
      rw [Int.tmod_eq_emod, if_pos hdown, Int.natCast_zero, Int.sub_zero]
    rw [hdiv, hmod, toInt_eq (by omega) (by omega),
      toInt_eq (by omega) (by omega), if_neg (by omega)]
  · have hdiv : t.tdiv kSecondsPerDay = t / kSecondsPerDay + 1 := by
      rw [Int.tdiv_eq_ediv, if_neg hdown]
      rfl
    have hmod : t.tmod kSecondsPerDay = t % kSecondsPerDay - 86400 := by
      rw [Int.tmod_eq_emod, if_neg hdown]
      rfl
    rw [hdiv, hmod, toInt_eq (by omega) (by omega),
      toInt_eq (by omega) (by omega), if_pos (by omega)]
    simp only [kSecondsPerDay, Prod.mk.injEq]
    omega

/-- The day that a time is in. -/
theorem exists_day {t : ℤ} (h : InRange t) :
    ∃ d : CivilDate, first.months ≤ d.months ∧
      number d = t / kSecondsPerDay + kJulianDayOf1970_01_01 := by
  have hepoch : kJulianDayOf1970_01_01 = 2440588 := by decide
  have hle := h.1
  exact exists_date (by omega)

theorem toUtcTime_eq {t : ℤ} (h : InRange t) {d : CivilDate}
    (hd : first.months ≤ d.months)
    (hnumber : number d = t / kSecondsPerDay + kJulianDayOf1970_01_01) :
    toUtcTime t true =
      (CivilTime.ofSeconds d (t % kSecondsPerDay)
        (Int.emod_nonneg _ (by decide))
        (Int.emod_lt_of_pos _ (by decide))).tm := by
  have hymd := getYearMonthDay_number hd
  rw [hnumber] at hymd
  simp only [toUtcTime, days_and_seconds h, hymd]
  simp only [fillHMS, ofCivil, CivilTime.ofSeconds, CivilTime.tm, hnumber,
    if_true]

theorem seconds_ofSeconds (d : CivilDate) (n : ℤ) (hn : 0 ≤ n)
    (hlt : n < kSecondsPerDay) :
    (CivilTime.ofSeconds d n hn hlt).seconds =
      (number d - kJulianDayOf1970_01_01) * kSecondsPerDay + n := by
  simp only [CivilTime.seconds, CivilTime.ofSeconds]
  omega

theorem fromUtcTime_tm (c : CivilTime) : fromUtcTime c.tm = c.seconds := by
  simp only [fromUtcTime, fromUtcFields, CivilTime.tm, CivilTime.seconds,
    number, Int.sub_add_cancel]

theorem fromUtcTime_toUtcTime {t : ℤ} (h : InRange t) (yday : Bool) :
    fromUtcTime (toUtcTime t yday) = t := by
  obtain ⟨d, hd, hnumber⟩ := exists_day h
  have hfields : fromUtcTime (toUtcTime t yday) =
      fromUtcTime (toUtcTime t true) := by cases yday <;> rfl
  rw [hfields, toUtcTime_eq h hd hnumber, fromUtcTime_tm, seconds_ofSeconds,
    hnumber, Int.add_sub_cancel]
  exact Int.ediv_mul_add_emod t kSecondsPerDay

/-- Where the seconds of a time lie. -/
theorem CivilTime.seconds_div (c : CivilTime) :
    c.seconds / kSecondsPerDay = number c.toCivilDate - kJulianDayOf1970_01_01 ∧
      c.seconds % kSecondsPerDay = c.hour * 3600 + c.minute * 60 + c.second := by
  have hhour := c.hour_nonneg
  have hhourLt := c.hour_lt
  have hminute := c.minute_nonneg
  have hminuteLt := c.minute_lt
  have hsecond := c.second_nonneg
  have hsecondLt := c.second_lt
  unfold CivilTime.seconds kSecondsPerDay
  omega

theorem toUtcTime_fromUtcTime (c : CivilTime) (h : first.months ≤ c.months)
    (hrange : InRange c.seconds) :
    toUtcTime (fromUtcTime c.tm) true = c.tm := by
  obtain ⟨hdiv, hmod⟩ := c.seconds_div
  have hminute := c.minute_nonneg
  have hminuteLt := c.minute_lt
  have hsecond := c.second_nonneg
  have hsecondLt := c.second_lt
  rw [fromUtcTime_tm, toUtcTime_eq hrange h (by rw [hdiv]; omega)]
  simp only [CivilTime.tm, CivilTime.ofSeconds, hmod, Tm.mk.injEq, and_true]
  omega

/-- `fromUtcTime` is the inverse of `toUtcTime`, whether or not the day of the
year is asked for, also for times before the epoch; what `toUtcTime` gives is
a date of the calendar with a time of the day; and each of them, from the
first of March of the year -4800 on, is the result for its own seconds. -/
theorem utc_round_trip :
    (∀ t, InRange t →
      (∀ yday, fromUtcTime (toUtcTime t yday) = t) ∧
        ∃ c : CivilTime, first.months ≤ c.months ∧ toUtcTime t true = c.tm) ∧
      ∀ c : CivilTime, first.months ≤ c.months → InRange c.seconds →
        toUtcTime (fromUtcTime c.tm) true = c.tm := by
  refine ⟨fun t h => ⟨fromUtcTime_toUtcTime h, ?_⟩, toUtcTime_fromUtcTime⟩
  obtain ⟨d, hd, hnumber⟩ := exists_day h
  exact ⟨_, hd, toUtcTime_eq h hd hnumber⟩

end TimeZone

end MuduoHttp
