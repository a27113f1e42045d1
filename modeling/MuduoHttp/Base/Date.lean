import MuduoHttp.Support.Calendar

/-!
# Dates

`Date` keeps the Julian day number of a date.  From the first of March of the
year -4800 on, `getJulianDayNumber` numbers the days of the Gregorian calendar
one by one, and `getYearMonthDay` is its inverse.
-/

namespace MuduoHttp

open Support

namespace Date

/-- `detail::getJulianDayNumber`; the divisions of C round towards zero. -/
def getJulianDayNumber (year month day : ℤ) : ℤ :=
  let a := (14 - month).tdiv 12
  let y := year + 4800 - a
  let m := month + 12 * a - 3
  day + (153 * m + 2).tdiv 5 + y * 365 + y.tdiv 4 - y.tdiv 100 + y.tdiv 400
    - 32045

structure YearMonthDay where
  year : ℤ
  month : ℤ
  day : ℤ
  deriving DecidableEq

/-- `detail::getYearMonthDay`. -/
def getYearMonthDay (julianDayNumber : ℤ) : YearMonthDay :=
  let a := julianDayNumber + 32044
  let b := (4 * a + 3).tdiv 146097
  let c := a - (b * 146097).tdiv 4
  let d := (4 * c + 3).tdiv 1461
  let e := c - (1461 * d).tdiv 4
  let m := (5 * e + 2).tdiv 153
  { day := e - (153 * m + 2).tdiv 5 + 1
    month := m + 3 - 12 * m.tdiv 10
    year := b * 100 + d - 4800 + m.tdiv 10 }

def kJulianDayOf1970_01_01 : ℤ := getJulianDayNumber 1970 1 1

/-- `weekDay`, from Sunday on. -/
def weekDay (julianDayNumber : ℤ) : ℤ := (julianDayNumber + 1).tmod 7

/-- The first of March of the year -4800. -/
def first : CivilDate where
  year := -4800
  month := 3
  day := 1
  one_le_month := by decide
  month_le := by decide
  one_le_day := by decide
  day_le := by decide

def number (d : CivilDate) : ℤ := getJulianDayNumber d.year d.month d.day

def ofCivil (d : CivilDate) : YearMonthDay := ⟨d.year, d.month, d.day⟩

example : kJulianDayOf1970_01_01 = 2440588 := by decide

/-! ## Years that begin in March -/

/-- The number of the year from the year -4800 on. -/
def marchYear (d : CivilDate) : ℤ :=
  if d.month ≤ 2 then d.year + 4799 else d.year + 4800

def marchMonth (d : CivilDate) : ℤ :=
  if d.month ≤ 2 then d.month + 9 else d.month - 3

/-- The days of the year before the date: the months from March to January
have 30.6 days on the average. -/
def marchDay (d : CivilDate) : ℤ :=
  (153 * marchMonth d + 2) / 5 + d.day - 1

/-- The days before the year. -/
def yearStart (y : ℤ) : ℤ := 365 * y + y / 4 - y / 100 + y / 400

variable {d : CivilDate}

theorem marchYear_nonneg (h : first.months ≤ d.months) : 0 ≤ marchYear d := by
  have hmonth := d.month_le
  simp only [CivilDate.months, first] at h
  unfold marchYear
  split_ifs <;> omega

theorem marchMonth_bounds (d : CivilDate) :
    0 ≤ marchMonth d ∧ marchMonth d ≤ 11 := by
  have hone := d.one_le_month
  have hmonth := d.month_le
  unfold marchMonth
  split_ifs <;> omega

theorem month_cases (d : CivilDate) :
    d.month = 1 ∨ d.month = 2 ∨ d.month = 3 ∨ d.month = 4 ∨ d.month = 5 ∨
      d.month = 6 ∨ d.month = 7 ∨ d.month = 8 ∨ d.month = 9 ∨ d.month = 10 ∨
      d.month = 11 ∨ d.month = 12 := by
  have hone := d.one_le_month
  have hmonth := d.month_le
  omega

theorem number_eq (h : first.months ≤ d.months) :
    number d = yearStart (marchYear d) + marchDay d - 32044 := by
  have hone := d.one_le_month
  have hmonth := d.month_le
  have hyear := marchYear_nonneg h
  have hmarch := (marchMonth_bounds d).1
  have ha : (14 - d.month).tdiv 12 = if d.month ≤ 2 then 1 else 0 := by
    rw [Int.tdiv_eq_ediv_of_nonneg (by omega)]
    split_ifs <;> omega
  have hy : d.year + 4800 - (14 - d.month).tdiv 12 = marchYear d := by
    rw [ha, marchYear]
    split_ifs <;> omega
  have hm : d.month + 12 * (14 - d.month).tdiv 12 - 3 = marchMonth d := by
    rw [ha, marchMonth]
    split_ifs <;> omega
  simp only [number, getJulianDayNumber, hy, hm]
  rw [Int.tdiv_eq_ediv_of_nonneg (by omega),
    Int.tdiv_eq_ediv_of_nonneg hyear, Int.tdiv_eq_ediv_of_nonneg hyear,
    Int.tdiv_eq_ediv_of_nonneg hyear, yearStart, marchDay]
  omega

/-- The last day of a year is a leap day or the day before it would be. -/
theorem marchDay_lt (d : CivilDate) :
    marchDay d < yearStart (marchYear d + 1) - yearStart (marchYear d) := by
  have hone := d.one_le_month
  have hmonth := d.month_le
  have hday := d.day_le
  unfold daysInMonth IsLeap at hday
  unfold marchDay marchMonth yearStart marchYear
  split_ifs at hday ⊢ <;> omega

theorem marchDay_nonneg (d : CivilDate) : 0 ≤ marchDay d := by
  have hmarch := (marchMonth_bounds d).1
  have hday := d.one_le_day
  unfold marchDay
  omega

/-- From the first of March of the year -4800 on, the Julian day numbers count
the days. -/
theorem counts_number : CivilDate.Counts first number where
  succ d h := by
    rw [number_eq h, number_eq (h.trans d.months_le_next)]
    have hone := d.one_le_month
    have hmonth := d.month_le
    have hday := d.day_le
    unfold CivilDate.next
    split_ifs with hlast hyear
    · simp only [marchYear, marchDay, marchMonth]
      omega
    · -- the last day of a month
      unfold daysInMonth IsLeap at hday hlast
      simp only [marchYear, marchDay, marchMonth, yearStart]
      rcases month_cases d with hm | hm | hm | hm | hm | hm | hm | hm | hm |
        hm | hm | hm <;>
      simp [hm] at hday hlast hyear ⊢ <;> omega
    · -- New Year's Eve
      have hdecember : d.month = 12 := by omega
      simp [daysInMonth, hdecember] at hday hlast
      simp [marchYear, marchDay, marchMonth, yearStart, hdecember]
      omega

/-! ## The inverse -/

variable {b r e : ℤ}

/-- The centuries have 36524 days, and every fourth of them one more. -/
theorem yearStart_century (hr : 0 ≤ r) (hlt : r < 100) :
    yearStart (100 * b + r) = 36524 * b + b / 4 + (365 * r + r / 4) := by
  unfold yearStart
  omega

/-- A year of 366 days is every fourth one, and the last of a century only
every fourth time. -/
theorem leap_of_yearStart (hr : 0 ≤ r) (hlt : r < 100)
    (he : e < yearStart (100 * b + r + 1) - yearStart (100 * b + r)) :
    e ≤ 365 ∧ (e = 365 → r % 4 = 3 ∧ (r = 99 → b % 4 = 3)) := by
  unfold yearStart at he
  omega

theorem century_eq (hr : 0 ≤ r) (hlt : r < 100) (hzero : 0 ≤ e)
    (he : e ≤ 365 ∧ (e = 365 → r % 4 = 3 ∧ (r = 99 → b % 4 = 3))) :
    (4 * (36524 * b + b / 4 + (365 * r + r / 4) + e) + 3) / 146097 = b := by
  omega

/-- The years of a century have 365 days, and every fourth of them one more,
but for the last one. -/
theorem yearOfCentury_eq (hzero : 0 ≤ e)
    (he : e ≤ 365 ∧ (e = 365 → r % 4 = 3 ∧ (r = 99 → b % 4 = 3))) :
    (4 * (365 * r + r / 4 + e) + 3) / 1461 = r := by
  omega

theorem marchMonth_eq (d : CivilDate) :
    (5 * marchDay d + 2) / 153 = marchMonth d := by
  have hday := d.one_le_day
  have hlast := d.day_le
  unfold daysInMonth at hlast
  unfold marchDay marchMonth
  rcases month_cases d with hm | hm | hm | hm | hm | hm | hm | hm | hm |
    hm | hm | hm <;>
  simp [hm] at hlast ⊢ <;> omega

theorem getYearMonthDay_number (h : first.months ≤ d.months) :
    getYearMonthDay (number d) = ofCivil d := by
  have hyear := marchYear_nonneg h
  obtain ⟨hmonth, hmonthLe⟩ := marchMonth_bounds d
  have hday := marchDay_nonneg d
  have hlt := marchDay_lt d
  have hcivil : d.year = marchYear d - 4800 + marchMonth d / 10 ∧
      d.month = marchMonth d + 3 - 12 * (marchMonth d / 10) := by
    have hone := d.one_le_month
    have hle := d.month_le
    unfold marchYear marchMonth
    split_ifs <;> omega
  have hr := Int.emod_nonneg (marchYear d) (b := 100) (by decide)
  have hrlt := Int.emod_lt_of_pos (marchYear d) (b := 100) (by decide)
  have hsplit : marchYear d = 100 * (marchYear d / 100) + marchYear d % 100 :=
    (Int.mul_ediv_add_emod _ _).symm
  have hb : 0 ≤ marchYear d / 100 := Int.ediv_nonneg hyear (by decide)
  rw [hsplit] at hlt
  have hleap := leap_of_yearStart hr hrlt hlt
  have ha : number d + 32044 =
      36524 * (marchYear d / 100) + marchYear d / 100 / 4 +
        (365 * (marchYear d % 100) + marchYear d % 100 / 4) + marchDay d := by
    rw [number_eq h, hsplit, yearStart_century hr hrlt, ← hsplit]
    omega
  have hcentury := century_eq hr hrlt hday hleap
  have hyears := yearOfCentury_eq hday hleap
  have hc : number d + 32044 - marchYear d / 100 * 146097 / 4 =
      365 * (marchYear d % 100) + marchYear d % 100 / 4 + marchDay d := by
    rw [ha]
    omega
  have he : 365 * (marchYear d % 100) + marchYear d % 100 / 4 + marchDay d -
      1461 * (marchYear d % 100) / 4 = marchDay d := by omega
  have hfirst : (4 * (number d + 32044) + 3).tdiv 146097 =
      marchYear d / 100 := by
    rw [Int.tdiv_eq_ediv_of_nonneg (by omega), ha, hcentury]
  have hfour : (marchYear d / 100 * 146097).tdiv 4 =
      marchYear d / 100 * 146097 / 4 :=
    Int.tdiv_eq_ediv_of_nonneg (by omega)
  have hsecond : (4 * (365 * (marchYear d % 100) + marchYear d % 100 / 4 +
      marchDay d) + 3).tdiv 1461 = marchYear d % 100 := by
    rw [Int.tdiv_eq_ediv_of_nonneg (by omega), hyears]
  have hthird : (1461 * (marchYear d % 100)).tdiv 4 =
      1461 * (marchYear d % 100) / 4 :=
    Int.tdiv_eq_ediv_of_nonneg (by omega)
  have hfourth : (5 * marchDay d + 2).tdiv 153 = marchMonth d := by
    rw [Int.tdiv_eq_ediv_of_nonneg (by omega), marchMonth_eq]
  have hfifth : (153 * marchMonth d + 2).tdiv 5 = (153 * marchMonth d + 2) / 5 :=
    Int.tdiv_eq_ediv_of_nonneg (by omega)
  have hsixth : (marchMonth d).tdiv 10 = marchMonth d / 10 :=
    Int.tdiv_eq_ediv_of_nonneg hmonth
  simp only [getYearMonthDay, hfirst, hfour, hc, hsecond, hthird, he, hfourth,
    hfifth, hsixth, ofCivil, YearMonthDay.mk.injEq]
  refine ⟨?_, hcivil.2.symm, ?_⟩
  · rw [hcivil.1]
    omega
  · unfold marchDay
    omega

theorem number_first : number first = -32044 := by decide

theorem exists_date {n : ℤ} (h : -32044 ≤ n) :
    ∃ d : CivilDate, first.months ≤ d.months ∧ number d = n :=
  counts_number.exists_date (by rwa [number_first])

theorem weekDay_succ {n : ℤ} (h : -1 ≤ n) :
    weekDay (n + 1) = (weekDay n + 1) % 7 := by
  unfold weekDay
  rw [Int.tmod_eq_emod_of_nonneg (by omega),
    Int.tmod_eq_emod_of_nonneg (by omega)]
  omega

example : weekDay (getJulianDayNumber 1970 1 1) = 4 := by decide

end Date

end MuduoHttp
