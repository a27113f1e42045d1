import MuduoHttp.Base.LocalTime
import MuduoHttp.Base.LogFormatting
import MuduoHttp.Support.FixedDigits

/-!
# Time stamps in text

`Timestamp::toFormattedString` prints the date and the time of the day with
digits of fixed numbers.  Up to the end of the year 9999 the texts of two time
stamps compare like the time stamps.
-/

namespace MuduoHttp

open Support

/-- What `printf` prints for `%*d`, with zeros in front if asked for. -/
def printInt (zero : Bool) (width : ℕ) (v : ℤ) : Bytes :=
  let sign := if v < 0 then [MINUS] else []
  let digits := numeralText 10 v.natAbs
  let fill := width - (sign.length + digits.length)
  if zero then sign ++ List.replicate fill 48 ++ digits
  else List.replicate fill SP ++ sign ++ digits

namespace Timestamp

open TimeZone

def kMicroSecondsPerSecond : ℤ := 1000 * 1000

/-- `%4d%02d%02d %02d:%02d:%02d` of the fields. -/
def dateTimeText (tm : Tm) : Bytes :=
  printInt false 4 (tm.year + 1900) ++ printInt true 2 (tm.mon + 1) ++
    printInt true 2 tm.mday ++ [SP] ++ printInt true 2 tm.hour ++ [COLON] ++
    printInt true 2 tm.min ++ [COLON] ++ printInt true 2 tm.sec

/-- `Timestamp::toFormattedString`, with its 32 bytes. -/
def toFormattedString (microSecondsSinceEpoch : ℤ) (showMicroseconds : Bool) :
    Bytes :=
  let seconds := microSecondsSinceEpoch.tdiv kMicroSecondsPerSecond
  let tmTime := gmtimeR seconds
  if showMicroseconds then
    let microseconds := toInt (microSecondsSinceEpoch.tmod kMicroSecondsPerSecond)
    (dateTimeText tmTime ++ ascii "." ++ printInt true 6 microseconds).take 31
  else (dateTimeText tmTime).take 31

end Timestamp

/-! ## Digits -/

/-- The digits of a number, with zeros in front of them. -/
def digitsText (k n : ℕ) : Bytes := (fixedDigits 10 k n).map digitSymbol

theorem ordered_digitSymbol : Ordered 10 digitSymbol := by
  unfold Ordered
  decide

@[simp] theorem length_digitsText (k n : ℕ) : (digitsText k n).length = k := by
  simp [digitsText]

theorem digitsText_lt_iff {k n m : ℕ} (hn : n < 10 ^ k) (hm : m < 10 ^ k) :
    digitsText k n < digitsText k m ↔ n < m :=
  ordered_digitSymbol.fixedDigits_lt_iff hn hm

theorem digitsText_eq_iff {k n m : ℕ} (hn : n < 10 ^ k) (hm : m < 10 ^ k) :
    digitsText k n = digitsText k m ↔ n = m :=
  ordered_digitSymbol.fixedDigits_eq_iff hn hm

theorem printInt_digits {k n : ℕ} (hk : 0 < k) (hn : n < 10 ^ k) :
    printInt true k n = digitsText k n := by
  have hsign : ¬ (n : ℤ) < 0 := by omega
  rw [digitsText, ← fixedDigits_eq (by decide) hk hn, List.map_append,
    List.map_replicate]
  simp only [printInt, if_neg hsign, List.nil_append, List.length_nil,
    Nat.zero_add, if_true, Int.natAbs_natCast, numeralText, List.length_map]
  rfl

/-- A number with at least as many digits as the field is wide. -/
theorem printInt_wide {k n width : ℕ} (hle : 10 ^ k ≤ n)
    (hlt : n < 10 ^ (k + 1)) (hwidth : width ≤ k + 1) :
    printInt false width n = digitsText (k + 1) n := by
  have hsign : ¬ (n : ℤ) < 0 := by omega
  have hlength : k + 1 ≤ (numeral 10 n).length :=
    succ_le_length_numeral (by decide) hle
  have hzero : k + 1 - (numeral 10 n).length = 0 := by omega
  have hfill : width - (numeral 10 n).length = 0 := by omega
  rw [digitsText, ← fixedDigits_eq (by decide) (Nat.succ_pos k) hlt, hzero]
  simp only [printInt, if_neg hsign, List.nil_append, List.length_nil,
    Nat.zero_add, Bool.false_eq_true, if_false, Int.natAbs_natCast, numeralText,
    List.length_map, hfill, List.replicate_zero]

/-! ## Texts of times -/

namespace Timestamp

open TimeZone Date

/-- The year is written with four digits. -/
def FourDigits (d : CivilDate) : Prop := 1000 ≤ d.year ∧ d.year ≤ 9999

variable {d e : CivilDate}

/-- The number that the digits of the date write. -/
def dateCode (d : CivilDate) : ℕ :=
  (d.year * 10000 + d.month * 100 + d.day).toNat

theorem day_le (d : CivilDate) : d.day ≤ 31 := by
  refine d.day_le.trans ?_
  unfold daysInMonth
  split_ifs <;> decide

theorem first_months_le (h : FourDigits d) : first.months ≤ d.months := by
  have hmonth := d.one_le_month
  obtain ⟨hyear, -⟩ := h
  have hfirst : first.months = -57597 := by decide
  unfold CivilDate.months at *
  omega

theorem dateCode_lt (h : FourDigits d) : dateCode d < 10 ^ 8 := by
  have hmonth := d.month_le
  have hday := day_le d
  obtain ⟨-, hyear⟩ := h
  unfold dateCode
  omega

theorem number_inj (hd : first.months ≤ d.months) (he : first.months ≤ e.months)
    (heq : number d = number e) : d = e := by
  have hciv : ofCivil d = ofCivil e := by
    rw [← getYearMonthDay_number hd, heq, getYearMonthDay_number he]
  injection hciv with hyear hmonth hday
  exact CivilDate.ext hyear hmonth hday

theorem dateCode_lt_iff (hd : FourDigits d) (he : FourDigits e) :
    dateCode d < dateCode e ↔ number d < number e := by
  rw [counts_number.lt_iff_before (fun _ _ => number_inj) (first_months_le hd)
    (first_months_le he)]
  have hd1 := d.one_le_month
  have hd2 := d.month_le
  have hd3 := d.one_le_day
  have hd4 := day_le d
  have he1 := e.one_le_month
  have he2 := e.month_le
  have he3 := e.one_le_day
  have he4 := day_le e
  obtain ⟨hdyear, -⟩ := hd
  obtain ⟨heyear, -⟩ := he
  unfold dateCode CivilDate.Before CivilDate.months
  omega

theorem dateCode_eq_iff (hd : FourDigits d) (he : FourDigits e) :
    dateCode d = dateCode e ↔ number d = number e := by
  have hlt := dateCode_lt_iff hd he
  have hgt := dateCode_lt_iff he hd
  omega

/-- The pieces of the text of a time, with what separates the date from the
time and the parts of the time from each other. -/
def civilText (dateEnd separator : Bytes) (c : CivilTime) : Bytes :=
  digitsText 8 (dateCode c.toCivilDate) ++ (dateEnd ++
    (digitsText 2 c.hour.toNat ++ (separator ++
      (digitsText 2 c.minute.toNat ++ (separator ++
        digitsText 2 c.second.toNat)))))

theorem length_civilText (dateEnd separator : Bytes) (c : CivilTime) :
    (civilText dateEnd separator c).length =
      14 + dateEnd.length + 2 * separator.length := by
  simp only [civilText, List.length_append, length_digitsText]
  omega

theorem digitsText_append {j k n m : ℕ} (hn : n < 10 ^ j) (hm : m < 10 ^ k) :
    digitsText (j + k) (n * 10 ^ k + m) = digitsText j n ++ digitsText k m := by
  rw [digitsText, fixedDigits_append hn hm, List.map_append, digitsText,
    digitsText]

theorem digitsText_dateCode (h : FourDigits d) :
    digitsText 8 (dateCode d) =
      digitsText 4 d.year.toNat ++ digitsText 2 d.month.toNat ++
        digitsText 2 d.day.toNat := by
  have hmonth := d.one_le_month
  have hmonthLe := d.month_le
  have hday := d.one_le_day
  have hdayLe := day_le d
  obtain ⟨hyear, hyearLe⟩ := h
  rw [← digitsText_append (by omega) (by omega),
    ← digitsText_append (by omega) (by omega)]
  congr 1
  unfold dateCode
  omega

theorem printInt_field {v : ℤ} (hle : 0 ≤ v) (hlt : v < 100) :
    printInt true 2 v = digitsText 2 v.toNat := by
  obtain ⟨n, rfl⟩ := Int.eq_ofNat_of_zero_le hle
  exact printInt_digits (by decide) (by omega)

theorem printInt_year {v : ℤ} {width : ℕ} (hle : 1000 ≤ v) (hlt : v ≤ 9999)
    (hwidth : width ≤ 4) : printInt false width v = digitsText 4 v.toNat := by
  obtain ⟨n, rfl⟩ := Int.eq_ofNat_of_zero_le (a := v) (by omega)
  exact printInt_wide (by omega) (by omega) hwidth

theorem dateTimeText_tm {c : CivilTime} (h : FourDigits c.toCivilDate) :
    dateTimeText c.tm = civilText [SP] [COLON] c := by
  have hmonth := c.one_le_month
  have hmonthLe := c.month_le
  have hday := c.one_le_day
  have hdayLe := day_le c.toCivilDate
  have hhour := c.hour_lt
  have hminute := c.minute_lt
  have hsecond := c.second_lt
  rw [civilText, digitsText_dateCode h]
  simp only [dateTimeText, CivilTime.tm, Int.sub_add_cancel,
    printInt_year h.1 h.2 (by decide : 4 ≤ 4),
    printInt_field (v := c.month) (by omega) (by omega),
    printInt_field (v := c.day) (by omega) (by omega),
    printInt_field c.hour_nonneg (by omega),
    printInt_field c.minute_nonneg (by omega),
    printInt_field c.second_nonneg (by omega), List.append_assoc]

/-- The texts of times compare like the times. -/
theorem civilText_lt_iff {c c' : CivilTime} (h : FourDigits c.toCivilDate)
    (h' : FourDigits c'.toCivilDate) (dateEnd separator : Bytes) :
    civilText dateEnd separator c < civilText dateEnd separator c' ↔
      c.seconds < c'.seconds := by
  have hhour := c.hour_lt
  have hminute := c.minute_lt
  have hsecond := c.second_lt
  have hhour' := c'.hour_lt
  have hminute' := c'.minute_lt
  have hsecond' := c'.second_lt
  have hhour0 := c.hour_nonneg
  have hminute0 := c.minute_nonneg
  have hsecond0 := c.second_nonneg
  have hhour0' := c'.hour_nonneg
  have hminute0' := c'.minute_nonneg
  have hsecond0' := c'.second_nonneg
  have hdateEnd : ¬ dateEnd < dateEnd := List.lt_irrefl _
  have hseparator : ¬ separator < separator := List.lt_irrefl _
  simp only [civilText, append_lt_append_iff, length_digitsText,
    hdateEnd, hseparator, false_or, true_and,
    digitsText_lt_iff (dateCode_lt h) (dateCode_lt h'),
    digitsText_eq_iff (dateCode_lt h) (dateCode_lt h'),
    dateCode_lt_iff h h', dateCode_eq_iff h h']
  rw [digitsText_lt_iff (by omega) (by omega),
    digitsText_eq_iff (by omega) (by omega),
    digitsText_lt_iff (by omega) (by omega),
    digitsText_eq_iff (by omega) (by omega),
    digitsText_lt_iff (by omega) (by omega)]
  unfold CivilTime.seconds kSecondsPerDay
  omega

theorem civilText_eq_iff {c c' : CivilTime} (h : FourDigits c.toCivilDate)
    (h' : FourDigits c'.toCivilDate) (dateEnd separator : Bytes) :
    civilText dateEnd separator c = civilText dateEnd separator c' ↔
      c.seconds = c'.seconds := by
  constructor
  · intro heq
    have hless := mt (civilText_lt_iff h h' dateEnd separator).mpr
      (heq ▸ List.lt_irrefl _)
    have hmore := mt (civilText_lt_iff h' h dateEnd separator).mpr
      (heq ▸ List.lt_irrefl _)
    omega
  · intro heq
    obtain ⟨hdate, htime⟩ := c.seconds_div
    obtain ⟨hdate', htime'⟩ := c'.seconds_div
    rw [heq] at hdate htime
    have hminute := c.minute_lt
    have hsecond := c.second_lt
    have hminute' := c'.minute_lt
    have hsecond' := c'.second_lt
    have hminute0 := c.minute_nonneg
    have hsecond0 := c.second_nonneg
    have hminute0' := c'.minute_nonneg
    have hsecond0' := c'.second_nonneg
    have hcode := (dateCode_eq_iff h h').mpr (by omega)
    have hhms : c.hour = c'.hour ∧ c.minute = c'.minute ∧
        c.second = c'.second := by omega
    rw [civilText, hcode, hhms.1, hhms.2.1, hhms.2.2, civilText]

/-! ## Texts of time stamps -/

/-- The seconds from 1970 to the end of the year 9999. -/
def InFourDigits (seconds : ℤ) : Prop :=
  0 ≤ seconds ∧ seconds < 253402300800

/-- The first and the last day with such seconds. -/
theorem exists_epochDay :
    ∃ d : CivilDate, d.months = 23641 ∧ number d = kJulianDayOf1970_01_01 :=
  ⟨⟨1970, 1, 1, by decide, by decide, by decide, by decide⟩, by decide, rfl⟩

theorem exists_lastDay :
    ∃ d : CivilDate, d.months = 120000 ∧
      number d = kJulianDayOf1970_01_01 + 2932896 :=
  ⟨⟨9999, 12, 31, by decide, by decide, by decide, by decide⟩, by decide,
    by decide⟩

theorem fourDigits_of_number (hd : first.months ≤ d.months)
    (hle : kJulianDayOf1970_01_01 ≤ number d)
    (hge : number d ≤ kJulianDayOf1970_01_01 + 2932896) : FourDigits d := by
  obtain ⟨epoch, hepoch, hepochNumber⟩ := exists_epochDay
  obtain ⟨last, hlast, hlastNumber⟩ := exists_lastDay
  have hfirst : first.months = -57597 := by decide
  have hmonth := d.one_le_month
  have hmonthLe := d.month_le
  have hearly := mt (counts_number.lt_iff_before (fun _ _ => number_inj) hd
    (hfirst.trans_le (by omega))).mpr (not_lt.mpr (hepochNumber ▸ hle))
  have hlate := mt (counts_number.lt_iff_before (fun _ _ => number_inj)
    (hfirst.trans_le (by omega)) hd).mpr (not_lt.mpr (hlastNumber ▸ hge))
  unfold CivilDate.Before at hearly hlate
  rw [hepoch, CivilDate.months] at hearly
  rw [hlast, CivilDate.months] at hlate
  unfold FourDigits
  omega

theorem exists_civilTime {seconds : ℤ} (h : InFourDigits seconds) :
    ∃ c : CivilTime, FourDigits c.toCivilDate ∧ c.seconds = seconds ∧
      gmtimeR seconds = c.tm := by
  obtain ⟨hle, hlt⟩ := h
  have hday : seconds / kSecondsPerDay = seconds / 86400 := rfl
  have hrange : InRange seconds := by
    unfold InRange
    omega
  obtain ⟨d, hd, hnumber⟩ := exists_day hrange
  have hfour : FourDigits d :=
    fourDigits_of_number hd (by omega) (by omega)
  refine ⟨_, hfour, ?_, toUtcTime_eq hrange hd hnumber⟩
  rw [seconds_ofSeconds, hnumber, Int.add_sub_cancel]
  exact Int.ediv_mul_add_emod seconds kSecondsPerDay

/-- The text of a time stamp with its microseconds. -/
theorem toFormattedString_eq {t : ℤ}
    (h : InFourDigits (t / kMicroSecondsPerSecond)) :
    ∃ c : CivilTime, FourDigits c.toCivilDate ∧
      c.seconds = t / kMicroSecondsPerSecond ∧
      toFormattedString t true =
        civilText [SP] [COLON] c ++ (ascii "." ++
          digitsText 6 (t % kMicroSecondsPerSecond).toNat) ∧
      toFormattedString t false = civilText [SP] [COLON] c := by
  obtain ⟨c, hfour, hseconds, htm⟩ := exists_civilTime h
  have hquot : t / kMicroSecondsPerSecond = t / 1000000 := rfl
  have hrem : t % kMicroSecondsPerSecond = t % 1000000 := rfl
  have hpos : 0 ≤ t := by
    have hle := h.1
    omega
  have hlength : (civilText [SP] [COLON] c).length = 17 :=
    length_civilText ..
  have hdot : (ascii ".").length = 1 := by decide
  obtain ⟨n, hn⟩ := Int.eq_ofNat_of_zero_le
    (Int.emod_nonneg t (by decide : kMicroSecondsPerSecond ≠ 0))
  have hlt : n < 10 ^ 6 := by omega
  have hrest : toInt (n : ℤ) = n := toInt_eq (by omega) (by omega)
  refine ⟨c, hfour, hseconds, ?_, ?_⟩
  · simp only [toFormattedString, Int.tdiv_eq_ediv_of_nonneg hpos,
      Int.tmod_eq_emod_of_nonneg hpos, htm, dateTimeText_tm hfour, hn, hrest,
      if_true, printInt_digits (by decide : 0 < 6) hlt, List.append_assoc]
    rw [List.take_of_length_le (by simp [hlength, hdot])]
    rfl
  · simp only [toFormattedString, Int.tdiv_eq_ediv_of_nonneg hpos, htm,
      dateTimeText_tm hfour, Bool.false_eq_true, if_false]
    rw [List.take_of_length_le (by omega)]

theorem length_toFormattedString {t : ℤ}
    (h : InFourDigits (t / kMicroSecondsPerSecond)) :
    (toFormattedString t true).length = 24 := by
  obtain ⟨c, -, -, htext, -⟩ := toFormattedString_eq h
  have hlength : (civilText [SP] [COLON] c).length = 17 :=
    length_civilText ..
  have hdot : (ascii ".").length = 1 := by decide
  simp [htext, hlength, hdot]

theorem toFormattedString_lt_iff {t u : ℤ}
    (ht : InFourDigits (t / kMicroSecondsPerSecond))
    (hu : InFourDigits (u / kMicroSecondsPerSecond)) :
    toFormattedString t true < toFormattedString u true ↔ t < u := by
  obtain ⟨c, hc, hcs, hctext, -⟩ := toFormattedString_eq ht
  obtain ⟨c', hc', hcs', hctext', -⟩ := toFormattedString_eq hu
  have hquot (t : ℤ) : t / kMicroSecondsPerSecond = t / 1000000 := rfl
  have hrem (t : ℤ) : t % kMicroSecondsPerSecond = t % 1000000 := rfl
  have hlength : (civilText [SP] [COLON] c).length = 17 :=
    length_civilText ..
  have hlength' : (civilText [SP] [COLON] c').length = 17 :=
    length_civilText ..
  have hirrefl : ¬ ascii "." < ascii "." := by decide
  rw [hrem] at hctext hctext'
  rw [hctext, hctext', append_lt_append_iff (hlength.trans hlength'.symm),
    append_lt_append_iff rfl, digitsText_lt_iff (by omega) (by omega),
    civilText_lt_iff hc hc', civilText_eq_iff hc hc', hcs, hcs', hquot, hquot,
    or_iff_right hirrefl, and_iff_right rfl]
  omega

/-- Up to the end of the year 9999 the texts of time stamps have the same
length and compare like the time stamps; without the microseconds, like their
seconds. -/
theorem formatted_order {t u : ℤ}
    (ht : InFourDigits (t / kMicroSecondsPerSecond))
    (hu : InFourDigits (u / kMicroSecondsPerSecond)) :
    (toFormattedString t true).length = 24 ∧
      (toFormattedString t true < toFormattedString u true ↔ t < u) ∧
      (toFormattedString t false < toFormattedString u false ↔
        t / kMicroSecondsPerSecond < u / kMicroSecondsPerSecond) := by
  refine ⟨length_toFormattedString ht, toFormattedString_lt_iff ht hu, ?_⟩
  obtain ⟨c, hc, hcs, -, htext⟩ := toFormattedString_eq ht
  obtain ⟨c', hc', hcs', -, htext'⟩ := toFormattedString_eq hu
  rw [htext, htext', civilText_lt_iff hc hc', hcs, hcs']

/-- The last microsecond of a year, and the first one of the next. -/
theorem formatted_order_new_year :
    (toFormattedString 1420070399999999 true).length = 24 ∧
      (toFormattedString 1420070399999999 true <
          toFormattedString 1420070400000000 true ↔
        (1420070399999999 : ℤ) < 1420070400000000) ∧
      (toFormattedString 1420070399999999 false <
          toFormattedString 1420070400000000 false ↔
        1420070399999999 / kMicroSecondsPerSecond <
          1420070400000000 / kMicroSecondsPerSecond) :=
  formatted_order ⟨by decide, by decide⟩ ⟨by decide, by decide⟩

end Timestamp

end MuduoHttp
