import Mathlib.Algebra.Order.Ring.Int
import Mathlib.Logic.Function.Iterate
import Mathlib.Tactic.SplitIfs

/-!
# The Gregorian calendar

The dates of the calendar, extended to all years, with the day that follows
each of them.  A numbering of the days is right when the number of the next
day is one more; then it counts the days from any date on, and every number is
the number of a date.
-/

namespace MuduoHttp.Support

/-- Every fourth year, but of the centuries only every fourth. -/
def IsLeap (year : ℤ) : Prop := year % 4 = 0 ∧ (year % 100 = 0 → year % 400 = 0)

instance (year : ℤ) : Decidable (IsLeap year) :=
  inferInstanceAs (Decidable (_ ∧ _))

def daysInMonth (year month : ℤ) : ℤ :=
  if month = 2 then (if IsLeap year then 29 else 28)
  else if month = 4 ∨ month = 6 ∨ month = 9 ∨ month = 11 then 30
  else 31

theorem daysInMonth_pos (year month : ℤ) : 0 < daysInMonth year month := by
  unfold daysInMonth
  split_ifs <;> decide

@[ext] structure CivilDate where
  year : ℤ
  month : ℤ
  day : ℤ
  one_le_month : 1 ≤ month
  month_le : month ≤ 12
  one_le_day : 1 ≤ day
  day_le : day ≤ daysInMonth year month
  deriving DecidableEq

namespace CivilDate

/-- The day that follows. -/
def next (d : CivilDate) : CivilDate :=
  if hday : d.day < daysInMonth d.year d.month then
    { d with
      day := d.day + 1
      one_le_day := Int.le_add_one d.one_le_day
      day_le := hday }
  else if hmonth : d.month < 12 then
    { d with
      month := d.month + 1
      day := 1
      one_le_month := Int.le_add_one d.one_le_month
      month_le := hmonth
      one_le_day := le_rfl
      day_le := daysInMonth_pos _ _ }
  else
    { year := d.year + 1
      month := 1
      day := 1
      one_le_month := le_rfl
      month_le := by decide
      one_le_day := le_rfl
      day_le := daysInMonth_pos _ _ }

/-- The months from the beginning of the year 0 on. -/
def months (d : CivilDate) : ℤ := 12 * d.year + d.month

theorem months_le_next (d : CivilDate) : d.months ≤ d.next.months := by
  have hmonth := d.month_le
  unfold next months
  split_ifs <;> dsimp only <;> omega

/-- The numbers of the days from `first` on go up one by one. -/
structure Counts (first : CivilDate) (number : CivilDate → ℤ) : Prop where
  succ : ∀ d, first.months ≤ d.months → number d.next = number d + 1

variable {first : CivilDate} {number : CivilDate → ℤ}

theorem months_le_iterate (first : CivilDate) (k : ℕ) :
    first.months ≤ (next^[k] first).months := by
  induction k with
  | zero => exact le_rfl
  | succ k ih =>
      rw [Function.iterate_succ_apply']
      exact ih.trans (months_le_next _)

theorem Counts.number_iterate (h : Counts first number) (k : ℕ) :
    number (next^[k] first) = number first + k := by
  induction k with
  | zero => simp
  | succ k ih =>
      rw [Function.iterate_succ_apply', h.succ _ (months_le_iterate first k),
        ih]
      push_cast
      omega

/-- Every number from the first one on is the number of a day. -/
theorem Counts.exists_date (h : Counts first number) {n : ℤ}
    (hn : number first ≤ n) :
    ∃ d, first.months ≤ d.months ∧ number d = n := by
  refine ⟨next^[(n - number first).toNat] first, months_le_iterate first _, ?_⟩
  rw [h.number_iterate]
  omega

/-! ## The order of the calendar -/

def Before (d e : CivilDate) : Prop :=
  d.months < e.months ∨ d.months = e.months ∧ d.day < e.day

theorem Before.trans {d e f : CivilDate} (hde : d.Before e)
    (hef : e.Before f) : d.Before f := by
  unfold Before at *
  omega

theorem Before.asymm {d e : CivilDate} (h : d.Before e) : ¬ e.Before d := by
  unfold Before at *
  omega

theorem before_next (d : CivilDate) : d.Before d.next := by
  have hmonth := d.month_le
  unfold Before next months
  split_ifs <;> dsimp only <;> omega

theorem before_iterate (d : CivilDate) (k : ℕ) :
    d.Before (next^[k + 1] d) := by
  induction k with
  | zero => exact before_next d
  | succ k ih =>
      rw [Function.iterate_succ_apply']
      exact ih.trans (before_next _)

theorem Counts.from_date (h : Counts first number) {d : CivilDate}
    (hd : first.months ≤ d.months) : Counts d number where
  succ e he := h.succ e (hd.trans he)

/-- Numbers of days compare like their dates. -/
theorem Counts.lt_iff_before (h : Counts first number)
    (hinj : ∀ d e : CivilDate, first.months ≤ d.months →
      first.months ≤ e.months → number d = number e → d = e)
    {d e : CivilDate} (hd : first.months ≤ d.months)
    (he : first.months ≤ e.months) : number d < number e ↔ d.Before e := by
  have hlater {d e : CivilDate} (hd : first.months ≤ d.months)
      (he : first.months ≤ e.months) (hlt : number d < number e) :
      d.Before e := by
    obtain ⟨k, hk⟩ : ∃ k : ℕ, number e = number d + (k + 1 : ℕ) :=
      ⟨(number e - number d - 1).toNat, by push_cast; omega⟩
    rw [← (h.from_date hd).number_iterate (k + 1)] at hk
    have hsame := hinj e _ he (hd.trans (months_le_iterate d (k + 1))) hk
    exact hsame ▸ before_iterate d k
  refine ⟨hlater hd he, fun hbefore => ?_⟩
  by_contra hge
  rcases (not_lt.mp hge).lt_or_eq with hlt | heq
  · exact hbefore.asymm (hlater he hd hlt)
  · exact hbefore.asymm (hinj e d he hd heq ▸ hbefore)

end CivilDate

end MuduoHttp.Support
