import Mathlib.Data.List.DropRight

/-!
# Segments of a list

A segment is what lies between two positions.  Overwriting a list at a
position replaces as many elements as the new data has; the segments that end
or begin there change by the data.
-/

namespace MuduoHttp.Support

variable {α : Type*}

/-- The elements from position `start` up to position `stop`. -/
def segment (l : List α) (start stop : ℕ) : List α := (l.take stop).drop start

/-- The list with `data` in place of what it has from position `start` on. -/
def overwrite (l : List α) (start : ℕ) (data : List α) : List α :=
  l.take start ++ data ++ l.drop (start + data.length)

variable {l data : List α} {start stop : ℕ}

theorem length_segment (h : stop ≤ l.length) :
    (segment l start stop).length = stop - start := by
  simp [segment, h]

theorem segment_self (l : List α) (start : ℕ) : segment l start start = [] := by
  simp [segment]

theorem segment_drop (l : List α) (start stop n : ℕ) :
    segment l (start + n) stop = (segment l start stop).drop n := by
  rw [segment, segment, List.drop_drop]

theorem segment_rdrop (h : stop ≤ l.length) (n : ℕ) :
    segment l start (stop - n) = (segment l start stop).rdrop n := by
  rw [List.rdrop, length_segment h, segment, segment, List.take_drop,
    List.take_take]
  by_cases hn : start + n ≤ stop
  · congr 2
    omega
  · have hnil : ∀ k, k ≤ start → (l.take k).drop start = [] := by
      intro k hk
      apply List.drop_eq_nil_of_le
      exact (List.length_take_le k l).trans hk
    rw [hnil _ (by omega), hnil _ (by omega)]

theorem segment_append (h : stop ≤ l.length) (rest : List α) :
    segment (l ++ rest) start stop = segment l start stop := by
  rw [segment, List.take_append_of_le_length h, segment]

/-- Cutting a segment in two. -/
theorem segment_split {middle : ℕ} (h₁ : start ≤ middle) (h₂ : middle ≤ stop)
    (h : stop ≤ l.length) :
    segment l start stop = segment l start middle ++ segment l middle stop := by
  have htake : l.take stop = l.take middle ++ (l.take stop).drop middle := by
    conv_lhs => rw [← List.take_append_drop middle (l.take stop)]
    rw [List.take_take, min_eq_left h₂]
  have hlength : start ≤ (l.take middle).length := by simp; omega
  rw [segment, htake, List.drop_append_of_le_length hlength]
  rfl

theorem length_overwrite (h : start + data.length ≤ l.length) :
    (overwrite l start data).length = l.length := by
  simp only [overwrite, List.length_append, List.length_take, List.length_drop]
  omega

theorem length_take_append (hstart : start ≤ l.length) (data : List α) :
    (l.take start ++ data).length = start + data.length := by
  rw [List.length_append, List.length_take_of_le hstart]

theorem take_overwrite (hstart : start ≤ l.length) (data rest : List α) :
    (overwrite l start (data ++ rest)).take (start + data.length) =
      l.take start ++ data := by
  have hlength := length_take_append hstart data
  rw [overwrite, ← List.append_assoc, List.append_assoc,
    List.take_append_of_le_length hlength.ge,
    List.take_of_length_le hlength.le]

theorem take_overwrite_self (hstart : start ≤ l.length) (data : List α) :
    (overwrite l start data).take (start + data.length) =
      l.take start ++ data := by
  simpa using take_overwrite hstart data []

theorem drop_overwrite (hstart : start ≤ l.length) (data : List α) :
    (overwrite l start data).drop (start + data.length) =
      l.drop (start + data.length) := by
  rw [overwrite, ← length_take_append hstart, List.drop_left]

/-- Overwriting right behind what was overwritten. -/
theorem overwrite_append (hstart : start ≤ l.length) (data rest : List α) :
    overwrite (overwrite l start data) (start + data.length) rest =
      overwrite l start (data ++ rest) := by
  rw [overwrite, take_overwrite_self hstart, ← List.drop_drop,
    drop_overwrite hstart, List.drop_drop, overwrite, List.length_append,
    Nat.add_assoc, List.append_assoc (l.take start)]

/-- Overwriting the front of what was overwritten. -/
theorem overwrite_overwrite {front : List α} (hstart : start ≤ l.length)
    (hfront : front.length = data.length) (rest : List α) :
    overwrite (overwrite l start (data ++ rest)) start front =
      overwrite l start (front ++ rest) := by
  have htake : (overwrite l start (data ++ rest)).take start =
      l.take start := by
    simpa using take_overwrite hstart [] (data ++ rest)
  have hdrop : (overwrite l start (data ++ rest)).drop (start + data.length) =
      rest ++ l.drop (start + (front ++ rest).length) := by
    rw [overwrite, ← List.append_assoc, List.append_assoc,
      ← length_take_append hstart, List.drop_left, List.length_append,
      List.length_append, hfront]
  rw [overwrite, htake, hfront, hdrop, overwrite, ← List.append_assoc,
    List.append_assoc (l.take start)]

/-- Overwriting behind a segment appends to it. -/
theorem segment_overwrite_end (hstart : start ≤ stop) (hstop : stop ≤ l.length)
    (data : List α) :
    segment (overwrite l stop data) start (stop + data.length) =
      segment l start stop ++ data := by
  have hlength : start ≤ (l.take stop).length := by simp; omega
  rw [segment, take_overwrite_self hstop,
    List.drop_append_of_le_length hlength]
  rfl

/-- Overwriting in front of a segment prepends to it. -/
theorem segment_overwrite_start (hdata : start + data.length ≤ stop)
    (hstop : stop ≤ l.length) :
    segment (overwrite l start data) start stop =
      data ++ segment l (start + data.length) stop := by
  have hstart : (l.take start).length = start := by simp; omega
  have hlength : (overwrite l start data).length = l.length :=
    length_overwrite (by omega)
  rw [segment, overwrite, List.append_assoc, List.take_append, hstart,
    List.take_of_length_le (by omega), List.drop_append_of_le_length (by omega),
    List.drop_of_length_le (by omega), List.nil_append, List.take_append,
    List.take_of_length_le (by omega), segment, List.drop_take]
  congr 2
  omega

/-- Dropping a fixed number of elements leaves what is behind `front`. -/
theorem drop_append_eq_iff {front back : List α} {n : ℕ} :
    (front ++ back).drop n = back ↔
      front.length = n ∨ (front.length < n ∧ back = []) := by
  constructor
  · intro h
    have hlength := congrArg List.length h
    rw [List.length_drop, List.length_append] at hlength
    rw [← List.length_eq_zero_iff]
    omega
  · rintro (rfl | ⟨hshort, rfl⟩)
    · exact List.drop_left
    · exact List.drop_eq_nil_of_le (by simpa using hshort.le)

end MuduoHttp.Support
