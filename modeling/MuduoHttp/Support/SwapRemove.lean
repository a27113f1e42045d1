import Mathlib.Data.List.Basic

/-!
# Removal from a dense table

An entry is removed from a table without holes by moving the last entry into
its place.
-/

namespace MuduoHttp.Support

variable {α : Type*}

/-- The table with its last entry in the place of entry `i`. -/
def swapRemove (l : List α) (i : ℕ) : List α :=
  match l.getLast? with
  | none => []
  | some last => (l.set i last).dropLast

variable {l : List α} {i : ℕ} {last : α}

theorem swapRemove_of_getLast? (h : l.getLast? = some last) (i : ℕ) :
    swapRemove l i = (l.set i last).dropLast := by
  simp only [swapRemove, h]

@[simp] theorem length_swapRemove (l : List α) (i : ℕ) :
    (swapRemove l i).length = l.length - 1 := by
  unfold swapRemove
  split
  next h => simp [List.getLast?_eq_none_iff.mp h]
  · simp

/-- The entries of the shorter table. -/
theorem getElem?_swapRemove (h : l.getLast? = some last) (hi : i < l.length)
    {j : ℕ} (hj : j < l.length - 1) :
    (swapRemove l i)[j]? = if j = i then some last else l[j]? := by
  rw [swapRemove_of_getLast? h, List.getElem?_dropLast, List.length_set,
    if_pos hj, List.getElem?_set]
  by_cases hij : i = j
  · simp [hij, show j < l.length by omega]
  · simp [hij, Ne.symm hij]

/-- Removing the last entry moves nothing. -/
theorem swapRemove_last (h : l ≠ []) :
    swapRemove l (l.length - 1) = l.dropLast := by
  have hlast := List.getLast?_eq_some_getLast h
  rw [swapRemove_of_getLast? hlast]
  congr 1
  apply List.ext_getElem?
  intro j
  rw [List.getElem?_set]
  split
  next hj =>
    have hpos := List.length_pos_iff.mpr h
    rw [if_pos (by omega), ← hj, ← List.getLast?_eq_getElem?, hlast]
  · rfl

/-- What is put into the last place is dropped. -/
theorem dropLast_set_last (l : List α) (a : α) :
    (l.set (l.length - 1) a).dropLast = l.dropLast := by
  apply List.ext_getElem?
  intro j
  rw [List.getElem?_dropLast, List.getElem?_dropLast, List.length_set]
  split
  next hj => rw [List.getElem?_set_ne (by omega)]
  · rfl

end MuduoHttp.Support
