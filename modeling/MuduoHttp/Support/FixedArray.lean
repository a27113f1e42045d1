import MuduoHttp.Support.Segment

/-!
# Arrays of a fixed length

Stores into an array through a pointer.  A store outside of the array is no
operation at all (`none`), so that a computation with a result has stored
inside only.
-/

namespace MuduoHttp.Support

/-- An array of `n` elements. -/
abbrev FixedArray (α : Type*) (n : ℕ) := {xs : List α // xs.length = n}

namespace FixedArray

variable {α : Type*} {n : ℕ}

/-- Store `data` from position `p` on. -/
def write (a : FixedArray α n) (p : ℕ) (data : List α) :
    Option (FixedArray α n) :=
  if h : p + data.length ≤ n then
    some ⟨overwrite a.1 p data, by
      rw [length_overwrite (by rw [a.2]; exact h), a.2]⟩
  else none

/-- Reverse what stands from position `first` up to position `last`. -/
def reverse (a : FixedArray α n) (first last : ℕ) : Option (FixedArray α n) :=
  if last ≤ n then a.write first (segment a.1 first last).reverse else none

variable {a : FixedArray α n} {p : ℕ} {data : List α}

theorem write_of_le (h : p + data.length ≤ n) :
    ∃ a', a.write p data = some a' ∧ a'.1 = overwrite a.1 p data :=
  ⟨_, dif_pos h, rfl⟩

theorem write_of_lt (h : n < p + data.length) : a.write p data = none :=
  dif_neg (Nat.not_le.mpr h)

/-- A store and the store right behind it are one. -/
theorem write_append (a : FixedArray α n) (p : ℕ) (data rest : List α) :
    ((a.write p data).bind fun a' => a'.write (p + data.length) rest) =
      a.write p (data ++ rest) := by
  by_cases hdata : p + data.length ≤ n
  · have hstart : p ≤ a.1.length := by
      rw [a.2]
      omega
    obtain ⟨b, hb, hbytes⟩ := write_of_le (a := a) hdata
    rw [hb, Option.bind_some]
    by_cases hrest : p + data.length + rest.length ≤ n
    · have hboth : p + (data ++ rest).length ≤ n := by
        rw [List.length_append]
        omega
      obtain ⟨c, hc, hc'⟩ := write_of_le (a := b) hrest
      obtain ⟨d, hd, hd'⟩ := write_of_le (a := a) hboth
      rw [hc, hd]
      congr 1
      apply Subtype.ext
      rw [hc', hd', hbytes, overwrite_append hstart]
    · rw [write_of_lt (Nat.not_le.mp hrest), write_of_lt (by simp; omega)]
  · rw [write_of_lt (Nat.not_le.mp hdata), write_of_lt (by simp; omega),
      Option.bind_none]

/-- Reversing the front of what was stored. -/
theorem write_reverse (a : FixedArray α n) (p : ℕ) (data rest : List α) :
    ((a.write p (data ++ rest)).bind fun a' =>
        a'.reverse p (p + data.length)) =
      a.write p (data.reverse ++ rest) := by
  have hlength : (data.reverse ++ rest).length = (data ++ rest).length := by
    simp
  by_cases h : p + (data ++ rest).length ≤ n
  · have hstart : p ≤ a.1.length := by
      rw [a.2]
      omega
    have hlast : p + data.length ≤ n := by
      rw [List.length_append] at h
      omega
    obtain ⟨b, hb, hbytes⟩ := write_of_le (a := a) h
    obtain ⟨d, hd, hd'⟩ := write_of_le (a := a) (hlength ▸ h)
    have hsegment : segment b.1 p (p + data.length) = data := by
      rw [segment, hbytes, take_overwrite hstart,
        List.drop_left' (List.length_take_of_le hstart)]
    have hfits : p + data.reverse.length ≤ n := by
      rw [List.length_reverse]
      exact hlast
    obtain ⟨c, hc, hc'⟩ := write_of_le (a := b) hfits
    rw [hb, Option.bind_some, reverse, if_pos hlast, hsegment, hc, hd]
    congr 1
    apply Subtype.ext
    rw [hc', hd', hbytes, overwrite_overwrite hstart (List.length_reverse)]
  · rw [write_of_lt (Nat.not_le.mp h), Option.bind_none,
      write_of_lt (hlength ▸ Nat.not_le.mp h)]

/-- What the array begins with after a store. -/
theorem take_write {a' : FixedArray α n} {rest : List α}
    (h : a.write p (data ++ rest) = some a') :
    a'.1.take (p + data.length) = a.1.take p ++ data := by
  have hfits : p + (data ++ rest).length ≤ n := by
    by_contra hlong
    rw [write_of_lt (Nat.not_le.mp hlong)] at h
    cases h
  obtain ⟨b, hb, hbytes⟩ := write_of_le (a := a) hfits
  rw [hb] at h
  obtain rfl := Option.some.inj h
  rw [hbytes, take_overwrite (by rw [a.2]; omega)]

end FixedArray

end MuduoHttp.Support
