import Mathlib.Data.Nat.Digits.Lemmas

/-!
# Numerals

The numeral of a natural number in a base is its digits, the most significant
one first: no leading zero, and one digit for zero.  A number has exactly one
numeral.  A loop that divides by the base until nothing is left finds the
digits from the last one on.
-/

namespace MuduoHttp.Support

/-- The digits `ds` write `n` in base `b`. -/
structure IsNumeral (b n : ℕ) (ds : List ℕ) : Prop where
  ne_nil : ds ≠ []
  lt_base : ∀ d ∈ ds, d < b
  no_leading_zero : ds.head? = some 0 → ds = [0]
  value : Nat.ofDigits b ds.reverse = n

/-- The numeral of a number. -/
def numeral (b n : ℕ) : List ℕ :=
  if n = 0 then [0] else (Nat.digits b n).reverse

variable {b n k : ℕ} {ds : List ℕ}

theorem numeral_zero (b : ℕ) : numeral b 0 = [0] := if_pos rfl

theorem numeral_of_ne_zero (h : n ≠ 0) :
    numeral b n = (Nat.digits b n).reverse := if_neg h

theorem isNumeral_numeral (hb : 1 < b) (n : ℕ) :
    IsNumeral b n (numeral b n) := by
  by_cases hn : n = 0
  · subst hn
    rw [numeral_zero]
    exact ⟨by simp, by simpa using Nat.zero_lt_of_lt hb, fun _ => rfl, by simp⟩
  · have hdigits : Nat.digits b n ≠ [] := Nat.digits_ne_nil_iff_ne_zero.mpr hn
    rw [numeral_of_ne_zero hn]
    refine ⟨by simpa using hdigits, ?_, ?_, ?_⟩
    · intro d hd
      exact Nat.digits_lt_base hb (List.mem_reverse.mp hd)
    · intro hhead
      rw [List.head?_reverse, List.getLast?_eq_getLast_of_ne_nil hdigits,
        Option.some.injEq] at hhead
      exact absurd hhead (Nat.getLast_digit_ne_zero b hn)
    · rw [List.reverse_reverse, Nat.ofDigits_digits]

theorem IsNumeral.eq_numeral (hb : 1 < b) (h : IsNumeral b n ds) :
    ds = numeral b n := by
  by_cases hzero : ds.head? = some 0
  · have hds := h.no_leading_zero hzero
    have hn : n = 0 := by simpa [hds] using h.value.symm
    rw [hn, numeral_zero, hds]
  · have hdigits : Nat.digits b n = ds.reverse := by
      rw [← h.value]
      apply Nat.digits_ofDigits b hb
      · intro d hd
        exact h.lt_base d (List.mem_reverse.mp hd)
      · intro hne hlast
        apply hzero
        rw [← List.getLast?_reverse, List.getLast?_eq_getLast_of_ne_nil hne,
          hlast]
    have hn : n ≠ 0 := by
      rw [← Nat.digits_ne_nil_iff_ne_zero, hdigits]
      simpa using h.ne_nil
    rw [numeral_of_ne_zero hn, hdigits, List.reverse_reverse]

/-- The last digit, and the digits of what is left after it. -/
theorem numeral_eq_append (hb : 1 < b) (n : ℕ) :
    numeral b n = (if n / b = 0 then [] else numeral b (n / b)) ++ [n % b] := by
  by_cases hn : n = 0
  · simp [hn, numeral_zero]
  · rw [numeral_of_ne_zero hn, Nat.digits_eq_cons_digits_div hb hn,
      List.reverse_cons]
    by_cases hdiv : n / b = 0
    · simp [hdiv]
    · rw [if_neg hdiv, numeral_of_ne_zero hdiv]

theorem length_numeral_le (hb : 1 < b) (hk : 0 < k) (h : n < b ^ k) :
    (numeral b n).length ≤ k := by
  by_cases hn : n = 0
  · subst hn
    rw [numeral_zero]
    exact hk
  · rw [numeral_of_ne_zero hn, List.length_reverse]
    exact (Nat.digits_length_le_iff hb n).mpr h

end MuduoHttp.Support
