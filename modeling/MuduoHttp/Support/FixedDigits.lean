import MuduoHttp.Support.Numeral

/-!
# Digits of a fixed number

Numbers below a power of the base, written with leading zeros to the same
length, compare like their digits, and so do texts that are put together from
pieces of the same lengths.
-/

namespace MuduoHttp.Support

/-- The digits of a number below `b ^ k`, the most significant one first. -/
def fixedDigits (b : ℕ) : ℕ → ℕ → List ℕ
  | 0, _ => []
  | k + 1, n => n / b ^ k :: fixedDigits b k (n % b ^ k)

variable {b k n m : ℕ}

@[simp] theorem length_fixedDigits (b k n : ℕ) :
    (fixedDigits b k n).length = k := by
  induction k generalizing n with
  | zero => rfl
  | succ k ih => rw [fixedDigits, List.length_cons, ih]

theorem fixedDigits_zero (b k : ℕ) :
    fixedDigits b k 0 = List.replicate k 0 := by
  induction k with
  | zero => rfl
  | succ k ih => rw [fixedDigits, Nat.zero_div, Nat.zero_mod, ih,
      List.replicate_succ]

/-- The last digit, and the digits in front of it. -/
theorem fixedDigits_succ (hn : n < b ^ (k + 1)) :
    fixedDigits b (k + 1) n = fixedDigits b k (n / b) ++ [n % b] := by
  induction k generalizing n with
  | zero =>
      rw [Nat.zero_add, Nat.pow_one] at hn
      simp [fixedDigits, Nat.mod_eq_of_lt hn]
  | succ k ih =>
      have hpos : 0 < b ^ (k + 1) := Nat.pos_of_ne_zero fun hzero => by
        rw [Nat.pow_succ, hzero, Nat.zero_mul] at hn
        omega
      have hfirst : n / b ^ (k + 1) = n / b / b ^ k := by
        rw [Nat.div_div_eq_div_mul, ← Nat.pow_succ']
      have hrest : n % b ^ (k + 1) / b = n / b % b ^ k := by
        rw [Nat.pow_succ', Nat.mod_mul_right_div_self]
      have hlast : n % b ^ (k + 1) % b = n % b :=
        Nat.mod_mod_of_dvd n (Dvd.intro_left _ rfl)
      rw [fixedDigits, ih (Nat.mod_lt n hpos), hfirst, hrest, hlast, fixedDigits,
        List.cons_append]

/-- The digits of two numbers behind each other. -/
theorem fixedDigits_append {j : ℕ} (hn : n < b ^ j) (hm : m < b ^ k) :
    fixedDigits b (j + k) (n * b ^ k + m) =
      fixedDigits b j n ++ fixedDigits b k m := by
  induction j generalizing n with
  | zero =>
      rw [Nat.pow_zero, Nat.lt_one_iff] at hn
      simp [hn, fixedDigits]
  | succ j ih =>
      have hpos : 0 < b ^ j := Nat.pos_of_ne_zero fun hzero => by
        rw [Nat.pow_succ, hzero, Nat.zero_mul] at hn
        omega
      have hquot : (n * b ^ k + m) / b ^ k = n := by
        rw [Nat.mul_comm, Nat.mul_add_div (by omega), Nat.div_eq_of_lt hm,
          Nat.add_zero]
      have hrest : (n * b ^ k + m) % b ^ k = m := by
        rw [Nat.mul_comm, Nat.mul_add_mod, Nat.mod_eq_of_lt hm]
      have hpow : b ^ (j + k) = b ^ k * b ^ j := by
        rw [Nat.pow_add, Nat.mul_comm]
      have hhead : (n * b ^ k + m) / b ^ (j + k) = n / b ^ j := by
        rw [hpow, ← Nat.div_div_eq_div_mul, hquot]
      have htail : (n * b ^ k + m) % b ^ (j + k) = n % b ^ j * b ^ k + m := by
        rw [hpow, Nat.mod_mul, hquot, hrest, Nat.add_comm, Nat.mul_comm]
      rw [Nat.succ_add, fixedDigits, hhead, htail, ih (Nat.mod_lt n hpos),
        fixedDigits, List.cons_append]

/-- The numeral of a number that is not zero, with zeros in front of it. -/
theorem replicate_append_numeral (hb : 1 < b) (hn : n < b ^ k)
    (hzero : n ≠ 0) :
    List.replicate (k - (numeral b n).length) 0 ++ numeral b n =
      fixedDigits b k n := by
  induction k generalizing n with
  | zero =>
      rw [Nat.pow_zero] at hn
      omega
  | succ k ih =>
      rw [fixedDigits_succ hn, numeral_eq_append hb]
      by_cases hdiv : n / b = 0
      · rw [if_pos hdiv, hdiv, fixedDigits_zero]
        simp
      · have hlt : n / b < b ^ k := by
          rw [Nat.pow_succ'] at hn
          exact Nat.div_lt_of_lt_mul hn
        rw [if_neg hdiv, ← ih hlt hdiv, List.length_append,
          List.length_singleton, Nat.add_sub_add_right, List.append_assoc]

theorem fixedDigits_eq (hb : 1 < b) (hk : 0 < k) (hn : n < b ^ k) :
    List.replicate (k - (numeral b n).length) 0 ++ numeral b n =
      fixedDigits b k n := by
  by_cases hzero : n = 0
  · obtain ⟨k, rfl⟩ := Nat.exists_eq_add_one_of_ne_zero hk.ne'
    rw [hzero, numeral_zero, fixedDigits_zero, List.length_singleton,
      Nat.add_sub_cancel, List.replicate_succ']
  · exact replicate_append_numeral hb hn hzero

/-- A number that is not below a power of the base has more digits. -/
theorem succ_le_length_numeral (hb : 1 < b) (hle : b ^ k ≤ n) :
    k + 1 ≤ (numeral b n).length := by
  have hzero : n ≠ 0 := by
    have hpos : 0 < b ^ k := Nat.pow_pos (by omega)
    omega
  rw [numeral_of_ne_zero hzero, List.length_reverse]
  exact (Nat.lt_digits_length_iff hb n).mpr hle

/-- Quotients compare first, and the rests decide. -/
theorem lt_iff_div_mod (k : ℕ) :
    n < m ↔ n / k < m / k ∨ n / k = m / k ∧ n % k < m % k := by
  have hn := Nat.div_add_mod n k
  have hm := Nat.div_add_mod m k
  constructor
  · intro h
    rcases (Nat.div_le_div_right (c := k) h.le).lt_or_eq with hlt | heq
    · exact .inl hlt
    · rw [heq] at hn
      exact .inr ⟨heq, by omega⟩
  · rintro (hlt | ⟨heq, hlt⟩)
    · exact Nat.lt_of_div_lt_div hlt
    · rw [heq] at hn
      omega

/-! ## Texts -/

/-- Pieces of the same length compare first, and what follows them decides. -/
theorem append_lt_append_iff {α : Type*} [LT α] {l₁ l₂ r₁ r₂ : List α}
    (h : l₁.length = l₂.length) :
    l₁ ++ r₁ < l₂ ++ r₂ ↔ l₁ < l₂ ∨ l₁ = l₂ ∧ r₁ < r₂ := by
  induction l₁ generalizing l₂ with
  | nil =>
      obtain rfl := List.length_eq_zero_iff.mp h.symm
      simp
  | cons a l₁ ih =>
      cases l₂ with
      | nil => cases h
      | cons b l₂ =>
          rw [List.cons_append, List.cons_append, List.cons_lt_cons_iff,
            List.cons_lt_cons_iff, ih (Nat.succ.inj h), List.cons.injEq]
          tauto

variable {α : Type*} [LT α] [Std.Asymm fun a b : α => a < b]
  {symbol : ℕ → α}

/-- The symbols of the digits are in order. -/
def Ordered (b : ℕ) (symbol : ℕ → α) : Prop :=
  ∀ d < b, ∀ e < b, d < e → symbol d < symbol e

theorem Ordered.lt_iff (h : Ordered b symbol) {d e : ℕ} (hd : d < b)
    (he : e < b) : symbol d < symbol e ↔ d < e := by
  constructor
  · intro hlt
    by_contra hge
    rcases (not_lt.mp hge).lt_or_eq with hgt | rfl
    · exact Std.Asymm.asymm _ _ hlt (h e he d hd hgt)
    · exact Std.Irrefl.irrefl _ hlt
  · exact h d hd e he

theorem Ordered.eq_iff (h : Ordered b symbol) {d e : ℕ} (hd : d < b)
    (he : e < b) : symbol d = symbol e ↔ d = e := by
  constructor
  · intro heq
    rcases Nat.lt_trichotomy d e with hlt | rfl | hlt
    · exact absurd (heq ▸ h d hd e he hlt) (Std.Irrefl.irrefl _)
    · rfl
    · exact absurd (heq ▸ h e he d hd hlt) (Std.Irrefl.irrefl _)
  · exact fun heq => congrArg symbol heq

theorem Ordered.fixedDigits_lt_iff (h : Ordered b symbol) (hn : n < b ^ k)
    (hm : m < b ^ k) :
    (fixedDigits b k n).map symbol < (fixedDigits b k m).map symbol ↔
      n < m := by
  induction k generalizing n m with
  | zero =>
      rw [Nat.pow_zero] at hn hm
      obtain rfl : n = m := by omega
      simp [fixedDigits]
  | succ k ih =>
      have hpos : 0 < b ^ k := Nat.pos_of_ne_zero fun hzero => by
        rw [Nat.pow_succ, hzero, Nat.zero_mul] at hn
        omega
      have hndiv : n / b ^ k < b := Nat.div_lt_of_lt_mul hn
      have hmdiv : m / b ^ k < b := Nat.div_lt_of_lt_mul hm
      rw [fixedDigits, fixedDigits, List.map_cons, List.map_cons,
        List.cons_lt_cons_iff, h.lt_iff hndiv hmdiv, h.eq_iff hndiv hmdiv,
        ih (Nat.mod_lt n hpos) (Nat.mod_lt m hpos), ← lt_iff_div_mod]

theorem Ordered.fixedDigits_eq_iff (h : Ordered b symbol) (hn : n < b ^ k)
    (hm : m < b ^ k) :
    (fixedDigits b k n).map symbol = (fixedDigits b k m).map symbol ↔
      n = m := by
  constructor
  · intro heq
    have hnm := h.fixedDigits_lt_iff hn hm
    have hmn := h.fixedDigits_lt_iff hm hn
    rw [heq] at hnm hmn
    have hirrefl := List.lt_irrefl ((fixedDigits b k m).map symbol)
    have hle := mt hnm.mpr hirrefl
    have hge := mt hmn.mpr hirrefl
    omega
  · rintro rfl
    rfl

end MuduoHttp.Support
