import Mathlib.Data.List.Infix
import Mathlib.Data.Nat.Find

/-!
# Searching a pattern in a list

`search pat xs` is the index of the first occurrence of `pat` in `xs`, the
way a forward search over an array finds it.  An occurrence found in a prefix
stays the first one when more symbols arrive, and there are fewer occurrences
behind it.

The last section treats patterns of two different symbols, which cannot
overlap themselves.  Splitting a list at the first occurrence of such a
pattern is unique.
-/

namespace MuduoHttp.Support

variable {α : Type*} [DecidableEq α]

/-- Index of the first occurrence of a pattern. -/
def search (pat : List α) : List α → Option ℕ
  | [] => if pat = [] then some 0 else none
  | x :: xs =>
      if pat.isPrefixOf (x :: xs) then some 0
      else (search pat xs).map (· + 1)

theorem search_eq_some_iff {pat xs : List α} {i : ℕ} :
    search pat xs = some i ↔
      i ≤ xs.length ∧ pat <+: xs.drop i ∧
        ∀ j < i, ¬ pat <+: xs.drop j := by
  induction xs generalizing i with
  | nil =>
      by_cases hpat : pat = []
      · subst hpat
        simp only [search, if_true, Option.some.injEq, List.length_nil,
          Nat.le_zero, List.nil_prefix, not_true_eq_false, true_and]
        constructor
        · rintro rfl
          exact ⟨rfl, fun j hj => absurd hj (Nat.not_lt_zero j)⟩
        · exact fun h => h.1.symm
      · simp [search, hpat]
  | cons x xs ih =>
      by_cases hhead : pat <+: x :: xs
      · simp only [search, List.isPrefixOf_iff_prefix, hhead, if_true,
          Option.some.injEq]
        constructor
        · rintro rfl
          exact ⟨Nat.zero_le _, hhead, fun j hj => absurd hj (Nat.not_lt_zero j)⟩
        · rintro ⟨-, -, hfirst⟩
          by_contra hi
          exact hfirst 0 (Nat.pos_of_ne_zero (Ne.symm hi)) hhead
      · simp only [search, List.isPrefixOf_iff_prefix, hhead, if_false,
          Option.map_eq_some_iff]
        constructor
        · rintro ⟨k, hk, rfl⟩
          obtain ⟨hlen, hocc, hfirst⟩ := ih.mp hk
          refine ⟨by simpa using hlen, by simpa using hocc, ?_⟩
          intro j hj
          cases j with
          | zero => simpa using hhead
          | succ j => simpa using hfirst j (by omega)
        · rintro ⟨hlen, hocc, hfirst⟩
          cases i with
          | zero => exact absurd (by simpa using hocc) hhead
          | succ i =>
              refine ⟨i, ih.mpr ⟨by simpa using hlen, by simpa using hocc, ?_⟩,
                rfl⟩
              intro j hj
              simpa using hfirst (j + 1) (by omega)

theorem search_eq_none_iff {pat xs : List α} :
    search pat xs = none ↔ ∀ j ≤ xs.length, ¬ pat <+: xs.drop j := by
  constructor
  · intro hnone j hj hocc
    have hex : ∃ j, j ≤ xs.length ∧ pat <+: xs.drop j := ⟨j, hj, hocc⟩
    classical
    have hspec := Nat.find_spec hex
    have hfound : search pat xs = some (Nat.find hex) :=
      search_eq_some_iff.mpr ⟨hspec.1, hspec.2, fun k hk hpre =>
        Nat.find_min hex hk ⟨le_trans (le_of_lt hk) hspec.1, hpre⟩⟩
    rw [hnone] at hfound
    cases hfound
  · intro hall
    cases hsearch : search pat xs with
    | none => rfl
    | some i =>
        obtain ⟨hlen, hocc, -⟩ := search_eq_some_iff.mp hsearch
        exact absurd hocc (hall i hlen)

/-- Without its first symbol a pattern does not occur. -/
theorem search_eq_none_of_notMem {a : α} {pat xs : List α} (h : a ∉ xs) :
    search (a :: pat) xs = none := by
  refine search_eq_none_iff.mpr ?_
  intro j _ hpre
  exact h (List.mem_of_mem_drop (hpre.subset (.head _)))

/-- The list split around the first occurrence. -/
theorem search_split {pat xs : List α} {i : ℕ}
    (h : search pat xs = some i) :
    xs = xs.take i ++ pat ++ xs.drop (i + pat.length) := by
  obtain ⟨-, ⟨tail, htail⟩, -⟩ := search_eq_some_iff.mp h
  have hdrop : xs.drop (i + pat.length) = tail := by
    rw [← List.drop_drop, ← htail, List.drop_left]
  rw [hdrop, List.append_assoc, htail, List.take_append_drop]

theorem search_add_length_le {pat xs : List α} {i : ℕ}
    (h : search pat xs = some i) : i + pat.length ≤ xs.length := by
  obtain ⟨hlen, hocc, -⟩ := search_eq_some_iff.mp h
  have hfits := hocc.length_le
  rw [List.length_drop] at hfits
  omega

/-- Later symbols do not move the first occurrence. -/
theorem search_append_right {pat xs : List α} {i : ℕ}
    (h : search pat xs = some i) (ys : List α) :
    search pat (xs ++ ys) = some i := by
  have hfits := search_add_length_le h
  obtain ⟨hlen, hocc, hfirst⟩ := search_eq_some_iff.mp h
  refine search_eq_some_iff.mpr ⟨by simp; omega, ?_, ?_⟩
  · rw [List.drop_append_of_le_length hlen]
    exact hocc.trans (List.prefix_append _ _)
  · intro j hj hpre
    rw [List.drop_append_of_le_length (by omega)] at hpre
    apply hfirst j hj
    exact List.prefix_of_prefix_length_le hpre (List.prefix_append _ _)
      (by rw [List.length_drop]; omega)

/-- Before the first occurrence there is none. -/
theorem search_take_eq_none {pat xs : List α} {i : ℕ} (hpat : pat ≠ [])
    (h : search pat xs = some i) : search pat (xs.take i) = none := by
  obtain ⟨hlen, -, hfirst⟩ := search_eq_some_iff.mp h
  have hpos : 0 < pat.length := List.length_pos_iff.mpr hpat
  refine search_eq_none_iff.mpr ?_
  intro j hj hpre
  have hfits := hpre.length_le
  simp only [List.length_take, List.length_drop] at hj hfits
  apply hfirst j (by omega)
  rw [List.drop_take] at hpre
  exact hpre.trans (List.take_prefix _ _)

/-! ## Counting occurrences -/

/-- How often a pattern occurs, overlapping occurrences included. -/
def occurrences (pat xs : List α) : ℕ :=
  xs.tails.countP fun tail => pat.isPrefixOf tail

theorem occurrences_cons (pat : List α) (x : α) (xs : List α) :
    occurrences pat (x :: xs) =
      occurrences pat xs + if pat <+: x :: xs then 1 else 0 := by
  simp [occurrences, List.countP_cons]

theorem occurrences_drop_le (pat xs : List α) (n : ℕ) :
    occurrences pat (xs.drop n) ≤ occurrences pat xs := by
  induction xs generalizing n with
  | nil => simp
  | cons x xs ih =>
      cases n with
      | zero => rfl
      | succ n =>
          rw [List.drop_succ_cons, occurrences_cons]
          exact (ih n).trans (Nat.le_add_right _ _)

/-- Behind the first symbol of the first occurrence there is one less. -/
theorem occurrences_of_search {pat xs : List α} {i : ℕ} (hpat : pat ≠ [])
    (h : search pat xs = some i) :
    occurrences pat xs = occurrences pat (xs.drop (i + 1)) + 1 := by
  induction xs generalizing i with
  | nil => simp [search, hpat] at h
  | cons x xs ih =>
      rw [List.drop_succ_cons, occurrences_cons]
      by_cases hhead : pat <+: x :: xs
      · have hzero : i = 0 := by
          simpa [search, List.isPrefixOf_iff_prefix, hhead] using h.symm
        rw [if_pos hhead, hzero, List.drop_zero]
      · have hmore : ∃ k, search pat xs = some k ∧ k + 1 = i := by
          simpa [search, List.isPrefixOf_iff_prefix, hhead] using h
        obtain ⟨k, hk, rfl⟩ := hmore
        rw [if_neg hhead, Nat.add_zero, ih hk]

theorem occurrences_drop_lt {pat xs : List α} {i : ℕ} (hpat : pat ≠ [])
    (h : search pat xs = some i) :
    occurrences pat (xs.drop (i + pat.length)) < occurrences pat xs := by
  have hpos : 0 < pat.length := List.length_pos_iff.mpr hpat
  calc
    occurrences pat (xs.drop (i + pat.length)) =
        occurrences pat ((xs.drop (i + 1)).drop (pat.length - 1)) := by
      rw [List.drop_drop]
      congr 2
      omega
    _ ≤ occurrences pat (xs.drop (i + 1)) := occurrences_drop_le _ _ _
    _ < occurrences pat xs := by
      rw [occurrences_of_search hpat h]
      exact Nat.lt_succ_self _

/-! ## Patterns of two different symbols -/

theorem search_append_pair {a b : α} (hab : a ≠ b) {line : List α}
    (h : search [a, b] line = none) (rest : List α) :
    search [a, b] (line ++ [a, b] ++ rest) = some line.length := by
  refine search_eq_some_iff.mpr ⟨by simp, ?_, ?_⟩
  · rw [List.append_assoc, List.drop_left]
    exact List.prefix_append _ _
  · intro j hj hpre
    have hline := search_eq_none_iff.mp h j (le_of_lt hj)
    rw [List.append_assoc, List.drop_append_of_le_length (le_of_lt hj)] at hpre
    -- The occurrence starts in the line; it would have to end there too.
    cases hcut : line.drop j with
    | nil =>
        have := congrArg List.length hcut
        rw [List.length_drop, List.length_nil] at this
        omega
    | cons x tail =>
        rw [hcut] at hpre hline
        cases tail with
        | nil =>
            obtain ⟨more, hmore⟩ := hpre
            simp only [List.cons_append, List.nil_append, List.cons.injEq]
              at hmore
            exact hab hmore.2.1.symm
        | cons y tail =>
            obtain ⟨more, hmore⟩ := hpre
            simp only [List.cons_append, List.nil_append, List.cons.injEq]
              at hmore
            apply hline
            rw [hmore.1, hmore.2.1]
            exact ⟨tail, rfl⟩

/-- The first line of a list and what follows it are determined by it. -/
theorem append_pair_inj {a b : α} (hab : a ≠ b) {l₁ l₂ r₁ r₂ : List α}
    (h₁ : search [a, b] l₁ = none) (h₂ : search [a, b] l₂ = none)
    (h : l₁ ++ [a, b] ++ r₁ = l₂ ++ [a, b] ++ r₂) :
    l₁ = l₂ ∧ r₁ = r₂ := by
  have hlen : l₁.length = l₂.length := by
    have := search_append_pair hab h₁ r₁
    rw [h, search_append_pair hab h₂ r₂] at this
    exact (Option.some.inj this).symm
  rw [List.append_assoc, List.append_assoc] at h
  obtain ⟨hl, hr⟩ := List.append_inj h hlen
  exact ⟨hl, List.append_cancel_left hr⟩

/-! ## Splitting at a symbol -/

theorem idxOf_append_cons {a : α} {xs : List α} (h : a ∉ xs) (ys : List α) :
    (xs ++ a :: ys).idxOf a = xs.length := by
  rw [List.idxOf_append_of_notMem h, List.idxOf_cons_self, Nat.add_zero]

theorem notMem_take_idxOf (a : α) (xs : List α) :
    a ∉ xs.take (xs.idxOf a) := by
  intro h
  have ha := List.mem_of_mem_take h
  exact lt_irrefl _ ((List.mem_take_iff_idxOf_lt ha).mp h)

/-- The list split around the first occurrence of a symbol. -/
theorem take_idxOf_append_drop {a : α} {xs : List α} (h : a ∈ xs) :
    xs.take (xs.idxOf a) ++ a :: xs.drop (xs.idxOf a + 1) = xs := by
  have hlt := List.idxOf_lt_length_of_mem h
  calc
    xs.take (xs.idxOf a) ++ a :: xs.drop (xs.idxOf a + 1) =
        xs.take (xs.idxOf a) ++ xs.drop (xs.idxOf a) := by
      rw [List.drop_eq_getElem_cons hlt, List.getElem_idxOf hlt]
    _ = xs := List.take_append_drop _ _

end MuduoHttp.Support
