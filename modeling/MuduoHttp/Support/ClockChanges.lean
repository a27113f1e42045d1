import Mathlib.Algebra.Order.Ring.Int
import Mathlib.Data.List.Pairwise
import Mathlib.Tactic.SplitIfs

/-!
# Clocks that are set forward and back

A clock shows the time and the offset of the rule in force.  The changes are
given by the times from which on a rule holds, and the same list can be read
by the clock: the changes then begin where the clock stands right after them.

When a clock is set back, it shows some of the times twice.  The changes lie
so far apart here that a shown time stems from one change at most, and reading
the list by the clock finds the rule after the change.
-/

namespace MuduoHttp.Support

variable {ρ : Type*}

/-- The rule in force at a time: that of the last change that is not later. -/
def ruleAt (cur : ρ) : List (ℤ × ρ) → ℤ → ρ
  | [], _ => cur
  | c :: changes, t => if t < c.1 then cur else ruleAt c.2 changes t

theorem ruleAt_of_lt {cur : ρ} {changes : List (ℤ × ρ)} {t : ℤ}
    (h : ∀ c ∈ changes, t < c.1) : ruleAt cur changes t = cur := by
  cases changes with
  | nil => rfl
  | cons c changes => exact if_pos (h c List.mem_cons_self)

theorem ruleAt_cons_of_le {cur : ρ} {c : ℤ × ρ} {changes : List (ℤ × ρ)}
    {t : ℤ} (h : c.1 ≤ t) :
    ruleAt cur (c :: changes) t = ruleAt c.2 changes t :=
  if_neg (not_lt.mpr h)

theorem ruleAt_mem (cur : ρ) (changes : List (ℤ × ρ)) (t : ℤ) :
    ruleAt cur changes t = cur ∨ ∃ c ∈ changes, ruleAt cur changes t = c.2 := by
  induction changes generalizing cur with
  | nil => exact .inl rfl
  | cons c changes ih =>
      rw [ruleAt]
      split_ifs
      · exact .inl rfl
      · obtain heq | ⟨d, hd, heq⟩ := ih c.2
        · exact .inr ⟨c, List.mem_cons_self, heq⟩
        · exact .inr ⟨d, List.mem_cons_of_mem c hd, heq⟩

/-- The change in force is known by the change that comes next. -/
theorem ruleAt_eq {cur : ρ} {changes : List (ℤ × ρ)} {t : ℤ} {i : ℕ}
    {c : ℤ × ρ} (hsorted : changes.Pairwise (fun c d => c.1 < d.1))
    (hi : changes[i]? = some c) (hle : c.1 ≤ t)
    (hnext : ∀ d, changes[i + 1]? = some d → t < d.1) :
    ruleAt cur changes t = c.2 := by
  induction changes generalizing cur i with
  | nil => cases hi
  | cons a changes ih =>
      obtain ⟨ha, htail⟩ := List.pairwise_cons.mp hsorted
      cases i with
      | zero =>
          cases hi
          rw [ruleAt_cons_of_le hle]
          cases changes with
          | nil => rfl
          | cons d changes => exact if_pos (hnext d rfl)
      | succ i =>
          have hmem : c ∈ changes := List.mem_of_getElem? hi
          rw [ruleAt_cons_of_le ((ha c hmem).le.trans hle)]
          exact ih htail hi hnext

variable (offset : ρ → ℤ)

/-- A change as the clock shows it. -/
def shown (c : ℤ × ρ) : ℤ × ρ := (c.1 + offset c.2, c.2)

/-- The offsets differ by `w` at most, and the changes are further apart. -/
structure Spaced (w : ℤ) (cur : ρ) (changes : List (ℤ × ρ)) : Prop where
  initial : ∀ c ∈ changes, offset cur - offset c.2 ≤ w
  differ : ∀ c ∈ changes, ∀ d ∈ changes, offset c.2 - offset d.2 ≤ w
  apart : changes.Pairwise (fun c d => c.1 + w < d.1)

/-- The change sets the clock back, over the time that it shows now. -/
def SetsBack (rule : ρ) (t : ℤ) (c : ℤ × ρ) : Prop :=
  t < c.1 ∧ c.1 ≤ t + (offset rule - offset c.2)

instance (rule : ρ) (t : ℤ) (c : ℤ × ρ) : Decidable (SetsBack offset rule t c) :=
  inferInstanceAs (Decidable (_ ∧ _))

variable {offset}
variable {w : ℤ} {cur : ρ} {changes : List (ℤ × ρ)} {t : ℤ}

namespace Spaced

theorem tail {c : ℤ × ρ} (h : Spaced offset w cur (c :: changes)) :
    Spaced offset w c.2 changes where
  initial d hd := h.differ c List.mem_cons_self d (List.mem_cons_of_mem c hd)
  differ d hd e he :=
    h.differ d (List.mem_cons_of_mem c hd) e (List.mem_cons_of_mem c he)
  apart := (List.pairwise_cons.mp h.apart).2

theorem head_apart {c d : ℤ × ρ} (h : Spaced offset w cur (c :: changes))
    (hd : d ∈ changes) : c.1 + w < d.1 :=
  (List.pairwise_cons.mp h.apart).1 d hd

theorem nonneg {c : ℤ × ρ} (h : Spaced offset w cur changes)
    (hc : c ∈ changes) : 0 ≤ w := by
  have hdiffer := h.differ c hc c hc
  omega

/-- After a change the clock does not go back to where the change left it. -/
theorem le_shown {start : ℤ} (h : Spaced offset w cur changes)
    (hstart : ∀ c ∈ changes, start + w < c.1) (ht : start ≤ t) :
    start + offset cur ≤ t + offset (ruleAt cur changes t) := by
  induction changes generalizing cur start with
  | nil => exact Int.add_le_add_right ht _
  | cons c changes ih =>
      by_cases hlt : t < c.1
      · rw [ruleAt, if_pos hlt]
        omega
      · have hle := ih h.tail (fun d hd => h.head_apart hd) (not_lt.mp hlt)
        have hgap := hstart c List.mem_cons_self
        have hoffset := h.initial c List.mem_cons_self
        rw [ruleAt, if_neg hlt]
        omega

theorem sorted (h : Spaced offset w cur changes) :
    changes.Pairwise (fun c d => c.1 < d.1) :=
  h.apart.imp_of_mem fun hc _ hlt => by
    have hw := h.nonneg hc
    omega

theorem shown_sorted (h : Spaced offset w cur changes) :
    (changes.map (shown offset)).Pairwise (fun c d => c.1 < d.1) :=
  List.pairwise_map.mpr <| h.apart.imp_of_mem fun hc hd hlt => by
    have hoffset := h.differ _ hc _ hd
    simp only [shown]
    omega

theorem ruleAt_shown_cons {c : ℤ × ρ} (h : Spaced offset w cur (c :: changes))
    (hle : c.1 ≤ t) (cur' : ρ) :
    ruleAt cur' ((c :: changes).map (shown offset))
        (t + offset (ruleAt c.2 changes t)) =
      ruleAt c.2 (changes.map (shown offset))
        (t + offset (ruleAt c.2 changes t)) :=
  ruleAt_cons_of_le (h.tail.le_shown (fun _ hd => h.head_apart hd) hle)

/-- The rule can be read off the clock unless the clock is about to be set
back over the time it shows. -/
theorem ruleAt_shown (h : Spaced offset w cur changes)
    (hback : ∀ c ∈ changes, ¬ SetsBack offset (ruleAt cur changes t) t c) :
    ruleAt cur (changes.map (shown offset))
        (t + offset (ruleAt cur changes t)) = ruleAt cur changes t := by
  induction changes generalizing cur with
  | nil => rfl
  | cons c changes ih =>
      by_cases hlt : t < c.1
      · have hnot := hback c List.mem_cons_self
        rw [ruleAt, if_pos hlt] at hnot ⊢
        unfold SetsBack at hnot
        rw [List.map_cons, ruleAt, if_pos]
        simp only [shown]
        omega
      · have hle := not_lt.mp hlt
        rw [ruleAt_cons_of_le hle] at hback ⊢
        rw [h.ruleAt_shown_cons hle]
        exact ih h.tail fun d hd => hback d (List.mem_cons_of_mem c hd)

/-- If it is, the rule read off the clock is the one after the change, and it
is in force when the clock shows the same time again. -/
theorem ruleAt_shown_setsBack (h : Spaced offset w cur changes) {c : ℤ × ρ}
    (hc : c ∈ changes) (hback : SetsBack offset (ruleAt cur changes t) t c) :
    ruleAt cur (changes.map (shown offset))
        (t + offset (ruleAt cur changes t)) = c.2 ∧
      ruleAt cur changes
        (t + (offset (ruleAt cur changes t) - offset c.2)) = c.2 := by
  induction changes generalizing cur with
  | nil => cases hc
  | cons a changes ih =>
      obtain ⟨hsoon, hover⟩ := hback
      by_cases hlt : t < a.1
      · rw [ruleAt, if_pos hlt] at hover ⊢
        obtain rfl | hmem := List.mem_cons.mp hc
        · have hoffset := h.initial c List.mem_cons_self
          constructor
          · rw [List.map_cons, ruleAt_cons_of_le (by simp only [shown]; omega)]
            refine ruleAt_of_lt fun d hd => ?_
            obtain ⟨e, he, rfl⟩ := List.mem_map.mp hd
            have hgap := h.head_apart he
            have hlater := h.initial e (List.mem_cons_of_mem c he)
            simp only [shown]
            omega
          · rw [ruleAt_cons_of_le hover]
            refine ruleAt_of_lt fun d hd => ?_
            have hgap := h.head_apart hd
            omega
        · have hgap := h.head_apart hmem
          have hoffset := h.initial c hc
          omega
      · have hle := not_lt.mp hlt
        rw [ruleAt_cons_of_le hle] at hover ⊢
        rw [h.ruleAt_shown_cons hle, ruleAt_cons_of_le (by omega)]
        obtain rfl | hmem := List.mem_cons.mp hc
        · omega
        · exact ih h.tail hmem ⟨hsoon, hover⟩

end Spaced

end MuduoHttp.Support
