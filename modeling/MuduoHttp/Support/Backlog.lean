import Mathlib.Algebra.BigOperators.Group.List.Basic
import Mathlib.Algebra.GroupWithZero.Nat
import Mathlib.Data.List.Infix

/-!
# A queue served once per tick

At each tick some jobs arrive and then at most one waiting job is served.
The queue is empty after the last tick exactly when no suffix of the ticks
brought more jobs than it has ticks.
-/

namespace MuduoHttp.Support

/-- Jobs left over after the ticks with the given numbers of arrivals, when
`waiting` jobs wait at the start. -/
def backlog (waiting : ℕ) : List ℕ → ℕ
  | [] => waiting
  | arrived :: ticks => backlog (waiting + arrived - 1) ticks

/-- No suffix of the ticks brings more jobs than it can serve. -/
def KeepsUp (ticks : List ℕ) : Prop :=
  ∀ late, late <:+ ticks → late.sum ≤ late.length

theorem keepsUp_cons {arrived : ℕ} {ticks : List ℕ} :
    KeepsUp (arrived :: ticks) ↔
      arrived + ticks.sum ≤ ticks.length + 1 ∧ KeepsUp ticks := by
  constructor
  · intro h
    refine ⟨by simpa using h _ List.suffix_rfl, ?_⟩
    intro late hlate
    exact h late (hlate.trans (List.suffix_cons arrived ticks))
  · rintro ⟨hall, hrest⟩ late hlate
    rcases List.suffix_cons_iff.mp hlate with rfl | hlate
    · simpa using hall
    · exact hrest late hlate

/-- The backlog is cleared exactly when the whole work fits the ticks and no
suffix of the ticks is overloaded. -/
theorem backlog_eq_zero_iff (waiting : ℕ) (ticks : List ℕ) :
    backlog waiting ticks = 0 ↔
      waiting + ticks.sum ≤ ticks.length ∧ KeepsUp ticks := by
  induction ticks generalizing waiting with
  | nil => simp [backlog, KeepsUp]
  | cons arrived ticks ih =>
      rw [backlog, ih, keepsUp_cons]
      have hsuffix : KeepsUp ticks → ticks.sum ≤ ticks.length :=
        fun h => h ticks List.suffix_rfl
      simp only [List.sum_cons, List.length_cons]
      constructor
      · rintro ⟨hall, hrest⟩
        exact ⟨by omega, by omega, hrest⟩
      · rintro ⟨hall, -, hrest⟩
        have hlate := hsuffix hrest
        exact ⟨by omega, hrest⟩

/-- Starting without waiting jobs, the backlog is cleared exactly when the
ticks keep up. -/
theorem backlog_zero_eq_zero_iff (ticks : List ℕ) :
    backlog 0 ticks = 0 ↔ KeepsUp ticks := by
  rw [backlog_eq_zero_iff]
  constructor
  · exact fun h => h.2
  · exact fun h => ⟨by simpa using h ticks List.suffix_rfl, h⟩

end MuduoHttp.Support
