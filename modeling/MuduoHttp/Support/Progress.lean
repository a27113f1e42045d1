import MuduoHttp.Support.Transition

/-!
# Progress of fair schedules

A measure never grows along the admissible actions.  Some actions are helpful
in a state: they lower the measure, and stay helpful until it is lowered.  As
long as the measure is not zero, a round of the schedule has an action that is
helpful at its beginning.  Then every round lowers the measure, whatever else
happens in it and in whatever order.
-/

namespace MuduoHttp.Support

variable {σ α : Type*}

/-- `measure` shows the progress of the admissible actions in the states with
`Inv`. -/
structure Progress (step : σ → α → σ) (Admissible : α → Prop) (Inv : σ → Prop)
    (Helpful : σ → α → Prop) (measure : σ → ℕ) : Prop where
  invariant : ∀ s a, Inv s → Admissible a → Inv (step s a)
  lowers : ∀ s a, Inv s → Helpful s a → measure (step s a) < measure s
  stays : ∀ s a, Inv s → Admissible a →
    measure (step s a) < measure s ∨
      measure (step s a) = measure s ∧
        ∀ b, Helpful s b → Helpful (step s a) b

/-- A round has a helpful action in every state where one is needed. -/
def FairRound (Inv : σ → Prop) (Helpful : σ → α → Prop) (measure : σ → ℕ)
    (round : List α) : Prop :=
  ∀ s, Inv s → measure s ≠ 0 → ∃ b ∈ round, Helpful s b

namespace Progress

variable {step : σ → α → σ} {Admissible : α → Prop} {Inv : σ → Prop}
variable {Helpful : σ → α → Prop} {measure : σ → ℕ}

theorem run_invariant (h : Progress step Admissible Inv Helpful measure)
    {s : σ} (hs : Inv s) {actions : List α}
    (hall : ∀ a ∈ actions, Admissible a) : Inv (run step s actions) := by
  induction actions generalizing s with
  | nil => exact hs
  | cons a actions ih =>
      rw [List.forall_mem_cons] at hall
      exact ih (h.invariant s a hs hall.1) hall.2

theorem measure_step_le (h : Progress step Admissible Inv Helpful measure)
    {s : σ} (hs : Inv s) {a : α} (ha : Admissible a) :
    measure (step s a) ≤ measure s := by
  obtain hlt | ⟨heq, -⟩ := h.stays s a hs ha
  · exact Nat.le_of_lt hlt
  · exact Nat.le_of_eq heq

theorem measure_run_le (h : Progress step Admissible Inv Helpful measure)
    {s : σ} (hs : Inv s) {actions : List α}
    (hall : ∀ a ∈ actions, Admissible a) :
    measure (run step s actions) ≤ measure s := by
  induction actions generalizing s with
  | nil => exact Nat.le_refl _
  | cons a actions ih =>
      rw [List.forall_mem_cons] at hall
      exact Nat.le_trans (ih (h.invariant s a hs hall.1) hall.2)
        (h.measure_step_le hs hall.1)

/-- Whatever comes before it, a helpful action is not in vain. -/
theorem measure_run_lt (h : Progress step Admissible Inv Helpful measure)
    {s : σ} (hs : Inv s) {actions : List α}
    (hall : ∀ a ∈ actions, Admissible a) {b : α} (hb : b ∈ actions)
    (hhelpful : Helpful s b) :
    measure (run step s actions) < measure s := by
  induction actions generalizing s with
  | nil => cases hb
  | cons a actions ih =>
      rw [List.forall_mem_cons] at hall
      have hinv := h.invariant s a hs hall.1
      obtain hlt | ⟨heq, hkeeps⟩ := h.stays s a hs hall.1
      · exact Nat.lt_of_le_of_lt (h.measure_run_le hinv hall.2) hlt
      · rcases List.mem_cons.mp hb with rfl | hb
        · have hlt := h.lowers s b hs hhelpful
          omega
        · rw [← heq]
          exact ih hinv hall.2 hb (hkeeps b hhelpful)

/-- Every fair round lowers the measure until it is zero. -/
theorem measure_rounds_le (h : Progress step Admissible Inv Helpful measure)
    {s : σ} (hs : Inv s) {rounds : List (List α)}
    (hall : ∀ round ∈ rounds, ∀ a ∈ round, Admissible a)
    (hfair : ∀ round ∈ rounds, FairRound Inv Helpful measure round) :
    measure (run step s rounds.flatten) ≤ measure s - rounds.length := by
  induction rounds generalizing s with
  | nil => exact Nat.le_refl _
  | cons round rounds ih =>
      rw [List.forall_mem_cons] at hall hfair
      have hround :
          measure (run step s round) ≤ measure s - 1 := by
        by_cases hzero : measure s = 0
        · have hle := h.measure_run_le hs hall.1
          omega
        · obtain ⟨b, hb, hhelpful⟩ := hfair.1 s hs hzero
          have hlt := h.measure_run_lt hs hall.1 hb hhelpful
          omega
      have hrest := ih (h.run_invariant hs hall.1) hall.2 hfair.2
      rw [List.flatten_cons, run_append, List.length_cons]
      omega

/-- Enough fair rounds bring the measure to zero. -/
theorem measure_rounds_eq_zero
    (h : Progress step Admissible Inv Helpful measure)
    {s : σ} (hs : Inv s) {rounds : List (List α)}
    (hall : ∀ round ∈ rounds, ∀ a ∈ round, Admissible a)
    (hfair : ∀ round ∈ rounds, FairRound Inv Helpful measure round)
    (hmany : measure s ≤ rounds.length) :
    measure (run step s rounds.flatten) = 0 := by
  have hle := h.measure_rounds_le hs hall hfair
  omega

end Progress

end MuduoHttp.Support
