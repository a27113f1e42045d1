import Mathlib.Data.List.Infix

/-!
# Handing values over in batches

Producers put values into a shared place.  A consumer takes all values that
wait there at once, and delivers them later.  As long as it takes a batch only
when it has delivered the one before, the delivered values, the batch and the
waiting values are together all values in the order in which they were put.

If the consumer stops at some time, the values put before a certain moment
were delivered exactly when they were all taken.
-/

namespace MuduoHttp.Support

@[ext] structure Handoff (α : Type*) where
  /-- All values, in the order in which they were put. -/
  put : List α := []
  waiting : List α := []
  batch : List α := []
  delivered : List α := []

namespace Handoff

variable {α : Type*}

def add (h : Handoff α) (x : α) : Handoff α :=
  { h with put := h.put ++ [x], waiting := h.waiting ++ [x] }

/-- The consumer exchanges its batch for the waiting values. -/
def take (h : Handoff α) : Handoff α :=
  { h with waiting := h.batch, batch := h.waiting }

def deliver (h : Handoff α) : Handoff α :=
  { h with batch := [], delivered := h.delivered ++ h.batch }

/-- The values that the consumer has taken so far. -/
def taken (h : Handoff α) : List α :=
  h.delivered ++ h.batch

/-- No value was lost, added or moved. -/
def Conserved (h : Handoff α) : Prop :=
  h.taken ++ h.waiting = h.put

variable {h : Handoff α}

@[simp] theorem taken_add (h : Handoff α) (x : α) :
    (h.add x).taken = h.taken := rfl

@[simp] theorem taken_deliver (h : Handoff α) :
    h.deliver.taken = h.taken := by
  simp [taken, deliver]

theorem Conserved.add (hc : h.Conserved) (x : α) : (h.add x).Conserved := by
  have hput : h.taken ++ h.waiting = h.put := hc
  calc
    (h.add x).taken ++ (h.add x).waiting = h.taken ++ (h.waiting ++ [x]) := rfl
    _ = h.put ++ [x] := by rw [← List.append_assoc, hput]

theorem Conserved.deliver (hc : h.Conserved) : h.deliver.Conserved := by
  rw [Conserved, taken_deliver]
  exact hc

theorem Conserved.taken_take (hc : h.Conserved) (hbatch : h.batch = []) :
    h.take.taken = h.put := by
  rw [← (hc : h.taken ++ h.waiting = h.put)]
  simp [taken, Handoff.take, hbatch]

theorem Conserved.take (hc : h.Conserved) (hbatch : h.batch = []) :
    h.take.Conserved := by
  rw [Conserved, hc.taken_take hbatch]
  simp [Handoff.take, hbatch]

/-- Once the last batch is delivered, the values put up to a moment were
delivered, followed only by some that were put next, exactly when they were
all taken. -/
theorem delivered_iff (hbatch : h.batch = []) {before next : List α}
    (hbound : h.taken <+: before ++ next) :
    (∃ more, more <+: next ∧ h.delivered = before ++ more) ↔
      before <+: h.taken := by
  have htaken : h.taken = h.delivered := by simp [taken, hbatch]
  rw [htaken] at hbound ⊢
  constructor
  · rintro ⟨more, -, hmore⟩
    exact ⟨more, hmore.symm⟩
  · rintro ⟨more, hmore⟩
    refine ⟨more, ?_, hmore.symm⟩
    rwa [← hmore, List.prefix_append_right_inj] at hbound

end Handoff

end MuduoHttp.Support
