import Mathlib.Data.List.Basic
import Mathlib.Data.List.Nodup
import Mathlib.Logic.Function.Basic

/-!
# Lists in order of recency

Every key of a list carries a stamp, and a key that is used again gets a new
stamp and moves to the end.  As long as no stamp in the list exceeds the new
one, the list stays in the order of the stamps.  A scan from the front that
stops at the first key whose stamp is not old enough then finds every key whose
stamp is.
-/

namespace MuduoHttp.Support

variable {κ τ : Type*} {r : τ → τ → Prop} {stamp : κ → τ} {l : List κ}
  {x : κ} {t : τ}

/-- The list is in the order of the stamps. -/
def InOrder (r : τ → τ → Prop) (stamp : κ → τ) (l : List κ) : Prop :=
  l.Pairwise fun a b => r (stamp a) (stamp b)

/-- Where the test fails no key behind passes it. -/
theorem mem_takeWhile_iff {p : κ → Bool}
    (h : l.Pairwise fun a b => p b = true → p a = true) :
    x ∈ l.takeWhile p ↔ x ∈ l ∧ p x = true := by
  induction l with
  | nil => simp
  | cons a rest ih =>
      obtain ⟨hfirst, hrest⟩ := List.pairwise_cons.mp h
      by_cases ha : p a = true
      · rw [List.takeWhile_cons_of_pos ha, List.mem_cons, List.mem_cons,
          ih hrest]
        constructor
        · rintro (rfl | ⟨hmem, hpass⟩)
          · exact ⟨.inl rfl, ha⟩
          · exact ⟨.inr hmem, hpass⟩
        · rintro ⟨rfl | hmem, hpass⟩
          · exact .inl rfl
          · exact .inr ⟨hmem, hpass⟩
      · rw [List.takeWhile_cons_of_neg ha]
        constructor
        · intro hmem
          exact absurd hmem List.not_mem_nil
        · rintro ⟨hmem, hpass⟩
          rcases List.mem_cons.mp hmem with rfl | htail
          · exact absurd hpass ha
          · exact absurd (hfirst x htail hpass) ha

/-- A scan that stops at the first key that is not old finds the old ones. -/
theorem InOrder.mem_scan (h : InOrder r stamp l) {old : τ → Bool}
    (hold : ∀ s t, r s t → old t = true → old s = true) :
    x ∈ l.takeWhile (fun a => old (stamp a)) ↔
      x ∈ l ∧ old (stamp x) = true :=
  mem_takeWhile_iff (h.imp fun hab => hold _ _ hab)

variable [DecidableEq κ]

/-- A new key at the end, with a stamp that no other exceeds. -/
theorem InOrder.push (h : InOrder r stamp l) (hx : x ∉ l)
    (hlast : ∀ a ∈ l, r (stamp a) t) :
    InOrder r (Function.update stamp x t) (l ++ [x]) := by
  have hother : ∀ a ∈ l, Function.update stamp x t a = stamp a := by
    intro a ha
    have hne : a ≠ x := by
      rintro rfl
      exact hx ha
    rw [Function.update_of_ne hne]
  rw [InOrder, List.pairwise_append]
  refine ⟨?_, List.pairwise_singleton _ _, ?_⟩
  · apply List.Pairwise.imp_of_mem ?_ h
    intro a b ha hb hab
    rw [hother a ha, hother b hb]
    exact hab
  · intro a ha b hb
    rw [List.mem_singleton.mp hb, hother a ha, Function.update_self]
    exact hlast a ha

theorem InOrder.erase (h : InOrder r stamp l) (x : κ) :
    InOrder r stamp (l.erase x) :=
  h.sublist List.erase_sublist

/-- A key that is used again. -/
theorem InOrder.touch (h : InOrder r stamp l) (hnodup : l.Nodup)
    (hlast : ∀ a ∈ l, a ≠ x → r (stamp a) t) :
    InOrder r (Function.update stamp x t) (l.erase x ++ [x]) := by
  apply (h.erase x).push
  · exact hnodup.not_mem_erase
  · intro a ha
    obtain ⟨hne, hmem⟩ := hnodup.mem_erase_iff.mp ha
    exact hlast a hmem hne

end MuduoHttp.Support
