import Mathlib.Order.Compare
import Mathlib.Order.Lattice
import Std.Data.ExtTreeSet.Lemmas
import MuduoHttp.Support.Recency

/-!
# Ordered sets

Sets over a linear order that are traversed in ascending order.  The elements
in front of the first one that fails a test can be taken out; when the test
holds below every element that passes it, these are all that pass.
-/

namespace MuduoHttp.Support

/-- Sets that are traversed in ascending order. -/
abbrev OrderedSet (α : Type*) [LinearOrder α] := Std.ExtTreeSet α compare

namespace OrderedSet

variable {α : Type*} [LinearOrder α]

/-- The least element. -/
def first? (s : OrderedSet α) : Option α := s.toList.head?

/-- The elements in front of the first one that fails the test. -/
def front (s : OrderedSet α) (p : α → Bool) : List α := s.toList.takeWhile p

/-- The first element that fails the test. -/
def bound? (s : OrderedSet α) (p : α → Bool) : Option α :=
  (s.toList.dropWhile p).head?

def eraseAll (s : OrderedSet α) (l : List α) : OrderedSet α :=
  l.foldl (fun s a => s.erase a) s

instance : Std.LawfulEqCmp (compare : α → α → Ordering) where
  eq_of_compare h := compare_eq_iff_eq.mp h

variable {s : OrderedSet α} {a b : α} {p : α → Bool}

theorem mem_insert_iff : a ∈ s.insert b ↔ a = b ∨ a ∈ s := by
  rw [Std.ExtTreeSet.mem_insert, compare_eq_iff_eq, eq_comm]

theorem mem_erase_iff : a ∈ s.erase b ↔ a ≠ b ∧ a ∈ s := by
  rw [Std.ExtTreeSet.mem_erase, Ne, compare_eq_iff_eq, eq_comm, Ne]

theorem contains_eq_false (h : a ∉ s) : s.contains a = false := by
  rwa [Std.ExtTreeSet.mem_iff_contains, Bool.not_eq_true] at h

theorem first?_eq_some_iff : s.first? = some a ↔ a ∈ s ∧ ∀ b ∈ s, a ≤ b := by
  rw [first?, ← Std.ExtTreeSet.min?_eq_head?_toList,
    Std.ExtTreeSet.min?_eq_some_iff_mem_and_forall]
  simp only [Ordering.isLE_iff_ne_gt, compare_le_iff_le]

theorem first?_eq_none_iff : s.first? = none ↔ ∀ a, a ∉ s := by
  rw [first?, ← Std.ExtTreeSet.min?_eq_head?_toList,
    Std.ExtTreeSet.min?_eq_none_iff]
  constructor
  · rintro rfl a
    exact Std.ExtTreeSet.not_mem_empty
  · intro h
    apply Std.ExtTreeSet.ext_mem
    intro a
    exact iff_of_false (h a) Std.ExtTreeSet.not_mem_empty

theorem pairwise_toList (s : OrderedSet α) : s.toList.Pairwise (· < ·) :=
  s.ordered_toList.imp fun h => compare_lt_iff_lt.mp h

theorem pairwise_front (s : OrderedSet α) (p : α → Bool) :
    (s.front p).Pairwise (· < ·) :=
  (pairwise_toList s).sublist (List.takeWhile_sublist p)

/-- The elements that pass are in front when the test holds below each. -/
theorem mem_front (hp : ∀ a b, a ≤ b → p b → p a) :
    a ∈ s.front p ↔ a ∈ s ∧ p a := by
  have hlower : s.toList.Pairwise fun a b => p b = true → p a = true :=
    (pairwise_toList s).imp fun hab => hp _ _ hab.le
  rw [front, mem_takeWhile_iff hlower, Std.ExtTreeSet.mem_toList]

theorem not_of_bound? (h : s.bound? p = some a) : ¬ p a := by
  have hnot := List.head?_dropWhile_not p s.toList
  unfold bound? at h
  rw [h] at hnot
  simpa using hnot

theorem mem_eraseAll {l : List α} : a ∈ s.eraseAll l ↔ a ∉ l ∧ a ∈ s := by
  unfold eraseAll
  induction l generalizing s with
  | nil => simp
  | cons b rest ih =>
      rw [List.foldl_cons, ih, mem_erase_iff, List.mem_cons, not_or,
        and_left_comm, and_assoc]

end OrderedSet

end MuduoHttp.Support
