import Mathlib.Data.List.Basic
import Mathlib.Data.List.Perm.Basic

/-!
# Condition variables

A thread that waits on a condition variable is asleep until it is woken, and
goes on when it has got the mutex back.  Which thread is woken, which woken
thread goes on, and whether a thread wakes by itself is up to the scheduler.

Let every wait be for one of some resources.  Sleepers are *alert* when there
are none or as many threads are woken as there are resources.  A thread that
sleeps only without resources, and one notification for each new resource,
keep them so; then no resource is ever left while all who wait for it sleep.
-/

namespace MuduoHttp.Support

/-- Take the element out that the scheduler picks, if there is any. -/
def pick {α : Type*} (xs : List α) (choice : ℕ) : Option (α × List α) :=
  match xs[choice % xs.length]? with
  | none => none
  | some x => some (x, xs.eraseIdx (choice % xs.length))

theorem pick_nil {α : Type*} (choice : ℕ) :
    pick ([] : List α) choice = none := rfl

theorem exists_pick {α : Type*} {xs : List α} (h : xs ≠ []) (choice : ℕ) :
    ∃ x rest, pick xs choice = some (x, rest) := by
  have hlt : choice % xs.length < xs.length :=
    Nat.mod_lt _ (List.length_pos_iff.mpr h)
  exact ⟨xs[choice % xs.length], xs.eraseIdx (choice % xs.length), by
    rw [pick, List.getElem?_eq_getElem hlt]⟩

theorem pick_perm {α : Type*} {xs rest : List α} {x : α} {choice : ℕ}
    (h : pick xs choice = some (x, rest)) : xs.Perm (x :: rest) := by
  unfold pick at h
  split at h
  · cases h
  next y hy =>
    cases h
    obtain ⟨hlt, rfl⟩ := List.getElem?_eq_some_iff.mp hy
    exact (List.getElem_cons_eraseIdx_perm hlt).symm

theorem length_of_pick {α : Type*} {xs rest : List α} {x : α} {choice : ℕ}
    (h : pick xs choice = some (x, rest)) : xs.length = rest.length + 1 :=
  (pick_perm h).length_eq

theorem eq_nil_of_pick {α : Type*} {xs : List α} {choice : ℕ}
    (h : pick xs choice = none) : xs = [] := by
  by_contra hxs
  obtain ⟨x, rest, hsome⟩ := exists_pick hxs choice
  cases h.symm.trans hsome

/-- A condition variable, by what the threads wait with that are asleep on it
and that were woken and have not got the mutex back. -/
structure Condition (W : Type*) where
  asleep : List W := []
  woken : List W := []

namespace Condition

variable {W : Type*}

def wait (c : Condition W) (w : W) : Condition W :=
  { c with asleep := c.asleep ++ [w] }

/-- Wake one thread, if any is asleep.  A thread that wakes by itself does the
same. -/
def notify (c : Condition W) (choice : ℕ) : Condition W :=
  match pick c.asleep choice with
  | none => c
  | some (w, asleep) => { asleep := asleep, woken := c.woken ++ [w] }

def notifyAll (c : Condition W) : Condition W :=
  { asleep := [], woken := c.woken ++ c.asleep }

/-- A woken thread gets the mutex back. -/
def resume (c : Condition W) (choice : ℕ) : Option (W × Condition W) :=
  (pick c.woken choice).map fun (w, woken) => (w, { c with woken := woken })

def waiting (c : Condition W) : List W := c.asleep ++ c.woken

variable {c c' : Condition W} {w : W} {n choice : ℕ}

theorem resume_eq_some (h : c.resume choice = some (w, c')) :
    c'.asleep = c.asleep ∧ c.woken.Perm (w :: c'.woken) := by
  obtain ⟨⟨x, rest⟩, hpick, hx⟩ := Option.map_eq_some_iff.mp h
  cases hx
  exact ⟨rfl, pick_perm hpick⟩

theorem exists_resume (h : c.woken ≠ []) (choice : ℕ) :
    ∃ w c', c.resume choice = some (w, c') := by
  obtain ⟨w, woken, hpick⟩ := exists_pick h choice
  exact ⟨w, { c with woken := woken }, by rw [resume, hpick]; rfl⟩

theorem asleep_notify (h : c.asleep = []) (choice : ℕ) :
    (c.notify choice).asleep = [] := by
  simp [notify, h, pick_nil]

theorem resume_eq_none (h : c.resume choice = none) : c.woken = [] := by
  by_contra hwoken
  obtain ⟨w, c', hsome⟩ := exists_resume hwoken choice
  cases h.symm.trans hsome

theorem length_woken_notify_le (c : Condition W) (choice : ℕ) :
    c.woken.length ≤ (c.notify choice).woken.length := by
  unfold notify
  split
  · exact Nat.le_refl _
  · simp

/-! ## Who waits -/

theorem waiting_wait (c : Condition W) (w : W) :
    (c.wait w).waiting.Perm (w :: c.waiting) := by
  rw [waiting, wait, List.append_assoc]
  exact List.perm_middle

theorem waiting_notify (c : Condition W) (choice : ℕ) :
    (c.notify choice).waiting.Perm c.waiting := by
  unfold notify
  split
  · exact .refl _
  next w asleep hpick =>
    calc
      asleep ++ (c.woken ++ [w]) = asleep ++ c.woken ++ [w] :=
        (List.append_assoc ..).symm
      List.Perm _ (w :: (asleep ++ c.woken)) := List.perm_append_singleton ..
      _ = (w :: asleep) ++ c.woken := rfl
      List.Perm _ (c.asleep ++ c.woken) :=
        (pick_perm hpick).symm.append_right _

theorem waiting_notifyAll (c : Condition W) :
    c.notifyAll.waiting.Perm c.waiting := by
  rw [waiting, notifyAll, List.nil_append]
  exact List.perm_append_comm

theorem waiting_resume (h : c.resume choice = some (w, c')) :
    c.waiting.Perm (w :: c'.waiting) := by
  obtain ⟨hasleep, hwoken⟩ := resume_eq_some h
  calc
    List.Perm (c.asleep ++ c.woken) (c.asleep ++ w :: c'.woken) :=
      hwoken.append_left _
    List.Perm _ (w :: (c.asleep ++ c'.woken)) := List.perm_middle
    _ = w :: c'.waiting := by rw [waiting, hasleep]

/-! ## Alert sleepers -/

/-- Nobody is asleep, or as many threads are woken as there are resources. -/
def Alert (c : Condition W) (resources : ℕ) : Prop :=
  c.asleep = [] ∨ resources ≤ c.woken.length

theorem Alert.mono {m : ℕ} (h : c.Alert n) (hm : m ≤ n) : c.Alert m :=
  h.imp_right fun hn => Nat.le_trans hm hn

theorem alert_zero (c : Condition W) : c.Alert 0 := .inr (Nat.zero_le _)

theorem alert_notifyAll (c : Condition W) (n : ℕ) : c.notifyAll.Alert n :=
  .inl rfl

/-- One notification makes up for one more resource. -/
theorem Alert.notify (h : c.Alert n) (choice : ℕ) :
    (c.notify choice).Alert (n + 1) := by
  by_cases hnone : c.asleep = []
  · left
    simp [Condition.notify, hnone, pick_nil]
  · obtain ⟨w, asleep, hpick⟩ := exists_pick hnone choice
    right
    have hwoken := h.resolve_left hnone
    simp only [Condition.notify, hpick, List.length_append,
      List.length_singleton]
    omega

/-- A thread that goes on may use one resource. -/
theorem Alert.resume (h : c.Alert n) (hresume : c.resume choice = some (w, c')) :
    c'.Alert (n - 1) := by
  obtain ⟨hasleep, hwoken⟩ := resume_eq_some hresume
  have hlength := hwoken.length_eq
  rw [List.length_cons] at hlength
  refine h.imp (fun hnone => hasleep.trans hnone) ?_
  intro hn
  omega

/-- Alert sleepers without a woken one wait for nothing that is there. -/
theorem Alert.eq_zero (h : c.Alert n) (hasleep : c.asleep ≠ [])
    (hwoken : c.woken = []) : n = 0 := by
  have hn := h.resolve_left hasleep
  rw [hwoken] at hn
  exact Nat.le_zero.mp hn

end Condition

end MuduoHttp.Support
