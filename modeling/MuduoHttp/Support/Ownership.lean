import Mathlib.Data.Nat.Notation
import Mathlib.Logic.Function.Basic
import Mathlib.Tactic.SplitIfs

/-!
# Exclusive ownership

Resources are numbered in the order of their creation.  Each is owned by at
most one owner, and an owner has at most one resource.  A resource can be
given to another owner and released by its owner.

A resource is lost when it was not released and has no owner.  Nobody can
release it any more, so once all owners are gone the released resources are
the ones that were not lost.
-/

namespace MuduoHttp.Support

/-- The created resources, what each owner has, and how often each resource
was released. -/
@[ext] structure Ownership (ι : Type*) where
  created : ℕ := 0
  owned : ι → Option ℕ := fun _ => none
  released : ℕ → ℕ := fun _ => 0

namespace Ownership

variable {ι : Type*} [DecidableEq ι]

/-- A new resource for `i`, in the place of what it owned before. -/
def acquire (o : Ownership ι) (i : ι) : Ownership ι :=
  { o with
    created := o.created + 1
    owned := Function.update o.owned i (some o.created) }

/-- What `source` owns goes to `target`, in the place of what that owned
before. -/
def give (o : Ownership ι) (target source : ι) : Ownership ι :=
  { o with
    owned := Function.update
      (Function.update o.owned target (o.owned source)) source none }

/-- The resource of `i` is released, if it has one. -/
def release (o : Ownership ι) (i : ι) : Ownership ι :=
  { o with
    owned := Function.update o.owned i none
    released := fun r => o.released r + if o.owned i = some r then 1 else 0 }

omit [DecidableEq ι] in
/-- No resource has two owners, what is owned was created and not released,
and nothing was released twice or before its creation. -/
structure Sound (o : Ownership ι) : Prop where
  unique : ∀ r i j, o.owned i = some r → o.owned j = some r → i = j
  live : ∀ i r, o.owned i = some r → r < o.created ∧ o.released r = 0
  once : ∀ r, o.released r ≤ 1
  uncreated : ∀ r, o.created ≤ r → o.released r = 0

/-- A resource that was not released has no owner. -/
def Lost (o : Ownership ι) : Prop :=
  ∃ r < o.created, o.released r = 0 ∧ ∀ i, o.owned i ≠ some r

variable {o : Ownership ι}

omit [DecidableEq ι] in
theorem sound_empty : Sound ({} : Ownership ι) where
  unique r i j h := by simp at h
  live i r h := by simp at h
  once _ := Nat.zero_le 1
  uncreated _ _ := rfl

omit [DecidableEq ι] in
theorem not_lost_empty : ¬ Lost ({} : Ownership ι) := by
  rintro ⟨r, hr, -⟩
  exact Nat.not_lt_zero r hr

/-! ## What is owned after an operation -/

theorem owned_acquire (i j : ι) :
    (o.acquire i).owned j = if j = i then some o.created else o.owned j :=
  Function.update_apply ..

theorem owned_give (target source i : ι) :
    (o.give target source).owned i =
      if i = source then none
      else if i = target then o.owned source else o.owned i := by
  simp only [give, Function.update_apply]

theorem owned_release (i j : ι) :
    (o.release i).owned j = if j = i then none else o.owned j :=
  Function.update_apply ..

theorem release_of_none {i : ι} (h : o.owned i = none) : o.release i = o := by
  refine Ownership.ext rfl (funext fun j => ?_) (funext fun r => ?_)
  · rw [owned_release]
    split_ifs with hj
    · rw [hj, h]
    · rfl
  · simp [release, h]

/-- Whoever owns a resource after it was given owned it, or got it from its
owner. -/
theorem owned_of_owned_give {target source i : ι} {r : ℕ}
    (h : (o.give target source).owned i = some r) :
    (i ≠ source ∧ i = target ∧ o.owned source = some r) ∨
      (i ≠ source ∧ i ≠ target ∧ o.owned i = some r) := by
  rw [owned_give] at h
  split_ifs at h with hs ht
  · exact .inl ⟨hs, ht, h⟩
  · exact .inr ⟨hs, ht, h⟩

/-! ## Soundness -/

namespace Sound

theorem acquire (h : o.Sound) (i : ι) : (o.acquire i).Sound where
  unique r j k hj hk := by
    rw [owned_acquire] at hj hk
    split_ifs at hj hk with hji hki hki
    · rw [hji, hki]
    · have hlt := (h.live k r hk).1
      simp only [Option.some.injEq] at hj
      omega
    · have hlt := (h.live j r hj).1
      simp only [Option.some.injEq] at hk
      omega
    · exact h.unique r j k hj hk
  live j r hj := by
    rw [owned_acquire] at hj
    split_ifs at hj with hji
    · obtain rfl := Option.some.inj hj
      exact ⟨Nat.lt_succ_self _, h.uncreated _ (Nat.le_refl _)⟩
    · obtain ⟨hlt, hzero⟩ := h.live j r hj
      exact ⟨Nat.lt_succ_of_lt hlt, hzero⟩
  once := h.once
  uncreated r hr := h.uncreated r (Nat.le_of_succ_le hr)

theorem give (h : o.Sound) (target source : ι) :
    (o.give target source).Sound where
  unique r i j hi hj := by
    rcases owned_of_owned_give hi with ⟨-, hit, hsi⟩ | ⟨his, -, hbi⟩
    · rcases owned_of_owned_give hj with ⟨-, hjt, -⟩ | ⟨hjs, -, hbj⟩
      · rw [hit, hjt]
      · exact absurd (h.unique r j source hbj hsi) hjs
    · rcases owned_of_owned_give hj with ⟨-, -, hsj⟩ | ⟨-, -, hbj⟩
      · exact absurd (h.unique r i source hbi hsj) his
      · exact h.unique r i j hbi hbj
  live i r hi := by
    rcases owned_of_owned_give hi with ⟨-, -, hsource⟩ | ⟨-, -, hi⟩
    · exact h.live source r hsource
    · exact h.live i r hi
  once := h.once
  uncreated := h.uncreated

theorem release (h : o.Sound) (i : ι) : (o.release i).Sound where
  unique r j k hj hk := by
    rw [owned_release] at hj hk
    split_ifs at hj hk
    exact h.unique r j k hj hk
  live j r hj := by
    rw [owned_release] at hj
    split_ifs at hj with hji
    obtain ⟨hlt, hzero⟩ := h.live j r hj
    have hother : o.owned i ≠ some r := fun hi => hji (h.unique r j i hj hi)
    exact ⟨hlt, by simp [Ownership.release, hzero, hother]⟩
  once r := by
    by_cases hr : o.owned i = some r
    · simp [Ownership.release, hr, (h.live i r hr).2]
    · simpa [Ownership.release, hr] using h.once r
  uncreated r hr := by
    have hother : o.owned i ≠ some r := fun hi =>
      absurd hr (Nat.not_le_of_lt (h.live i r hi).1)
    simpa [Ownership.release, hother] using h.uncreated r hr

end Sound

/-! ## Loss -/

/-- Acquiring a resource costs nothing when the owner had none. -/
theorem lost_acquire_iff {i : ι} (hi : o.owned i = none) :
    (o.acquire i).Lost ↔ o.Lost := by
  constructor
  · rintro ⟨r, hlt, hzero, hnone⟩
    have hne : r ≠ o.created := by
      rintro rfl
      apply hnone i
      rw [owned_acquire, if_pos rfl]
    have hlt : r < o.created :=
      Nat.lt_of_le_of_ne (Nat.le_of_lt_succ hlt) hne
    refine ⟨r, hlt, hzero, fun j hj => hnone j ?_⟩
    have hji : j ≠ i := by
      rintro rfl
      simp [hi] at hj
    rw [owned_acquire, if_neg hji, hj]
  · rintro ⟨r, hlt, hzero, hnone⟩
    refine ⟨r, Nat.lt_succ_of_lt hlt, hzero, fun j hj => ?_⟩
    rw [owned_acquire] at hj
    split_ifs at hj
    · exact Nat.ne_of_lt hlt (Option.some.inj hj).symm
    · exact hnone j hj

/-- Giving a resource costs what the new owner had, also when it was its owner
before. -/
theorem Sound.lost_give_iff (h : o.Sound) (target source : ι) :
    (o.give target source).Lost ↔ o.Lost ∨ o.owned target ≠ none := by
  constructor
  · rintro ⟨r, hlt, hzero, hnone⟩
    refine or_iff_not_imp_right.mpr fun ht => ⟨r, hlt, hzero, fun i hi => ?_⟩
    have hit : i ≠ target := by
      rintro rfl
      exact ht (by simp [hi])
    by_cases his : i = source
    · subst his
      apply hnone target
      rw [owned_give, if_neg (Ne.symm hit), if_pos rfl, hi]
    · apply hnone i
      rw [owned_give, if_neg his, if_neg hit, hi]
  · rintro (⟨r, hlt, hzero, hnone⟩ | ht)
    · refine ⟨r, hlt, hzero, fun i hi => ?_⟩
      rcases owned_of_owned_give hi with ⟨-, -, hsource⟩ | ⟨-, -, hi⟩
      · exact hnone source hsource
      · exact hnone i hi
    · obtain ⟨r, hr⟩ := Option.ne_none_iff_exists'.mp ht
      obtain ⟨hlt, hzero⟩ := h.live target r hr
      refine ⟨r, hlt, hzero, fun i hi => ?_⟩
      rcases owned_of_owned_give hi with ⟨his, rfl, hsource⟩ | ⟨-, hit, hi⟩
      · exact his (h.unique r i source hr hsource)
      · exact hit (h.unique r i target hi hr)

/-- A release costs nothing. -/
theorem lost_release_iff (i : ι) : (o.release i).Lost ↔ o.Lost := by
  constructor
  · rintro ⟨r, hlt, hzero, hnone⟩
    simp only [Ownership.release, Nat.add_eq_zero_iff] at hzero
    have hother : o.owned i ≠ some r := by
      intro hi
      simp [hi] at hzero
    refine ⟨r, hlt, hzero.1, fun j hj => hnone j ?_⟩
    have hji : j ≠ i := by
      rintro rfl
      exact hother hj
    rw [owned_release, if_neg hji, hj]
  · rintro ⟨r, hlt, hzero, hnone⟩
    refine ⟨r, hlt, by simpa [Ownership.release, hnone i] using hzero,
      fun j hj => ?_⟩
    rw [owned_release] at hj
    split_ifs at hj
    exact hnone j hj

omit [DecidableEq ι] in
/-- When no owner has anything left, all resources were released once exactly
if none was lost. -/
theorem Sound.released_once_iff (h : o.Sound) (hnone : ∀ i, o.owned i = none) :
    (∀ r < o.created, o.released r = 1) ↔ ¬ o.Lost := by
  constructor
  · rintro hone ⟨r, hlt, hzero, -⟩
    have := hone r hlt
    omega
  · intro hlost r hlt
    have hzero : o.released r ≠ 0 := fun hzero =>
      hlost ⟨r, hlt, hzero, fun i => by simp [hnone i]⟩
    have hle := h.once r
    omega

end Ownership

end MuduoHttp.Support
