import Mathlib.Data.Nat.Notation
import Mathlib.Logic.Function.Basic

/-!
# Custody of single-use resources

Resources are numbered in the order of their creation, and at most one is held
at a time.  A resource should be settled, handed on or released, exactly once
when its use is over.  A ledger records which uses are over and how often each
resource was settled.

Every change of the ledger is one of a few operations.  The ledger stays
balanced through an operation exactly when it does not lose what is held.
-/

namespace MuduoHttp.Support

/-- The created resources, the held one, the ended uses and the number of
times each resource was settled. -/
@[ext] structure Custody where
  created : ℕ := 0
  held : Option ℕ := none
  ended : ℕ → Prop := fun _ => False
  settled : ℕ → ℕ := fun _ => 0

namespace Custody

/-- What can happen to the held resource and to a new one. -/
inductive Op
  | idle
  /-- A new resource is settled at once. -/
  | refuse
  /-- A new resource is held, in the place of the one held before. -/
  | take
  /-- The use of the held resource is over, and it is settled. -/
  | settle
  /-- The use of the held resource is over, and it is no longer held. -/
  | drop
  /-- The use of the held resource is over, and it is still held. -/
  | neglect
  deriving DecidableEq, Repr

/-- The ledger with the use of a resource over. -/
def finish (c : Custody) (r : Option ℕ) : Custody :=
  { c with ended := fun x => c.ended x ∨ r = some x }

/-- The ledger with a resource settled once more. -/
def settleOnce (c : Custody) (r : Option ℕ) : Custody :=
  { c with settled := fun x => c.settled x + if r = some x then 1 else 0 }

def apply (c : Custody) : Op → Custody
  | .idle => c
  | .refuse =>
      { (c.finish (some c.created)).settleOnce (some c.created) with
        created := c.created + 1 }
  | .take =>
      { c.finish c.held with created := c.created + 1, held := some c.created }
  | .settle => { (c.finish c.held).settleOnce c.held with held := none }
  | .drop => { c.finish c.held with held := none }
  | .neglect => c.finish c.held

/-- Nothing is settled or over before it is created, and what is held was not
settled. -/
structure Sound (c : Custody) : Prop where
  uncreated : ∀ r, c.created ≤ r → ¬ c.ended r ∧ c.settled r = 0
  held : ∀ r, c.held = some r → r < c.created ∧ c.settled r = 0

/-- No resource was settled twice, and each whose use is over was settled. -/
def Balanced (c : Custody) : Prop :=
  ∀ r, c.settled r ≤ 1 ∧ (c.ended r → c.settled r = 1)

/-- The operation ends the use of the held resource without settling it. -/
def Loses (c : Custody) (op : Op) : Prop :=
  c.held ≠ none ∧ (op = .take ∨ op = .drop ∨ op = .neglect)

variable {c : Custody}

theorem sound_empty : Sound {} where
  uncreated _ _ := ⟨id, rfl⟩
  held r h := by simp at h

theorem balanced_empty : Balanced {} :=
  fun _ => ⟨Nat.zero_le 1, False.elim⟩

theorem Sound.finish (h : c.Sound) {r : Option ℕ}
    (hr : ∀ x, r = some x → x < c.created) : (c.finish r).Sound where
  uncreated x hx := by
    obtain ⟨hover, hsettled⟩ := h.uncreated x hx
    refine ⟨?_, hsettled⟩
    rintro (hbefore | hnow)
    · exact hover hbefore
    · exact absurd hx (Nat.not_le_of_lt (hr x hnow))
  held x hx := h.held x hx

theorem Sound.apply (h : c.Sound) (op : Op) : (c.apply op).Sound := by
  have hheld := h.finish fun x hx => (h.held x hx).1
  cases op with
  | idle => exact h
  | refuse =>
      constructor
      · intro r hr
        simp only [Custody.apply] at hr
        obtain ⟨hover, hsettled⟩ := h.uncreated r (by omega)
        have hne : ¬ c.created = r := by omega
        simp [Custody.apply, Custody.finish, settleOnce, hover, hsettled, hne]
      · intro r hr
        obtain ⟨hlt, hsettled⟩ := h.held r hr
        have hne : ¬ c.created = r := by omega
        simp [Custody.apply, Custody.finish, settleOnce, hsettled, hne]
        omega
  | take =>
      constructor
      · intro r hr
        exact hheld.uncreated r (Nat.le_of_succ_le hr)
      · intro r hr
        obtain rfl : c.created = r := Option.some.inj hr
        exact ⟨Nat.lt_succ_self _, (h.uncreated _ (Nat.le_refl _)).2⟩
  | settle =>
      constructor
      · intro r hr
        obtain ⟨hover, hsettled⟩ := hheld.uncreated r hr
        refine ⟨hover, ?_⟩
        have hne : c.held ≠ some r := by
          intro hx
          have hlt := (h.held r hx).1
          exact absurd hr (Nat.not_le_of_lt hlt)
        simpa [Custody.apply, settleOnce, hne] using hsettled
      · intro r hr
        simp [Custody.apply] at hr
  | drop =>
      constructor
      · exact hheld.uncreated
      · intro r hr
        simp [Custody.apply] at hr
  | neglect => exact hheld

/-- Settling a resource that was not settled before keeps the balance. -/
theorem Balanced.settle (hb : c.Balanced) {r : Option ℕ}
    (hr : ∀ x, r = some x → c.settled x = 0) (created : ℕ)
    (held : Option ℕ) :
    Balanced { (c.finish r).settleOnce r with
      created := created
      held := held } := by
  intro x
  obtain ⟨hle, hone⟩ := hb x
  by_cases hx : r = some x
  · simp [Custody.finish, settleOnce, hx, hr x hx]
  · simpa [Custody.finish, settleOnce, hx] using ⟨hle, hone⟩

/-- Ending the use of a resource without settling it is harmless only when
there is none. -/
theorem balanced_finish_iff (h : c.Sound) (hb : c.Balanced) (created : ℕ)
    (held : Option ℕ) :
    Balanced { c.finish c.held with created := created, held := held } ↔
      c.held = none := by
  constructor
  · intro hafter
    by_contra hsome
    obtain ⟨r, hr⟩ := Option.ne_none_iff_exists'.mp hsome
    have hone := (hafter r).2 (.inr hr)
    have hzero : c.settled r = 0 := (h.held r hr).2
    simp only [Custody.finish] at hone
    omega
  · intro hnone r
    simpa [Custody.finish, hnone] using hb r

/-- The ledger stays balanced exactly when the held resource is not lost. -/
theorem balanced_apply_iff (h : c.Sound) (hb : c.Balanced) (op : Op) :
    (c.apply op).Balanced ↔ ¬ c.Loses op := by
  cases op with
  | idle => simpa [Custody.apply, Loses] using hb
  | refuse =>
      have hafter := hb.settle (r := some c.created) (fun x hx => by
        obtain rfl := Option.some.inj hx
        exact (h.uncreated _ (Nat.le_refl _)).2) (c.created + 1) c.held
      exact iff_of_true hafter (by simp [Loses])
  | take => simpa [Custody.apply, Loses] using balanced_finish_iff h hb _ _
  | settle =>
      have hafter := hb.settle (fun x hx => (h.held x hx).2) c.created none
      exact iff_of_true hafter (by simp [Loses])
  | drop => simpa [Custody.apply, Loses] using balanced_finish_iff h hb _ _
  | neglect =>
      have hiff : (c.apply .neglect).Balanced ↔ c.held = none :=
        balanced_finish_iff h hb c.created c.held
      simpa [Loses] using hiff

end Custody

end MuduoHttp.Support
