import Mathlib.Data.Nat.Notation

/-!
# Programs that throw

A program with a state that throws an exception keeps what it has written to
the state before.  `Keeps I m` says that `m` keeps the invariant `I`, whether
it returns or throws.
-/

namespace MuduoHttp.Support

variable {ε σ α β : Type}

/-- The results of a program run several times. -/
def collect (m : EStateM ε σ α) : ℕ → EStateM ε σ (List α)
  | 0 => pure []
  | n + 1 => do
      let a ← m
      let as ← collect m n
      return a :: as

/-- A program run for each element of a list. -/
def forEach (f : α → EStateM ε σ Unit) : List α → EStateM ε σ Unit
  | [] => pure ()
  | a :: as => do
      f a
      forEach f as

/-- The state that a run leaves. -/
def stateAfter : EStateM.Result ε σ α → σ
  | .ok _ s => s
  | .error _ s => s

def Keeps (I : σ → Prop) (m : EStateM ε σ α) : Prop :=
  ∀ s, I s → I (stateAfter (m s))

theorem bind_of_ok {m : EStateM ε σ α} {f : α → EStateM ε σ β} {s s' : σ}
    {a : α} (h : m s = .ok a s') : (m >>= f) s = f a s' := by
  change EStateM.bind m f s = _
  rw [EStateM.bind, h]

theorem bind_of_error {m : EStateM ε σ α} {f : α → EStateM ε σ β} {s s' : σ}
    {e : ε} (h : m s = .error e s') : (m >>= f) s = .error e s' := by
  change EStateM.bind m f s = _
  rw [EStateM.bind, h]

namespace Keeps

variable {I : σ → Prop}

theorem pure (a : α) : Keeps I (Pure.pure a : EStateM ε σ α) := fun _ hs => hs

theorem throw (e : ε) : Keeps I (MonadExcept.throw e : EStateM ε σ α) :=
  fun _ hs => hs

theorem modify {g : σ → σ} (h : ∀ s, I s → I (g s)) :
    Keeps I (modify g : EStateM ε σ PUnit) := h

theorem bind {m : EStateM ε σ α} {f : α → EStateM ε σ β} (hm : Keeps I m)
    (hf : ∀ a, Keeps I (f a)) : Keeps I (m >>= f) := by
  intro s hs
  have hafter := hm s hs
  cases hrun : m s with
  | ok a s' =>
      rw [bind_of_ok hrun]
      rw [hrun] at hafter
      exact hf a s' hafter
  | error e s' =>
      rw [bind_of_error hrun]
      rwa [hrun] at hafter

theorem collect {m : EStateM ε σ α} (hm : Keeps I m) (n : ℕ) :
    Keeps I (collect m n) := by
  induction n with
  | zero => exact pure []
  | succ n ih => exact hm.bind fun a => ih.bind fun as => pure (a :: as)

theorem forEach {f : α → EStateM ε σ Unit} (hf : ∀ a, Keeps I (f a))
    (as : List α) : Keeps I (forEach f as) := by
  induction as with
  | nil => exact pure ()
  | cons a as ih => exact (hf a).bind fun _ => ih

end Keeps

end MuduoHttp.Support
