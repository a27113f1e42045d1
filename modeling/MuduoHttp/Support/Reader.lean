import Mathlib.Data.List.Basic
import Mathlib.Data.List.Flatten

/-!
# Resumable readers

A resumable reader looks at the unread part of a byte stream and either waits
for more input, consumes a non-empty part of it, or halts.  Its decisions are
stable: input that arrives later changes neither a move nor a halt.

Draining such a reader after every arrival is then the same as draining it
once on everything that arrived, whatever the sizes of the arrivals.  The
development is parameterized by the state, the result and the input symbols.
-/

namespace MuduoHttp.Support

variable {σ τ ρ α : Type*}

/-- What a reader does with the unread input in front of it. -/
inductive Look (σ ρ α : Type*)
  | wait
  | move (next : σ) (rest : List α)
  | halt (result : ρ) (rest : List α)

/-- The same decision with more input behind the part it consumed. -/
def Look.append : Look σ ρ α → List α → Look σ ρ α
  | .wait, _ => .wait
  | .move next rest, ys => .move next (rest ++ ys)
  | .halt result rest, ys => .halt result (rest ++ ys)

/-- A reader whose decisions no later input can revise. -/
structure Reader (σ ρ α : Type*) where
  look : σ → List α → Look σ ρ α
  move_shorter :
    ∀ {s xs s' rest}, look s xs = .move s' rest → rest.length < xs.length
  look_append :
    ∀ {s xs} (ys), look s xs ≠ .wait →
      look s (xs ++ ys) = (look s xs).append ys

/-- Where a reader stands when nothing more can be done without new input. -/
inductive Drained (σ ρ α : Type*)
  | idle (state : σ) (rest : List α)
  | halted (result : ρ) (rest : List α)

/-- Two looks that decide alike and move to related states. -/
inductive Look.Related (rel : σ → τ → Prop) :
    Look σ ρ α → Look τ ρ α → Prop
  | wait : Look.Related rel .wait .wait
  | move {s t} (rest : List α) :
      rel s t → Look.Related rel (.move s rest) (.move t rest)
  | halt (r : ρ) (rest : List α) :
      Look.Related rel (.halt r rest) (.halt r rest)

/-- Two drains that end alike and in related states. -/
inductive Drained.Related (rel : σ → τ → Prop) :
    Drained σ ρ α → Drained τ ρ α → Prop
  | idle {s t} (rest : List α) :
      rel s t → Drained.Related rel (.idle s rest) (.idle t rest)
  | halted (r : ρ) (rest : List α) :
      Drained.Related rel (.halted r rest) (.halted r rest)

namespace Reader

variable (R : Reader σ ρ α)

/-- Look again and again until the reader waits or halts. -/
def drain (s : σ) (xs : List α) : Drained σ ρ α :=
  match _h : R.look s xs with
  | .wait => .idle s xs
  | .move s' rest => drain s' rest
  | .halt r rest => .halted r rest
termination_by xs.length
decreasing_by exact R.move_shorter _h

variable {R}

theorem move_append {s s' : σ} {xs rest : List α}
    (h : R.look s xs = .move s' rest) (ys : List α) :
    R.look s (xs ++ ys) = .move s' (rest ++ ys) := by
  rw [R.look_append ys (by simp [h]), h, Look.append]

theorem halt_append {s : σ} {xs rest : List α} {r : ρ}
    (h : R.look s xs = .halt r rest) (ys : List α) :
    R.look s (xs ++ ys) = .halt r (rest ++ ys) := by
  rw [R.look_append ys (by simp [h]), h, Look.append]

theorem drain_of_wait {s : σ} {xs : List α} (h : R.look s xs = .wait) :
    R.drain s xs = .idle s xs := by
  rw [drain]
  split <;> simp_all

theorem drain_of_move {s s' : σ} {xs rest : List α}
    (h : R.look s xs = .move s' rest) :
    R.drain s xs = R.drain s' rest := by
  rw [drain]
  split <;> simp_all

theorem drain_of_halt {s : σ} {xs rest : List α} {r : ρ}
    (h : R.look s xs = .halt r rest) :
    R.drain s xs = .halted r rest := by
  rw [drain]
  split <;> simp_all

/-- Induction along the looks of one drain. -/
theorem drain_induction {motive : σ → List α → Prop}
    (wait : ∀ s xs, R.look s xs = .wait → motive s xs)
    (move : ∀ s xs s' rest, R.look s xs = .move s' rest →
      motive s' rest → motive s xs)
    (halt : ∀ s xs r rest, R.look s xs = .halt r rest → motive s xs)
    (s : σ) (xs : List α) : motive s xs := by
  induction hn : xs.length using Nat.strongRecOn generalizing s xs with
  | _ n ih =>
      cases hlook : R.look s xs with
      | wait => exact wait s xs hlook
      | halt r rest => exact halt s xs r rest hlook
      | move s' rest =>
          have hshort := R.move_shorter hlook
          exact move s xs s' rest hlook
            (ih rest.length (hn ▸ hshort) s' rest rfl)

/-! ## How often a reader looks -/

variable (R) in
/-- The number of looks of one drain. -/
def looks (s : σ) (xs : List α) : ℕ :=
  match _h : R.look s xs with
  | .wait => 1
  | .move s' rest => looks s' rest + 1
  | .halt _ _ => 1
termination_by xs.length
decreasing_by exact R.move_shorter _h

theorem looks_of_wait {s : σ} {xs : List α} (h : R.look s xs = .wait) :
    R.looks s xs = 1 := by
  rw [looks]
  split <;> simp_all

theorem looks_of_move {s s' : σ} {xs rest : List α}
    (h : R.look s xs = .move s' rest) :
    R.looks s xs = R.looks s' rest + 1 := by
  rw [looks]
  split <;> simp_all

theorem looks_of_halt {s : σ} {xs rest : List α} {r : ρ}
    (h : R.look s xs = .halt r rest) : R.looks s xs = 1 := by
  rw [looks]
  split <;> simp_all

/-- A positive measure that every move decreases bounds the looks. -/
theorem looks_le {m : σ → List α → ℕ} (hpos : ∀ s xs, 0 < m s xs)
    (hmove : ∀ s xs s' rest, R.look s xs = .move s' rest →
      m s' rest < m s xs)
    (s : σ) (xs : List α) : R.looks s xs ≤ m s xs := by
  induction s, xs using drain_induction (R := R) with
  | wait s xs hlook =>
      rw [looks_of_wait hlook]
      exact hpos s xs
  | move s xs s' rest hlook ih =>
      rw [looks_of_move hlook]
      exact Nat.lt_of_le_of_lt ih (hmove s xs s' rest hlook)
  | halt s xs r rest hlook =>
      rw [looks_of_halt hlook]
      exact hpos s xs

theorem looks_le_length (s : σ) (xs : List α) :
    R.looks s xs ≤ xs.length + 1 :=
  looks_le (m := fun _ xs => xs.length + 1) (fun _ _ => Nat.succ_pos _)
    (fun _ _ _ _ hlook => Nat.succ_lt_succ (R.move_shorter hlook)) s xs

/-! ## New input -/

variable (R) in
/-- Continue a drained reader on newly arrived input. -/
def resume : Drained σ ρ α → List α → Drained σ ρ α
  | .idle s rest, ys => R.drain s (rest ++ ys)
  | .halted r rest, ys => .halted r (rest ++ ys)

/-- Draining what arrived first and resuming on what arrived later is the
same as draining everything. -/
theorem resume_drain (s : σ) (xs ys : List α) :
    R.resume (R.drain s xs) ys = R.drain s (xs ++ ys) := by
  induction s, xs using drain_induction (R := R) with
  | wait s xs hlook => rw [drain_of_wait hlook, resume]
  | move s xs t more hlook ih =>
      rw [drain_of_move hlook, ih, drain_of_move (move_append hlook ys)]
  | halt s xs r more hlook =>
      rw [drain_of_halt hlook, drain_of_halt (halt_append hlook ys), resume]

theorem drain_append_of_idle {s s' : σ} {xs rest : List α}
    (h : R.drain s xs = .idle s' rest) (ys : List α) :
    R.drain s (xs ++ ys) = R.drain s' (rest ++ ys) := by
  rw [← resume_drain, h, resume]

theorem drain_append_of_halted {s : σ} {xs rest : List α} {r : ρ}
    (h : R.drain s xs = .halted r rest) (ys : List α) :
    R.drain s (xs ++ ys) = .halted r (rest ++ ys) := by
  rw [← resume_drain, h, resume]

/-! ## Related states -/

/-- A relation that the looks respect is respected by the drains. -/
theorem drain_related {S : Reader τ ρ α} {rel : σ → τ → Prop}
    (hlook : ∀ s t xs, rel s t →
      Look.Related rel (R.look s xs) (S.look t xs))
    {s : σ} {t : τ} (hst : rel s t) (xs : List α) :
    Drained.Related rel (R.drain s xs) (S.drain t xs) := by
  induction s, xs using drain_induction (R := R) generalizing t with
  | wait s xs hs =>
      have hrel := hlook s t xs hst
      rw [hs] at hrel
      cases ht : S.look t xs with
      | wait =>
          rw [drain_of_wait hs, drain_of_wait ht]
          exact .idle xs hst
      | move t' rest => rw [ht] at hrel; cases hrel
      | halt r rest => rw [ht] at hrel; cases hrel
  | move s xs s' rest hs ih =>
      have hrel := hlook s t xs hst
      rw [hs] at hrel
      cases ht : S.look t xs with
      | wait => rw [ht] at hrel; cases hrel
      | halt r rest => rw [ht] at hrel; cases hrel
      | move t' rest' =>
          rw [ht] at hrel
          cases hrel with
          | move rest hnext =>
              rw [drain_of_move hs, drain_of_move ht]
              exact ih hnext
  | halt s xs r rest hs =>
      have hrel := hlook s t xs hst
      rw [hs] at hrel
      cases ht : S.look t xs with
      | wait => rw [ht] at hrel; cases hrel
      | move t' rest' => rw [ht] at hrel; cases hrel
      | halt r' rest' =>
          rw [ht] at hrel
          cases hrel
          rw [drain_of_halt hs, drain_of_halt ht]
          exact .halted r rest

end Reader

end MuduoHttp.Support
