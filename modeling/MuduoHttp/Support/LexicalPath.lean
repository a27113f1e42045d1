import Mathlib.Data.List.Basic
import Mathlib.Data.List.Infix

/-!
# Lexical resolution of paths

A path is a list of moves: down into a named entry, up to the parent, or none.
It is resolved against a directory, the list of names that lead to it from the
root, whose parent is the root itself.

Apart from the directory a path amounts to a number of moves up and the names
it then goes down.  This relative form says what the path resolves to against
any directory.
-/

namespace MuduoHttp.Support

/-- One segment of a path. -/
inductive Move (σ : Type*)
  | stay
  | up
  | down (name : σ)

/-- A path that goes up some directories, and then down. -/
structure RelativePath (σ : Type*) where
  ups : ℕ := 0
  downs : List σ := []

variable {σ : Type*}

/-- The directory after a move. -/
def Move.from (dir : List σ) : Move σ → List σ
  | .stay => dir
  | .up => dir.dropLast
  | .down name => dir ++ [name]

/-- The directory after a path. -/
def resolve (dir : List σ) (path : List (Move σ)) : List σ :=
  path.foldl Move.from dir

/-- A relative path with one more move. -/
def RelativePath.extend (p : RelativePath σ) : Move σ → RelativePath σ
  | .stay => p
  | .up =>
      match p.downs with
      | [] => { p with ups := p.ups + 1 }
      | _ :: _ => { p with downs := p.downs.dropLast }
  | .down name => { p with downs := p.downs ++ [name] }

/-- The relative form of a path. -/
def relative (path : List (Move σ)) : RelativePath σ :=
  path.foldl RelativePath.extend {}

/-- The directory that a relative path leads to. -/
def RelativePath.resolve (p : RelativePath σ) (dir : List σ) : List σ :=
  dir.take (dir.length - p.ups) ++ p.downs

theorem resolve_append (dir : List σ) (first last : List (Move σ)) :
    resolve dir (first ++ last) = resolve (resolve dir first) last := by
  simp [Support.resolve]

theorem RelativePath.resolve_extend (p : RelativePath σ) (dir : List σ)
    (move : Move σ) :
    (p.extend move).resolve dir = Move.from (p.resolve dir) move := by
  cases move with
  | stay => rfl
  | up =>
      obtain ⟨ups, downs⟩ := p
      cases downs with
      | nil =>
          have hlen : min (dir.length - ups) dir.length - 1 =
              dir.length - (ups + 1) := by omega
          have hparent : (dir.take (dir.length - ups)).dropLast =
              dir.take (dir.length - (ups + 1)) := by
            rw [List.dropLast_eq_take, List.length_take, hlen, List.take_take]
            congr 1
            omega
          simp [extend, RelativePath.resolve, Move.from, hparent]
      | cons name rest =>
          simp [extend, RelativePath.resolve, Move.from,
            List.dropLast_append_of_ne_nil]
  | down name => simp [extend, RelativePath.resolve, Move.from]

/-- The relative form of a path resolves to what the path does. -/
theorem resolve_relative (dir : List σ) (path : List (Move σ)) :
    (relative path).resolve dir = resolve dir path := by
  have hfold : ∀ p : RelativePath σ,
      (path.foldl RelativePath.extend p).resolve dir =
        resolve (p.resolve dir) path := by
    induction path with
    | nil => exact fun _ => rfl
    | cons move path ih =>
        intro p
        rw [List.foldl_cons, ih, RelativePath.resolve_extend]
        rfl
  rw [relative, hfold]
  simp [RelativePath.resolve]

/-- A path from a directory leads to an entry of it, or below that entry,
exactly when it goes down again through the names by which it went up, and
then into the entry. -/
theorem prefix_resolve_iff (dir : List σ) (entry : σ) (path : List (Move σ)) :
    dir ++ [entry] <+: resolve dir path ↔
      (dir ++ [entry]).drop (dir.length - (relative path).ups) <+:
        (relative path).downs := by
  have hle : dir.length - (relative path).ups ≤ dir.length := by omega
  have hcut : (dir ++ [entry]).take (dir.length - (relative path).ups) =
      dir.take (dir.length - (relative path).ups) :=
    List.take_append_of_le_length hle
  rw [← resolve_relative, RelativePath.resolve]
  nth_rewrite 1 [← List.take_append_drop (dir.length - (relative path).ups)
    (dir ++ [entry])]
  rw [hcut, List.prefix_append_right_inj]

theorem ups_le_foldl (path : List (Move σ)) (p : RelativePath σ) :
    p.ups ≤ (path.foldl RelativePath.extend p).ups := by
  induction path generalizing p with
  | nil => exact Nat.le_refl _
  | cons move path ih =>
      apply Nat.le_trans ?_ (ih (p.extend move))
      obtain ⟨ups, downs⟩ := p
      cases move with
      | stay => exact Nat.le_refl _
      | up =>
          cases downs with
          | nil => exact Nat.le_succ ups
          | cons name rest => exact Nat.le_refl _
      | down name => exact Nat.le_refl _

/-- A path that never goes up further than it went down does the same below
an entry. -/
theorem foldl_extend_below (entry : σ) {path : List (Move σ)} {downs : List σ}
    (h : (path.foldl RelativePath.extend { downs := downs }).ups = 0) :
    path.foldl RelativePath.extend { downs := entry :: downs } =
      { downs := entry ::
          (path.foldl RelativePath.extend { downs := downs }).downs } := by
  induction path generalizing downs with
  | nil => rfl
  | cons move path ih =>
      cases move with
      | stay => exact ih h
      | up =>
          cases downs with
          | nil =>
              have hone := ups_le_foldl path { ups := 1, downs := ([] : List σ) }
              exact absurd h (Nat.ne_of_gt hone)
          | cons name rest => exact ih h
      | down name => exact ih h

/-- A path that never goes up further than it went down stays in the entry it
is read from. -/
theorem relative_below (entry : σ) {path : List (Move σ)}
    (h : (relative path).ups = 0) :
    relative (.down entry :: path) =
      { downs := entry :: (relative path).downs } :=
  foldl_extend_below entry h

end MuduoHttp.Support
