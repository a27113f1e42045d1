import Mathlib.Data.List.Basic
import Mathlib.Data.List.Induction

/-!
# Runs of a transition function

A system is a total transition function; a run folds it over a schedule of
actions.  An action that is not enabled leaves the state alone, so every list
of actions is a schedule.

Results about runs come in two forms.  An invariant that each admissible step
preserves holds after every admissible run.  When moreover an inadmissible
step does permanent damage, the undamaged runs are exactly the admissible
ones.
-/

namespace MuduoHttp.Support

variable {σ α β : Type*}

/-- The state after a schedule of actions. -/
def run (step : σ → α → σ) (s : σ) (actions : List α) : σ :=
  actions.foldl step s

@[simp] theorem run_nil (step : σ → α → σ) (s : σ) : run step s [] = s := rfl

@[simp] theorem run_cons (step : σ → α → σ) (s : σ) (a : α)
    (actions : List α) :
    run step s (a :: actions) = run step (step s a) actions := rfl

theorem run_append (step : σ → α → σ) (s : σ) (first last : List α) :
    run step s (first ++ last) = run step (run step s first) last := by
  simp [run]

/-- Every action of the schedule is admissible in the state it is taken in. -/
def EveryStep (step : σ → α → σ) (admissible : σ → α → Prop) :
    σ → List α → Prop
  | _, [] => True
  | s, a :: actions =>
      admissible s a ∧ EveryStep step admissible (step s a) actions

variable {step : σ → α → σ} {admissible : σ → α → Prop}

instance decidableEveryStep [∀ s a, Decidable (admissible s a)] :
    ∀ (s : σ) (actions : List α),
      Decidable (EveryStep step admissible s actions)
  | _, [] => .isTrue trivial
  | s, a :: actions =>
      have := decidableEveryStep (step s a) actions
      inferInstanceAs (Decidable (_ ∧ _))

theorem everyStep_of_mem {actions : List α}
    (h : ∀ a ∈ actions, ∀ s, admissible s a) (s : σ) :
    EveryStep step admissible s actions := by
  induction actions generalizing s with
  | nil => trivial
  | cons a actions ih =>
      rw [List.forall_mem_cons] at h
      exact ⟨h.1 s, ih h.2 (step s a)⟩

theorem everyStep_of_forall (h : ∀ s a, admissible s a) (s : σ)
    (actions : List α) : EveryStep step admissible s actions :=
  everyStep_of_mem (fun a _ s => h s a) s

theorem everyStep_append {s : σ} {first last : List α} :
    EveryStep step admissible s (first ++ last) ↔
      EveryStep step admissible s first ∧
        EveryStep step admissible (run step s first) last := by
  induction first generalizing s with
  | nil => exact (and_iff_right trivial).symm
  | cons a first ih =>
      rw [List.cons_append, EveryStep, EveryStep, ih, and_assoc]
      rfl

/-- What every admissible step of a reachable state does, every step of an
admissible run does. -/
theorem everyStep_of_invariant (Inv : σ → Prop) {good : σ → α → Prop}
    (hstep : ∀ s a, Inv s → admissible s a → Inv (step s a))
    (hgood : ∀ s a, Inv s → admissible s a → good s a)
    {s : σ} (hs : Inv s) {actions : List α}
    (hall : EveryStep step admissible s actions) :
    EveryStep step good s actions := by
  induction actions generalizing s with
  | nil => trivial
  | cons a actions ih =>
      exact ⟨hgood s a hs hall.1, ih (hstep s a hs hall.1) hall.2⟩

/-- An invariant of the admissible steps holds after admissible runs. -/
theorem run_invariant (Inv : σ → Prop)
    (hstep : ∀ s a, Inv s → admissible s a → Inv (step s a))
    {s : σ} (hs : Inv s) {actions : List α}
    (hall : EveryStep step admissible s actions) :
    Inv (run step s actions) := by
  induction actions generalizing s with
  | nil => exact hs
  | cons a actions ih => exact ih (hstep s a hs hall.1) hall.2

/-- An invariant of all steps holds after every run. -/
theorem run_invariant_of_forall (Inv : σ → Prop)
    (hstep : ∀ s a, Inv s → Inv (step s a))
    {s : σ} (hs : Inv s) (actions : List α) :
    Inv (run step s actions) := by
  induction actions generalizing s with
  | nil => exact hs
  | cons a actions ih => exact ih (hstep s a hs)

/-! ## What goes in and out -/

/-- What a schedule yields: `out` reads off an action, and the state in which
it is taken, what that step yields. -/
def yields (step : σ → α → σ) (out : σ → α → List β) : σ → List α → List β
  | _, [] => []
  | s, a :: actions => out s a ++ yields step out (step s a) actions

/-- If each step takes from the front of a store what it yields and puts what
it is given behind it, then a run does: nothing is lost, repeated or
reordered. -/
theorem yields_append_stored (out given : σ → α → List β)
    (stored : σ → List β) (Inv : σ → Prop)
    (hinv : ∀ s a, Inv s → Inv (step s a))
    (hstep : ∀ s a, Inv s →
      out s a ++ stored (step s a) = stored s ++ given s a)
    {s : σ} (hs : Inv s) (actions : List α) :
    yields step out s actions ++ stored (run step s actions) =
      stored s ++ yields step given s actions := by
  induction actions generalizing s with
  | nil => exact (List.append_nil _).symm
  | cons a actions ih =>
      rw [yields, yields, run_cons, List.append_assoc, ih (hinv s a hs),
        ← List.append_assoc, hstep s a hs, List.append_assoc]

/-- The same for a store that is not kept in order. -/
theorem yields_perm_stored (out given : σ → α → List β)
    (stored : σ → List β)
    (hstep : ∀ s a,
      (out s a ++ stored (step s a)).Perm (stored s ++ given s a))
    (s : σ) (actions : List α) :
    (yields step out s actions ++ stored (run step s actions)).Perm
      (stored s ++ yields step given s actions) := by
  induction actions generalizing s with
  | nil => rw [yields, yields, run_nil, List.append_nil, List.nil_append]
  | cons a actions ih =>
      rw [yields, yields, run_cons, List.append_assoc (out s a),
        ← List.append_assoc (stored s)]
      calc
        List.Perm _ (out s a ++
            (stored (step s a) ++ yields step given (step s a) actions)) :=
          (ih (step s a)).append_left _
        _ = out s a ++ stored (step s a) ++
            yields step given (step s a) actions :=
          (List.append_assoc ..).symm
        List.Perm _ (stored s ++ given s a ++
            yields step given (step s a) actions) :=
          (hstep s a).append_right _

/-- If each step leaves in a store those calls that yield nothing yet, then
all calls of a run have yielded something or are there. -/
theorem length_yields_add_stored (out : σ → α → List β) (stored : σ → ℕ)
    (calls : α → Bool)
    (hstep : ∀ s a, (out s a).length + stored (step s a) =
      stored s + if calls a then 1 else 0)
    (s : σ) (actions : List α) :
    (yields step out s actions).length + stored (run step s actions) =
      stored s + actions.countP calls := by
  induction actions generalizing s with
  | nil => exact Nat.add_comm ..
  | cons a actions ih =>
      have hfirst := hstep s a
      have hrest := ih (step s a)
      rw [yields, run_cons, List.length_append, List.countP_cons]
      omega

theorem yields_of_action (given : α → List β) (s : σ) (actions : List α) :
    yields step (fun _ a => given a) s actions = actions.flatMap given := by
  induction actions generalizing s with
  | nil => rfl
  | cons a actions ih => rw [yields, ih, List.flatMap_cons]

/-- An invariant of what was yielded so far and the state. -/
theorem run_yields (out : σ → α → List β) (Inv : List β → σ → Prop)
    (hstep : ∀ past s a, Inv past s → Inv (past ++ out s a) (step s a))
    {past : List β} {s : σ} (hs : Inv past s) (actions : List α) :
    Inv (past ++ yields step out s actions) (run step s actions) := by
  induction actions generalizing past s with
  | nil => rwa [yields, List.append_nil]
  | cons a actions ih =>
      rw [yields, run_cons, ← List.append_assoc]
      exact ih (hstep past s a hs)

/-- An invariant of the actions so far and the state. -/
theorem run_history (Inv : List α → σ → Prop)
    (hstep : ∀ past s a, Inv past s → Inv (past ++ [a]) (step s a))
    {s : σ} (hs : Inv [] s) (actions : List α) :
    Inv actions (run step s actions) := by
  induction actions using List.reverseRecOn with
  | nil => exact hs
  | append_singleton past a ih =>
      rw [run_append]
      exact hstep past _ a ih

/-- Two systems whose admissible steps keep a relation are related after
admissible runs over the same schedule. -/
theorem run_simulation {τ : Type*} (step' : τ → α → τ) (Rel : σ → τ → Prop)
    (hstep : ∀ s t a, Rel s t → admissible s a → Rel (step s a) (step' t a))
    {s : σ} {t : τ} (h : Rel s t) {actions : List α}
    (hall : EveryStep step admissible s actions) :
    Rel (run step s actions) (run step' t actions) := by
  induction actions generalizing s t with
  | nil => exact h
  | cons a actions ih => exact ih (hstep s t a h hall.1) hall.2

/-- Let a step leave damage exactly when there was some or the step is
inadmissible, as long as an invariant holds.  Then a run ends with damage
exactly when it began with some or has an inadmissible step. -/
theorem damaged_run_iff (step : σ → α → σ) {ready : σ → α → Prop}
    (admissible : σ → α → Prop) (Inv Damaged : σ → Prop)
    (hinv : ∀ s a, Inv s → ready s a → Inv (step s a))
    (hdamaged : ∀ s a, Inv s → ready s a →
      (Damaged (step s a) ↔ Damaged s ∨ ¬ admissible s a))
    {s : σ} (hs : Inv s) {actions : List α}
    (hready : EveryStep step ready s actions) :
    Damaged (run step s actions) ↔
      Damaged s ∨ ¬ EveryStep step admissible s actions := by
  induction actions generalizing s with
  | nil => simp [EveryStep]
  | cons a actions ih =>
      obtain ⟨ha, hrest⟩ := hready
      rw [run_cons, ih (hinv s a hs ha) hrest, hdamaged s a hs ha, EveryStep,
        not_and_or, or_assoc]

/-- If admissible steps keep an invariant that excludes damage, and the first
inadmissible step does damage that stays, then a run ends undamaged exactly
when it is admissible. -/
theorem not_damaged_run_iff (step : σ → α → σ) (admissible : σ → α → Prop)
    (Inv Damaged : σ → Prop)
    (hstep : ∀ s a, Inv s → admissible s a → Inv (step s a))
    (hdamage : ∀ s a, Inv s → ¬ admissible s a → Damaged (step s a))
    (hstays : ∀ s a, Damaged s → Damaged (step s a))
    (hexcludes : ∀ s, Inv s → ¬ Damaged s)
    {s : σ} (hs : Inv s) (actions : List α) :
    ¬ Damaged (run step s actions) ↔
      EveryStep step admissible s actions := by
  classical
  have hdamaged : ∀ s a, Inv s ∨ Damaged s → True →
      (Damaged (step s a) ↔ Damaged s ∨ ¬ admissible s a) := by
    rintro s a (h | h) -
    · by_cases ha : admissible s a
      · simp [ha, hexcludes s h, hexcludes _ (hstep s a h ha)]
      · simp [ha, hdamage s a h ha]
    · exact iff_of_true (hstays s a h) (.inl h)
  have hinv : ∀ s a, Inv s ∨ Damaged s → True →
      Inv (step s a) ∨ Damaged (step s a) := by
    rintro s a (h | h) -
    · by_cases ha : admissible s a
      · exact .inl (hstep s a h ha)
      · exact .inr (hdamage s a h ha)
    · exact .inr (hstays s a h)
  have hall : EveryStep step (fun _ _ => True) s actions :=
    everyStep_of_forall (fun _ _ => trivial) s actions
  rw [damaged_run_iff step admissible (fun s => Inv s ∨ Damaged s) Damaged
    hinv hdamaged (.inl hs) hall]
  simp [hexcludes s hs]

/-- Let `Good` states be left by a step exactly when it is inadmissible.  Then
a run is in good states after each of its steps exactly when all its steps are
admissible. -/
theorem everyStep_good_iff (step : σ → α → σ) {ready : σ → α → Prop}
    (admissible : σ → α → Prop) (Inv Good : σ → Prop)
    (hinv : ∀ s a, Inv s → ready s a → Inv (step s a))
    (hgood : ∀ s a, Inv s → Good s → ready s a →
      (Good (step s a) ↔ admissible s a))
    {s : σ} (hs : Inv s) (hg : Good s) {actions : List α}
    (hready : EveryStep step ready s actions) :
    EveryStep step (fun s a => Good (step s a)) s actions ↔
      EveryStep step admissible s actions := by
  induction actions generalizing s with
  | nil => exact Iff.rfl
  | cons a actions ih =>
      obtain ⟨ha, hrest⟩ := hready
      have hfirst := hgood s a hs hg ha
      constructor
      · rintro ⟨hnext, hlast⟩
        exact ⟨hfirst.mp hnext, (ih (hinv s a hs ha) hnext hrest).mp hlast⟩
      · rintro ⟨hadm, hlast⟩
        have hnext := hfirst.mpr hadm
        exact ⟨hnext, (ih (hinv s a hs ha) hnext hrest).mpr hlast⟩

/-- Let a step be sound exactly when it is admissible, as long as an invariant
holds that sound steps keep.  Then all steps of a run are sound exactly when
they are all admissible. -/
theorem everyStep_iff (step : σ → α → σ) {sound : σ → α → Prop}
    (admissible : σ → α → Prop) (Inv : σ → Prop)
    (hinv : ∀ s a, Inv s → sound s a → Inv (step s a))
    (hsound : ∀ s a, Inv s → (sound s a ↔ admissible s a))
    {s : σ} (hs : Inv s) (actions : List α) :
    EveryStep step sound s actions ↔ EveryStep step admissible s actions := by
  induction actions generalizing s with
  | nil => exact Iff.rfl
  | cons a actions ih =>
      have hfirst := hsound s a hs
      constructor
      · rintro ⟨ha, hlast⟩
        exact ⟨hfirst.mp ha, (ih (hinv s a hs ha)).mp hlast⟩
      · rintro ⟨ha, hlast⟩
        have hnext := hinv s a hs (hfirst.mpr ha)
        exact ⟨hfirst.mpr ha, (ih hnext).mpr hlast⟩

end MuduoHttp.Support
