import Mathlib.Data.Int.Notation
import Mathlib.Logic.Function.Basic
import MuduoHttp.Support.Transition

/-!
# The mutex and its holder

A `MutexLock` is a mutex of `pthread` with the id of its holder, which is
assigned after the mutex was locked and taken back before it is unlocked.
`Condition::wait` takes the holder back as well, and assigns it again when the
wait has given the mutex back to the thread.

So a thread that asks gets the right answer at any time, and what the threads
do to the data is what they would do if each held the mutex in a single step.
-/

namespace MuduoHttp

open Support

/-- Where a thread is in the functions of `MutexLock` and `Condition`. -/
inductive LockPhase
  | outside
  /-- The mutex is locked, and the holder not yet assigned. -/
  | acquired
  | inside
  /-- In `unlock`, after `unassignHolder`. -/
  | leaving
  /-- In `wait`, when its `UnassignGuard` was made. -/
  | yielding
  /-- In `pthread_cond_wait`. -/
  | waiting
  deriving DecidableEq, Repr

/-- The thread has the mutex. -/
def LockPhase.Owns : LockPhase → Prop
  | .acquired | .inside | .leaving | .yielding => True
  | .outside | .waiting => False

/-- A `MutexLock` with the threads `T` and the data `D` that it guards.  What
a thread does to the data is on record since it has the mutex, and as a
section when it gives the mutex up. -/
structure MutexLock (T D : Type*) where
  mutex_ : Option T := none
  holder_ : ℤ := 0
  phase : T → LockPhase := fun _ => .outside
  data : D
  opened : T → List (D → D) := fun _ => []
  sections : List (T × List (D → D)) := []

namespace MutexLock

variable {T D : Type*} [DecidableEq T]

/-- The calls of a thread, in the parts between which others may come. -/
inductive Action (T D : Type*)
  /-- `pthread_mutex_lock` returns. -/
  | lock (t : T)
  | assignHolder (t : T)
  /-- The thread works on the data. -/
  | work (t : T) (f : D → D)
  /-- `unassignHolder` in `unlock`. -/
  | beginUnlock (t : T)
  | unlock (t : T)
  /-- The `UnassignGuard` of `wait`. -/
  | beginWait (t : T)
  /-- `pthread_cond_wait` unlocks the mutex. -/
  | block (t : T)
  /-- `pthread_cond_wait` returns, for whatever reason. -/
  | resume (t : T)

def acquire (s : MutexLock T D) (t : T) : MutexLock T D :=
  { s with
    mutex_ := some t
    phase := Function.update s.phase t .acquired }

def unassignHolder (s : MutexLock T D) (t : T) (phase : LockPhase) :
    MutexLock T D :=
  { s with
    holder_ := 0
    phase := Function.update s.phase t phase }

def release (s : MutexLock T D) (t : T) (phase : LockPhase) : MutexLock T D :=
  { s with
    mutex_ := none
    phase := Function.update s.phase t phase
    opened := Function.update s.opened t []
    sections := s.sections ++ [(t, s.opened t)] }

/-- `tid` is what `CurrentThread::tid` returns in a thread. -/
def step (tid : T → ℤ) (s : MutexLock T D) : Action T D → MutexLock T D
  | .lock t =>
      if s.phase t = .outside ∧ s.mutex_ = none then s.acquire t else s
  | .assignHolder t =>
      if s.phase t = .acquired then
        { s with
          holder_ := tid t
          phase := Function.update s.phase t .inside }
      else s
  | .work t f =>
      if s.phase t = .inside then
        { s with
          data := f s.data
          opened := Function.update s.opened t (s.opened t ++ [f]) }
      else s
  | .beginUnlock t =>
      if s.phase t = .inside then s.unassignHolder t .leaving else s
  | .unlock t =>
      if s.phase t = .leaving then s.release t .outside else s
  | .beginWait t =>
      if s.phase t = .inside then s.unassignHolder t .yielding else s
  | .block t =>
      if s.phase t = .yielding then s.release t .waiting else s
  | .resume t =>
      if s.phase t = .waiting ∧ s.mutex_ = none then s.acquire t else s

def isLockedByThisThread (s : MutexLock T D) (tid : T → ℤ) (t : T) : Bool :=
  s.holder_ = tid t

/-- The data after some work. -/
def worked (d : D) (fs : List (D → D)) : D := fs.foldl (fun d f => f d) d

/-- The data after some sections, one after the other. -/
def oneByOne (d : D) (sections : List (T × List (D → D))) : D :=
  sections.foldl (fun d part => worked d part.2) d

/-- The work that is done on the data, by the thread inside. -/
def works (s : MutexLock T D) : Action T D → List (T × (D → D))
  | .work t f => if s.phase t = .inside then [(t, f)] else []
  | _ => []

/-- The work of some sections, one after the other. -/
def parts (sections : List (T × List (D → D))) : List (T × (D → D)) :=
  sections.flatMap fun (t, fs) => fs.map fun f => (t, f)

/-- What holds between any two parts of the calls, when `past` was done to the
data. -/
structure Sound (tid : T → ℤ) (initial : D) (past : List (T × (D → D)))
    (s : MutexLock T D) : Prop where
  owner : ∀ t, (s.phase t).Owns ↔ s.mutex_ = some t
  holder : s.holder_ = 0 ∧ (∀ t, s.phase t ≠ .inside) ∨
    ∃ t, s.phase t = .inside ∧ s.holder_ = tid t
  closed : ∀ t, s.mutex_ ≠ some t → s.opened t = []
  free : s.mutex_ = none →
    past = parts s.sections ∧ s.data = oneByOne initial s.sections
  owned : ∀ t, s.mutex_ = some t →
    past = parts s.sections ++ (s.opened t).map (fun f => (t, f)) ∧
      s.data = worked (oneByOne initial s.sections) (s.opened t)

variable {tid : T → ℤ} {initial : D} {past : List (T × (D → D))}
  {s : MutexLock T D} {t : T}

omit [DecidableEq T] in
theorem sound_new (tid : T → ℤ) (initial : D) :
    Sound tid initial [] ({ data := initial } : MutexLock T D) where
  owner t := by simp [LockPhase.Owns]
  holder := .inl ⟨rfl, fun _ => nofun⟩
  closed _ _ := rfl
  free _ := ⟨rfl, rfl⟩
  owned _ h := absurd h nofun

/-! ## The parts of the calls -/

/-- A thread moves, and the others own the mutex as before. -/
theorem Sound.owner_update (h : Sound tid initial past s) {phase : LockPhase}
    {mutex : Option T} (hthis : phase.Owns ↔ mutex = some t)
    (hothers : ∀ u, u ≠ t → (s.mutex_ = some u ↔ mutex = some u)) (u : T) :
    (Function.update s.phase t phase u).Owns ↔ mutex = some u := by
  obtain rfl | hne := eq_or_ne u t
  · rwa [Function.update_self]
  · rw [Function.update_of_ne hne, h.owner u]
    exact hothers u hne

/-- Nobody is inside if nobody was, or only the thread that moves. -/
theorem Sound.not_inside_update (h : Sound tid initial past s)
    (ht : s.mutex_ = none ∨ s.mutex_ = some t) {phase : LockPhase}
    (hphase : phase ≠ .inside) (u : T) :
    Function.update s.phase t phase u ≠ .inside := by
  obtain rfl | hne := eq_or_ne u t
  · rwa [Function.update_self]
  · rw [Function.update_of_ne hne]
    intro hinside
    have howner : s.mutex_ = some u := (h.owner u).mp (by rw [hinside]; trivial)
    obtain hnone | hsome := ht
    · exact nomatch hnone.symm.trans howner
    · exact hne (Option.some.inj (howner.symm.trans hsome))

theorem Sound.acquire (h : Sound tid initial past s) (hfree : s.mutex_ = none) :
    Sound tid initial past (s.acquire t) where
  owner := h.owner_update (iff_of_true trivial rfl) fun u hne => by
    rw [hfree]
    exact iff_of_false nofun fun hsome => hne (Option.some.inj hsome).symm
  holder := by
    obtain ⟨hzero, -⟩ | ⟨u, hinside, -⟩ := h.holder
    · exact .inl ⟨hzero, h.not_inside_update (.inl hfree) nofun⟩
    · have howner := (h.owner u).mp (by rw [hinside]; trivial)
      exact nomatch hfree.symm.trans howner
  closed u _ := h.closed u (by rw [hfree]; nofun)
  free hnone := nomatch hnone
  owned u hsome := by
    obtain rfl := Option.some.inj hsome
    have hclosed : s.opened t = [] := h.closed t (by rw [hfree]; nofun)
    change past = parts s.sections ++ (s.opened t).map _ ∧
      s.data = worked _ (s.opened t)
    rw [hclosed, List.map_nil, List.append_nil]
    exact h.free hfree

theorem Sound.assignHolder (h : Sound tid initial past s)
    (howner : s.mutex_ = some t) :
    Sound tid initial past
      { s with
        holder_ := tid t
        phase := Function.update s.phase t .inside } where
  owner := h.owner_update (iff_of_true trivial howner) fun _ _ => Iff.rfl
  holder := .inr ⟨t, Function.update_self .., rfl⟩
  closed := h.closed
  free := h.free
  owned := h.owned

theorem Sound.unassignHolder (h : Sound tid initial past s)
    (howner : s.mutex_ = some t) {phase : LockPhase} (howns : phase.Owns)
    (hphase : phase ≠ .inside) :
    Sound tid initial past (s.unassignHolder t phase) where
  owner := h.owner_update (iff_of_true howns howner) fun _ _ => Iff.rfl
  holder := .inl ⟨rfl, h.not_inside_update (.inr howner) hphase⟩
  closed := h.closed
  free := h.free
  owned := h.owned

theorem Sound.work (h : Sound tid initial past s) (howner : s.mutex_ = some t)
    (f : D → D) :
    Sound tid initial (past ++ [(t, f)])
      { s with
        data := f s.data
        opened := Function.update s.opened t (s.opened t ++ [f]) } where
  owner := h.owner
  holder := h.holder
  closed u hother := by
    have hne : u ≠ t := by
      rintro rfl
      exact hother howner
    simp only [Function.update_of_ne hne]
    exact h.closed u hother
  free hnone := nomatch hnone.symm.trans howner
  owned u hsome := by
    obtain rfl := Option.some.inj (howner.symm.trans hsome)
    obtain ⟨hpast, hdata⟩ := h.owned t howner
    simp only [Function.update_self, worked, List.foldl_append,
      List.foldl_cons, List.foldl_nil]
    refine ⟨?_, congrArg f hdata⟩
    rw [hpast, List.map_append, List.append_assoc]
    rfl

theorem Sound.release (h : Sound tid initial past s) (howner : s.mutex_ = some t)
    (hleft : s.phase t ≠ .inside) {phase : LockPhase}
    (howns : ¬ phase.Owns) : Sound tid initial past (s.release t phase) where
  owner := h.owner_update (iff_of_false howns nofun) fun u hne => by
    rw [howner]
    exact iff_of_false (fun hsome => hne (Option.some.inj hsome).symm) nofun
  holder := by
    have hphase : phase ≠ .inside := by
      rintro rfl
      exact howns trivial
    obtain ⟨hzero, -⟩ | ⟨u, hinside, -⟩ := h.holder
    · exact .inl ⟨hzero, h.not_inside_update (.inr howner) hphase⟩
    · have hu := (h.owner u).mp (by rw [hinside]; trivial)
      obtain rfl := Option.some.inj (howner.symm.trans hu)
      exact absurd hinside hleft
  closed u _ := by
    obtain rfl | hne := eq_or_ne u t
    · exact Function.update_self ..
    · simp only [MutexLock.release, Function.update_of_ne hne]
      refine h.closed u ?_
      rw [howner]
      exact fun hsome => hne (Option.some.inj hsome).symm
  free _ := by
    simp only [MutexLock.release, oneByOne, parts, List.foldl_append,
      List.foldl_cons, List.foldl_nil, List.flatMap_append,
      List.flatMap_singleton]
    exact h.owned t howner
  owned u hsome := nomatch hsome

theorem Sound.step (h : Sound tid initial past s) (a : Action T D) :
    Sound tid initial (past ++ s.works a) (s.step tid a) := by
  -- A thread in a phase that owns the mutex has it.
  have howner {t : T} {phase : LockPhase} (hphase : s.phase t = phase)
      (howns : phase.Owns) : s.mutex_ = some t :=
    (h.owner t).mp (hphase ▸ howns)
  have hleft {t : T} {phase : LockPhase} (hphase : s.phase t = phase)
      (hne : phase ≠ .inside) : s.phase t ≠ .inside := hphase ▸ hne
  cases a with
  | lock t | resume t =>
      simp only [MutexLock.step, works, List.append_nil]
      split_ifs with hfree
      · exact h.acquire hfree.2
      · exact h
  | assignHolder t =>
      simp only [MutexLock.step, works, List.append_nil]
      split_ifs with hphase
      · exact h.assignHolder (howner hphase trivial)
      · exact h
  | work t f =>
      simp only [MutexLock.step, works]
      split_ifs with hphase
      · exact h.work (howner hphase trivial) f
      · rwa [List.append_nil]
  | beginUnlock t | beginWait t =>
      simp only [MutexLock.step, works, List.append_nil]
      split_ifs with hphase
      · exact h.unassignHolder (howner hphase trivial) trivial nofun
      · exact h
  | unlock t | block t =>
      simp only [MutexLock.step, works, List.append_nil]
      split_ifs with hphase
      · exact h.release (howner hphase trivial) (hleft hphase nofun) id
      · exact h

omit [DecidableEq T] in
/-- The holder tells who is inside. -/
theorem Sound.holder_eq_iff (h : Sound tid initial past s)
    (htid : Function.Injective tid) (hpos : ∀ t, tid t ≠ 0) (t : T) :
    s.holder_ = tid t ↔ s.phase t = .inside := by
  obtain ⟨hzero, hnobody⟩ | ⟨u, hinside, hu⟩ := h.holder
  · rw [hzero]
    exact iff_of_false (hpos t).symm (hnobody t)
  · rw [hu, htid.eq_iff]
    constructor
    · rintro rfl
      exact hinside
    · intro ht
      have hthis := (h.owner t).mp (by rw [ht]; trivial)
      have hother := (h.owner u).mp (by rw [hinside]; trivial)
      exact Option.some.inj (hother.symm.trans hthis)

/-- In every run of the threads, whenever a thread asks, it is told that it
holds the lock exactly when it does, one thread at most has the mutex, and the
destructor finds no holder when none has it.  All that was done to the data
was done in sections, one after the other, the last of them as far as it is
done. -/
theorem run_mutex {tid : T → ℤ} (htid : Function.Injective tid)
    (hpos : ∀ t, tid t ≠ 0) (initial : D) (actions : List (Action T D)) :
    let start : MutexLock T D := { data := initial }
    let s := run (step tid) start actions
    let past := yields (step tid) works start actions
    (∀ t, s.isLockedByThisThread tid t = true ↔ s.phase t = .inside) ∧
      (∀ t u, (s.phase t).Owns → (s.phase u).Owns → t = u) ∧
      ((∀ t, ¬ (s.phase t).Owns) → s.holder_ = 0 ∧
        past = parts s.sections ∧ s.data = oneByOne initial s.sections) ∧
      ∀ t, (s.phase t).Owns →
        past = parts s.sections ++ (s.opened t).map (fun f => (t, f)) ∧
          s.data = worked (oneByOne initial s.sections) (s.opened t) := by
  intro start s past
  have h : Sound tid initial past s :=
    run_yields works (Sound tid initial) (fun _ _ a hs => hs.step a)
      (sound_new tid initial) actions
  refine ⟨fun t => ?_, fun t u ht hu => ?_, fun hnobody => ?_, fun t ht => ?_⟩
  · rw [isLockedByThisThread, decide_eq_true_iff]
    exact h.holder_eq_iff htid hpos t
  · exact Option.some.inj
      (((h.owner t).mp ht).symm.trans ((h.owner u).mp hu))
  · have hfree : s.mutex_ = none :=
      Option.eq_none_iff_forall_ne_some.mpr fun t ht =>
        hnobody t ((h.owner t).mpr ht)
    refine ⟨?_, h.free hfree⟩
    obtain ⟨hzero, -⟩ | ⟨t, hinside, -⟩ := h.holder
    · exact hzero
    · exact absurd (by rw [hinside]; trivial) (hnobody t)
  · exact h.owned t ((h.owner t).mp ht)

/-- Two threads, of which the second one comes too early once. -/
theorem run_mutex_two :
    let tid : ℕ → ℤ := fun t => 100 + t
    let actions : List (Action ℕ ℕ) :=
      [.lock 0, .assignHolder 0, .work 0 (· + 1), .lock 1, .beginWait 0,
        .block 0, .lock 1, .assignHolder 1, .work 1 (· * 10)]
    ∃ s, s = run (step tid) { data := 0 } actions ∧
      (∀ t, s.isLockedByThisThread tid t = true ↔ s.phase t = .inside) ∧
      ∀ t, (s.phase t).Owns →
        s.data = worked (oneByOne 0 s.sections) (s.opened t) := by
  intro tid actions
  have htid : Function.Injective tid := fun t u h =>
    Int.ofNat_inj.mp (Int.add_left_cancel h)
  have hpos : ∀ t, tid t ≠ 0 := fun t h => by
    change 100 + (t : ℤ) = 0 at h
    omega
  obtain ⟨hholder, -, -, hdata⟩ := run_mutex htid hpos 0 actions
  exact ⟨_, rfl, hholder, fun t ht => (hdata t ht).2⟩

end MutexLock

end MuduoHttp
