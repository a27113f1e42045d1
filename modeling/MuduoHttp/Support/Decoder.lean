import Mathlib.Data.List.Basic

/-!
# Decoders

A decoder takes a value off the front of a list.  It reads a value from a code
when it takes that value off the code whatever follows.  What reads the parts
of a code in order reads the whole, so a decoder for records gives back every
list of records from the concatenation of their codes.
-/

namespace MuduoHttp.Support

/-- A computation that takes symbols off the front of a list, or fails. -/
abbrev Decoder (β α : Type) := StateT (List β) Option α

variable {β α γ ι : Type}

namespace Decoder

/-- The decoder takes the code off, whatever follows, and returns the value. -/
def Reads (d : Decoder β α) (code : List β) (a : α) : Prop :=
  ∀ rest, d.run (code ++ rest) = some (a, rest)

/-- The next symbol. -/
def symbol : Decoder β β
  | [] => none
  | b :: rest => some (b, rest)

/-- The next symbols, a given number of them. -/
def next (n : ℕ) : Decoder β (List β) :=
  fun s => if n ≤ s.length then some (s.take n, s.drop n) else none

/-- A value that may be missing. -/
def ofOption (a : Option α) : Decoder β α := fun s => a.map fun a => (a, s)

/-- Values up to the first that passes the test, which is left out.  The fuel
bounds their number. -/
def untilStop (d : Decoder β α) (stop : α → Bool) : ℕ → Decoder β (List α)
  | 0 => ofOption none
  | fuel + 1 => do
      let a ← d
      if stop a then
        return []
      else
        let rest ← untilStop d stop fuel
        return a :: rest

/-- Values up to the first that passes the test, which is left out. -/
def upTo (d : Decoder β α) (stop : α → Bool) : Decoder β (List α) :=
  fun s => untilStop d stop (s.length + 1) s

/-- The values of a whole list.  The fuel bounds their number. -/
def allFrom (d : Decoder β α) : ℕ → List β → Option (List α)
  | _, [] => some []
  | 0, _ :: _ => none
  | fuel + 1, s => do
      let (a, rest) ← d.run s
      let as ← allFrom d fuel rest
      return a :: as

/-- The values of a whole list, with nothing left over. -/
def all (d : Decoder β α) (s : List β) : Option (List α) :=
  allFrom d s.length s

variable {d : Decoder β α} {code : List β} {a : α}

theorem reads_symbol (b : β) : Reads symbol [b] b :=
  fun _ => rfl

theorem reads_next {n : ℕ} (h : code.length = n) : Reads (next n) code code := by
  intro rest
  simp [next, StateT.run, ← h]

theorem reads_ofOption {o : Option α} (h : o = some a) :
    Reads (ofOption o : Decoder β α) [] a := by
  intro rest
  simp [ofOption, StateT.run, h]

theorem reads_pure (a : α) : Reads (pure a : Decoder β α) [] a :=
  fun _ => rfl

theorem Reads.bind {f : α → Decoder β γ} {code' : List β} {c : γ}
    (h : Reads d code a) (h' : Reads (f a) code' c) :
    Reads (d >>= f) (code ++ code') c := by
  intro rest
  rw [StateT.run_bind, List.append_assoc, h, Option.bind_eq_bind,
    Option.bind_some, h']

/-- A decoder that reads and then takes nothing more off. -/
theorem Reads.bind_nil {f : α → Decoder β γ} {c : γ} (h : Reads d code a)
    (h' : Reads (f a) [] c) : Reads (d >>= f) code c := by
  have hboth := h.bind h'
  rwa [List.append_nil] at hboth

/-- A decoder that takes nothing off, and one that reads. -/
theorem Reads.nil_bind {f : α → Decoder β γ} {code' : List β} {c : γ}
    (h : Reads d [] a) (h' : Reads (f a) code' c) : Reads (d >>= f) code' c :=
  h.bind h'

/-- Values that do not stop, and one that does. -/
theorem reads_untilStop {stop : α → Bool} {enc : ι → List β} {img : ι → α}
    {last : List β} {a : α} (hlast : Reads d last a) (hstop : stop a = true)
    {l : List ι} (hread : ∀ i ∈ l, Reads d (enc i) (img i))
    (hgo : ∀ i ∈ l, stop (img i) = false) {fuel : ℕ} (hfuel : l.length < fuel) :
    Reads (untilStop d stop fuel) (l.flatMap enc ++ last) (l.map img) := by
  induction l generalizing fuel with
  | nil =>
      obtain ⟨n, rfl⟩ := Nat.exists_eq_add_of_lt hfuel
      apply hlast.bind_nil
      rw [if_pos hstop]
      exact reads_pure []
  | cons i l ih =>
      obtain ⟨n, rfl⟩ := Nat.exists_eq_add_of_lt hfuel
      have hrest := @ih (fun j hj => hread j (.tail _ hj))
        (fun j hj => hgo j (.tail _ hj)) ((i :: l).length + n)
        (by simp; omega)
      rw [List.flatMap_cons, List.append_assoc, List.map_cons]
      apply (hread i (.head _)).bind
      rw [if_neg (by simp [hgo i (.head _)])]
      apply hrest.bind_nil
      exact reads_pure _

theorem length_le_length_flatMap {enc : ι → List β} {l : List ι}
    (h : ∀ i ∈ l, enc i ≠ []) : l.length ≤ (l.flatMap enc).length := by
  induction l with
  | nil => exact Nat.le_refl _
  | cons i l ih =>
      have hpos := List.length_pos_iff.mpr (h i (.head _))
      have hrest := ih fun j hj => h j (.tail _ hj)
      rw [List.flatMap_cons, List.length_append, List.length_cons]
      omega

theorem reads_upTo {stop : α → Bool} {enc : ι → List β} {img : ι → α}
    {last : List β} {a : α} (hlast : Reads d last a) (hstop : stop a = true)
    {l : List ι} (hread : ∀ i ∈ l, Reads d (enc i) (img i))
    (hgo : ∀ i ∈ l, stop (img i) = false) (henc : ∀ i ∈ l, enc i ≠ []) :
    Reads (upTo d stop) (l.flatMap enc ++ last) (l.map img) := by
  intro rest
  have hlen := length_le_length_flatMap henc
  have hfuel : l.length < (l.flatMap enc ++ last ++ rest).length + 1 := by
    simp only [List.length_append]
    omega
  exact reads_untilStop hlast hstop hread hgo hfuel rest

theorem allFrom_of_run {s rest : List β} (hne : s ≠ [])
    (h : d.run s = some (a, rest)) (fuel : ℕ) :
    allFrom d (fuel + 1) s = (allFrom d fuel rest).map (a :: ·) := by
  obtain ⟨b, s, rfl⟩ := List.exists_cons_of_ne_nil hne
  simp only [allFrom, h, Option.bind_eq_bind, Option.bind_some]
  cases allFrom d fuel rest <;> rfl

/-- The values of a concatenation of codes, with nothing left over. -/
theorem all_flatMap {enc : ι → List β} {img : ι → α} {l : List ι}
    (hread : ∀ i ∈ l, Reads d (enc i) (img i)) (henc : ∀ i ∈ l, enc i ≠ []) :
    all d (l.flatMap enc) = some (l.map img) := by
  have hfrom : ∀ fuel, l.length ≤ fuel →
      allFrom d fuel (l.flatMap enc) = some (l.map img) := by
    induction l with
    | nil =>
        intro fuel _
        cases fuel <;> rfl
    | cons i l ih =>
        intro fuel hfuel
        obtain ⟨n, rfl⟩ := Nat.exists_eq_add_of_lt hfuel
        have hfirst := hread i (.head _) (l.flatMap enc)
        have hrest := ih (fun j hj => hread j (.tail _ hj))
          (fun j hj => henc j (.tail _ hj)) (l.length + n) (by omega)
        have hne : enc i ++ l.flatMap enc ≠ [] :=
          List.append_ne_nil_of_left_ne_nil (henc i (.head _)) _
        rw [List.flatMap_cons, List.map_cons, allFrom_of_run hne hfirst, hrest,
          Option.map_some]
  exact hfrom _ (length_le_length_flatMap henc)

/-- The same with a last value that takes off all that is left. -/
theorem all_flatMap_append {enc : ι → List β} {img : ι → α} {l : List ι}
    {last : List β} (hread : ∀ i ∈ l, Reads d (enc i) (img i))
    (henc : ∀ i ∈ l, enc i ≠ []) (hlast : d.run last = some (a, []))
    (hne : last ≠ []) :
    all d (l.flatMap enc ++ last) = some (l.map img ++ [a]) := by
  have hfrom : ∀ fuel, l.length < fuel →
      allFrom d fuel (l.flatMap enc ++ last) = some (l.map img ++ [a]) := by
    induction l with
    | nil =>
        intro fuel hfuel
        obtain ⟨n, rfl⟩ := Nat.exists_eq_add_of_lt hfuel
        rw [List.flatMap_nil, List.nil_append, allFrom_of_run hne hlast]
        cases ([] : List ι).length + n <;> rfl
    | cons i l ih =>
        intro fuel hfuel
        obtain ⟨n, rfl⟩ := Nat.exists_eq_add_of_lt hfuel
        have hfirst := hread i (.head _) (l.flatMap enc ++ last)
        have hrest := ih (fun j hj => hread j (.tail _ hj))
          (fun j hj => henc j (.tail _ hj)) (l.length + 1 + n) (by omega)
        have hcons : enc i ++ (l.flatMap enc ++ last) ≠ [] :=
          List.append_ne_nil_of_left_ne_nil (henc i (.head _)) _
        rw [List.flatMap_cons, List.append_assoc, List.map_cons,
          allFrom_of_run hcons hfirst, List.length_cons, hrest,
          Option.map_some, List.cons_append]
  refine hfrom _ ?_
  have hlength := length_le_length_flatMap henc
  have hpos := List.length_pos_iff.mpr hne
  rw [List.length_append]
  omega

end Decoder

end MuduoHttp.Support
